import Mathlib.Data.List.Dedup
import Mathlib.Data.List.Infix

/-!
# A timing wheel

A ring of at most `cap` buckets, the newest first. A tick pushes an empty
bucket and drops the oldest of a full ring (`push`); a refresh puts an item
into the newest bucket (`refresh`), also when an older bucket still has it.

The `Age` of an item is the number of ticks since its last refresh: the place
of the first bucket that has it. `mem_expiring` is what a wheel is for: the
items that the dropped bucket had and no other bucket has are those of age `cap
- 1`.

The items are whatever the buckets hold, with decidable equality; the wheel
does not know what happens to an item that is let go. A bucket is a list
without any order that matters, and an item may be in several buckets at once:
only the newest counts for its age. This is the difference to a queue with
timestamps, where a refresh would have to take the item out of its place.

The results are about the ages of all items at once (`Age.push`,
`Age.refresh_of_ne`), so that a program that keeps its own notion of activity
can carry an equation "age is the number of ticks since" through its schedule.
-/

namespace TimingWheel

variable {α : Type}

/-- A tick. -/
def push (cap : Nat) (bs : List (List α)) : List (List α) := ([] :: bs).take cap

/-- Some bucket has the item. -/
def Held (bs : List (List α)) (x : α) : Prop := ∃ b ∈ bs, x ∈ b

/-- The first bucket with the item is number `k`. -/
structure Age (bs : List (List α)) (x : α) (k : Nat) : Prop where
  here : ∃ b, bs[k]? = some b ∧ x ∈ b
  first : ∀ j, j < k → ∀ b, bs[j]? = some b → x ∉ b

section Tick

variable {bs : List (List α)} {x : α} {k cap : Nat}

theorem Age.held (h : Age bs x k) : Held bs x := by
  obtain ⟨b, hb, hx⟩ := h.here
  exact ⟨b, List.mem_of_getElem? hb, hx⟩

theorem Age.lt_length (h : Age bs x k) : k < bs.length := by
  obtain ⟨b, hb, -⟩ := h.here
  exact (List.getElem?_eq_some_iff.mp hb).1

/-- A tick makes the ring one bucket longer until it is full. -/
theorem length_push (cap : Nat) (bs : List (List α)) :
    (push cap bs).length = min cap (bs.length + 1) := by
  simp [push]

/-- A tick makes every item that stays one older. -/
theorem Age.push (h : Age bs x k) (hk : k + 1 < cap) : Age (push cap bs) x (k + 1) := by
  unfold TimingWheel.push
  constructor
  · rw [List.getElem?_take_of_lt hk]
    exact h.here
  · intro j hj b hb
    rw [List.getElem?_take_of_lt (by omega)] at hb
    cases j with
    | zero =>
      cases hb
      exact List.not_mem_nil
    | succ j => exact h.first j (by omega) b hb

/-- An item in the oldest bucket of a full ring only is in none after the tick. -/
theorem Age.not_held_push (h : Age bs x k) (hk : k + 1 = cap) :
    ¬Held (TimingWheel.push cap bs) x := by
  intro hheld
  obtain ⟨b, hb, hx⟩ := hheld
  obtain ⟨j, hj, hget⟩ := List.mem_iff_getElem.mp hb
  have hlen := hj
  rw [length_push] at hlen
  have hsome : ([] :: bs)[j]? = some b := by
    rw [← List.getElem?_take_of_lt (show j < cap by omega)]
    exact List.getElem?_eq_some_iff.mpr ⟨hj, hget⟩
  cases j with
  | zero =>
    cases hsome
    exact absurd hx List.not_mem_nil
  | succ j => exact h.first j (by omega) b hsome hx

/-- An item that is held after a tick was held before. -/
theorem held_of_push (h : Held (push cap bs) x) : Held bs x := by
  obtain ⟨b, hb, hx⟩ := h
  rcases List.mem_cons.mp (List.mem_of_mem_take hb) with rfl | hb
  · exact absurd hx List.not_mem_nil
  · exact ⟨b, hb, hx⟩

end Tick

section Refresh

variable [DecidableEq α]

instance (bs : List (List α)) (x : α) : Decidable (Held bs x) :=
  inferInstanceAs (Decidable (∃ b ∈ bs, x ∈ b))

/-- The item goes into the newest bucket. -/
def refresh (x : α) : List (List α) → List (List α)
  | [] => []
  | b :: bs => b.insert x :: bs

/-- What a tick drops, if no other bucket has it. -/
def expiring (cap : Nat) (bs : List (List α)) : List α :=
  (([] :: bs).drop cap).flatten.dedup.filter fun x => ¬Held (push cap bs) x

/-- A refresh adds no bucket. -/
theorem length_refresh (x : α) (bs : List (List α)) : (refresh x bs).length = bs.length := by
  cases bs <;> rfl

variable {bs : List (List α)} {x y : α} {k cap : Nat}

/-- After a refresh the item is held, and the others are held as before. -/
theorem held_refresh (hbs : bs ≠ []) (x y : α) : Held (refresh y bs) x ↔ x = y ∨ Held bs x := by
  cases bs with
  | nil => exact absurd rfl hbs
  | cons b bs =>
    show (∃ b' ∈ b.insert y :: bs, x ∈ b') ↔ x = y ∨ ∃ b' ∈ b :: bs, x ∈ b'
    simp only [List.exists_mem_cons_iff, List.mem_insert_iff, or_assoc]

/-- A refreshed item has age zero. -/
theorem age_refresh_self (hbs : bs ≠ []) (x : α) : Age (refresh x bs) x 0 := by
  cases bs with
  | nil => exact absurd rfl hbs
  | cons b bs => exact ⟨⟨b.insert x, rfl, List.mem_insert_self⟩, fun j hj => absurd hj (by omega)⟩

/-- Whether a bucket has an item that is not the one refreshed. -/
theorem mem_getElem?_refresh (hne : x ≠ y) (bs : List (List α)) (k : Nat) :
    (∃ b, (refresh y bs)[k]? = some b ∧ x ∈ b) ↔ ∃ b, bs[k]? = some b ∧ x ∈ b := by
  cases bs with
  | nil => exact Iff.rfl
  | cons b bs =>
    cases k with
    | zero => simp [refresh, hne]
    | succ k => exact Iff.rfl

/-- Refreshing an item leaves the age of every other. -/
theorem Age.refresh_of_ne (h : Age bs x k) (hne : x ≠ y) : Age (refresh y bs) x k := by
  refine ⟨(mem_getElem?_refresh hne bs k).mpr h.here, fun j hj b hb hx => ?_⟩
  obtain ⟨b', hb', hx'⟩ := (mem_getElem?_refresh hne bs j).mp ⟨b, hb, hx⟩
  exact h.first j hj b' hb' hx'

/-- An item is let go just when it was held and no longer is. -/
theorem mem_expiring_iff : x ∈ expiring cap bs ↔ Held bs x ∧ ¬Held (push cap bs) x := by
  unfold expiring
  rw [List.mem_filter, List.mem_dedup, List.mem_flatten, decide_eq_true_eq]
  constructor
  · intro h
    obtain ⟨⟨b, hb, hx⟩, hgone⟩ := h
    rcases List.mem_cons.mp (List.mem_of_mem_drop hb) with rfl | hb
    · exact absurd hx List.not_mem_nil
    · exact ⟨⟨b, hb, hx⟩, hgone⟩
  · intro h
    obtain ⟨⟨b, hb, hx⟩, hgone⟩ := h
    refine ⟨⟨b, ?_, hx⟩, hgone⟩
    have hmem : b ∈ ([] :: bs).take cap ++ ([] :: bs).drop cap := by
      rw [List.take_append_drop]
      exact List.mem_cons_of_mem _ hb
    rcases List.mem_append.mp hmem with hmem | hmem
    · exact absurd ⟨b, hmem, hx⟩ hgone
    · exact hmem

/-- What a tick lets go, by age. -/
theorem mem_expiring (hlen : bs.length ≤ cap) (hage : Age bs x k) :
    x ∈ expiring cap bs ↔ k + 1 = cap := by
  rw [mem_expiring_iff]
  constructor
  · intro h
    have hlt := hage.lt_length
    by_contra hne
    exact h.2 (hage.push (by omega)).held
  · intro hk
    exact ⟨hage.held, hage.not_held_push hk⟩

/-- An item is let go once. -/
theorem nodup_expiring (cap : Nat) (bs : List (List α)) : (expiring cap bs).Nodup :=
  (List.nodup_dedup _).filter _

end Refresh

end TimingWheel
