import Mathlib.Data.List.Basic
import Mathlib.Data.List.TakeDrop

/-!
# Filling a list up to a number

Several sources are asked in turn for elements until there are `n`. `topUp n k
l` is one source: what `l` has goes to `k` while `k` is short. `Agree n` says
that two lists have the same first `n` elements, and `foldl_topUp` that asking
one source after the other agrees with the sources written one after the other.

The shape comes from loops that collect a fixed number of things with a
preference among the places they look in. Such a loop stops in the middle of a
place, so what it has is a prefix of the places written one after the other,
but not the prefix of any length: it may also have fewer, when all places
together have fewer. `Agree` covers both, and composes.

`foldl_push` connects the two ways such a loop is written, with a test before
each element and with a test before each place.
-/

namespace Fill

variable {α β : Type} {n : Nat}

/-- `k` filled up to `n` elements from `l`. -/
def topUp (n : Nat) (k l : List α) : List α := k ++ l.take (n - k.length)

/-- The same first `n` elements. -/
def Agree (n : Nat) (k l : List α) : Prop := k.take n = l.take n

theorem topUp_full {k : List α} (h : n ≤ k.length) (l : List α) : topUp n k l = k := by
  rw [topUp, Nat.sub_eq_zero_of_le h, List.take_zero, List.append_nil]

theorem topUp_nil (n : Nat) (k : List α) : topUp n k [] = k := by
  rw [topUp, List.take_nil, List.append_nil]

/-- One element more from a source while the list is short. -/
theorem topUp_cons {k : List α} (h : k.length < n) (x : α) (l : List α) :
    topUp n k (x :: l) = topUp n (k ++ [x]) l := by
  obtain ⟨d, hd⟩ := Nat.exists_eq_add_of_lt h
  rw [topUp, topUp, List.length_append, List.length_singleton,
    show n - k.length = d + 1 by omega, show n - (k.length + 1) = d by omega,
    List.take_succ_cons, List.append_assoc]
  rfl

/-- A list shorter than `n` agrees only with itself. -/
theorem Agree.eq_of_short {k l : List α} (h : Agree n k l) (hk : k.length < n) : k = l := by
  have htake : k.take n = k := List.take_of_length_le (Nat.le_of_lt hk)
  have hl : l.length < n := by
    by_contra hlong
    have hlen := congrArg List.length h
    rw [htake, List.length_take, Nat.min_eq_left (Nat.le_of_not_lt hlong)] at hlen
    omega
  rw [← htake, h, List.take_of_length_le (Nat.le_of_lt hl)]

/-- Agreement is symmetric. -/
theorem Agree.symm {k l : List α} (h : Agree n k l) : Agree n l k := Eq.symm h

/-- Lists that agree are long enough together. -/
theorem Agree.length_iff {k l : List α} (h : Agree n k l) : n ≤ k.length ↔ n ≤ l.length := by
  constructor
  · intro hk
    by_contra hl
    rw [h.symm.eq_of_short (Nat.lt_of_not_le hl)] at hl
    exact hl hk
  · intro hl
    by_contra hk
    rw [h.eq_of_short (Nat.lt_of_not_le hk)] at hk
    exact hk hl

/-- One more source on both sides. -/
theorem Agree.topUp {k l : List α} (h : Agree n k l) (xs : List α) :
    Agree n (topUp n k xs) (l ++ xs) := by
  by_cases hk : n ≤ k.length
  · rw [topUp_full hk]
    exact h.trans (List.take_append_of_le_length (h.length_iff.mp hk)).symm
  · rw [← h.eq_of_short (Nat.lt_of_not_le hk)]
    show (k ++ xs.take (n - k.length)).take n = (k ++ xs).take n
    rw [List.take_append, List.take_append, List.take_take, Nat.min_self]

/-- The sources asked in turn. -/
theorem foldl_topUp (f : β → List α) (xs : List β) : ∀ {k l : List α}, Agree n k l →
    Agree n (xs.foldl (fun k x => topUp n k (f x)) k) (l ++ xs.flatMap f) := by
  induction xs with
  | nil =>
    intro k l h
    rw [List.flatMap_nil, List.append_nil]
    exact h
  | cons x xs ih =>
    intro k l h
    rw [List.foldl_cons, List.flatMap_cons, ← List.append_assoc]
    exact ih (h.topUp (f x))

/-- A loop that takes one element at a time while the list is short. -/
theorem foldl_push (ok : α → Prop) [DecidablePred ok] (xs : List α) : ∀ k : List α,
    xs.foldl (fun k x => if k.length < n ∧ ok x then k ++ [x] else k) k
      = topUp n k (xs.filter ok) := by
  induction xs with
  | nil => intro k; exact (topUp_nil n k).symm
  | cons x xs ih =>
    intro k
    rw [List.foldl_cons, ih]
    by_cases hx : ok x
    · have hfilter : (x :: xs).filter (fun y => ok y) = x :: xs.filter (fun y => ok y) :=
        List.filter_cons_of_pos (decide_eq_true hx)
      rw [hfilter]
      by_cases hk : k.length < n
      · rw [if_pos ⟨hk, hx⟩, topUp_cons hk]
      · rw [if_neg fun h => hk h.1, topUp_full (Nat.le_of_not_lt hk),
          topUp_full (Nat.le_of_not_lt hk)]
    · rw [if_neg fun h => hx h.2, List.filter_cons_of_neg (by rw [decide_eq_true_iff]; exact hx)]

end Fill
