import Mathlib.Data.List.Basic

/-!
# Two searches of one list

Two tests pick the first element each from a list, and a value is read off it.
The values agree when the first element that either test picks is picked by
both, or each test picks one and the two have the same value
(`firstAgree_iff`). The rule turns a question about two searches into one about
the first place where they can differ.

Two programs that look up the same key in the same text by different rules are
compared here: the text is the list, each rule is a test on its lines, and the
value is what a line says. If neither finds anything, they agree as well. Only
lines that one of the tests picks can matter, and of these only the first; the
proof goes down the list to that line and compares there.
-/

namespace FirstFind

variable {α β : Type}

/-- One of the two tests. -/
def either (p q : α → Bool) (x : α) : Bool := p x || q x

/-- The first element that either test picks is picked by both, or each test
picks an element and the values agree. -/
def FirstAgree (p q : α → Bool) (value : α → β) (xs : List α) : Prop :=
  ∀ x, xs.find? (either p q) = some x → (p x = true ∧ q x = true) ∨
    ∃ a b, xs.find? p = some a ∧ xs.find? q = some b ∧ value a = value b

variable {p q : α → Bool}

/-- Which of the tests is first does not matter. -/
theorem either_comm (p q : α → Bool) : either p q = either q p := by
  funext x
  exact Bool.or_comm _ _

/-- Nor does it for the agreement. -/
theorem FirstAgree.symm {value : α → β} {xs : List α} (h : FirstAgree p q value xs) :
    FirstAgree q p value xs := by
  intro x hx
  rw [either_comm] at hx
  rcases h x hx with hboth | ⟨a, b, ha, hb, hval⟩
  · exact Or.inl hboth.symm
  · exact Or.inr ⟨b, a, hb, ha, hval.symm⟩

/-- An element that neither test picks. -/
theorem firstAgree_skip (value : α → β) {y : α} (hp : p y = false) (hq : q y = false)
    (ys : List α) : FirstAgree p q value (y :: ys) ↔ FirstAgree p q value ys := by
  have he : either p q y = false := by rw [either, hp, hq]; rfl
  unfold FirstAgree
  simp only [List.find?_cons, hp, hq, he]

/-- An element that the first test picks and the second does not. -/
theorem firstAgree_one (value : α → β) {y : α} (hp : p y = true) (hq : q y = false)
    (ys : List α) : FirstAgree p q value (y :: ys) ↔ some (value y) = (ys.find? q).map value := by
  have he : either p q y = true := by rw [either, hp]; rfl
  unfold FirstAgree
  simp only [List.find?_cons, hp, hq, he]
  constructor
  · intro h
    rcases h y rfl with ⟨-, hqy⟩ | ⟨a, b, ha, hb, hval⟩
    · rw [hq] at hqy
      exact absurd hqy Bool.false_ne_true
    · rw [hb, Option.some.inj ha, Option.map_some, hval]
  · intro h x _
    obtain ⟨b, hb, hval⟩ := Option.map_eq_some_iff.mp h.symm
    exact Or.inr ⟨y, b, rfl, hb, hval.symm⟩

/-- Two searches give the same value exactly when they agree where they can
first differ. -/
theorem firstAgree_iff (p q : α → Bool) (value : α → β) (xs : List α) :
    (xs.find? p).map value = (xs.find? q).map value ↔ FirstAgree p q value xs := by
  induction xs with
  | nil => exact ⟨fun _ x hx => absurd hx (by simp), fun _ => rfl⟩
  | cons y ys ih =>
    cases hp : p y with
    | false =>
      cases hq : q y with
      | false =>
        rw [firstAgree_skip value hp hq, ← ih]
        simp only [List.find?_cons, hp, hq]
      | true =>
        have hone := firstAgree_one value hq hp ys
        rw [show FirstAgree p q value (y :: ys) ↔ FirstAgree q p value (y :: ys) from
          ⟨FirstAgree.symm, FirstAgree.symm⟩, hone]
        simp only [List.find?_cons, hp, hq, Option.map_some]
        exact eq_comm
    | true =>
      cases hq : q y with
      | false =>
        rw [firstAgree_one value hp hq]
        simp only [List.find?_cons, hp, hq, Option.map_some]
      | true =>
        simp only [List.find?_cons, hp, hq, true_iff]
        intro x hx
        rw [List.find?_cons_of_pos (by rw [either, hp]; rfl)] at hx
        rw [← Option.some.inj hx]
        exact Or.inl ⟨hp, hq⟩

/-- Both searches can be run, so the condition can be checked. -/
instance [DecidableEq β] (p q : α → Bool) (value : α → β) (xs : List α) :
    Decidable (FirstAgree p q value xs) := decidable_of_iff _ (firstAgree_iff p q value xs)

end FirstFind
