import Mathlib.Order.Lattice
import Mathlib.Data.List.Induction

/-!
# The first least element of a list

A loop that keeps a best element and replaces it by every better one ends with
the first of the best (`foldl_firstLeast`). There is one such element
(`FirstLeast.unique`).

The measure `f` goes to any linear order. A loop that compares by several keys
in turn, the second only where the first are equal, has a lexicographic product
for the measure; a loop that prefers greater values has the order dual.

The loops of programs start from a value that stands for "none yet".
`foldl_firstLeast_of` therefore asks for the behaviour of the step only while
it holds an element of the kind that the list has, and leaves the first element
to the caller.
-/

namespace Least

variable {α β : Type} [LinearOrder β] {f : α → β} {l : List α} {a b : α}

/-- `a` is least in the list, and what stands before it is greater. -/
def FirstLeast (f : α → β) (l : List α) (a : α) : Prop :=
  ∃ pre post, l = pre ++ a :: post ∧ (∀ x ∈ pre, f a < f x) ∧ ∀ x ∈ post, f a ≤ f x

/-- It is one of the elements. -/
theorem FirstLeast.mem (h : FirstLeast f l a) : a ∈ l := by
  obtain ⟨pre, post, rfl, -, -⟩ := h
  exact List.mem_append_right _ List.mem_cons_self

/-- No element is less. -/
theorem FirstLeast.le (h : FirstLeast f l a) : ∀ x ∈ l, f a ≤ f x := by
  obtain ⟨pre, post, rfl, hpre, hpost⟩ := h
  intro x hx
  rcases List.mem_append.mp hx with hx | hx
  · exact le_of_lt (hpre x hx)
  · rcases List.mem_cons.mp hx with rfl | hx
    · exact le_refl _
    · exact hpost x hx

/-- The part of the list before its first least element. -/
theorem FirstLeast.takeWhile (h : FirstLeast f l a) :
    ∃ post, l = l.takeWhile (fun x => f a < f x) ++ a :: post := by
  obtain ⟨pre, post, rfl, hpre, -⟩ := h
  refine ⟨post, ?_⟩
  rw [List.takeWhile_append_of_pos fun x hx => decide_eq_true (hpre x hx),
    List.takeWhile_cons_of_neg (by rw [decide_eq_true_iff]; exact lt_irrefl _), List.append_nil]

/-- Two first least elements are one. -/
theorem FirstLeast.unique (ha : FirstLeast f l a) (hb : FirstLeast f l b) : a = b := by
  have heq : f a = f b := le_antisymm (ha.le b hb.mem) (hb.le a ha.mem)
  obtain ⟨post, hpost⟩ := ha.takeWhile
  obtain ⟨post', hpost'⟩ := hb.takeWhile
  rw [heq] at hpost
  exact (List.cons.inj (List.append_cancel_left (hpost.symm.trans hpost'))).1

/-- The loop, by induction from the end of the list: the last element replaces
the best one if it is strictly smaller, and is behind it if not. -/
theorem foldl_firstLeast (f : α → β) (a : α) (l : List α) :
    FirstLeast f (a :: l) (l.foldl (fun b x => if f x < f b then x else b) a) := by
  induction l using List.reverseRecOn with
  | nil => exact ⟨[], [], rfl, fun x hx => (nomatch hx), fun x hx => (nomatch hx)⟩
  | append_singleton l x ih =>
    rw [List.foldl_append, List.foldl_cons, List.foldl_nil]
    generalize l.foldl (fun b x => if f x < f b then x else b) a = r at ih ⊢
    have hle := ih.le
    obtain ⟨pre, post, hl, hpre, hpost⟩ := ih
    rw [← List.cons_append, hl]
    split
    next hx =>
      refine ⟨pre ++ r :: post, [], rfl, fun y hy => ?_, fun y hy => (nomatch hy)⟩
      exact lt_of_lt_of_le hx (hle y (hl ▸ hy))
    next hx =>
      refine ⟨pre, post ++ [x], by rw [List.append_assoc, List.cons_append], hpre, fun y hy => ?_⟩
      rcases List.mem_append.mp hy with hy | hy
      · exact hpost y hy
      · rw [List.mem_singleton.mp hy]
        exact le_of_not_gt hx

/-- A loop whose step keeps the better of two elements as long as it holds one
of a kind. -/
theorem foldl_firstLeast_of {P : α → Prop} {step : α → α → α}
    (hstep : ∀ b x, P b → step b x = if f x < f b then x else b) (hl : ∀ x ∈ a :: l, P x) :
    FirstLeast f (a :: l) (l.foldl step a) := by
  have heq : l.foldl step a = l.foldl (fun b x => if f x < f b then x else b) a := by
    induction l generalizing a with
    | nil => rfl
    | cons x l ih =>
      rw [List.foldl_cons, List.foldl_cons, hstep a x (hl a List.mem_cons_self)]
      refine ih fun y hy => ?_
      rcases List.mem_cons.mp hy with rfl | hy
      · split
        · exact hl x (List.mem_cons_of_mem _ List.mem_cons_self)
        · exact hl a List.mem_cons_self
      · exact hl y (List.mem_cons_of_mem _ (List.mem_cons_of_mem _ hy))
  rw [heq]
  exact foldl_firstLeast f a l

end Least
