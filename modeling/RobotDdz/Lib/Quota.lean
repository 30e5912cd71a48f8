import Mathlib.Data.List.Count
import Mathlib.Data.List.Perm.Basic
import Mathlib.Logic.Function.Basic

/-!
# Taking elements by quota

A list is walked once and an element is taken while the quota of its key lasts.
`take_perm`: nothing is lost or made up. `countP_take`: of each key as many are
taken as the quota and the list allow.

The two lists that `take` returns are what a loop with two outputs makes: taken
elements in one, the others in the other, each in the order of the list.
Everything about counts follows from `countP_take` and `take_perm`: of a key
with a quota `q` and `c` elements, `min q c` are taken and `c - min q c` are
left. A negative quota takes nothing.

The order of what is left matters to callers that search the list again, hence
`take_rest_eq_filter`.
-/

namespace Quota

variable {α κ : Type} [DecidableEq κ]

/-- The elements taken, and the others, both in their order. -/
def take (key : α → κ) : (κ → Int) → List α → List α × List α
  | _, [] => ([], [])
  | q, x :: xs =>
    if 0 < q (key x) then
      let r := take key (Function.update q (key x) (q (key x) - 1)) xs
      (x :: r.1, r.2)
    else
      let r := take key q xs
      (r.1, x :: r.2)

/-- Taken and left elements together are the elements of the list. -/
theorem take_perm (key : α → κ) (q : κ → Int) (l : List α) :
    ((take key q l).1 ++ (take key q l).2).Perm l := by
  induction l generalizing q with
  | nil => exact List.Perm.refl _
  | cons x xs ih =>
    unfold take
    split
    · exact (ih _).cons x
    · exact List.perm_middle.trans ((ih _).cons x)

/-- When nothing is taken, the list stays as it is. -/
theorem take_rest {key : α → κ} {q : κ → Int} {l : List α} (h : (take key q l).1 = []) :
    (take key q l).2 = l := by
  induction l generalizing q with
  | nil => rfl
  | cons x xs ih =>
    unfold take at h ⊢
    split at h
    next => exact absurd h (List.cons_ne_nil _ _)
    next hpos =>
      rw [if_neg hpos]
      exact congrArg (x :: ·) (ih h)

/-- What is taken comes from the list. -/
theorem mem_of_mem_take {key : α → κ} {q : κ → Int} {l : List α} {x : α}
    (hx : x ∈ (take key q l).1) : x ∈ l :=
  (take_perm key q l).subset (List.mem_append_left _ hx)

/-- In a list without repeats the others are those not taken, in their order. -/
theorem take_rest_eq_filter [DecidableEq α] (key : α → κ) (q : κ → Int) {l : List α}
    (hd : l.Nodup) : (take key q l).2 = l.filter (· ∉ (take key q l).1) := by
  induction l generalizing q with
  | nil => rfl
  | cons x xs ih =>
    obtain ⟨hx, hxs⟩ := List.nodup_cons.mp hd
    unfold take
    split
    · dsimp only
      rw [List.filter_cons_of_neg (by simp), ih _ hxs]
      apply List.filter_congr
      intro y hy
      have hne : y ≠ x := fun h => hx (h ▸ hy)
      simp [hne]
    · dsimp only
      have hout : x ∉ (take key q xs).1 := fun h => hx (mem_of_mem_take h)
      rw [List.filter_cons, if_pos (decide_eq_true hout), ← ih q hxs]

/-- With no quota nothing is taken. -/
theorem take_nonpos (key : α → κ) {q : κ → Int} (h : ∀ k, q k ≤ 0) (l : List α) :
    take key q l = ([], l) := by
  induction l with
  | nil => rfl
  | cons x xs ih =>
    have hx := h (key x)
    unfold take
    rw [if_neg (by omega), ih]

/-- How many of a key are taken: its quota, or as many as there are. A negative
quota takes none. -/
theorem countP_take (key : α → κ) (q : κ → Int) (l : List α) (k : κ) :
    ((take key q l).1.countP (key · = k) : Int)
      = min (max (q k) 0) (l.countP (key · = k)) := by
  induction l generalizing q with
  | nil =>
    show (0 : Int) = min (max (q k) 0) 0
    omega
  | cons x xs ih =>
    unfold take
    split
    next hpos =>
      -- taken: the rest has one less of this key to take
      have hrest := ih (Function.update q (key x) (q (key x) - 1))
      rw [Function.update_apply] at hrest
      by_cases hk : key x = k
      · rw [if_pos hk.symm] at hrest
        simp only [List.countP_cons, hk, decide_true, if_true]
        rw [hk] at hpos hrest
        push_cast
        omega
      · rw [if_neg (Ne.symm hk)] at hrest
        simp only [List.countP_cons, hk, decide_false]
        simpa using hrest
    next hpos =>
      -- left: the quota of this key is used up, and stays so
      have hrest := ih q
      by_cases hk : key x = k
      · simp only [List.countP_cons, hk, decide_true, if_true]
        rw [hk] at hpos
        push_cast
        omega
      · simp only [List.countP_cons, hk, decide_false]
        simpa using hrest

/-- Only keys with a quota are taken. -/
theorem pos_of_mem_take {key : α → κ} {q : κ → Int} {l : List α} {x : α}
    (hx : x ∈ (take key q l).1) : 0 < q (key x) := by
  have hcount := countP_take key q l (key x)
  have hone : 0 < (take key q l).1.countP (key · = key x) :=
    List.countP_pos_iff.mpr ⟨x, hx, decide_eq_true rfl⟩
  omega

end Quota
