import Mathlib.Data.Finset.Dedup
import Mathlib.Data.Finset.Card
import Mathlib.Data.List.Sort

/-!
# The lowest elements of a list

`lowest n l` has the first `n` different elements of a list in order, as a set
filled from the list and read from below gives them. An element is among them
when fewer than `n` lie below it (`mem_lowest`).

A program that wants "the `n` lowest different ranks" of some cards puts them
into an ordered set and reads the set from its beginning. `ascending` is the
set as a sorted list; the count of lower elements then decides membership,
without any mention of positions. `ne_greatest` is the case that such programs
tend to rely on: the greatest element is not chosen as long as there are enough
others.
-/

namespace Lowest

variable {α β : Type} [LinearOrder α] {n : Nat} {l : List α} {x : α}

/-- The different elements of a list, in order. -/
def ascending (l : List α) : List α := l.dedup.insertionSort (· ≤ ·)

/-- The first `n` of them. -/
def lowest (n : Nat) (l : List α) : List α := (ascending l).take n

/-- The elements of the sorted list are those of the list. -/
theorem mem_ascending : x ∈ ascending l ↔ x ∈ l := by
  rw [ascending, List.mem_insertionSort, List.mem_dedup]

/-- They are in strictly increasing order. -/
theorem ascending_sorted (l : List α) : (ascending l).Pairwise (· < ·) := by
  have hle := List.pairwise_insertionSort (· ≤ ·) l.dedup
  have hnd : (ascending l).Nodup :=
    (List.perm_insertionSort (· ≤ ·) l.dedup).nodup_iff.mpr l.nodup_dedup
  exact (hle.and hnd).imp fun h => lt_of_le_of_ne h.1 h.2

/-- There are as many as different elements. -/
theorem length_ascending (l : List α) : (ascending l).length = l.toFinset.card := by
  rw [ascending, List.length_insertionSort, List.card_toFinset]

theorem lowest_sorted (n : Nat) (l : List α) : (lowest n l).Pairwise (· < ·) :=
  (ascending_sorted l).sublist (List.take_sublist n _)

theorem length_lowest (h : n ≤ l.toFinset.card) : (lowest n l).length = n := by
  rw [lowest, List.length_take, length_ascending, Nat.min_eq_left h]

/-- In an increasing list the first `n` are those with fewer than `n` before
them. -/
theorem mem_take_iff (hl : l.Pairwise (· < ·)) :
    x ∈ l.take n ↔ x ∈ l ∧ l.countP (· < x) < n := by
  induction l generalizing n with
  | nil => simp
  | cons a l ih =>
    obtain ⟨ha, hl'⟩ := List.pairwise_cons.mp hl
    cases n with
    | zero => simp
    | succ n =>
      rw [List.take_succ_cons, List.mem_cons, List.mem_cons, ih hl', List.countP_cons]
      by_cases hx : x = a
      · subst hx
        have hzero : l.countP (· < x) = 0 := by
          rw [List.countP_eq_zero]
          intro y hy
          rw [decide_eq_true_iff]
          exact not_lt_of_gt (ha y hy)
        simp [hzero]
      · simp only [hx, false_or]
        refine and_congr_right fun hmem => ?_
        rw [if_pos (decide_eq_true (ha x hmem))]
        exact Nat.succ_lt_succ_iff.symm

/-- An element is among the lowest `n` when fewer than `n` lie below it. -/
theorem mem_lowest :
    x ∈ lowest n l ↔ x ∈ l ∧ (l.toFinset.filter (· < x)).card < n := by
  have hcount : (ascending l).countP (· < x) = (l.toFinset.filter (· < x)).card := by
    rw [ascending, (List.perm_insertionSort (· ≤ ·) l.dedup).countP_eq,
      List.countP_eq_length_filter]
    have hcard : (l.toFinset.filter (· < x)).card = (l.dedup.filter (· < x)).toFinset.card := by
      congr 1
      ext y
      simp
    rw [hcard, List.toFinset_card_of_nodup (l.nodup_dedup.filter _)]
  rw [lowest, mem_take_iff (ascending_sorted l), mem_ascending, hcount]

/-- With more than `n` to choose from the greatest is not among the lowest. -/
theorem ne_greatest (h : n < l.toFinset.card) {top : α} (htop : ∀ y ∈ l, y ≤ top) :
    top ∉ lowest n l := by
  rw [mem_lowest]
  rintro ⟨hmem, hfew⟩
  have herase : l.toFinset.filter (· < top) = l.toFinset.erase top := by
    ext y
    rw [Finset.mem_filter, Finset.mem_erase, List.mem_toFinset]
    constructor
    · rintro ⟨hy, hlt⟩
      exact ⟨ne_of_lt hlt, hy⟩
    · rintro ⟨hne, hy⟩
      exact ⟨hy, lt_of_le_of_ne (htop y hy) hne⟩
  rw [herase, Finset.card_erase_of_mem (List.mem_toFinset.mpr hmem)] at hfew
  omega

/-- Elements that are in the list already add nothing. -/
theorem lowest_of_full {k l : List α} (hk : k.Pairwise (· < ·))
    (h : (k ++ l).toFinset.card ≤ k.length) : lowest k.length (k ++ l) = k := by
  have hnd : k.Nodup := hk.imp fun hlt => ne_of_lt hlt
  have hall : ascending (k ++ l) = k := by
    refine List.Perm.eq_of_pairwise' (ascending_sorted _) hk ?_
    have hsub : k.Subperm (ascending (k ++ l)) :=
      hnd.subperm fun y hy => mem_ascending.mpr (List.mem_append_left l hy)
    refine (hsub.perm_of_length_le ?_).symm
    rw [length_ascending]
    exact h
  rw [lowest, hall, List.take_length]

/-- In a list with increasing keys those below a bound come first. -/
theorem takeWhile_eq_filter {key : β → α} {bound : α} {l : List β}
    (hl : l.Pairwise fun a b => key a < key b) :
    l.takeWhile (fun a => key a < bound) = l.filter (fun a => key a < bound) := by
  induction l with
  | nil => rfl
  | cons a l ih =>
    obtain ⟨ha, hl'⟩ := List.pairwise_cons.mp hl
    by_cases hlt : key a < bound
    · rw [List.takeWhile_cons, if_pos (decide_eq_true hlt), List.filter_cons,
        if_pos (decide_eq_true hlt), ih hl']
    · rw [List.takeWhile_cons, if_neg (by rwa [decide_eq_true_iff]), eq_comm,
        List.filter_eq_nil_iff]
      intro b hb
      rw [decide_eq_true_iff]
      rcases List.mem_cons.mp hb with rfl | hb
      · exact hlt
      · exact fun h => hlt (lt_trans (ha b hb) h)

end Lowest
