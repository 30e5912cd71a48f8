import RobotDdz.AI.OppBest

/-!
# What the others can answer

`isChargeHand` asks how many hands of a type the others cannot beat: those
above the others' best trio or chain. `getHighestTrio` goes up from the three
and returns the lowest trio. `getHighestSoloChain` returns its `start`, which
is set by every pair of neighbouring ranks. And a hand that is as high as the
others' best is not counted.

`opponents_best_iff` says for which cards each of the three is right all the
same.

Mirroring notes vs `AIUtils.cpp`:
- `highetCount` and the other names are the source's.
- `getHighestTrio` returns at the first trio it meets, going up.
  `getHighestSoloChain` goes down and returns `start` at its end whether or not
  the chain is long enough.
- A hand is counted if its key is greater than the others' best. With the best
  known right, the hand with the same key is not counted although nothing beats
  it.
-/

namespace RobotDdz

open TopRun

/-! ## The hands that are counted -/

/-- `typeKeyPoints`: the keys of the hands a hand is compared with. -/
def typeKeyPoints (hand : Hand) (handMap : HandsMap) : List Nat :=
  if hand.type = .soloChain then
    ((handMap.vec .soloChain).filter fun h => h.len = hand.len).map Hand.keyPoint
  else (handMap.vec .trio ++ handMap.vec .trioSolo ++ handMap.vec .trioPair).map Hand.keyPoint

/-- `oppHighestKey`. -/
def oppHighestKey (hand : Hand) (oppCards : Points) : Int :=
  if hand.type = .soloChain then getHighestSoloChain oppCards hand.len
  else getHighestTrio oppCards

/-- `highetCount`. -/
def highetCount (hand : Hand) (oppCards : Points) (handMap : HandsMap) : Nat :=
  (typeKeyPoints hand handMap).countP fun k : Nat => oppHighestKey hand oppCards < k

/-- The ranks with a trio. -/
def trios (points : Points) : Set Nat := {r | r ≤ card2 ∧ 3 ≤ points r}

/-- The keys of what beats a hand of the type. -/
def answers (hand : Hand) (oppCards : Points) : Set Nat :=
  if hand.type = .soloChain then {k | ChainAt oppCards 1 hand.len k} else trios oppCards

open Classical in
/-- The hands of the type that the others cannot beat. -/
noncomputable def unbeatenCount (hand : Hand) (oppCards : Points) (handMap : HandsMap) : Nat :=
  (typeKeyPoints hand handMap).countP fun k => ∀ r ∈ answers hand oppCards, r ≤ k

/-- Two counts of which one is the smaller for every element are equal when
they count the same elements. -/
theorem countP_eq_iff {α : Type} {p q : α → Bool} : ∀ {l : List α},
    (∀ x ∈ l, p x = true → q x = true) →
    (l.countP p = l.countP q ↔ ∀ x ∈ l, q x = true → p x = true) := by
  intro l
  induction l with
  | nil => exact fun _ => ⟨fun _ x hx => absurd hx List.not_mem_nil, fun _ => rfl⟩
  | cons x l ih =>
    intro h
    have hl := fun y hy => h y (List.mem_cons_of_mem x hy)
    have hle : l.countP p ≤ l.countP q := List.countP_mono_left hl
    rw [List.countP_cons, List.countP_cons, List.forall_mem_cons]
    by_cases hq : q x = true
    · by_cases hp : p x = true
      · rw [if_pos hp, if_pos hq, Nat.add_right_cancel_iff, ih hl]
        exact ⟨fun h => ⟨fun _ => hp, h⟩, fun h => h.2⟩
      · rw [if_neg hp, if_pos hq]
        exact ⟨fun h => by omega, fun h => absurd (h.1 hq) hp⟩
    · have hp : ¬p x = true := fun hp => hq (h x List.mem_cons_self hp)
      rw [if_neg hp, if_neg hq, Nat.add_zero, Nat.add_zero, ih hl]
      exact ⟨fun h => ⟨fun hq' => absurd hq' hq, h⟩, fun h => h.2⟩

/-! ## The highest trio -/

/-- The lowest trio is what `getHighestTrio` returns. -/
theorem getHighestTrio_lowest (points : Points) :
    (getHighestTrio points = -1 ∧ trios points = ∅) ∨
      ∃ r : Nat, getHighestTrio points = r ∧ IsLeast (trios points) r := by
  unfold getHighestTrio
  cases hf : (List.range (card2 + 1)).find? (fun i => 3 ≤ points i) with
  | none =>
    refine Or.inl ⟨rfl, Set.eq_empty_iff_forall_notMem.mpr fun r hr => ?_⟩
    have := List.find?_range_eq_none.mp hf r (Nat.lt_succ_of_le hr.1)
    rw [Bool.not_eq_true', decide_eq_false_iff_not] at this
    exact this hr.2
  | some r =>
    obtain ⟨h3, hmem, hlow⟩ := List.find?_range_eq_some.mp hf
    refine Or.inr ⟨r, rfl, ⟨Nat.le_of_lt_succ (List.mem_range.mp hmem), of_decide_eq_true h3⟩,
      fun r' hr' => ?_⟩
    by_contra hlt
    have := hlow r' (Nat.lt_of_not_le hlt)
    rw [Bool.not_eq_true', decide_eq_false_iff_not] at this
    exact this hr'.2

/-- The highest trio is returned when there is at most one. -/
theorem getHighestTrio_best_iff (points : Points) :
    IsBest (trios points) (getHighestTrio points) ↔ (trios points).Subsingleton := by
  rcases getHighestTrio_lowest points with ⟨heq, hnone⟩ | ⟨r, heq, hr, hlow⟩
  · rw [heq, hnone]
    exact ⟨fun _ => Set.subsingleton_empty, fun _ => Or.inl ⟨rfl, rfl⟩⟩
  · rw [heq]
    constructor
    · rintro (⟨-, h⟩ | ⟨k, h, hk, hmax⟩)
      · omega
      · obtain rfl := Int.natCast_inj.mp h
        intro a ha b hb
        have := hlow ha
        have := hlow hb
        have := hmax ha
        have := hmax hb
        omega
    · intro hone
      exact IsBest.of_greatest ⟨hr, fun r' hr' => Nat.le_of_eq (hone hr' hr)⟩

/-! ## The highest chain -/

/-- The loop of `getHighestSoloChain` is the scan, of which it returns `start`.
Both go down the ranks with the same two variables, where `-1` is `none`. -/
theorem highestSoloChainFrom_eq (points : Points) (len : Nat) :
    ∀ (n : Nat) (top start : Option Nat),
    highestSoloChainFrom points len (List.range n).reverse (highPoint top) (highPoint start)
      = highPoint (scan (fun i => 1 ≤ points i) len 0 n top start).start := by
  intro n
  induction n with
  | zero => exact fun _ _ => rfl
  | succ i ih =>
    intro top start
    unfold scan
    rw [List.range_succ, List.reverse_concat, if_neg (Nat.not_lt_zero i), highestSoloChainFrom]
    by_cases hP : 0 < points i
    · rw [if_pos hP, if_pos (show 1 ≤ points i from hP), endTests_eq]
      cases top with
      | none => exact ih (some i) start
      | some t =>
        dsimp only
        split
        · rfl
        · exact ih (some t) (some i)
    · rw [if_neg hP, if_neg (show ¬1 ≤ points i from hP)]
      exact ih none start

/-- The lower ranks of two neighbouring ranks up to the ace. -/
def pairs (points : Points) : Set Nat := {i | PairAt (fun i => 1 ≤ points i) (cardA + 1) i}

/-- `getHighestSoloChain` returns the best chain; where there is none, the
lowest of the neighbouring ranks. -/
theorem getHighestSoloChain_cases (points : Points) {len : Nat} (hl : 2 ≤ len) :
    (∃ k : Nat, getHighestSoloChain points len = k ∧ IsGreatest {k | ChainAt points 1 len k} k) ∨
    (∀ k, ¬ChainAt points 1 len k) ∧
      ((getHighestSoloChain points len = -1 ∧ pairs points = ∅) ∨
        ∃ i : Nat, getHighestSoloChain points len = i ∧ IsLeast (pairs points) i) := by
  have heq : getHighestSoloChain points len = highPoint (firstScan points 1 len).start :=
    highestSoloChainFrom_eq points len (cardA + 1) none none
  have hscan := firstScan_finds points 1 hl
  rw [heq]
  generalize firstScan points 1 len = r at hscan ⊢
  cases hf : r.found with
  | some k =>
    obtain ⟨⟨hk, hmax⟩, -, hstart⟩ := hscan.found k hf
    rw [hstart]
    exact Or.inl ⟨k, rfl, hk.2, fun j hj => hmax ⟨Nat.zero_le j, hj⟩⟩
  | none =>
    obtain ⟨k, hk, hs, hpairs⟩ := hscan.none hf
    obtain rfl := Nat.le_zero.mp hk
    refine Or.inr ⟨fun j hj => hs.noRun j (Nat.zero_le j) hj, ?_⟩
    have hseen := hpairs PairsSeen.initial
    cases hstart : r.start with
    | none =>
      rw [hstart] at hseen
      exact Or.inl ⟨rfl, Set.eq_empty_iff_forall_notMem.mpr fun i hi => hseen i (Nat.zero_le i) hi⟩
    | some i =>
      rw [hstart] at hseen
      exact Or.inr ⟨i, rfl, hseen.1.2, fun j hj => hseen.2 ⟨Nat.zero_le j, hj⟩⟩

/-- The best chain is returned when there is one, or when no two ranks are
neighbours. -/
theorem getHighestSoloChain_best_iff (points : Points) {len : Nat} (hl : 2 ≤ len) :
    IsBest {k | ChainAt points 1 len k} (getHighestSoloChain points len) ↔
      (∃ k, ChainAt points 1 len k) ∨ pairs points = ∅ := by
  rcases getHighestSoloChain_cases points hl with ⟨k, heq, hk⟩ | ⟨hnone, ⟨heq, hp⟩ | ⟨i, heq, hi⟩⟩
  · rw [heq]
    exact ⟨fun _ => Or.inl ⟨k, hk.1⟩, fun _ => IsBest.of_greatest hk⟩
  · rw [heq]
    exact ⟨fun _ => Or.inr hp, fun _ => IsBest.of_none hnone⟩
  · rw [heq]
    constructor
    · rintro (⟨-, h⟩ | ⟨k, -, hk, -⟩)
      · omega
      · exact absurd hk (hnone k)
    · rintro (⟨k, hk⟩ | hp)
      · exact absurd hk (hnone k)
      · exact absurd hi.1 (hp ▸ Set.notMem_empty i)

/-! ## The count -/

/-- A key the count is wrong about. Of the chains it is the others' best one,
or, when they have none, one that is not above the rank returned in its place;
of the trios one that is their only trio, or one between two of them. -/
def Miscounted (hand : Hand) (oppCards : Points) (k : Nat) : Prop :=
  if hand.type = .soloChain then
    IsGreatest {k | ChainAt oppCards 1 hand.len k} k ∨
      (∀ j, ¬ChainAt oppCards 1 hand.len j) ∧ ∃ i, IsLeast (pairs oppCards) i ∧ k ≤ i
  else
    trios oppCards = {k} ∨ (∃ r ∈ trios oppCards, r < k) ∧ ∃ r ∈ trios oppCards, k < r

section Count

variable {hand : Hand} {oppCards : Points}

/-- What is compared and what is meant, for one key. -/
def CountsRight (hand : Hand) (oppCards : Points) (k : Nat) : Prop :=
  oppHighestKey hand oppCards < (k : Int) ↔ ∀ r ∈ answers hand oppCards, r ≤ k

/-- The chains: the count leaves out keys that are not beaten, and never the
other way. -/
theorem countsRight_chain (oppCards : Points) (ht : hand.type = .soloChain) (hl : 2 ≤ hand.len) :
    (∀ k : Nat, CountsRight hand oppCards k ↔ ¬Miscounted hand oppCards k) ∧
      ∀ k : Nat, oppHighestKey hand oppCards < (k : Int) → ∀ r ∈ answers hand oppCards, r ≤ k := by
  unfold CountsRight Miscounted oppHighestKey answers
  simp only [if_pos ht]
  rcases getHighestSoloChain_cases oppCards hl with
    ⟨g, heq, hg⟩ | ⟨hnone, ⟨heq, hp⟩ | ⟨i, heq, hi⟩⟩
  · rw [heq]
    have hbeaten : ∀ k : Nat, (∀ r ∈ {k | ChainAt oppCards 1 hand.len k}, r ≤ k) ↔ g ≤ k :=
      fun k => ⟨fun h => h g hg.1, fun h r hr => Nat.le_trans (hg.2 hr) h⟩
    refine ⟨fun k => ?_, fun k hk => (hbeaten k).mpr (by omega)⟩
    rw [hbeaten]
    constructor
    · rintro h (hk | ⟨hnone, -⟩)
      · obtain rfl := hk.unique hg
        omega
      · exact hnone g hg.1
    · intro h
      have hne : k ≠ g := fun he => h (Or.inl (he ▸ hg))
      omega
  · rw [heq]
    refine ⟨fun k => ⟨fun _ => ?_, fun _ => ?_⟩, fun k _ r hr => absurd hr (hnone r)⟩
    · rintro (hk | ⟨-, i, hi, -⟩)
      · exact hnone k hk.1
      · exact absurd hi.1 (hp ▸ Set.notMem_empty i)
    · exact ⟨fun _ r hr => absurd hr (hnone r), fun _ => by omega⟩
  · rw [heq]
    refine ⟨fun k => ⟨fun h => ?_, fun h => ?_⟩, fun k _ r hr => absurd hr (hnone r)⟩
    · have hk := h.mpr fun r hr => absurd hr (hnone r)
      rintro (hg | ⟨-, j, hj, hle⟩)
      · exact hnone k hg.1
      · obtain rfl := hj.unique hi
        omega
    · refine ⟨fun _ r hr => absurd hr (hnone r), fun _ => ?_⟩
      by_contra hle
      exact h (Or.inr ⟨hnone, i, hi, by omega⟩)

/-- The trios: with one trio the count leaves out its key, with more it takes
in keys that are beaten. -/
theorem countsRight_trio (ht : hand.type ≠ .soloChain) :
    (∀ k : Nat, CountsRight hand oppCards k ↔ ¬Miscounted hand oppCards k) ∧
      ((∀ k : Nat, oppHighestKey hand oppCards < (k : Int) → ∀ r ∈ answers hand oppCards, r ≤ k) ∨
        ∀ k : Nat, (∀ r ∈ answers hand oppCards, r ≤ k) →
          oppHighestKey hand oppCards < (k : Int)) := by
  unfold CountsRight Miscounted oppHighestKey answers
  simp only [if_neg ht]
  rcases getHighestTrio_lowest oppCards with ⟨heq, hnone⟩ | ⟨r, heq, hr, hlow⟩
  · rw [heq, hnone]
    refine ⟨fun k => ⟨fun _ => ?_, fun _ => ?_⟩,
      Or.inl fun k _ r hr => absurd hr (Set.notMem_empty r)⟩
    · rintro (h | ⟨⟨r, hr, -⟩, -⟩)
      · exact Set.singleton_ne_empty k h.symm
      · exact hr
    · exact ⟨fun _ r hr => absurd hr (Set.notMem_empty r), fun _ => by omega⟩
  · rw [heq]
    refine ⟨fun k => ⟨fun h => ?_, fun h => ?_⟩, ?_⟩
    · rintro (hk | ⟨⟨r₁, hr₁, hlt⟩, r₂, hr₂, hgt⟩)
      · -- the only trio is the key
        obtain rfl : r = k := (hk ▸ hr : r ∈ ({k} : Set Nat))
        have := h.mpr fun r' hr' => Nat.le_of_eq (hk ▸ hr' : r' ∈ ({r} : Set Nat))
        omega
      · have hlt' := hlow hr₁
        have := h.mp (by omega) r₂ hr₂
        omega
    · rw [not_or] at h
      refine ⟨fun hlt r' hr' => ?_, fun hall => ?_⟩
      · by_contra hgt
        exact h.2 ⟨⟨r, hr, by omega⟩, r', hr', by omega⟩
      · by_contra hle
        have hk : k = r := by
          have := hall r hr
          omega
        refine h.1 (Set.eq_singleton_iff_unique_mem.mpr ⟨hk ▸ hr, fun r' hr' => ?_⟩)
        have := hall r' hr'
        have := hlow hr'
        omega
    · by_cases hone : (trios oppCards).Subsingleton
      · refine Or.inl fun k hk r' hr' => ?_
        rw [hone hr' hr]
        omega
      · refine Or.inr fun k hall => ?_
        obtain ⟨a, ha, b, hb, hne⟩ := Set.not_subsingleton_iff.mp hone
        have := hlow ha
        have := hlow hb
        have := hall a ha
        have := hall b hb
        omega

/-- The count is right when it is right about every key. The keys are
miscounted in one direction only, all too often or all too seldom, so no two
errors cancel. -/
theorem highetCount_iff (hand : Hand) (oppCards : Points) (handMap : HandsMap)
    (hl : hand.type = .soloChain → 2 ≤ hand.len) :
    highetCount hand oppCards handMap = unbeatenCount hand oppCards handMap ↔
      ∀ k ∈ typeKeyPoints hand handMap, ¬Miscounted hand oppCards k := by
  have hright : (∀ k : Nat, CountsRight hand oppCards k ↔ ¬Miscounted hand oppCards k) ∧
      ((∀ k : Nat, oppHighestKey hand oppCards < (k : Int) → ∀ r ∈ answers hand oppCards, r ≤ k) ∨
        ∀ k : Nat, (∀ r ∈ answers hand oppCards, r ≤ k) →
          oppHighestKey hand oppCards < (k : Int)) := by
    by_cases ht : hand.type = .soloChain
    · obtain ⟨h1, h2⟩ := countsRight_chain oppCards ht (hl ht)
      exact ⟨h1, Or.inl h2⟩
    · exact countsRight_trio ht
  obtain ⟨hcounts, hdir⟩ := hright
  classical
  unfold highetCount unbeatenCount
  rcases hdir with hdir | hdir
  · rw [countP_eq_iff]
    · refine forall₂_congr fun k _ => ?_
      rw [← hcounts, decide_eq_true_iff, decide_eq_true_iff]
      exact ⟨fun h => ⟨hdir k, h⟩, fun h => h.mpr⟩
    · intro k _ h
      rw [decide_eq_true_iff] at h ⊢
      exact hdir k h
  · rw [eq_comm, countP_eq_iff]
    · refine forall₂_congr fun k _ => ?_
      rw [← hcounts, decide_eq_true_iff, decide_eq_true_iff]
      exact ⟨fun h => ⟨h, hdir k⟩, fun h => h.mp⟩
    · intro k _ h
      rw [decide_eq_true_iff] at h ⊢
      exact hdir k h

end Count

/-- When the best trio, the best chain and the count of unbeaten hands are
right. -/
theorem opponents_best_iff (points : Points) {len : Nat} (hl : 5 ≤ len) (hand : Hand)
    (hlen : hand.type = .soloChain → hand.len = len) (handMap : HandsMap) :
    (IsBest (trios points) (getHighestTrio points) ↔ (trios points).Subsingleton) ∧
    (IsBest {k | ChainAt points 1 len k} (getHighestSoloChain points len) ↔
      (∃ k, ChainAt points 1 len k) ∨ pairs points = ∅) ∧
    (highetCount hand points handMap = unbeatenCount hand points handMap ↔
      ∀ k ∈ typeKeyPoints hand handMap, ¬Miscounted hand points k) := by
  refine ⟨getHighestTrio_best_iff points, getHighestSoloChain_best_iff points (by omega), ?_⟩
  exact highetCount_iff hand points handMap fun ht => by rw [hlen ht]; omega

/-- Three threes, two fives and three sixes. -/
def threesAndSixes : Points := Points.ofList [3, 0, 2, 3]

/-- Three fours. -/
def trioOfFours : Hand := { type := .trio, keyPoint := 1 }

/-- A map with the fours. -/
def mapOfFours : HandsMap := HandsMap.empty.push .trio trioOfFours

theorem opponents_best_iff_sixes :
    (IsBest (trios threesAndSixes) (getHighestTrio threesAndSixes) ↔
      (trios threesAndSixes).Subsingleton) ∧
    (IsBest {k | ChainAt threesAndSixes 1 5 k} (getHighestSoloChain threesAndSixes 5) ↔
      (∃ k, ChainAt threesAndSixes 1 5 k) ∨ pairs threesAndSixes = ∅) ∧
    (highetCount trioOfFours threesAndSixes mapOfFours
        = unbeatenCount trioOfFours threesAndSixes mapOfFours ↔
      ∀ k ∈ typeKeyPoints trioOfFours mapOfFours, ¬Miscounted trioOfFours threesAndSixes k) :=
  opponents_best_iff threesAndSixes (by decide) trioOfFours (fun h => HandType.noConfusion h)
    mapOfFours

/-- The trio found is that of the threes, the chain found starts at the five,
and the fours are counted although the sixes beat them. -/
theorem sixes_not_seen :
    (getHighestTrio threesAndSixes = 0 ∧
      ¬IsBest (trios threesAndSixes) (getHighestTrio threesAndSixes)) ∧
    (getHighestSoloChain threesAndSixes 5 = 2 ∧
      ¬IsBest {k | ChainAt threesAndSixes 1 5 k} (getHighestSoloChain threesAndSixes 5)) ∧
    (highetCount trioOfFours threesAndSixes mapOfFours = 1 ∧
      highetCount trioOfFours threesAndSixes mapOfFours
        ≠ unbeatenCount trioOfFours threesAndSixes mapOfFours) := by
  have h3 : 0 ∈ trios threesAndSixes := ⟨by decide, by decide⟩
  have h6 : 3 ∈ trios threesAndSixes := ⟨by decide, by decide⟩
  refine ⟨⟨by decide, fun h => ?_⟩, ⟨by decide, fun h => ?_⟩, by decide, fun h => ?_⟩
  · rw [getHighestTrio_best_iff] at h
    exact absurd (h h3 h6) (by decide)
  · rw [getHighestSoloChain_best_iff threesAndSixes (by decide)] at h
    have hfive : 2 ∈ pairs threesAndSixes := ⟨by decide, by decide, by decide⟩
    rcases h with ⟨k, htop, hk⟩ | h
    · -- no more than two neighbouring ranks are held
      have hgap : ∀ k < 8, ∃ r < 12, k ≤ r ∧ r < k + 5 ∧ threesAndSixes r < 1 := by decide
      obtain ⟨r, -, hr, hr', hfew⟩ := hgap k (by have : cardA = 11 := rfl; omega)
      have := hk r hr hr'
      omega
    · exact Set.notMem_empty _ (h ▸ hfive)
  · rw [highetCount_iff _ _ _ (fun h => HandType.noConfusion h)] at h
    have hkey : 1 ∈ typeKeyPoints trioOfFours mapOfFours := by decide
    exact h 1 hkey (Or.inr ⟨⟨0, h3, by decide⟩, 3, h6, by decide⟩)

end RobotDdz
