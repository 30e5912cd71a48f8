import RobotDdz.AI.Higher
import RobotDdz.AI.Lvl
import RobotDdz.Lib.TopRun

/-!
# The opponents' best

`findOppHighestChain`, `getHighestSoloChain` and `getHighestTrio` say how high
the opponents can go. A chain is looked for from the ace down (`scan_spec`).

The lord looks at two hands, and the second scan starts with the `end` of the
first: it loses a run that touches the ace (`findOppHighestChain_best_iff`).
`getHighestSoloChain` returns its `start` whether it found a chain or not, and
`getHighestTrio` goes up from the three (`opponents_best_iff`).

`IsBest` is what each of the functions is for: the greatest key of a set of
keys, or -1. Each gets its exact condition against it, and the sets are given
by the points alone.

Mirroring notes vs `OGLordRobotAI.cpp` and `AIUtils.cpp`:
- The two loops of `findOppHighestChain` are the same code twice, with the
  variables `start` and `end` declared before both. Neither is set back in
  between.
- A farmer looks at the lord's points and runs the first loop only.
- The second loop comes down to the key above the first result, and overwrites
  that with what it finds (`laterPoint`).
-/

namespace RobotDdz

open TopRun

/-! ## Best keys -/

/-- `r` is the greatest key of the set, `-1` where it has none. -/
def IsBest (S : Set Nat) (r : Int) : Prop :=
  (S = ∅ ∧ r = -1) ∨ ∃ k : Nat, r = k ∧ IsGreatest S k

theorem IsBest.unique {S : Set Nat} {r r' : Int} (h : IsBest S r) (h' : IsBest S r') : r = r' := by
  rcases h with ⟨hS, rfl⟩ | ⟨k, rfl, hk⟩
  · rcases h' with ⟨-, rfl⟩ | ⟨k', -, hk'⟩
    · rfl
    · exact absurd hk'.1 (hS ▸ Set.notMem_empty k')
  · rcases h' with ⟨hS, -⟩ | ⟨k', rfl, hk'⟩
    · exact absurd hk.1 (hS ▸ Set.notMem_empty k)
    · rw [hk.unique hk']

theorem highPoint_ge (found : Option Nat) : -1 ≤ highPoint found := by
  cases found with
  | none => exact Int.le_refl _
  | some k => exact Int.le_trans (by decide) (Int.natCast_nonneg k)

theorem IsBest.of_greatest {S : Set Nat} {k : Nat} (h : IsGreatest S k) : IsBest S k :=
  Or.inr ⟨k, rfl, h⟩

theorem IsBest.of_none {S : Set Nat} (h : ∀ k, k ∉ S) : IsBest S (-1) :=
  Or.inl ⟨Set.eq_empty_iff_forall_notMem.mpr h, rfl⟩

/-! ## The opponents' highest chain -/

/-- What a loop asks of its `end` the scan asks of the top of its run. -/
theorem endTests_eq {γ : Type} (top : Option Nat) (i len : Nat) (opens found goesOn : γ) :
    (if highPoint top < 0 then opens
      else if highPoint top - i + 1 = len then found else goesOn)
      = match top with
        | none => opens
        | some t => if t + 1 = i + len then found else goesOn := by
  cases top with
  | none => rfl
  | some t =>
    show (if (t : Int) < 0 then _ else if (t : Int) - i + 1 = len then _ else _) = _
    rw [if_neg (Int.not_lt.mpr (Int.natCast_nonneg t))]
    exact if_congr (by omega) rfl rfl

/-- A loop of `findOppHighestChain` is the scan; its `end` is the top of the
run. -/
theorem oppChainFrom_eq (points : Points) (count : Int) (len lo : Nat) {p : Nat → Bool}
    (hp : ∀ i, p i = true ↔ lo ≤ i) : ∀ (n : Nat) (top start : Option Nat),
    oppChainFrom points count len ((List.range n).reverse.filter p) (highPoint top)
      = ((scan (fun i => count ≤ points i) len lo n top start).found,
        highPoint (scan (fun i => count ≤ points i) len lo n top start).top) := by
  intro n
  induction n with
  | zero => exact fun _ _ => rfl
  | succ i ih =>
    intro top start
    unfold scan
    rw [List.range_succ, List.reverse_concat]
    by_cases hlo : i < lo
    · have hnil : (i :: (List.range i).reverse).filter p = [] := by
        refine List.filter_eq_nil_iff.mpr fun j hj hpj => ?_
        have := (hp j).mp hpj
        rcases List.mem_cons.mp hj with rfl | hj
        · omega
        · have := List.mem_range.mp (List.mem_reverse.mp hj)
          omega
      rw [if_pos hlo, hnil]
      rfl
    rw [if_neg hlo, List.filter_cons_of_pos ((hp i).mpr (by omega)), oppChainFrom]
    by_cases hP : count ≤ points i
    · rw [if_pos hP, if_pos hP, endTests_eq]
      cases top with
      | none => exact ih (some i) start
      | some t =>
        dsimp only
        split
        · rfl
        · exact ih (some t) (some i)
    · rw [if_neg hP, if_neg hP]
      exact ih none start

section Scans

variable {number : Int} {len : Nat}

/-- The scan of the first hand, from the ace down to the three. -/
abbrev firstScan (points : Points) (number : Int) (len : Nat) : TopRun.Scan :=
  scan (fun i => number ≤ points i) len 0 (cardA + 1) none none

theorem firstScan_finds (points : Points) (number : Int) (hl : 2 ≤ len) :
    Finds (fun i => number ≤ points i) (cardA + 1) len 0 (cardA + 1) none
      (firstScan points number len) :=
  scan_spec 0 hl none (Scanned.initial (by omega))

/-- The first loop finds the best chain of the first hand. -/
theorem firstScan_best (points : Points) (hl : 2 ≤ len) :
    IsBest {k | ChainAt points number len k} (highPoint (firstScan points number len).found) := by
  obtain ⟨hsome, hnone⟩ := firstScan_finds points number hl
  cases hf : (firstScan points number len).found with
  | none =>
    obtain ⟨k, hk, hs, -⟩ := hnone hf
    exact IsBest.of_none fun j hj => hs.noRun j (by omega) hj
  | some k =>
    obtain ⟨hk, hmax⟩ := (hsome k hf).1
    exact IsBest.of_greatest ⟨hk.2, fun j hj => hmax ⟨Nat.zero_le j, hj⟩⟩

/-- Where the first loop leaves `end`: above no rank the second one visits by
`len`, and set just when it has ended inside a run. -/
theorem firstScan_top (points : Points) (number : Int) (hl : 2 ≤ len) :
    (∀ t, (firstScan points number len).top = some t →
      ((t : Int) + 1 < highPoint (firstScan points number len).found + 1 + len)) ∧
    ((firstScan points number len).top = none ↔
      ¬((∃ k, ChainAt points number len k) ∨ number ≤ points card3)) := by
  obtain ⟨hsome, hnone⟩ := firstScan_finds points number hl
  cases hf : (firstScan points number len).found with
  | none =>
    obtain ⟨k, hk, hs, -⟩ := hnone hf
    obtain rfl := Nat.le_zero.mp hk
    refine ⟨fun t ht => ?_, ⟨fun htop => ?_, fun hout => ?_⟩⟩
    · have := (hs.run t ht).2.2.1
      show (t : Int) + 1 < -1 + 1 + len
      omega
    · rintro (⟨k, hk⟩ | h3)
      · exact hs.noRun k (Nat.zero_le k) hk
      · rcases hs.gap htop with h | h
        · exact absurd h (by decide)
        · exact h h3
    · cases htop : (firstScan points number len).top with
      | none => rfl
      | some t =>
        have := (hs.run t htop).2.2.2 0 (Nat.le_refl 0) (Nat.zero_le t)
        exact absurd (Or.inr this) hout
  | some k =>
    obtain ⟨⟨hk, -⟩, htop, -⟩ := hsome k hf
    have htop' : (firstScan points number len).top = some (k + len - 1) := htop
    refine ⟨fun t ht => ?_, ⟨fun h => ?_, fun h => absurd (Or.inl ⟨k, hk.2⟩) h⟩⟩
    · rw [htop'] at ht
      obtain rfl := Option.some.inj ht
      show ((k + len - 1 : Nat) : Int) + 1 < k + 1 + len
      omega
    · rw [htop'] at h
      exact nomatch h

end Scans

namespace AI

section Chain

variable (s : AI)

/-- The hands `findOppHighestChain` looks at: the lord's, or for the lord both
farmers'. -/
def opponents : List Points :=
  if s.aiPosition = .lord then [s.pointsOf s.downSeat, s.pointsOf s.upSeat]
  else [s.pointsOf s.lordSeat]

/-- The chain up to the ace that the second scan loses: the first one has ended
inside a run, with a lower chain or at the three. -/
structure LosesTop (number : Int) (len : Nat) : Prop where
  lord : s.aiPosition = .lord
  second : ChainAt (s.pointsOf s.upSeat) number len (cardA + 1 - len)
  first : ¬ChainAt (s.pointsOf s.downSeat) number len (cardA + 1 - len)
  inside : (∃ k, ChainAt (s.pointsOf s.downSeat) number len k) ∨
    number ≤ s.pointsOf s.downSeat card3

variable {s} {number : Int} {len : Nat}

/-- What the second loop finds, or else what the first one has found. -/
def laterPoint (high : Int) : Option Nat → Int
  | some i => i
  | none => high

/-- What a search among the keys above `high` returns. -/
structure FindsAbove (high : Int) (S : Set Nat) (found : Option Nat) : Prop where
  best : ∀ k, found = some k → IsGreatest {k : Nat | high < k ∧ k ∈ S} k
  none : found = none → ∀ k : Nat, high < k → k ∉ S

/-- A second search, among the keys above the best ones so far: what it finds
is the best of both sets, and if it finds nothing the first one's best stays. -/
theorem IsBest.later {A B : Set Nat} {high : Int} (hA : IsBest A high) {found : Option Nat}
    (h : FindsAbove high B found) : IsBest (A ∪ B) (laterPoint high found) := by
  cases found with
  | none =>
    have hnone := h.none rfl
    rcases hA with ⟨rfl, rfl⟩ | ⟨k, rfl, hk, hmax⟩
    · exact IsBest.of_none fun k hk => hnone k (by omega) (hk.resolve_left (Set.notMem_empty k))
    · refine IsBest.of_greatest ⟨Or.inl hk, fun j hj => ?_⟩
      rcases hj with hj | hj
      · exact hmax hj
      · by_contra hlt
        exact hnone j (by omega) hj
  | some k =>
    obtain ⟨⟨hk, hB⟩, hmax⟩ := h.best k rfl
    refine IsBest.of_greatest ⟨Or.inr hB, fun j hj => ?_⟩
    by_contra hlt
    rcases hj with hj | hj
    · rcases hA with ⟨rfl, -⟩ | ⟨a, rfl, -, hmaxA⟩
      · exact hj
      · have := hmaxA hj
        omega
    · exact hlt (hmax ⟨by omega, hj⟩)

/-- The chains of the second hand with a gap above them. -/
def gapChains (points : Points) (number : Int) (len : Nat) : Set Nat :=
  {k | ∃ r < cardA + 1, points r < number ∧ RunAt (fun i => number ≤ points i) r len k}

theorem gapChains_subset (points : Points) :
    gapChains points number len ⊆ {k | ChainAt points number len k} := by
  rintro k ⟨r, hr, -, hrun⟩
  exact ⟨Nat.le_trans hrun.1 (Nat.le_of_lt hr), hrun.2⟩

/-- A chain without a gap above it reaches up to the ace with its last ranks. -/
theorem gapChains_of_not_top {points : Points} {k : Nat}
    (hk : ChainAt points number len k) (htop : ¬ChainAt points number len (cardA + 1 - len)) :
    k ∈ gapChains points number len := by
  by_contra hgap
  refine htop ⟨by have := hk.1; omega, fun r hr hr' => ?_⟩
  by_contra hfew
  rcases Nat.lt_or_ge r (k + len) with hin | hout
  · exact hfew (hk.2 r (by have := hk.1; omega) hin)
  · exact hgap ⟨r, by have := hk.1; omega, by omega, hout, hk.2⟩

/-- The second loop from above all ranks. -/
theorem secondScan_fresh (points : Points) (hl : 2 ≤ len) {high : Int} (hh : -1 ≤ high) :
    FindsAbove high {k | ChainAt points number len k}
      (scan (fun i => number ≤ points i) len (high + 1).toNat (cardA + 1) none none).found := by
  obtain ⟨hsome, hnone⟩ := scan_spec (P := fun i => number ≤ points i)
    (high + 1).toNat hl none (Scanned.initial (N := cardA + 1) (by omega))
  constructor
  · intro k hf
    obtain ⟨⟨hlo, hk⟩, hmax⟩ := (hsome k hf).1
    exact ⟨⟨by omega, hk⟩, fun j hj => hmax ⟨by have := hj.1; omega, hj.2⟩⟩
  · intro hf j hj hrun
    obtain ⟨k, hk, hs, -⟩ := hnone hf
    exact hs.noRun j (by omega) hrun

/-- The second loop from inside the run of the first hand. -/
theorem secondScan_stale (points : Points) (hl : 2 ≤ len) {high : Int} (hh : -1 ≤ high) {t : Nat}
    (ht : (t : Int) + 1 < high + 1 + len) :
    FindsAbove high (gapChains points number len)
      (scan (fun i => number ≤ points i) len (high + 1).toNat (cardA + 1) (some t) none).found := by
  have hstale := scan_stale (P := fun i => number ≤ points i) (t := t) (high + 1).toNat hl
    (by omega) (cardA + 1) none
  constructor
  · intro k hf
    rw [hf] at hstale
    obtain ⟨⟨hlo, r, hr, hgap, hrun⟩, hmax⟩ := hstale
    refine ⟨⟨by omega, r, hr, by omega, hrun⟩, fun j hj => ?_⟩
    obtain ⟨hj, r', hr', hgap', hrun'⟩ := hj
    exact hmax ⟨by omega, r', hr', by omega, hrun'⟩
  · rintro hf j hj ⟨r, hr, hgap, hrun⟩
    rw [hf] at hstale
    exact hstale j (by omega) r hr (by omega) hrun

/-- The second loop as a scan, for what the first one has found. -/
abbrev secondScan (points : Points) (number : Int) (len : Nat) (r : TopRun.Scan) : TopRun.Scan :=
  scan (fun i => number ≤ points i) len (highPoint r.found + 1).toNat (cardA + 1) r.top none

/-- The function as two scans; `count` is what the type takes of each rank.
Only for the lord is there a second opponent to look at, and its scan begins
above what the first one found. -/
theorem findOppHighestChain_eq {type : HandType} (ht : isChain type = true) :
    s.findOppHighestChain type len =
      if s.aiPosition = .lord then
        laterPoint (highPoint (firstScan s.firstOpp type.mult len).found)
          (secondScan (s.pointsOf s.upSeat) type.mult len
            (firstScan s.firstOpp type.mult len)).found
      else highPoint (firstScan s.firstOpp type.mult len).found := by
  have hfirst : ∀ count : Int,
      oppChainFrom s.firstOpp count len (List.range (cardA + 1)).reverse (-1)
        = ((firstScan s.firstOpp count len).found,
          highPoint (firstScan s.firstOpp count len).top) := by
    intro count
    have h := oppChainFrom_eq s.firstOpp count len 0 (p := fun _ => true)
      (fun i => ⟨fun _ => Nat.zero_le i, fun _ => rfl⟩) (cardA + 1) none none
    rw [List.filter_eq_self.mpr fun _ _ => rfl] at h
    exact h
  have hsecond : ∀ count : Int, oppChainFrom (s.pointsOf s.upSeat) count len
      ((List.range (cardA + 1)).reverse.filter fun i =>
        highPoint (firstScan s.firstOpp count len).found < (i : Int))
      (highPoint (firstScan s.firstOpp count len).top)
      = ((secondScan (s.pointsOf s.upSeat) count len (firstScan s.firstOpp count len)).found,
        highPoint (secondScan (s.pointsOf s.upSeat) count len
          (firstScan s.firstOpp count len)).top) := by
    intro count
    refine oppChainFrom_eq _ count len _ (fun i => ?_) (cardA + 1) _ none
    rw [decide_eq_true_iff]
    have := highPoint_ge (firstScan s.firstOpp count len).found
    omega
  cases type
  case soloChain | pairChain | trioChain | trioChainSolo | trioChainPair =>
    unfold findOppHighestChain
    simp only [HandType.mult]
    rw [hfirst]
    dsimp only
    rw [hsecond]
    split
    · cases (secondScan (s.pointsOf s.upSeat) _ len (firstScan s.firstOpp _ len)).found
      · rfl
      · rfl
    · rfl
  all_goals exact Bool.noConfusion ht

/-- What a lord finds: the chains of the first hand, and of the second all, or
those with a gap above them. -/
theorem findOppHighestChain_lord {type : HandType} (ht : isChain type = true) (hl : 2 ≤ len)
    (hlord : s.aiPosition = .lord) :
    IsBest ({k | ChainAt s.firstOpp type.mult len k} ∪
        if (firstScan s.firstOpp type.mult len).top = none then
          {k | ChainAt (s.pointsOf s.upSeat) type.mult len k}
        else gapChains (s.pointsOf s.upSeat) type.mult len)
      (s.findOppHighestChain type len) := by
  have htop := (firstScan_top s.firstOpp type.mult hl).1
  have hhigh := highPoint_ge (firstScan s.firstOpp type.mult len).found
  rw [findOppHighestChain_eq ht, if_pos hlord]
  refine IsBest.later (firstScan_best s.firstOpp hl) ?_
  unfold secondScan
  cases ht' : (firstScan s.firstOpp type.mult len).top with
  | none =>
    rw [if_pos rfl]
    exact secondScan_fresh _ hl hhigh
  | some t =>
    rw [if_neg nofun]
    exact secondScan_stale _ hl hhigh (htop t ht')

/-- The keys the opponents hold a chain at. -/
def oppChains (s : AI) (number : Int) (len : Nat) : Set Nat :=
  {k | ∃ points ∈ s.opponents, ChainAt points number len k}

theorem oppChains_farmer (number : Int) (len : Nat) (hlord : s.aiPosition ≠ .lord) :
    s.oppChains number len = {k | ChainAt s.firstOpp number len k} := by
  unfold oppChains opponents firstOpp
  rw [if_neg hlord, if_neg hlord]
  ext k
  simp

theorem oppChains_lord (number : Int) (len : Nat) (hlord : s.aiPosition = .lord) :
    s.oppChains number len = {k | ChainAt s.firstOpp number len k} ∪
      {k | ChainAt (s.pointsOf s.upSeat) number len k} := by
  unfold oppChains opponents firstOpp
  rw [if_pos hlord, if_pos hlord]
  ext k
  simp

/-- No chain starts above the one up to the ace, so that it is the best of its
set. -/
theorem IsBest.of_top (number : Int) {A : Set Nat} (htop : cardA + 1 - len ∈ A)
    (hA : ∀ k ∈ A, ∃ points : Points, ChainAt points number len k) :
    IsBest A (cardA + 1 - len : Nat) := by
  refine IsBest.of_greatest ⟨htop, fun k hk => ?_⟩
  obtain ⟨points, hchain⟩ := hA k hk
  have := hchain.1
  omega

/-- The chain up to the ace is lost when the first hand doesn't hold it and the
first scan ends inside a run. -/
theorem losesTop_iff (number : Int) (hl : 2 ≤ len) (hlord : s.aiPosition = .lord) :
    s.LosesTop number len ↔ ChainAt (s.pointsOf s.upSeat) number len (cardA + 1 - len) ∧
      ¬ChainAt s.firstOpp number len (cardA + 1 - len) ∧
        (firstScan s.firstOpp number len).top ≠ none := by
  have hopp : s.firstOpp = s.pointsOf s.downSeat := by
    unfold firstOpp
    rw [if_pos hlord]
  have hinside := (firstScan_top s.firstOpp number hl).2.not.trans not_not
  rw [Ne, hinside, hopp]
  exact ⟨fun h => ⟨h.second, h.first, h.inside⟩, fun h => ⟨hlord, h.1, h.2.1, h.2.2⟩⟩

/-- The search finds the opponents' best chain, but for the chain up to the ace
it loses. -/
theorem findOppHighestChain_best_iff (s : AI) {type : HandType} (ht : isChain type = true)
    {len : Nat} (hl : 2 ≤ len) :
    IsBest (s.oppChains type.mult len) (s.findOppHighestChain type len) ↔
      ¬s.LosesTop type.mult len := by
  by_cases hlord : s.aiPosition = .lord
  · have hfound := findOppHighestChain_lord ht hl hlord
    rw [oppChains_lord _ _ hlord, losesTop_iff _ hl hlord]
    by_cases htop : (firstScan s.firstOpp type.mult len).top = none
    · rw [if_pos htop] at hfound
      exact iff_of_true hfound fun h => h.2.2 htop
    rw [if_neg htop] at hfound
    by_cases hup : ChainAt (s.pointsOf s.upSeat) type.mult len (cardA + 1 - len)
    · by_cases hdown : ChainAt s.firstOpp type.mult len (cardA + 1 - len)
      · -- the first scan has found the best chain there can be
        have hbest := hfound.unique <| IsBest.of_top type.mult (Or.inl hdown) fun k hk =>
          hk.elim (fun hk => ⟨_, hk⟩) fun hk => ⟨_, gapChains_subset _ hk⟩
        rw [hbest]
        refine iff_of_true (IsBest.of_top type.mult (Or.inl hdown) fun k hk => ?_)
          fun h => h.2.1 hdown
        exact hk.elim (fun hk => ⟨_, hk⟩) fun hk => ⟨_, hk⟩
      · refine iff_of_false (fun hbest => ?_) fun h => h ⟨hup, hdown, htop⟩
        -- the chains the second scan finds have a gap above them
        have hace := hbest.unique <| IsBest.of_top type.mult (Or.inr hup) fun k hk =>
          hk.elim (fun hk => ⟨_, hk⟩) fun hk => ⟨_, hk⟩
        rw [hace] at hfound
        rcases hfound with ⟨-, h⟩ | ⟨k, h, hk, -⟩
        · omega
        · obtain rfl := Int.natCast_inj.mp h
          rcases hk with hk | ⟨r, hr, -, hrun⟩
          · exact hdown hk
          · have := hrun.1
            omega
    · have hall : gapChains (s.pointsOf s.upSeat) type.mult len
          = {k | ChainAt (s.pointsOf s.upSeat) type.mult len k} :=
        Set.Subset.antisymm (gapChains_subset _) fun k hk => gapChains_of_not_top hk hup
      rw [hall] at hfound
      exact iff_of_true hfound fun h => hup h.1
  · rw [oppChains_farmer _ _ hlord, findOppHighestChain_eq ht, if_neg hlord]
    exact iff_of_true (firstScan_best _ hl) fun h => hlord h.lord

end Chain

/-- A lord against a chain from the three and one from the ten. -/
def lordAgainstChains : AI :=
  { aiSeat := 0
    lordSeat := 0
    downSeat := 1
    upSeat := 2
    aiPosition := .lord
    playerInfo := fun seat =>
      if seat = 1 then ⟨Points.ofList [1, 1, 1, 1, 1], 5⟩
      else ⟨Points.ofList [0, 0, 0, 0, 0, 0, 0, 1, 1, 1, 1, 1], 5⟩ }

theorem findOppHighestChain_best_iff_chains :
    IsBest (lordAgainstChains.oppChains HandType.soloChain.mult 5)
        (lordAgainstChains.findOppHighestChain .soloChain 5) ↔
      ¬lordAgainstChains.LosesTop HandType.soloChain.mult 5 :=
  findOppHighestChain_best_iff lordAgainstChains rfl (by decide)

/-- The chain from the three is taken for the highest. -/
theorem lordAgainstChains_loses_ace :
    lordAgainstChains.findOppHighestChain .soloChain 5 = card3 ∧
      ¬IsBest (lordAgainstChains.oppChains HandType.soloChain.mult 5)
        (lordAgainstChains.findOppHighestChain .soloChain 5) := by
  have hfound : lordAgainstChains.findOppHighestChain .soloChain 5 = card3 := by decide
  have hten : 7 ∈ lordAgainstChains.oppChains HandType.soloChain.mult 5 := by
    have hchain : ∀ r < 12, 7 ≤ r → HandType.soloChain.mult ≤ lordAgainstChains.pointsOf 2 r := by
      decide
    refine ⟨lordAgainstChains.pointsOf 2, ?_, by decide, fun r hr hr' => hchain r hr' hr⟩
    exact List.mem_cons_of_mem _ List.mem_cons_self
  refine ⟨hfound, fun h => ?_⟩
  rw [hfound] at h
  rcases h with ⟨hnone, -⟩ | ⟨k, hk, -, hmax⟩
  · exact Set.notMem_empty _ (hnone ▸ hten)
  · obtain rfl := Int.natCast_inj.mp hk
    exact absurd (hmax hten) (by decide)

end AI

end RobotDdz
