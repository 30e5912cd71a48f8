import RobotDdz.AI.Strategy
import Mathlib.Order.Bounds.Basic

/-!
# The next higher hand

What `findHigherHandFromPoints` finds, and why the loop of
`findBestHigherHandFromPoints` around it ends.

`HigherKey number hand points k` says that the points hold a body like that of
`hand` from rank `k` on. The nested chain search jumps over the rank a run
broke off at: `scanRun_spec` says what one inner loop leaves, and
`findChain_spec` carries "no chain starts before rank `i`" through the outer
one. A rank jumped over is inside the broken run or ends it, so no chain starts
there either.

Everything that follows from the search for the loop is that the key grows:
`findHigherHandFromPoints_key`. The loop itself is written without fuel as
`HigherRun`.

Mirroring notes vs `AIUtils.cpp`:
- The outer loop of the chain search goes on from the rank after the one where
  the inner loop broke off. `scanRun` returns both, the end of the run and that
  rank.
- For a type that is no chain the search is one loop over the ranks, and `len`
  of the result is not written.
- The kickers are looked for in a split of the points without the body
  (`findHigherBody` has the body, `findKickerFromPoints` the kickers).
- The loop in `findBestHigherHandFromPoints` returns a hand at once that takes
  no control and leaves fewer effective hands, or as many if it is a charge;
  the other hands are collected and compared at the end (`TakenAtOnce`,
  `Collected`).
-/

namespace RobotDdz

open Loops

/-! ## The chain search -/

/-- A chain of `len` ranks with `number` cards each starts at rank `k`. -/
def ChainAt (points : Points) (number : Int) (len k : Nat) : Prop :=
  k + len ≤ cardA + 1 ∧ ∀ r, k ≤ r → r < k + len → number ≤ points r

/-- The inner loop stops at the end of the chain, or right before a rank that
breaks it. -/
theorem scanRun_spec (points : Points) (number : Int) {len start : Nat}
    (htop : start + len ≤ cardA + 1) :
    ∀ (fuel i : Nat), start ≤ i → i < start + len → start + len ≤ i + fuel + 1 →
      (∀ r, start ≤ r → r ≤ i → number ≤ points r) →
      ((scanRun points number len start fuel i).1 + 1 = start + len ∧
          ∀ r, start ≤ r → r < start + len → number ≤ points r) ∨
        ((scanRun points number len start fuel i).1 + 1 ≠ start + len ∧
          start ≤ (scanRun points number len start fuel i).1 ∧
          (scanRun points number len start fuel i).2 < start + len ∧
          (scanRun points number len start fuel i).2 =
            (scanRun points number len start fuel i).1 + 1 ∧
          points (scanRun points number len start fuel i).2 < number) := by
  intro fuel
  induction fuel with
  | zero =>
    intro i hs hi hf hall
    exact Or.inl ⟨by show i + 1 = _; omega, fun r hr hlt => hall r hr (by omega)⟩
  | succ fuel ih =>
    intro i hs hi hf hall
    unfold scanRun
    by_cases hend : i + 1 = start + len
    · rw [if_pos hend]
      exact Or.inl ⟨hend, fun r hr hlt => hall r hr (by omega)⟩
    · rw [if_neg hend]
      have hA : i + 1 ≤ cardA := by omega
      by_cases hn : number ≤ points (i + 1)
      · rw [if_pos ⟨hA, hn⟩]
        apply ih (i + 1) (by omega) (by omega) (by omega)
        intro r hr hle
        by_cases hlast : r = i + 1
        · rw [hlast]
          exact hn
        · exact hall r hr (by omega)
      · rw [if_neg fun h => hn h.2]
        exact Or.inr ⟨hend, hs, by show i + 1 < _; omega, rfl, by show points (i + 1) < _; omega⟩

theorem scanRun_forth (points : Points) (number : Int) (len start : Nat) :
    ∀ (fuel i : Nat), i ≤ (scanRun points number len start fuel i).2 := by
  intro fuel
  induction fuel with
  | zero => intro i; exact Nat.le_refl i
  | succ fuel ih =>
    intro i
    unfold scanRun
    split
    · exact Nat.le_refl i
    · split
      · exact Nat.le_trans (Nat.le_succ i) (ih (i + 1))
      · exact Nat.le_succ i

/-- A rank without the cards ends every chain over it. -/
theorem ChainAt.not_over {points : Points} {number : Int} {len k r : Nat}
    (h : points r < number) (hk : k ≤ r) (hr : r < k + len) : ¬ChainAt points number len k := by
  intro hc
  have := hc.2 r hk hr
  omega

/-- The chain search finds the first chain that starts at `i` or later. The
induction is on the ranks left; a rank is passed by when it has too few cards,
and where an inner loop breaks off all the ranks it has gone over are, because
a chain from any of them would take in the rank it broke off at. -/
theorem findChain_spec (points : Points) (number : Int) {len : Nat} (hl : 1 ≤ len) :
    ∀ (fuel i : Nat), cardA + 2 ≤ i + len + fuel →
      match findChain points number len fuel i with
      | some k => IsLeast {k | i ≤ k ∧ ChainAt points number len k} k
      | none => ∀ k, i ≤ k → ¬ChainAt points number len k := by
  intro fuel
  induction fuel with
  | zero =>
    intro i hf k hk hc
    have := hc.1
    omega
  | succ fuel ih =>
    intro i hf
    unfold findChain
    by_cases htop : i + len ≤ cardA + 1
    case neg =>
      rw [if_neg htop]
      intro k hk hc
      have := hc.1
      omega
    rw [if_pos htop]
    -- the search goes on from `j`, and no chain starts between `i` and `j`
    have hskip : ∀ j, i < j → (∀ k, i ≤ k → k < j → ¬ChainAt points number len k) →
        match findChain points number len fuel j with
        | some k => IsLeast {k | i ≤ k ∧ ChainAt points number len k} k
        | none => ∀ k, i ≤ k → ¬ChainAt points number len k := by
      intro j hij hnone
      have hrest := ih j (by omega)
      cases hc : findChain points number len fuel j with
      | none =>
        rw [hc] at hrest
        intro k hk
        by_cases hkj : k < j
        · exact hnone k hk hkj
        · exact hrest k (by omega)
      | some m =>
        rw [hc] at hrest
        refine ⟨⟨Nat.le_trans (Nat.le_of_lt hij) hrest.1.1, hrest.1.2⟩, ?_⟩
        intro k hk
        by_cases hkj : k < j
        · exact absurd hk.2 (hnone k hk.1 hkj)
        · exact hrest.2 ⟨by omega, hk.2⟩
    by_cases hn : number ≤ points i
    · rw [if_pos hn]
      have hscan := scanRun_spec points number htop cardPointNum i (Nat.le_refl i) (by omega)
        (by simp only [cardA, cardPointNum] at *; omega)
        (fun r hr hle => by rw [Nat.le_antisymm hle hr]; exact hn)
      cases hscan with
      | inl hfull =>
        dsimp only
        rw [if_pos hfull.1]
        exact ⟨⟨Nat.le_refl i, htop, hfull.2⟩, fun k hk => hk.1⟩
      | inr hbroken =>
        obtain ⟨hne, hstart, hlt, hnext, hfew⟩ := hbroken
        dsimp only
        rw [if_neg hne]
        apply hskip _ (by omega)
        intro k hk hkj
        exact ChainAt.not_over hfew (by omega) (by omega)
    · rw [if_neg hn]
      apply hskip (i + 1) (by omega)
      intro k hk hkj
      exact ChainAt.not_over (r := i) (by omega) (by omega) (by omega)

/-! ## The body of the higher hand -/

/-- The points hold a body like that of `hand`, `number` cards of each of its
ranks, from the higher rank `k` on. -/
def HigherKey (number : Int) (hand : Hand) (points : Points) (k : Nat) : Prop :=
  hand.keyPoint < k ∧
    if isChain hand.type then ChainAt points number hand.len k
    else k ≤ redJoker ∧ number ≤ points k

/-- The first key there is, and what is left of the points without its body. -/
structure BodyFound (hand : Hand) (points : Points) (higher : Hand) (r : Hand × Points) : Prop where
  least : IsLeast {k | HigherKey (bodyNumber hand.type) hand points k} r.1.keyPoint
  hand_eq : r.1 = { higher with
    type := hand.type, keyPoint := r.1.keyPoint
    len := if isChain hand.type then hand.len else higher.len }
  points_eq : r.2 =
    points.addRange r.1.keyPoint (if isChain hand.type then hand.len else 1)
      (-bodyNumber hand.type)

/-- The search for a chain: the least key, or the hand it was given. The source
takes a start of `CARD_3` for none, which no key above another one is. -/
theorem findHigherBody_chain (hand : Hand) (points : Points) (higher : Hand)
    (hc : isChain hand.type = true) (hlen : 1 ≤ hand.len) :
    BodyFound hand points higher (findHigherBody hand points higher) ∨
      ((∀ k, ¬HigherKey (bodyNumber hand.type) hand points k) ∧
        findHigherBody hand points higher = (higher, points)) := by
  have hspec := findChain_spec points (bodyNumber hand.type) hlen cardPointNum
    (hand.keyPoint + 1) (by simp only [cardA, cardPointNum]; omega)
  have hiff : ∀ k, HigherKey (bodyNumber hand.type) hand points k ↔
      hand.keyPoint + 1 ≤ k ∧ ChainAt points (bodyNumber hand.type) hand.len k := by
    intro k
    unfold HigherKey
    rw [if_pos hc]
    exact Iff.rfl
  unfold findHigherBody
  dsimp only
  rw [if_pos hc]
  cases hfind : findChain points (bodyNumber hand.type) hand.len cardPointNum
      (hand.keyPoint + 1) with
  | none =>
    rw [hfind] at hspec
    refine Or.inr ⟨fun k hk => ?_, rfl⟩
    exact hspec k ((hiff k).mp hk).1 ((hiff k).mp hk).2
  | some k =>
    rw [hfind] at hspec
    -- a key above another one is not `CARD_3`, which the source takes for none
    have hpos : card3 < k := Nat.lt_of_lt_of_le (Nat.succ_pos _) hspec.1.1
    apply Or.inl
    dsimp only
    rw [if_pos hpos]
    refine ⟨⟨(hiff k).mpr hspec.1, fun j hj => hspec.2 ((hiff j).mp hj)⟩, ?_, ?_⟩
    · show _ = _
      rw [if_pos hc]
    · show _ = _
      rw [if_pos hc]

/-- The search for a single rank: the least key, or the hand it was given. The
loop is a `find?` over the ranks above the hand's own. -/
theorem findHigherBody_single (hand : Hand) (points : Points) (higher : Hand)
    (hc : ¬isChain hand.type = true) :
    BodyFound hand points higher (findHigherBody hand points higher) ∨
      ((∀ k, ¬HigherKey (bodyNumber hand.type) hand points k) ∧
        findHigherBody hand points higher = (higher, points)) := by
  have hiff : ∀ k, HigherKey (bodyNumber hand.type) hand points k ↔
      (hand.keyPoint + 1 ≤ k ∧ k ≤ redJoker) ∧ bodyNumber hand.type ≤ points k := by
    intro k
    unfold HigherKey
    rw [if_neg hc, and_assoc]
    exact Iff.rfl
  unfold findHigherBody
  dsimp only
  rw [if_neg hc]
  cases hfind : (List.range' (hand.keyPoint + 1) (redJoker - hand.keyPoint)).find?
      fun i => bodyNumber hand.type ≤ points i with
  | none =>
    refine Or.inr ⟨fun k hk => ?_, rfl⟩
    obtain ⟨⟨hlo, hhi⟩, hn⟩ := (hiff k).mp hk
    have hnone := List.find?_eq_none.mp hfind k (List.mem_range'_1.mpr ⟨hlo, by omega⟩)
    exact hnone (decide_eq_true hn)
  | some k =>
    obtain ⟨hk, hmem, hfirst⟩ := List.find?_range'_eq_some.mp hfind
    have hin := List.mem_range'_1.mp hmem
    apply Or.inl
    refine ⟨⟨(hiff k).mpr ⟨⟨hin.1, by omega⟩, of_decide_eq_true hk⟩, ?_⟩, ?_, ?_⟩
    · intro j hj
      obtain ⟨⟨hlo, hhi⟩, hn⟩ := (hiff j).mp hj
      by_contra hlt
      have hno := hfirst j hlo (Nat.lt_of_not_le hlt)
      rw [decide_eq_true hn] at hno
      exact Bool.noConfusion hno
    · show _ = _
      rw [if_neg hc]
      rfl
    · show Function.update points k _ = points.addRange k _ _
      rw [if_neg hc]
      -- one rank changed is a range of one
      funext r
      by_cases hr : r = k
      · rw [hr, Function.update_self, Points.addRange_in (by omega)]
        rfl
      · rw [Function.update_of_ne hr, Points.addRange_out (by omega)]

/-- What the search for the body returns: the least key, or the hand it was
given. -/
theorem findHigherBody_spec (hand : Hand) (points : Points) (higher : Hand)
    (hlen : isChain hand.type = true → 1 ≤ hand.len) :
    BodyFound hand points higher (findHigherBody hand points higher) ∨
      ((∀ k, ¬HigherKey (bodyNumber hand.type) hand points k) ∧
        findHigherBody hand points higher = (higher, points)) := by
  by_cases hc : isChain hand.type = true
  · exact findHigherBody_chain hand points higher hc (hlen hc)
  · exact findHigherBody_single hand points higher hc

/-- The types of a body alone. -/
def HandType.bare : List HandType :=
  [.solo, .pair, .trio, .bomb, .soloChain, .pairChain, .trioChain]

theorem bodyNumber_of_bare : ∀ t ∈ HandType.bare, bodyNumber t = t.mult := by decide

theorem not_kicked_of_bare : ∀ t ∈ HandType.bare,
    ¬(t = .trioSolo ∨ t = .trioPair ∨ t = .trioChainSolo ∨ t = .trioChainPair) := by decide

section Find

variable (u : Undef) (lowestControl : Nat) (maxOppNumber : Int) (otherPoints : Points)

/-- A search without kickers finds the least higher key, or there is none and
it gives up. -/
theorem findHigherHandFromPoints_bare (hand : Hand) (points : Points) (higher : Hand)
    (hbare : hand.type ∈ HandType.bare) (hlen : isChain hand.type = true → 2 ≤ hand.len) :
    let found :=
      findHigherHandFromPoints u lowestControl maxOppNumber otherPoints hand points higher
    (found.type = hand.type ∧ found.len = (if isChain hand.type then hand.len else higher.len) ∧
      IsLeast {k | HigherKey hand.type.mult hand points k} found.keyPoint) ∨
      (found.type = .nothing ∧ ∀ k, ¬HigherKey hand.type.mult hand points k) := by
  intro found
  have hspec := findHigherBody_spec hand points higher.clear fun hc =>
    Nat.le_trans (Nat.le_succ 1) (hlen hc)
  rw [← bodyNumber_of_bare _ hbare]
  cases hspec with
  | inl hbody =>
    have htype : (findHigherBody hand points higher.clear).1.type = hand.type := by
      rw [hbody.hand_eq]
    have hfound : found = (findHigherBody hand points higher.clear).1 := by
      show findHigherHandFromPoints .. = _
      unfold findHigherHandFromPoints
      dsimp only
      rw [htype, if_neg (not_kicked_of_bare _ hbare)]
    rw [hfound]
    refine .inl ⟨htype, ?_, hbody.least⟩
    rw [hbody.hand_eq]
    rfl
  | inr hnone =>
    have hfound : found = higher.clear := by
      show findHigherHandFromPoints .. = _
      unfold findHigherHandFromPoints
      rw [hnone.2]
      rfl
    rw [hfound]
    exact .inr ⟨rfl, hnone.1⟩

/-- A search without kickers: it returns the least higher key that has a body
in the points, and nothing exactly when no key has one. The length is the
hand's for a chain and is left as it was for the other types. -/
theorem findHigherHandFromPoints_least (hand : Hand) (points : Points) (higher : Hand)
    (hbare : hand.type ∈ HandType.bare) (hlen : isChain hand.type = true → 2 ≤ hand.len) :
    let found :=
      findHigherHandFromPoints u lowestControl maxOppNumber otherPoints hand points higher
    (found.type = .nothing ↔ ∀ k, ¬HigherKey hand.type.mult hand points k) ∧
      (found.type ≠ .nothing → found.type = hand.type ∧
        found.len = (if isChain hand.type then hand.len else higher.len) ∧
        IsLeast {k | HigherKey hand.type.mult hand points k} found.keyPoint) := by
  intro found
  have hne : hand.type ≠ .nothing := by
    intro h
    rw [h] at hbare
    exact absurd hbare (by decide)
  rcases findHigherHandFromPoints_bare u lowestControl maxOppNumber otherPoints hand points higher
    hbare hlen with hfound | ⟨hnothing, hnone⟩
  · refine ⟨⟨fun h => ?_, fun h => absurd hfound.2.2.1 (h _)⟩, fun _ => hfound⟩
    exact absurd (hfound.1.symm.trans h) hne
  · exact ⟨⟨fun _ => hnone, fun _ => hnothing⟩, fun h => absurd hnothing h⟩

end Find

/-- Three pairs in a row, one rank up. -/
theorem findHigherHandFromPoints_least_pairs :
    let hand : Hand := { type := .pairChain, keyPoint := 0, len := 3 }
    let found := findHigherHandFromPoints .zero 12 0 .zero hand (.ofList [2, 2, 1, 2, 2, 2]) {}
    found.type = .pairChain ∧ found.len = 3 ∧
      IsLeast {k | HigherKey 2 hand (.ofList [2, 2, 1, 2, 2, 2]) k} found.keyPoint :=
  (findHigherHandFromPoints_least .zero 12 0 .zero { type := .pairChain, keyPoint := 0, len := 3 }
    (.ofList [2, 2, 1, 2, 2, 2]) {} (by decide) (fun _ => by decide)).2 (by decide)

/-- The length of a solo is not written: it stays what the hand passed in had. -/
theorem findHigherHandFromPoints_keeps_len : ¬∀ (u : Undef) (lowestControl : Nat)
    (maxOppNumber : Int) (otherPoints : Points) (hand : Hand) (points : Points) (higher : Hand),
    (∀ r, 0 ≤ points r) → hand.type ∈ HandType.bare → (isChain hand.type = true → 2 ≤ hand.len) →
      let found :=
        findHigherHandFromPoints u lowestControl maxOppNumber otherPoints hand points higher
      found.type ≠ .nothing → found.type = hand.type ∧ found.len = hand.len ∧
        IsLeast {k | HigherKey hand.type.mult hand points k} found.keyPoint := by
  intro h
  have hlen := (h .zero 12 0 .zero { type := .solo, keyPoint := 0, len := 1 } (.ofList [0, 1])
    { len := 5 } ?_ (by decide) (fun hc => absurd hc (by decide)) (by decide)).2.1
  · exact absurd hlen (by decide)
  · intro r
    match r with
    | 0 | 1 => decide
    | _ + 2 => exact Int.le_refl 0

/-! ## The key grows -/

/-- Where the chain search stops, whatever the length asked for: not before it
started, and at a rank. The length of a hand on the table is not checked here,
so it may be any. -/
theorem findChain_bounds (points : Points) (number : Int) (len : Nat) :
    ∀ (fuel i k : Nat), findChain points number len fuel i = some k → i ≤ k ∧ k ≤ redJoker := by
  intro fuel
  induction fuel with
  | zero => intro i k h; cases h
  | succ fuel ih =>
    intro i k h
    unfold findChain at h
    by_cases htop : i + len ≤ cardA + 1
    case neg =>
      rw [if_neg htop] at h
      cases h
    rw [if_pos htop] at h
    by_cases hn : number ≤ points i
    · rw [if_pos hn] at h
      have hforth := scanRun_forth points number len i cardPointNum i
      dsimp only at h
      split at h
      · cases h
        simp only [cardA, redJoker] at *
        omega
      · have := ih _ k h
        omega
    · rw [if_neg hn] at h
      have := ih _ k h
      omega

section Key

variable (u : Undef) (lowestControl : Nat) (maxOppNumber : Int) (otherPoints : Points)

/-- Looking for kickers keeps the key and the length. -/
theorem findKickerFromPoints_keeps (points : Points) (hand : Hand) :
    let r := findKickerFromPoints u lowestControl maxOppNumber otherPoints points hand
    r.2.keyPoint = hand.keyPoint ∧ r.2.len = hand.len := by
  intro r
  have hr : r = findKickerFromPoints u lowestControl maxOppNumber otherPoints points hand := rfl
  rw [hr]
  unfold findKickerFromPoints
  dsimp only
  split
  · split <;> exact ⟨rfl, rfl⟩
  · split
    · split <;> exact ⟨rfl, rfl⟩
    · split <;> exact ⟨rfl, rfl⟩

theorem findHigherBody_key (hand : Hand) (points : Points) (higher : Hand)
    (hnone : higher.type = .nothing)
    (hsome : (findHigherBody hand points higher).1.type ≠ .nothing) :
    hand.keyPoint < (findHigherBody hand points higher).1.keyPoint ∧
      (findHigherBody hand points higher).1.keyPoint ≤ redJoker := by
  revert hsome
  unfold findHigherBody
  dsimp only
  split
  · split
    next start hfind =>
      intro _
      have hb := findChain_bounds points _ hand.len _ _ start hfind
      have hpos : card3 < start := by
        show 0 < start
        omega
      rw [if_pos hpos]
      exact ⟨hb.1, hb.2⟩
    next => intro h; exact absurd hnone h
  · split
    next k hfind =>
      intro _
      have hin := List.mem_range'_1.mp (List.find?_range'_eq_some.mp hfind).2.1
      show hand.keyPoint < k ∧ k ≤ redJoker
      omega
    next => intro h; exact absurd hnone h

/-- A hand found has a higher key, and it is a rank. This is all that the end
of the loop around the search rests on; the kickers, which may be anything, do
not touch the key. -/
theorem findHigherHandFromPoints_key (hand : Hand) (points : Points) (higher : Hand)
    (hsome : (findHigherHandFromPoints u lowestControl maxOppNumber otherPoints hand points
      higher).type ≠ .nothing) :
    let found :=
      findHigherHandFromPoints u lowestControl maxOppNumber otherPoints hand points higher
    hand.keyPoint < found.keyPoint ∧ found.keyPoint ≤ redJoker := by
  have hbody := findHigherBody_key hand points higher.clear rfl
  revert hsome
  unfold findHigherHandFromPoints
  dsimp only
  split
  next hkick =>
    have hne : (findHigherBody hand points higher.clear).1.type ≠ .nothing := by
      intro h
      rw [h] at hkick
      exact absurd hkick (by decide)
    have hkeep := (findKickerFromPoints_keeps u lowestControl maxOppNumber otherPoints
      (findHigherBody hand points higher.clear).2 (findHigherBody hand points higher.clear).1).1
    split
    · intro _
      rw [hkeep]
      exact hbody hne
    · intro h
      exact absurd rfl h
  next => exact hbody

end Key

/-! ## The loop -/

namespace AI

section Loop

variable (u : Undef) (s : AI)

/-- What one round of the loop asks for. -/
def nextHigher (nowHand higher : Hand) : Hand :=
  findHigherHandFromPoints u s.lowestControl s.maxOppNumber s.otherPoints nowHand s.aiPoints higher

/-- A hand found, with what would be left after it. -/
def candidate (higher : Hand) : Candidate :=
  let copyPoints := pointsSub s.aiPoints (handToPointsArray higher)
  { higher
    control := calControl copyPoints s.otherPoints s.lowestControl
    summary :=
      (sortHandsWithBestKind u copyPoints s.lowestControl s.maxOppNumber s.otherPoints true).2 }

/-- The test of the loop for a hand to return at once. -/
def TakenAtOnce (c : Candidate) : Prop :=
  calHandControl c.higher s.lowestControl = 0
    ∧ (c.summary.effectiveHandsCount < s.summary.effectiveHandsCount
      ∨ c.summary.effectiveHandsCount = s.summary.effectiveHandsCount
        ∧ isChargeHand u c.higher s.maxOppNumber s.otherPoints (some s.handsMap))

/-- The test of the loop for a hand to collect. -/
def Collected (force : Bool) (c : Candidate) : Prop :=
  force ∨ c.summary.effectiveHandsCount - 2 < c.control
    ∨ c.summary.effectiveHandsCount - c.control ≤ s.summary.effectiveHandsCount - s.controlNum
    ∨ c.control + c.summary.extraBombCount ≥ 3

instance (c : Candidate) : Decidable (s.TakenAtOnce u c) :=
  inferInstanceAs (Decidable (_ ∧ (_ ∨ _ ∧ _)))

instance (force : Bool) (c : Candidate) : Decidable (s.Collected force c) :=
  inferInstanceAs (Decidable (_ ∨ _ ∨ _ ∨ _))

/-- `HigherRun nowHand higher acc rounds found r`: started on these hands with
the candidates `acc`, the loop ends after so many rounds in `r`, and finds the
hands `found`, one a round. -/
inductive HigherRun (force : Bool) :
    Hand → Hand → List Candidate → (rounds : Nat) → List Hand → Option Hand × List Candidate → Prop
  | stop {now higher : Hand} {acc : List Candidate}
      (hnone : (s.nextHigher u now higher).type = .nothing) :
      HigherRun force now higher acc 1 [] (none, acc)
  | take {now higher : Hand} {acc : List Candidate}
      (hsome : (s.nextHigher u now higher).type ≠ .nothing)
      (htaken : s.TakenAtOnce u (s.candidate u (s.nextHigher u now higher))) :
      HigherRun force now higher acc 1 [s.nextHigher u now higher]
        (some (s.nextHigher u now higher), acc)
  | next {now higher : Hand} {acc : List Candidate} {rounds : Nat} {found : List Hand}
      {r : Option Hand × List Candidate}
      (hsome : (s.nextHigher u now higher).type ≠ .nothing)
      (htaken : ¬s.TakenAtOnce u (s.candidate u (s.nextHigher u now higher)))
      (hrest : HigherRun force (s.nextHigher u now higher) (s.nextHigher u now higher)
        (if s.Collected force (s.candidate u (s.nextHigher u now higher)) then
          acc ++ [s.candidate u (s.nextHigher u now higher)] else acc) rounds found r) :
      HigherRun force now higher acc (rounds + 1) (s.nextHigher u now higher :: found) r

variable {u s}

/-- One round of `higherCandidates`: nothing found ends the loop, a hand to
take at once is returned, and any other is collected or left before the search
goes on from it. -/
theorem higherCandidates_succ (force : Bool) (fuel : Nat) (now higher : Hand)
    (acc : List Candidate) :
    s.higherCandidates u force (fuel + 1) now higher acc =
      if (s.nextHigher u now higher).type = .nothing then (none, acc)
      else if s.TakenAtOnce u (s.candidate u (s.nextHigher u now higher)) then
        (some (s.nextHigher u now higher), acc)
      else
        s.higherCandidates u force fuel (s.nextHigher u now higher) (s.nextHigher u now higher)
          (if s.Collected force (s.candidate u (s.nextHigher u now higher)) then
            acc ++ [s.candidate u (s.nextHigher u now higher)] else acc) := by
  have hnext : findHigherHandFromPoints u s.lowestControl s.maxOppNumber s.otherPoints now
    s.aiPoints higher = s.nextHigher u now higher := rfl
  rw [higherCandidates]
  dsimp only
  rw [hnext]
  by_cases hnone : (s.nextHigher u now higher).type = .nothing
  · rw [if_pos hnone, if_pos hnone]
  rw [if_neg hnone, if_neg hnone]
  split
  next htaken =>
    have ht : s.TakenAtOnce u (s.candidate u (s.nextHigher u now higher)) := by
      unfold TakenAtOnce candidate
      dsimp only
      exact htaken
    rw [if_pos ht]
  next htaken =>
    have ht : ¬s.TakenAtOnce u (s.candidate u (s.nextHigher u now higher)) := by
      unfold TakenAtOnce candidate
      dsimp only
      exact htaken
    rw [if_neg ht]
    split
    next hcoll =>
      have hc : s.Collected force (s.candidate u (s.nextHigher u now higher)) := by
        unfold Collected candidate
        dsimp only
        exact hcoll
      rw [if_pos hc]
      rfl
    next hcoll =>
      have hc : ¬s.Collected force (s.candidate u (s.nextHigher u now higher)) := by
        unfold Collected candidate
        dsimp only
        exact hcoll
      rw [if_neg hc]

/-- As many rounds as there are ranks above the hand, and one more, are enough:
each round but the last finds a hand with a higher key. -/
theorem higherCandidates_run (force : Bool) :
    ∀ (fuel : Nat) (now higher : Hand) (acc : List Candidate),
      redJoker - now.keyPoint + 1 ≤ fuel → ∃ rounds found,
        s.HigherRun u force now higher acc rounds found
          (s.higherCandidates u force fuel now higher acc) ∧
          rounds ≤ redJoker - now.keyPoint + 1 := by
  intro fuel
  induction fuel with
  | zero => intro now higher acc hf; omega
  | succ fuel ih =>
    intro now higher acc hf
    rw [higherCandidates_succ]
    split
    next hnone => exact ⟨1, [], .stop hnone, Nat.le_add_left 1 _⟩
    next hsome =>
      split
      next htaken => exact ⟨1, _, .take hsome htaken, Nat.le_add_left 1 _⟩
      next htaken =>
        -- the next round starts from a higher key
        have hkey := findHigherHandFromPoints_key u _ _ _ now s.aiPoints higher hsome
        have hkey' : now.keyPoint < (s.nextHigher u now higher).keyPoint ∧
          (s.nextHigher u now higher).keyPoint ≤ redJoker := hkey
        obtain ⟨rounds, found, hrun, hle⟩ := ih (s.nextHigher u now higher)
          (s.nextHigher u now higher) _ (by omega)
        exact ⟨rounds + 1, _, .next hsome htaken hrun, by omega⟩

/-- The loop has one outcome. -/
theorem HigherRun.unique {force : Bool} {now higher : Hand} {acc : List Candidate}
    {rounds : Nat} {found : List Hand} {r : Option Hand × List Candidate}
    (h : s.HigherRun u force now higher acc rounds found r) (fuel : Nat) (hf : rounds ≤ fuel) :
    s.higherCandidates u force fuel now higher acc = r := by
  induction h generalizing fuel with
  | stop hnone =>
    obtain ⟨fuel, rfl⟩ := Nat.exists_eq_add_of_le' hf
    rw [higherCandidates_succ, if_pos hnone]
  | take hsome htaken =>
    obtain ⟨fuel, rfl⟩ := Nat.exists_eq_add_of_le' hf
    rw [higherCandidates_succ, if_neg hsome, if_pos htaken]
  | next hsome htaken hrest ih =>
    obtain ⟨fuel, rfl⟩ := Nat.exists_eq_add_of_le' (Nat.le_trans (Nat.le_add_left 1 _) hf)
    rw [higherCandidates_succ, if_neg hsome, if_neg htaken]
    exact ih fuel (by omega)

/-- The keys along a run: each hand found is higher than the one before, from
the current hand on, and all keys are ranks. -/
theorem HigherRun.keys {force : Bool} {now higher : Hand} {acc : List Candidate}
    {rounds : Nat} {found : List Hand} {r : Option Hand × List Candidate}
    (h : s.HigherRun u force now higher acc rounds found r) :
    (now.keyPoint :: found.map Hand.keyPoint).IsChain (· < ·) ∧
      ∀ h ∈ found, h.keyPoint ≤ redJoker := by
  induction h with
  | stop hnone => exact ⟨.singleton _, fun h hm => absurd hm List.not_mem_nil⟩
  | @take now higher acc hsome htaken =>
    have hkey := findHigherHandFromPoints_key u _ _ _ now s.aiPoints higher hsome
    refine ⟨.cons_cons hkey.1 (.singleton _), fun h hm => ?_⟩
    rw [List.mem_singleton.mp hm]
    exact hkey.2
  | @next now higher acc rounds found r hsome htaken hrest ih =>
    have hkey := findHigherHandFromPoints_key u _ _ _ now s.aiPoints higher hsome
    refine ⟨.cons_cons hkey.1 ih.1, fun h hm => ?_⟩
    cases List.mem_cons.mp hm with
    | inl heq =>
      rw [heq]
      exact hkey.2
    | inr hin => exact ih.2 h hin

/-- What the loop ends with are hands it has found, or candidates it was given.
The induction is on the run, and a candidate of a round carries the hand found
in it. -/
theorem HigherRun.mem {force : Bool} {now higher : Hand} {acc : List Candidate}
    {rounds : Nat} {found : List Hand} {r : Option Hand × List Candidate}
    (h : s.HigherRun u force now higher acc rounds found r) :
    (∀ h, r.1 = some h → h ∈ found) ∧ ∀ c ∈ r.2, c ∈ acc ∨ c.higher ∈ found := by
  induction h with
  | stop hnone => exact ⟨fun h hr => (by cases hr), fun c hc => Or.inl hc⟩
  | take hsome htaken =>
    refine ⟨fun h hr => ?_, fun c hc => Or.inl hc⟩
    cases hr
    exact List.mem_singleton_self _
  | @next now higher acc rounds found r hsome htaken hrest ih =>
    refine ⟨fun h hr => List.mem_cons_of_mem _ (ih.1 h hr), fun c hc => ?_⟩
    cases ih.2 c hc with
    | inr hin => exact Or.inr (List.mem_cons_of_mem _ hin)
    | inl hacc =>
      split at hacc
      · cases List.mem_append.mp hacc with
        | inl hold => exact Or.inl hold
        | inr hnew =>
          rw [List.mem_singleton.mp hnew]
          exact Or.inr List.mem_cons_self
      · exact Or.inl hacc

/-- Every hand found has a key above the one the loop started from. -/
theorem HigherRun.above {force : Bool} {now higher : Hand} {acc : List Candidate}
    {rounds : Nat} {found : List Hand} {r : Option Hand × List Candidate}
    (h : s.HigherRun u force now higher acc rounds found r) :
    ∀ h ∈ found, now.keyPoint < h.keyPoint := by
  intro h' hm
  have hpair := List.isChain_iff_pairwise.mp h.keys.1
  exact List.rel_of_pairwise_cons hpair (List.mem_map_of_mem hm)

/-- The candidate chosen is one of the candidates. -/
theorem bestCandidate_mem (s : AI) (lordOnly1Card : Bool) :
    ∀ (cs : List Candidate) (c : Candidate),
      cs.foldl (fun cur c => if s.betterCandidate lordOnly1Card cur c then c else cur) c ∈ c :: cs
    := by
  intro cs
  induction cs with
  | nil => intro c; exact List.mem_singleton_self c
  | cons c' cs ih =>
    intro c
    rw [List.foldl_cons]
    split
    · exact List.mem_cons_of_mem c (ih c')
    · cases List.mem_cons.mp (ih c) with
      | inl heq =>
        rw [heq]
        exact List.mem_cons_self
      | inr hin => exact List.mem_cons_of_mem c (List.mem_cons_of_mem c' hin)

/-- A hand `findBestHigherHandFromPoints` returns has been found in a round: it
is the one taken at once or the best of the candidates, and `NOTHING` when
there are none. -/
theorem HigherRun.chosen {force : Bool} {rounds : Nat} {found : List Hand}
    (hrun : s.HigherRun u force s.curHand u.hand [] rounds found
      (s.higherCandidates u force cardPointNum s.curHand u.hand []))
    (hand : Hand) (lordOnly1Card : Bool)
    (hsome : (s.findBestHigherHandFromPoints u hand force lordOnly1Card).type ≠ .nothing) :
    s.findBestHigherHandFromPoints u hand force lordOnly1Card ∈ found := by
  have hmem := hrun.mem
  revert hsome
  unfold findBestHigherHandFromPoints
  generalize hr : s.higherCandidates u force cardPointNum s.curHand u.hand [] = r at hmem ⊢
  obtain ⟨once, cs⟩ := r
  cases once with
  | some h => exact fun _ => hmem.1 h rfl
  | none =>
    cases cs with
    | nil => exact fun h => absurd rfl h
    | cons c cs =>
      intro _
      cases hmem.2 _ (bestCandidate_mem s lordOnly1Card cs c) with
      | inl hnil => exact absurd hnil List.not_mem_nil
      | inr hin => exact hin

variable (u s)

/-- The loop of `findBestHigherHandFromPoints` ends: it runs at most once for
each rank from the current key on, the keys of the hands it finds grow and stay
ranks, and a hand it chooses is higher than the current one. -/
theorem findBestHigherHandFromPoints_ends (hand : Hand) (force lordOnly1Card : Bool) :
    ∃ rounds found r,
      s.HigherRun u force s.curHand u.hand [] rounds found r ∧
      rounds ≤ redJoker - s.curHand.keyPoint + 1 ∧
      (s.curHand.keyPoint :: found.map Hand.keyPoint).IsChain (· < ·) ∧
      (∀ h ∈ found, h.keyPoint ≤ redJoker) ∧
      (∀ fuel, rounds ≤ fuel → s.higherCandidates u force fuel s.curHand u.hand [] = r) ∧
      ((s.findBestHigherHandFromPoints u hand force lordOnly1Card).type ≠ .nothing →
        s.curHand.keyPoint <
          (s.findBestHigherHandFromPoints u hand force lordOnly1Card).keyPoint) := by
  obtain ⟨rounds, found, hrun, hrounds⟩ :=
    higherCandidates_run force cardPointNum s.curHand u.hand []
      (Nat.le_trans (Nat.succ_le_succ (Nat.sub_le redJoker s.curHand.keyPoint)) (by decide))
  refine ⟨rounds, found, _, hrun, hrounds, hrun.keys.1, hrun.keys.2, hrun.unique, ?_⟩
  intro hsome
  exact hrun.above _ (hrun.chosen hand lordOnly1Card hsome)

end Loop

end AI

end RobotDdz
