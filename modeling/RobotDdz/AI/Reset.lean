import RobotDdz.AI.Deal
import Mathlib.Data.List.Find

/-!
# One robot, game after game

`RbtResetData` and the three calls that rebuild a robot in the middle of a game:
`RbtInSetSeat`, `RbtInSetCard` and `RbtInTakeOutRecord`.

A robot object plays many games. `no_leakage`: whatever two robots of one level
played before, after a reset, a deal and the lord they agree on every field a
later call reads. Two things outlive the reset and have to be shown harmless.
`remainPoints[CARD_LZ]` is written by nobody, so the counts agree up to the red
joker only, and the analysis reads no further (`SameRanks`). And `handsMap` is
not cleared, since the source declares a local variable of that name; the deal
computes it anew.

What has to be shown has two halves. The first is that the analysis reads its
counts up to the red joker only: one congruence for each function of
`AIUtils.cpp` that the deal calls, from `noneAbove` up to
`sortHandsWithBestKind` and `calControl`. The second is that a reset robot with
the surviving fields wiped (`washed`) gives after the deal and the lord the
same robot as one that was not wiped (`start_washed`): the deal computes
`handsMap` and the control figures anew, and `RbtInSetLord` computes the role.

Mirroring notes vs `OGLordRobotAI.cpp`:
- `RbtResetData` fills `remainPoints` from `CARD_3` to `CARD_RED_JOKER`. The
  array is one longer, and the last entry keeps whatever it held.
- `RbtResetData` declares `HandsMap handsMap` and clears that. The member of
  this name is not cleared.
- `RbtInSetCard` adds to the robot's total where `RbtInInitCard` sets it; after
  a reset this makes no difference, since the reset clears the total.
- The level outlives the reset by design and is an assumption here: two robots
  of different levels play differently.
-/

namespace RobotDdz

open Loops AI

namespace AI

/-- `RbtResetData`. The `handsMap` it declares is a local variable. -/
def rbtResetData (s : AI) : AI :=
  { s with
    aiSeat := -1, lordSeat := -1, downSeat := -1, upSeat := -1
    leftoverCards := [], aiCardsVec := []
    playerInfo := fun i => if 0 ≤ i ∧ i < 3 then {} else s.playerInfo i
    remainPoints := freshRemain s.remainPoints
    summary := { lowestSolo := 0, sencondLowestSolo := 0 }
    uniHighHandCount := fun _ => 0, highHandCount := fun _ => 0, goodLowHandCount := fun _ => 0
    handsTrioCount := -1, controlNum := -1, maxOppNumber := -1, minOppNumber := -1
    curScore := -1, curCaller := -1, curHand := {}, curHandSeat := -1
    callHistory := [], history := [], vecLastTakeOutCards := [] }

/-- `RbtInSetSeat`. For a lord seat below `-1` the two remainders would be
negative in C. -/
def rbtInSetSeat (s : AI) (argMySeat argLordSeat : Int) : AI :=
  updateAiPosition { s with
    aiSeat := argMySeat, lordSeat := argLordSeat
    downSeat := (argLordSeat + 1) % 3, upSeat := (argLordSeat + 2) % 3 }

/-- `RbtInSetCard` before it sorts. The robot's total is added to. -/
def setCards (s : AI) (argInitCard : List Int) : AI :=
  { s with
    aiCardsVec := argInitCard
    playerInfo := fun i =>
      if 0 ≤ i ∧ i < 3 then
        if i = s.aiSeat then
          { points := cardVecToPointArr argInitCard, total := s.total i + argInitCard.length }
        else { s.playerInfo i with points := fun _ => -1 }
      else s.playerInfo i }

/-- `RbtInSetCard`; the bottom cards are not looked at. -/
def rbtInSetCard (u : Undef) (s : AI) (argInitCard _argReceiveCard : List Int) : AI :=
  (s.setCards argInitCard).sortHandMap u

/-- One round of `RbtInTakeOutRecord`. -/
def recordTakeOut (s : AI) (p : Int × List Int) : AI :=
  let points := cardVecToPointArr p.2
  { s with
    remainPoints := pointsSub s.remainPoints points
    history := s.history ++ [(p.1, getHand points)] }

/-- `RbtInTakeOutRecord`, for as many plays as seats. -/
def rbtInTakeOutRecord (s : AI) (argTakeOutSeat : List Int)
    (argTakeOutRecord : List (List Int)) : AI :=
  let s := { s with remainPoints := freshRemain s.remainPoints }
  let s := (argTakeOutSeat.zip argTakeOutRecord).foldl recordTakeOut s
  { s with otherPoints := pointsSub s.remainPoints s.aiPoints }

end AI

/-! ## What the analysis reads of the others' cards -/

/-- Counts that agree up to the red joker. -/
def SameRanks (p q : Points) : Prop := ∀ r, r ≤ redJoker → p r = q r

section Reads

variable {u u' : Undef} {p q : Points}

/-- The scan for a higher hand stops at the red joker at the latest. -/
theorem noneAbove_congr (h : SameRanks p q) (keyPoint : Nat) {top : Nat} (ht : top ≤ redJoker)
    (n : Int) : noneAbove p keyPoint top n = noneAbove q keyPoint top n := by
  unfold noneAbove
  rw [Bool.eq_iff_iff, List.all_eq_true, List.all_eq_true]
  apply forall₂_congr
  intro i hi
  rw [List.mem_range'_1] at hi
  rw [h i (by omega)]

/-- A run of solos ends below the jokers, so it ends before the counts can
differ. -/
theorem runLength_congr (h : SameRanks p q) (start : Nat) :
    runLength p start = runLength q start := by
  have hcond : (fun e => decide (e ≤ cardA) && decide (0 < p e))
      = fun e => decide (e ≤ cardA) && decide (0 < q e) := by
    funext e
    by_cases he : e ≤ cardA
    · rw [h e (by simp only [cardA, redJoker] at *; omega)]
    · simp [he]
  unfold runLength
  rw [hcond]

/-- The longest run above a hand, from the run at each start. -/
theorem maxRunAbove_congr (h : SameRanks p q) (hand : Hand) :
    maxRunAbove p hand = maxRunAbove q hand := by
  unfold maxRunAbove
  simp only [runLength_congr h]

/-- The highest chain among the others' cards is looked for below the jokers. -/
theorem getHighestSoloChain_congr (h : SameRanks p q) (len : Nat) :
    getHighestSoloChain p len = getHighestSoloChain q len := by
  have hfrom : ∀ (ranks : List Nat), (∀ i ∈ ranks, i ≤ redJoker) → ∀ e start : Int,
      highestSoloChainFrom p len ranks e start = highestSoloChainFrom q len ranks e start := by
    intro ranks
    induction ranks with
    | nil => intro _ e start; rfl
    | cons i is ih =>
      intro hle e start
      have hi := hle i List.mem_cons_self
      have hrest := ih fun j hj => hle j (List.mem_cons_of_mem _ hj)
      unfold highestSoloChainFrom
      simp only [h i hi, hrest]
  unfold getHighestSoloChain
  apply hfrom
  decide

/-- The same for the highest trio. -/
theorem getHighestTrio_congr (h : SameRanks p q) : getHighestTrio p = getHighestTrio q := by
  unfold getHighestTrio
  rw [List.find?_congr fun i hi => by
    rw [h i (by rw [List.mem_range] at hi; simp only [card2, redJoker] at *; omega)]]

/-- Whether a hand is a charge by itself. The only undefined read of the
analysis is past the table of chain lengths, so the two memories have to agree
there. -/
theorem isChargeAlone_congr (hu : u.chargeLen = u'.chargeLen) (h : SameRanks p q) (hand : Hand)
    (n : Int) : isChargeAlone u hand n p = isChargeAlone u' hand n q := by
  unfold isChargeAlone soloChainChargeLen
  simp only [noneAbove_congr h _ (show redJoker ≤ redJoker from Nat.le_refl _),
    noneAbove_congr h _ (show card2 ≤ redJoker by decide), maxRunAbove_congr h, hu]

/-- Whether a hand of the map is a charge: it goes by the ranks above its key. -/
theorem isChargeInMap_congr (h : SameRanks p q) (hand : Hand) (m : HandsMap) :
    isChargeInMap hand p m = isChargeInMap hand q m := by
  unfold isChargeInMap
  simp only [getHighestSoloChain_congr h, getHighestTrio_congr h]

/-- The summary of one hand reads the others' cards through the charge tests
only. -/
theorem summariseHand_congr (hu : u.chargeLen = u'.chargeLen) (h : SameRanks p q)
    (lowestControl : Nat) (n : Int) :
    summariseHand u lowestControl n p = summariseHand u' lowestControl n q := by
  funext x hand
  unfold summariseHand isChargeHand isChargeTouch
  simp only [isChargeAlone_congr hu h, isChargeInMap_congr h]

/-- The summary of a whole map, as a fold over its hands. -/
theorem getHandsMapSummary_congr (hu : u.chargeLen = u'.chargeLen) (h : SameRanks p q)
    (lowestControl : Nat) (n : Int) (m : HandsMap) :
    getHandsMapSummary u lowestControl n p m = getHandsMapSummary u' lowestControl n q m := by
  have hkey : summariseKey u lowestControl n p = summariseKey u' lowestControl n q := by
    funext x t
    unfold summariseKey
    rw [summariseHand_congr hu h]
  unfold getHandsMapSummary
  rw [hkey]

/-- The best of the splits is chosen by their summaries, which agree. -/
theorem sortHandsWithBestKind_congr (hu : u.chargeLen = u'.chargeLen) (h : SameRanks p q)
    (points : Points) (lowestControl : Nat) (n : Int) (searchKicker : Bool) :
    sortHandsWithBestKind u points lowestControl n p searchKicker
      = sortHandsWithBestKind u' points lowestControl n q searchKicker := by
  unfold sortHandsWithBestKind kindSummary
  simp only [getHandsMapSummary_congr hu h]

/-- Two scans of `calControl` that differ beyond the red joker only. -/
structure ScanAgree (x y : ControlScan) : Prop where
  myCon : x.myCon = y.myCon
  oppCon : SameRanks x.oppCon y.oppCon
  myConNum : x.myConNum = y.myConNum
  oppConNum : x.oppConNum = y.oppConNum
  ret : x.ret = y.ret
  mine : x.mine = y.mine
  last : x.last = y.last

/-- One rank of the scan for controls. Below the limit it reads and writes
counts in which the two scans agree. -/
theorem ScanAgree.controlRank {x y : ControlScan} (h : ScanAgree x y) {i : Nat}
    (hi : i ≤ redJoker) : ScanAgree (controlRank i x) (controlRank i y) := by
  obtain ⟨myCon, p, myConNum, oppConNum, ret, mine, last⟩ := x
  obtain ⟨_, q, _, _, _, _, _⟩ := y
  obtain ⟨rfl, hopp, rfl, rfl, rfl, rfl, rfl⟩ := h
  have hopp : SameRanks p q := hopp
  have hat : p i = q i := hopp i hi
  unfold RobotDdz.controlRank
  simp only [hat]
  split
  · split
    · exact ⟨rfl, hopp, rfl, rfl, rfl, rfl, rfl⟩
    · exact ⟨rfl, hopp, rfl, rfl, rfl, rfl, rfl⟩
  · split
    · refine ⟨rfl, fun r hr => ?_, rfl, rfl, rfl, rfl, rfl⟩
      show Function.update p i _ r = Function.update q i _ r
      rw [Function.update_apply, Function.update_apply, hopp r hr]
    · exact ⟨rfl, hopp, rfl, rfl, rfl, rfl, rfl⟩

/-- One round over the ranks. The round begins at the lowest control and ends
at the red joker. -/
theorem ScanAgree.controlRound {x y : ControlScan} (h : ScanAgree x y) (lowestControl : Nat) :
    ScanAgree (controlRound lowestControl x) (controlRound lowestControl y) := by
  have hscan : ScanAgree
      (forUp RobotDdz.controlRank lowestControl (redJoker + 1 - lowestControl)
        { x with mine := true, last := none })
      (forUp RobotDdz.controlRank lowestControl (redJoker + 1 - lowestControl)
        { y with mine := true, last := none }) :=
    forUp_rel ScanAgree _ _ (fun i x y _ hlt hxy => hxy.controlRank (by omega))
      ⟨h.myCon, h.oppCon, h.myConNum, h.oppConNum, h.ret, rfl, rfl⟩
  unfold RobotDdz.controlRound
  revert hscan
  generalize forUp RobotDdz.controlRank lowestControl (redJoker + 1 - lowestControl)
    { x with mine := true, last := none } = x'
  generalize forUp RobotDdz.controlRank lowestControl (redJoker + 1 - lowestControl)
    { y with mine := true, last := none } = y'
  intro hscan
  obtain ⟨myCon, p, myConNum, oppConNum, ret, mine, last⟩ := x'
  obtain ⟨_, q, _, _, _, _, _⟩ := y'
  obtain ⟨rfl, hopp, rfl, rfl, rfl, rfl, rfl⟩ := hscan
  dsimp only
  split <;> exact ⟨rfl, hopp, rfl, rfl, rfl, rfl, rfl⟩

/-- The number of controls a robot counts is the same for counts that agree up
to the red joker. -/
theorem calControl_congr (h : SameRanks p q) (myPoints : Points) (lowestControl : Nat) :
    calControl myPoints p lowestControl = calControl myPoints q lowestControl := by
  have hsum : intSum p (List.range' lowestControl (redJoker + 1 - lowestControl))
      = intSum q (List.range' lowestControl (redJoker + 1 - lowestControl)) := by
    rw [intSum_eq, intSum_eq]
    congr 2
    apply List.map_congr_left
    intro r hr
    rw [List.mem_range'_1] at hr
    exact h r (by omega)
  have hloop : ∀ (fuel : Nat) (n m : Int), ScanAgree
      (whileLoop (fun x => decide (0 < x.myConNum) && decide (0 < x.oppConNum))
        (controlRound lowestControl) fuel
        { myCon := myPoints, oppCon := p, myConNum := n, oppConNum := m })
      (whileLoop (fun x => decide (0 < x.myConNum) && decide (0 < x.oppConNum))
        (controlRound lowestControl) fuel
        { myCon := myPoints, oppCon := q, myConNum := n, oppConNum := m }) :=
    fun fuel n m => whileLoop_rel ScanAgree
      (fun x y hxy => by rw [hxy.myConNum, hxy.oppConNum])
      (fun x y hxy _ => hxy.controlRound lowestControl) fuel ⟨rfl, h, rfl, rfl, rfl, rfl, rfl⟩
  unfold calControl
  simp only [hsum, (hloop _ _ _).ret, (hloop _ _ _).myConNum]

end Reads

/-! ## Two robots in one game -/

/-- Robots that no later call tells apart: the same players, the same counts up
to the red joker, and every other field equal. -/
structure SameGame (s s' : AI) : Prop where
  playerInfo : ∀ i, Seat i → s'.playerInfo i = s.playerInfo i
  remainPoints : SameRanks s'.remainPoints s.remainPoints
  otherPoints : SameRanks s'.otherPoints s.otherPoints
  rest : s' = { s with
    playerInfo := s'.playerInfo, remainPoints := s'.remainPoints, otherPoints := s'.otherPoints }

namespace SameGame

variable {u u' : Undef} {s s' : AI}

/-- Reading any other field. -/
theorem read {α : Type} (h : SameGame s s') (f : AI → α)
    (hf : ∀ (s : AI) (info : Int → CardsInfo) (remain other : Points),
      f { s with playerInfo := info, remainPoints := remain, otherPoints := other } = f s
        := by intros; rfl) : f s' = f s := by
  rw [h.rest]
  exact hf ..

/-- The robot's own points, since it sits at the table. -/
theorem aiPoints (h : SameGame s s') (hs : Seat s.aiSeat) : s'.aiPoints = s.aiPoints := by
  have hseat := h.read AI.aiSeat
  unfold AI.aiPoints
  rw [hseat, h.playerInfo _ hs]

/-- A player's number of cards, for the three seats of the table. -/
theorem total (h : SameGame s s') {i : Int} (hi : Seat i) : s'.total i = s.total i := by
  unfold AI.total
  rw [h.playerInfo i hi]

/-- The opponents' numbers of cards come from the players of the table, and
those two robots of one game have in common. Memory outside the table is not
read. -/
theorem countOpponents (h : SameGame s s') (hl : s.lordSeat = -1 ∨ Seat s.lordSeat) :
    SameGame s.countOpponents s'.countOpponents := by
  have htotal : ∀ i, Seat i → s'.total i = s.total i := fun i hi => h.total hi
  have hopp : ∀ i ∈ s.oppSeats, Seat i := by
    intro i hi
    have hmem := (List.mem_filter.mp hi).1
    unfold Seat
    simp only [List.mem_cons, List.not_mem_nil, or_false] at hmem
    omega
  have hseats := h.read AI.oppSeats
  have hlord := h.read AI.lordSeat
  have hai := h.read AI.aiSeat
  obtain ⟨hinfo, hremain, hother, hrest⟩ := h
  have hmax : s.oppSeats.foldl (fun n i => max n (s'.total i)) 0
      = s.oppSeats.foldl (fun n i => max n (s.total i)) 0 :=
    List.foldl_ext _ _ _ fun n i hi => by rw [htotal i (hopp i hi)]
  have hmin : s.oppSeats.foldl (fun n i => min n (s'.total i)) 20
      = s.oppSeats.foldl (fun n i => min n (s.total i)) 20 :=
    List.foldl_ext _ _ _ fun n i hi => by rw [htotal i (hopp i hi)]
  unfold AI.countOpponents
  rw [hlord, hai, hseats, hmax, hmin]
  split
  next => exact ⟨hinfo, hremain, hother, by rw [hrest]⟩
  next hfarmer =>
    have hseat : Seat s.lordSeat := by
      rcases hl with hl | hl
      · exact absurd (Or.inl hl) hfarmer
      · exact hl
    rw [htotal _ hseat]
    exact ⟨hinfo, hremain, hother, by rw [hrest]⟩

/-- Sorting the hand keeps two robots indistinguishable: all that it reads
agrees. -/
theorem sortHandMap (hu : u.chargeLen = u'.chargeLen) (h : SameGame s s') (hs : Seat s.aiSeat)
    (hl : s.lordSeat = -1 ∨ Seat s.lordSeat) :
    SameGame (s.sortHandMap u) (s'.sortHandMap u') := by
  have hc := h.countOpponents hl
  have hai : s.countOpponents.aiSeat = s.aiSeat := by unfold AI.countOpponents; split <;> rfl
  have hpoints := hc.aiPoints (by rw [hai]; exact hs)
  have hother : SameRanks s.countOpponents.otherPoints s'.countOpponents.otherPoints :=
    fun r hr => (hc.otherPoints r hr).symm
  have hlow := hc.read AI.lowestControl
  have hmax := hc.read AI.maxOppNumber
  obtain ⟨hinfo, hremain, hother', hrest⟩ := hc
  unfold AI.sortHandMap
  simp only []
  rw [hpoints, hlow, hmax, ← sortHandsWithBestKind_congr hu hother]
  exact ⟨hinfo, hremain, hother', by rw [hrest]⟩

/-- Writing the same cards to the same seat on both sides. -/
theorem setInfo (h : SameGame s s') (seat : Int) {cards cards' : CardsInfo}
    (hc : cards' = cards) : SameGame (s.setInfo seat cards) (s'.setInfo seat cards') := by
  obtain ⟨hinfo, hremain, hother, hrest⟩ := h
  unfold AI.setInfo
  refine ⟨fun i hi => ?_, hremain, hother, by rw [hrest]⟩
  show Function.update s'.playerInfo seat cards' i = Function.update s.playerInfo seat cards i
  rw [Function.update_apply, Function.update_apply, hc, hinfo i hi]

/-- A robot that looks the same differs in three fields only. -/
theorem cases_eq (h : SameGame s s') : ∃ info remain other,
    (∀ i, Seat i → info i = s.playerInfo i) ∧ SameRanks remain s.remainPoints ∧
      SameRanks other s.otherPoints ∧
      s' = { s with playerInfo := info, remainPoints := remain, otherPoints := other } :=
  ⟨_, _, _, h.playerInfo, h.remainPoints, h.otherPoints, h.rest⟩

/-- The seats that `RbtInSetLord` writes, and the bottom cards as it stores
them. -/
theorem seatLord (h : SameGame s s') {lord : Int} (hl : Seat lord) (bottom : List Int) :
    SameGame (s.seatLord lord bottom) (s'.seatLord lord bottom) := by
  obtain ⟨info, remain, other, hinfo, hremain, hother, rfl⟩ := h.cases_eq
  unfold AI.seatLord AI.updateAiPosition
  dsimp only
  exact setInfo ⟨hinfo, hremain, hother, rfl⟩ lord (by rw [hinfo lord hl])

/-- One bottom card: it joins the hand if the robot is the lord, and the lord's
points where they are known. Both robots do the same. -/
theorem takeLeftover (h : SameGame s s') (hl : Seat s.lordSeat) (card : Int) :
    SameGame (AI.takeLeftover s card) (AI.takeLeftover s' card) := by
  obtain ⟨info, remain, other, hinfos, hremain, hother, rfl⟩ := h.cases_eq
  have hinfo := hinfos _ hl
  unfold AI.takeLeftover
  by_cases he : s.lordSeat = s.aiSeat
  · simp only [he, if_true, true_or]
    rw [he] at hinfo
    exact setInfo ⟨hinfos, hremain, hother, rfl⟩ _ (by simp only [hinfo])
  · simp only [he, if_false, false_or]
    rw [hinfo]
    split
    · exact setInfo ⟨hinfos, hremain, hother, rfl⟩ _ rfl
    · exact ⟨hinfos, hremain, hother, rfl⟩

/-- Setting the lord as a whole: the seats, and then the bottom cards one by one. -/
theorem rbtInSetLord (h : SameGame s s') {lord : Int} (hl : Seat lord) (bottom : List Int) :
    SameGame (s.rbtInSetLord lord bottom) (s'.rbtInSetLord lord bottom) := by
  have hfold : ∀ (cards : List Int) (s s' : AI), SameGame s s' → Seat s.lordSeat →
      SameGame (cards.foldl AI.takeLeftover s) (cards.foldl AI.takeLeftover s') := by
    intro cards
    induction cards with
    | nil => intro s s' h _; exact h
    | cons card cards ih =>
      intro s s' h hl
      apply ih _ _ (h.takeLeftover hl card)
      rw [(AI.takeLeftover_spec s card).2.1]
      exact hl
  exact hfold _ _ _ (h.seatLord hl bottom) hl

/-- The control count of the deal, which the scan lemmas make the same on both
sides. -/
theorem countControl (h : SameGame s s') (hs : Seat s.aiSeat) :
    SameGame
      { s with
        controlNum := calControl s.aiPoints s.otherPoints s.lowestControl, mustHighLevel := false }
      { s' with
        controlNum := calControl s'.aiPoints s'.otherPoints s'.lowestControl
        mustHighLevel := false } := by
  have hpoints := h.aiPoints hs
  have hlow := h.read AI.lowestControl
  obtain ⟨hinfo, hremain, hother, hrest⟩ := h
  rw [hpoints, hlow, calControl_congr hother]
  exact ⟨hinfo, hremain, hother, by rw [hrest]⟩

end SameGame

section Leakage

variable {u u' : Undef} {s s' : AI}

/-- Two resets leave the same counts up to the red joker, whatever was in the
array before. Above it they may differ, and this is all that survives there. -/
theorem freshRemain_sameRanks (p q : Points) : SameRanks (freshRemain p) (freshRemain q) := by
  intro r hr
  unfold freshRemain
  rw [if_pos hr, if_pos hr]

/-- A reset robot with the three fields that survive it wiped. -/
def washed (s : AI) : AI :=
  { s.rbtResetData with aiPosition := .lord, handsMap := .empty, mustHighLevel := false }

/-- The deal computes two of them anew and reads none. -/
theorem rbtInInitCard_washed (u : Undef) (s : AI) (seat : Int) (cards : List Int) :
    s.rbtResetData.rbtInInitCard u seat cards
      = { (washed s).rbtInInitCard u seat cards with aiPosition := s.aiPosition } := by
  unfold rbtInInitCard sortHandMap countOpponents washed
  dsimp only
  split <;> rfl

/-- Setting the lord computes the third. -/
theorem rbtInSetLord_position (s : AI) (position : Position) (lord : Int) (bottom : List Int) :
    { s with aiPosition := position }.rbtInSetLord lord bottom = s.rbtInSetLord lord bottom := rfl

/-- The start of a game forgets the surviving fields: it ends in the same robot
as from the wiped one. Here the three fields that `RbtResetData` leaves are
accounted for. -/
theorem start_washed (u : Undef) (s : AI) (seat : Int) (cards : List Int) (lord : Int)
    (bottom : List Int) : (s.rbtResetData.rbtInInitCard u seat cards).rbtInSetLord lord bottom
      = ((washed s).rbtInInitCard u seat cards).rbtInSetLord lord bottom := by
  rw [rbtInInitCard_washed]
  exact rbtInSetLord_position ..

/-- A deal after a reset: only the counts beyond the red joker, and what no
seat of the table holds, come from the past. -/
theorem sameGame_washed (hu : u.chargeLen = u'.chargeLen) (hlevel : s.level = s'.level)
    {seat : Int} (hs : Seat seat) (cards : List Int) :
    SameGame ((washed s).rbtInInitCard u seat cards) ((washed s').rbtInInitCard u' seat cards) := by
  have hseat : ∀ s : AI, (s.sortHandMap u).aiSeat = s.aiSeat := by
    intro s
    obtain ⟨_, _, _, _, heq⟩ := s.sortHandMap_eq u
    rw [heq]
  have hremain := freshRemain_sameRanks (freshRemain s'.remainPoints) (freshRemain s.remainPoints)
  have hs' : 0 ≤ seat ∧ seat < 3 := hs
  unfold rbtInInitCard washed rbtResetData
  refine SameGame.countControl (SameGame.sortHandMap hu ⟨?_, hremain, ?_, ?_⟩ hs (Or.inl rfl)) ?_
  · intro i hi
    have hi' : 0 ≤ i ∧ i < 3 := hi
    dsimp only
    rw [if_pos hi', if_pos hi']
  · intro r hr
    dsimp only [pointsSub, aiPoints]
    rw [hremain r hr, if_pos hs', if_pos hs']
  · rw [hlevel]
  · rw [hseat]
    exact hs

/-- No leakage between games: whatever two robots of one level have played,
after a reset, a deal and the lord no later call tells them apart. -/
theorem no_leakage (hu : u.chargeLen = u'.chargeLen) (hlevel : s.level = s'.level)
    {seat lord : Int} (hs : Seat seat) (hl : Seat lord) (cards bottom : List Int) :
    SameGame ((s.rbtResetData.rbtInInitCard u seat cards).rbtInSetLord lord bottom)
      ((s'.rbtResetData.rbtInInitCard u' seat cards).rbtInSetLord lord bottom) := by
  have hgame := (sameGame_washed hu hlevel hs cards).rbtInSetLord hl bottom
  rw [← start_washed u s, ← start_washed u' s'] at hgame
  exact hgame

/-- A robot of level 1 that has played nothing. -/
def freshRobot : AI := { level := 1 }

/-- A robot that stopped in the middle of a game as the lord. -/
def interruptedRobot : AI :=
  { level := 1, aiSeat := 0, lordSeat := 0, downSeat := 1, upSeat := 2
    aiCardsVec := [1, 2, 3], vecLastTakeOutCards := [0, 13], leftoverCards := [51, 52, 53]
    playerInfo := fun _ => ⟨fun _ => 3, 12⟩, remainPoints := fun _ => 2, otherPoints := fun _ => 1
    curHand := { type := .pair, keyPoint := card3 }, curHandSeat := 0, curScore := 3, curCaller := 0
    callHistory := [(0, 3)], history := [(0, { type := .pair, keyPoint := card3 })]
    mustHighLevel := true }

/-- It starts the next game like one fresh from the constructor. -/
theorem no_leakage_interrupted :
    SameGame
      ((freshRobot.rbtResetData.rbtInInitCard .zero 1 (orderedDeal.hand 1)).rbtInSetLord 2
        orderedDeal.bottom)
      ((interruptedRobot.rbtResetData.rbtInInitCard .zero 1 (orderedDeal.hand 1)).rbtInSetLord 2
        orderedDeal.bottom) :=
  @no_leakage .zero .zero freshRobot interruptedRobot rfl rfl 1 2 ⟨by decide, by decide⟩
    ⟨by decide, by decide⟩ _ _

end Leakage

end RobotDdz
