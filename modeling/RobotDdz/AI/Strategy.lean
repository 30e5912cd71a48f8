import RobotDdz.AI.Search
import RobotDdz.Split.Exact

/-!
# Strategies

The `TakeOut` functions of `OGLordRobotAI`, branch by branch. A function that
only reads the robot is `AI → Hand → Hand`. Three of them also change it and
return the robot as well: `farmerTakeOutLordOnly1Card` sorts the cards anew,
`downFarmerTakeOutUpFarmerOnly1Card` hands the robot's own point array to
`getBomb`, which takes the bombs out of it, and whatever calls one of these.

`vector::front` and `[0]` of an empty vector are `vecAt`.

The functions are long chains of tests in the source. Where a part of one has a
purpose of its own, it has a definition of its own here, named after the
function with what it is for (`downGoodFarmerFree`, `downGoodFarmerFollow`);
the definition under the source's name puts the parts together. Two guards that
the source repeats at the head of several functions are written once, with the
rest of the function as an argument (`lordFewCards`, `upFarmerOneCard`).

Mirroring notes vs `OGLordRobotAI.cpp`:
- A strategy that sorts again overwrites `handsMap` and `summary` of the robot,
  and later reads in the same turn see the new ones.
- `findBestHigherHandFromPoints` collects its candidates in three vectors with
  one index; they are one list of `Candidate`s.
- Local variables that are set and never read are left out, and so is the log.
- Comparisons between an `int` and a `size()` are unsigned in C, and
  `asUnsigned` keeps them so where the `int` can be negative.
-/

namespace RobotDdz

open Loops

namespace AI

section Strategy

variable (u : Undef) (s : AI)

/-- `handsMap[t]`. -/
def vec (t : HandType) : List Hand := s.handsMap.vec t

/-- The seat after the robot's, and the one before it. -/
def nextSeat : Int := (s.aiSeat + 1) % 3

def prevSeat : Int := (s.aiSeat + 2) % 3

/-! ## Judging the position -/

/-- `isDanger`. -/
def isDanger : Bool :=
  if s.otherPoints blackJoker = 1 ∧ s.otherPoints redJoker = 1 then true
  else match (List.range (card2 + 1)).reverse.find? fun i => s.otherPoints i = 4 with
    | some i => match (s.vec .bomb).getLast? with
      | none => true
      | some b => b.keyPoint < i
    | none => false

/-- The number of solos below the highest card of the others. -/
def lowSoloCount : Nat :=
  (s.vec .solo).countP fun h => h.keyPoint < getHighestPoint s.otherPoints

/-- `isGood`. -/
def isGood (hmSummary : HandsMapSummary) (controlCount minOppNum : Int) : Bool :=
  if minOppNum = 1 then
    if s.aiPosition = .lord then
      hmSummary.effectiveHandsCount - controlCount < 2 && s.lowSoloCount ≤ 1
    else s.lowSoloCount ≤ 1
  else hmSummary.effectiveHandsCount - controlCount < 2

/-- `isFirstHalf`. -/
def isFirstHalf : Bool :=
  ([0, 1, 2] : List Int).all fun i => !((i = s.lordSeat && s.total i ≤ 10) || s.total i ≤ 8)

/-- `isGoodFarmer`. -/
def isGoodFarmer : Bool :=
  if s.total s.lordSeat = 1 then s.isGood s.summary s.controlNum s.minOppNumber
  else if s.isFirstHalf then s.summary.effectiveHandsCount - s.controlNum < 5
  else s.summary.effectiveHandsCount - s.controlNum < 3

/-- The summary and the control count once a hand is gone from the map
`handsMap`. -/
def afterHand (hand : Hand) (handsMap : HandsMap) : HandsMapSummary × Int :=
  let handPoints := handToPointsArray hand
  let copyLowestControl := getLowestControl (pointsSub s.remainPoints handPoints)
  ((getHandsMapSummary u copyLowestControl s.maxOppNumber s.otherPoints handsMap).2,
    calControl (pointsSub s.aiPoints handPoints) s.otherPoints copyLowestControl)

/-- `handsMap` without the first hand of the type, key and chain length of
`hand`. -/
def withoutHand (hand : Hand) : HandsMap :=
  s.handsMap.put hand.type ((s.vec hand.type).eraseP fun h =>
    h.keyPoint = hand.keyPoint && (!isChain hand.type || h.len = hand.len))

/-- Whether the position is good after the first bomb. -/
def isGoodAfterBomb : Bool :=
  let bomb := vecAt u (s.vec .bomb) 0
  let after := s.afterHand u bomb (s.handsMap.put .bomb (s.vec .bomb).tail)
  s.isGood after.1 after.2 s.minOppNumber

/-! ## Higher hands -/

/-- `findBestHigherHandFromMap`. -/
def findBestHigherHandFromMap (hand : Hand) : Hand :=
  match (s.vec s.curHand.type).find? fun h => isHandHigherThan h s.curHand with
  | none => hand.clear
  | some higherHand =>
    if isChain s.curHand.type || !containsControl s.lowestControl higherHand then higherHand
    else
      let (copySummary, copyCon) := s.afterHand u higherHand (s.withoutHand higherHand)
      if copySummary.effectiveHandsCount < copyCon + 2
          ∨ copyCon + copySummary.extraBombCount ≥ s.controlNum + s.summary.extraBombCount
          ∨ copyCon + copySummary.extraBombCount ≥ 3 then higherHand
      else hand.clear

/-- An entry of `higherHands`, `higherHandsControl` and `higherHandsSummary`. -/
structure Candidate where
  higher : Hand
  control : Int
  summary : HandsMapSummary

/-- The `do` loop of `findBestHigherHandFromPoints`: the hand it returns at
once, or the candidates it collects. The key of `nowHand` grows round by round,
so there are fewer rounds than ranks. -/
def higherCandidates (force : Bool) : (fuel : Nat) → (nowHand higher : Hand) → List Candidate →
    Option Hand × List Candidate
  | 0, _, _, acc => (none, acc)
  | fuel + 1, nowHand, higher, acc =>
    let higher :=
      findHigherHandFromPoints u s.lowestControl s.maxOppNumber s.otherPoints nowHand s.aiPoints
        higher
    if higher.type = .nothing then (none, acc)
    else
      let copyPoints := pointsSub s.aiPoints (handToPointsArray higher)
      let copyControl := calControl copyPoints s.otherPoints s.lowestControl
      let copySummary :=
        (sortHandsWithBestKind u copyPoints s.lowestControl s.maxOppNumber s.otherPoints true).2
      if calHandControl higher s.lowestControl = 0
          ∧ (copySummary.effectiveHandsCount < s.summary.effectiveHandsCount
            ∨ copySummary.effectiveHandsCount = s.summary.effectiveHandsCount
              ∧ isChargeHand u higher s.maxOppNumber s.otherPoints (some s.handsMap)) then
        (some higher, acc)
      else if force
          ∨ copySummary.effectiveHandsCount - 2 < copyControl
          ∨ copySummary.effectiveHandsCount - copyControl
            ≤ s.summary.effectiveHandsCount - s.controlNum
          ∨ copyControl + copySummary.extraBombCount ≥ 3 then
        higherCandidates force fuel higher higher (acc ++ [⟨higher, copyControl, copySummary⟩])
      else higherCandidates force fuel higher higher acc

/-- Whether a candidate replaces the one chosen so far. -/
def betterCandidate (lordOnly1Card : Bool) (cur c : Candidate) : Bool :=
  if lordOnly1Card then
    if s.aiPosition = .downFarmer then
      cur.summary.sencondLowestSolo < c.summary.sencondLowestSolo
    else cur.summary.lowestSolo < c.summary.lowestSolo
  else
    let rest := c.summary.effectiveHandsCount - c.control
    let curRest := cur.summary.effectiveHandsCount - cur.control
    if rest < curRest then true
    else if rest = curRest then
      if c.summary.effectiveHandsCount < cur.summary.effectiveHandsCount then true
      -- the effective count against the real one
      else if c.summary.effectiveHandsCount = cur.summary.realHandsCount then
        if c.summary.handsTypeCount < cur.summary.handsTypeCount then true
        else c.summary.handsTypeCount = cur.summary.handsTypeCount
          && c.summary.soloCount < cur.summary.soloCount
      else false
    else false

/-- `findBestHigherHandFromPoints`. -/
def findBestHigherHandFromPoints (hand : Hand) (force lordOnly1Card : Bool) : Hand :=
  match s.higherCandidates u force cardPointNum s.curHand u.hand [] with
  | (some higher, _) => higher
  | (none, []) => hand.clear
  | (none, c :: cs) =>
    (cs.foldl (fun cur c => if s.betterCandidate lordOnly1Card cur c then c else cur) c).higher

/-! ## The lord leads -/

/-- `lordTakeOutFreeFarmerOnly1Card`. -/
def lordTakeOutFreeFarmerOnly1Card (hand : Hand) : Hand :=
  let soloHands := s.vec .solo
  let bombs := s.vec .bomb
  let hand := findLowestHandNotSoloAndNoControl s.handsMap s.lowestControl hand
  if hand.type ≠ .nothing then hand
  else if (soloHands.length = 2 ∨ soloHands.length = 3) ∧ s.isDanger ∧ 0 < bombs.length then
    -- the first bomb may be the rocket
    (hand.become .fourDualSolo (vecAt u bombs 0).keyPoint).setKickers
      [(vecAt u soloHands 0).keyPoint, (vecAt u soloHands 1).keyPoint]
  else if 2 ≤ soloHands.length then vecAt u soloHands 1
  else
    let hand := findLowestHandNotSolo s.handsMap hand
    if hand.type ≠ .nothing then hand
    else if bombs.length = 0 ∨ soloHands.length = 1 ∧ s.isDanger then vecAt u soloHands 0
    else vecAt u bombs 0

/-- `lordTakeOutFreeNormal`. -/
def lordTakeOutFreeNormal (hand : Hand) : Hand :=
  let bombs := s.vec .bomb
  if !s.isDanger ∧ asUnsigned s.summary.unChargeHandsCount ≤ bombs.length + 1 then
    if 0 < bombs.length ∧ s.summary.realHandsCount = 1 then vecAt u bombs 0
    else s.findChargeHandFirst u hand false
  else s.findLowestHand hand

/-- `lordTakeOutFreeFarmerOnly2Cards`. -/
def lordTakeOutFreeFarmerOnly2Cards (hand : Hand) : Hand :=
  let highestPoint := getHighestPoint s.remainPoints
  if s.remainPoints highestPoint = 1 ∧ s.aiPoints highestPoint = 1 ∨ 0 < (s.vec .bomb).length then
    match (s.vec .solo).reverse.find? fun h => h.keyPoint < s.lowestControl with
    | some h => h
    | none => match s.vec .pair with
      | p :: _ => hand.become .solo p.keyPoint
      | [] => s.lordTakeOutFreeNormal u hand
  else s.lordTakeOutFreeFarmerOnly1Card u hand

/-- `lordTakeOutFree`. -/
def lordTakeOutFree (hand : Hand) : Hand :=
  if s.total s.nextSeat = 1 ∨ s.total s.prevSeat = 1 then s.lordTakeOutFreeFarmerOnly1Card u hand
  else if (s.total s.nextSeat = 2 ∨ s.total s.prevSeat = 2)
      ∧ (0 < (s.vec .solo).length ∨ 0 < (s.vec .pair).length) then
    s.lordTakeOutFreeFarmerOnly2Cards u hand
  else s.lordTakeOutFreeNormal u hand

/-! ## The lord follows -/

/-- `lordTakeOutHigherRebuild`. -/
def lordTakeOutHigherRebuild (hand : Hand) : Hand :=
  s.findBestHigherHandFromPoints u hand.clear false false

/-- `lordTakeOutHigherNormal`. -/
def lordTakeOutHigherNormal (hand : Hand) : Hand :=
  let hand := s.findBestHigherHandFromMap u hand.clear
  if hand.type ≠ .nothing then hand
  else if 0 < (s.vec .bomb).length ∧ !s.isDanger ∧ s.isGoodAfterBomb u then vecAt u (s.vec .bomb) 0
  else s.lordTakeOutHigherRebuild u hand

/-- `lordTakeOutHigherFarmerOnly1Card`. -/
def lordTakeOutHigherFarmerOnly1Card (hand : Hand) : Hand :=
  let hand := hand.clear
  let soloHands := s.vec .solo
  if s.curHand.type = .solo then
    match soloHands.tail.find? fun h => s.curHand.keyPoint < h.keyPoint with
    | some h => h
    | none =>
      let solo := vecAt u soloHands 0
      if soloHands.length = 1 ∧ isHighestSolo solo.keyPoint s.otherPoints then solo
      else if 0 < (s.vec .bomb).length ∧ !s.isDanger ∧ s.isGoodAfterBomb u then
        vecAt u (s.vec .bomb) 0
      else
        let highest := getHighestPoint s.aiPoints
        if s.curHand.keyPoint < highest then hand.become .solo highest else hand
  else s.lordTakeOutHigherNormal u hand

/-- `lordTakeOutHigherFarmerOnly2Cards`. -/
def lordTakeOutHigherFarmerOnly2Cards (hand : Hand) : Hand :=
  let hand := hand.clear
  if s.curHand.type = .pair then
    match (List.range (card2 + 1)).reverse.find? fun i => 2 ≤ s.otherPoints i with
    | some highestPair =>
      match (s.vec .pair).reverse.find? fun h => highestPair ≤ h.keyPoint with
      | some h => h
      | none => s.lordTakeOutHigherRebuild u hand
    | none => s.lordTakeOutHigherNormal u hand
  else hand

/-- `lordTakeOutHigher`. -/
def lordTakeOutHigher (hand : Hand) : Hand :=
  if s.total s.curHandSeat = 1 ∨ s.total s.prevSeat = 1 then
    s.lordTakeOutHigherFarmerOnly1Card u hand
  else if s.total s.curHandSeat = 2 ∨ s.total s.prevSeat = 2 then
    s.lordTakeOutHigherFarmerOnly2Cards u hand
  else s.lordTakeOutHigherNormal u hand

/-! ## A farmer follows -/

/-- `farmerMustTakeOutLordOnly1Card`. -/
def farmerMustTakeOutLordOnly1Card (hand : Hand) : Hand :=
  let hand := s.findHigherHandNotBomb hand.clear
  if hand.type = .nothing then s.findBestHigherHandFromPoints u hand true true else hand

/-- `farmerMustTakeOutLordCharge`. Past the first test `copyHand` is a pass. -/
def farmerMustTakeOutLordCharge (hand : Hand) : Hand :=
  let copyHand := s.findHigherHandNotBomb u.hand
  if copyHand.type ≠ .nothing then copyHand
  else
    let (copySummary, copyCon) := s.afterHand u copyHand (s.withoutHand copyHand)
    if copySummary.effectiveHandsCount < copyCon + 2 then copyHand
    else s.findBestHigherHandFromPoints u hand.clear true false

/-- `goodFarmerOverOtherFarmer`. -/
def goodFarmerOverOtherFarmer (hand : Hand) : Hand :=
  let hand := hand.clear
  let copyHand := s.findHigherHandNotBomb u.hand
  let otherFarmerSeat := if s.aiPosition = .downFarmer then s.nextSeat else s.prevSeat
  if copyHand.type ≠ .nothing ∧ s.summary.realHandsCount - 1 ≤ (s.vec .bomb).length then copyHand
  else if s.total otherFarmerSeat ≤ 2 ∨ cardK ≤ s.curHand.keyPoint ∨ isChain s.curHand.type
      ∨ s.curHand.type = .fourDualSolo ∨ s.curHand.type = .fourDualPair then hand
  else if copyHand.type ≠ .nothing ∧ calHandControl copyHand s.lowestControl = 0 then copyHand
  else s.findBestHigherHandFromPoints u hand true false

/-- `farmerTakeOutWhenLordTakeOutHighSolo`. -/
def farmerTakeOutWhenLordTakeOutHighSolo (hand : Hand) : Hand :=
  let hand := hand.clear
  if s.curHand.keyPoint = card2 then
    if s.aiPoints blackJoker = 1 then hand.become .solo blackJoker
    else if s.otherPoints blackJoker = 0 ∧ s.aiPoints redJoker = 1 then hand.become .solo redJoker
    else hand
  else if s.curHand.keyPoint = blackJoker ∧ s.aiPoints redJoker = 1 then hand.become .solo redJoker
  else hand

/-- The summary of the robot's cards without one card of rank `i`. -/
def summaryWithout (i : Nat) : HandsMapSummary :=
  (sortHandsLordOnly1Card u (Function.update s.aiPoints i (s.aiPoints i - 1)) s.lowestControl
    s.maxOppNumber s.otherPoints true).2

/-- The search of `farmerTakeOutLordOnly1Card` for the high solo that leaves
the best cards: `highestSolo`, and the choice from it. -/
def bestHighestSolo (hand : Hand) : Hand :=
  let lo := max (s.curHand.keyPoint + 1) (getHighestPoint s.otherPoints)
  match (List.range' lo (redJoker + 1 - lo)).filter fun i => 0 < s.aiPoints i with
  | [] => hand
  | i :: is =>
    let best := is.foldl (fun best i =>
      let tmpSummary := s.summaryWithout u i
      if tmpSummary.soloCount < best.2.soloCount
          ∨ tmpSummary.soloCount = best.2.soloCount ∧ best.2.lowestSolo < tmpSummary.lowestSolo then
        (i, tmpSummary)
      else best) (i, s.summaryWithout u i)
    hand.become .solo best.1

/-! ## A farmer and a lord with one card -/

/-- `FOUR_DUAL_SOLO` from the first bomb below the jokers and the first two
solos. -/
def fourWithSolos (hand : Hand) : Option Hand :=
  match s.vec .bomb with
  | [] => none
  | b :: _ =>
    if b.keyPoint < blackJoker then
      some ((hand.become .fourDualSolo b.keyPoint).setKickers
        [(vecAt u (s.vec .solo) 0).keyPoint, (vecAt u (s.vec .solo) 1).keyPoint])
    else none

/-- `farmerTakeOutLordOnly1Card`, free, before the lord. -/
def upFarmerFreeLordOnly1Card (hand : Hand) : Hand :=
  let soloHands := s.vec .solo
  if s.isGood s.summary s.controlNum s.minOppNumber then findMostCardsHand s.handsMap hand
  else match (List.range (card2 + 1)).find? fun i => s.aiPoints i = 2 || s.aiPoints i = 3 with
    | some i => hand.become .pair i
    | none =>
      let last := vecAt u soloHands (soloHands.length - 1)
      let four :=
        if (soloHands.length = 2 ∨ soloHands.length = 3)
            ∧ !isHighestSolo last.keyPoint s.otherPoints then s.fourWithSolos u hand
        else none
      match four with
      | some hand => hand
      | none => if 1 ≤ soloHands.length then hand.become .solo last.keyPoint else hand

/-- `farmerTakeOutLordOnly1Card`, free, after the lord. -/
def downFarmerFreeLordOnly1Card (hand : Hand) : Hand :=
  let soloHands := s.vec .solo
  let last := vecAt u soloHands (soloHands.length - 1)
  if s.isGood s.summary s.controlNum s.minOppNumber then findMostCardsHand s.handsMap hand
  else if s.total s.prevSeat = 1 ∧ hasUniLowestSolo s.aiPoints s.otherPoints then
    hand.become .solo (getLowestPoint s.aiPoints)
  else if soloHands.length = 2 then last
  else match (s.vec .pair).head?.filter fun p => !isHighestPair p.keyPoint s.otherPoints with
    | some p => p
    | none =>
      let notHighestSoloCount :=
        (soloHands.takeWhile fun h => !isHighestSolo h.keyPoint s.otherPoints).length
      let four :=
        if notHighestSoloCount = 2 ∨ notHighestSoloCount = 3 then s.fourWithSolos u hand else none
      match four with
      | some hand => hand
      | none => if 0 < soloHands.length then last else hand

/-- `farmerTakeOutLordOnly1Card`, not free. It compares the seat with
`DOWNFARMER`. -/
def farmerFollowLordOnly1Card (hand : Hand) : Hand :=
  let bombHands := s.vec .bomb
  let bomb := vecAt u bombHands 0
  if s.curHandSeat = s.lordSeat then
    if s.curHand.type = .solo then
      let hand := s.bestHighestSolo u hand
      if 0 < bombHands.length ∧ (s.vec .solo).length = 1 then bomb
      else if s.aiSeat = Position.downFarmer.toInt then s.findHigherHandNotBomb hand
      else if 0 < bombHands.length then bomb
      else hand
    else s.farmerMustTakeOutLordOnly1Card u hand
  else if s.curHand.type = .solo then
    if s.aiSeat = Position.downFarmer.toInt then
      if s.isGood s.summary s.controlNum s.minOppNumber then s.findHigherHandNotBomb hand
      else hand.clear
    else
      let hand := s.bestHighestSolo u hand
      if 0 < bombHands.length ∧ (s.vec .solo).length = 1 then bomb else hand
  else s.findHigherHandNotBomb hand

/-- The first step of `farmerTakeOutLordOnly1Card`. -/
def sortLordOnly1Card : AI :=
  let best := sortHandsLordOnly1Card u s.aiPoints s.lowestControl s.maxOppNumber s.otherPoints true
  { s with handsMap := best.1, summary := best.2 }

/-- `farmerTakeOutLordOnly1Card`. -/
def farmerTakeOutLordOnly1Card (hand : Hand) : AI × Hand :=
  let s := s.sortLordOnly1Card u
  let hand := hand.clear
  (s, if s.isFree then
      if s.aiPosition = .upFarmer then s.upFarmerFreeLordOnly1Card u hand
      else s.downFarmerFreeLordOnly1Card u hand
    else s.farmerFollowLordOnly1Card u hand)

/-- `farmerTakeOutLordOnly2Cards`. -/
def farmerTakeOutLordOnly2Cards (hand : Hand) : AI × Hand :=
  let hand := hand.clear
  let soloHands := s.vec .solo
  let pairHands := s.vec .pair
  if s.isFree then
    if soloHands.length = 0 ∧ pairHands.length = 0 then (s, hand)
    else if 0 < (s.vec .bomb).length ∨ hasUniHighestSolo s.aiPoints s.otherPoints then
      if soloHands.length = 0 then (s, hand.become .solo (vecAt u pairHands 0).keyPoint)
      else
        (s, (soloHands.reverse.find? fun h => h.keyPoint ≤ getHighestPoint s.otherPoints).getD hand)
    else s.farmerTakeOutLordOnly1Card u hand
  else
    let lo := max (s.curHand.keyPoint + 1) (getHighestPairPoint s.otherPoints)
    match (if s.curHand.type = .pair ∧ s.curHandSeat = s.lordSeat then
        pairHands.find? fun h => lo ≤ h.keyPoint else none) with
    | some h => (s, h)
    | none => (s, s.farmerMustTakeOutLordCharge u hand)

/-- `downFarmerTakeOutUpFarmerOnly1Card`. -/
def downFarmerTakeOutUpFarmerOnly1Card (hand : Hand) : AI × Hand :=
  let hand := hand.clear
  let lowestPoint := getLowestPoint s.aiPoints
  if hasUniLowestSolo s.aiPoints s.otherPoints then
    -- `getBomb` works on `playerInfo[aiSeat].points` itself
    let split := getBomb ⟨s.aiPoints, .empty⟩
    let bombs := split.handMap.vec .bomb
    let oppHighestBomb := getHighestBomb s.otherPoints
    let info := s.playerInfo s.aiSeat
    let s := { s with
      playerInfo := Function.update s.playerInfo s.aiSeat { info with points := split.cards } }
    match bombs.getLast? with
    | none => (s, hand.become .solo lowestPoint)
    | some back =>
      if oppHighestBomb < back.keyPoint then
        if oppHighestBomb < 0 ∨ s.total s.lordSeat ≠ 4 then (s, vecAt u bombs 0) else (s, back)
      else (s, hand.become .solo lowestPoint)
  else if s.total s.lordSeat = 1 then s.farmerTakeOutLordOnly1Card u hand
  else if !s.isGood s.summary s.controlNum s.minOppNumber then (s, hand.become .solo lowestPoint)
  else (s, hand)

/-! ## A farmer's turn -/

/-- The start of most farmer functions: a lord with one card or two is dealt
with first, and the rest is for a pass on two. -/
def lordFewCards (hand : Hand) (rest : AI → Hand → AI × Hand) : AI × Hand :=
  if s.total s.lordSeat = 1 then s.farmerTakeOutLordOnly1Card u hand
  else if s.total s.lordSeat = 2 then
    let r := s.farmerTakeOutLordOnly2Cards u hand
    if r.2.type ≠ .nothing then r else rest r.1 r.2
  else rest s hand

/-- The start of a free turn after the lord: the other farmer may have one
card. -/
def upFarmerOneCard (hand : Hand) (rest : AI → Hand → AI × Hand) : AI × Hand :=
  if s.total s.nextSeat = 1 then
    let r := s.downFarmerTakeOutUpFarmerOnly1Card u hand
    if r.2.type ≠ .nothing then r else rest r.1 r.2
  else rest s hand

/-- The part of `downGoodFarmerTakeOut` for a good position, free. -/
def downGoodFarmerCharge (hand : Hand) : Hand :=
  let bombs := s.vec .bomb
  let oppHighestBomb := getHighestBomb s.otherPoints
  let bombHigher : Bool := match bombs.getLast? with
    | some b => oppHighestBomb < b.keyPoint
    | none => false
  let real := asUnsigned s.summary.realHandsCount
  let charge : Bool :=
    if oppHighestBomb < 0 ∨ bombHigher then real ≤ bombs.length + 1 else real ≤ bombs.length
  let hand := s.findChargeHandFirst u hand true
  if charge then hand
  else
    let (copySummary, copyCon) := s.afterHand u hand (s.withoutHand hand)
    if copySummary.effectiveHandsCount < copyCon + 1 then hand else s.findLowestHand hand

/-- `downGoodFarmerTakeOut`, free, past a lord and a farmer with few cards. -/
def downGoodFarmerFree (hand : Hand) : Hand :=
  if s.summary.realHandsCount = 2 ∧ s.summary.unChargeHandsCount = 2 then
    let front t := vecAt u (s.vec t) 0
    match HandType.all.find? fun t => 0 < (s.vec t).length &&
        (t ≠ .solo && t ≠ .pair || hand.type = .nothing || (front t).keyPoint < hand.keyPoint
          || (front t).keyPoint = hand.keyPoint && t = .pair) with
    | some t => front t
    | none => hand
  else if s.isGood s.summary s.controlNum s.minOppNumber then s.downGoodFarmerCharge u hand
  else s.findLowestHand hand

/-- `downGoodFarmerTakeOut`, not free, past a lord with few cards. -/
def downGoodFarmerFollow (hand : Hand) : Hand :=
  let cur := s.curHand
  if s.curHandSeat ≠ s.lordSeat then s.goodFarmerOverOtherFarmer u hand
  else if cur.type = .pairChain ∨ cur.type = .trioChain ∨ cur.type = .trioChainSolo
      ∨ cur.type = .trioChainPair ∨ cur.type = .soloChain ∧ 8 ≤ cur.len
      ∨ cur.type = .pair ∧ cur.keyPoint = cardA then s.farmerMustTakeOutLordCharge u hand
  else
    let high : Bool := cur.type = .solo && (cur.keyPoint = card2 || cur.keyPoint = blackJoker)
    let hand := if high then s.farmerTakeOutWhenLordTakeOutHighSolo hand else hand
    if high ∧ hand.type ≠ .nothing then hand
    else
      let hand := s.findBestHigherHandFromMap u hand
      if hand.type ≠ .nothing then hand
      else if 0 < (s.vec .bomb).length ∧ !s.isDanger ∧ s.isGoodAfterBomb u then
        vecAt u (s.vec .bomb) 0
      else s.findBestHigherHandFromPoints u hand false false

/-- `downGoodFarmerTakeOut`. -/
def downGoodFarmerTakeOut (hand : Hand) : AI × Hand :=
  let hand := hand.clear
  if s.isFree then
    s.upFarmerOneCard u hand fun s hand =>
      s.lordFewCards u hand fun s hand => (s, s.downGoodFarmerFree u hand)
  else s.lordFewCards u hand fun s hand => (s, s.downGoodFarmerFollow u hand)

/-- `downBadFarmerTakeOut`, not free, past a lord with few cards. -/
def downBadFarmerFollow (hand : Hand) : Hand :=
  let cur := s.curHand
  if s.curHandSeat ≠ s.lordSeat then hand.clear
  else if cur.type ≠ .solo ∧ cur.type ≠ .pair ∨ cur.type = .pair ∧ cur.keyPoint = cardA then
    s.farmerMustTakeOutLordCharge u hand
  else
    let high : Bool := cur.type = .solo && (cur.keyPoint = card2 || cur.keyPoint = blackJoker)
    let hand := if high then s.farmerTakeOutWhenLordTakeOutHighSolo hand else hand
    if high ∧ hand.type ≠ .nothing then hand
    else if !s.isFirstHalf then s.farmerMustTakeOutLordCharge u hand
    else s.findBestHigherHandFromMap u hand

/-- `downBadFarmerTakeOut`. -/
def downBadFarmerTakeOut (hand : Hand) : AI × Hand :=
  let hand := hand.clear
  if s.isFree then
    s.upFarmerOneCard u hand fun s hand =>
      s.lordFewCards u hand fun s hand => (s, s.findLowestHand hand)
  else s.lordFewCards u hand fun s hand => (s, s.downBadFarmerFollow u hand)

/-- `upGoodFarmerTakeOut`, free, past a lord with few cards. -/
def upGoodFarmerFree (hand : Hand) : Hand :=
  if s.isGood s.summary s.controlNum s.minOppNumber then s.findLowestHand hand
  else
    let solo := vecAt u (s.vec .solo) 0
    let pair := vecAt u (s.vec .pair) 0
    if s.total s.prevSeat = 1 ∧ 0 < (s.vec .solo).length ∧ solo.keyPoint < s.lowestControl then solo
    else if s.total s.prevSeat = 2 ∧ 0 < (s.vec .pair).length ∧ pair.keyPoint < cardT then pair
    else if s.summary.unChargeHandsCount = 2 then
      let hand := s.findChargeHandFirst u hand true
      if hand.type ≠ .nothing then hand else s.findLowestHand hand
    else
      let hand := s.findLowestHand hand
      if hand.keyPoint ≤ getLowestPoint s.otherPoints then hand else s.findMostCardsHandNotBomb hand

/-- `upGoodFarmerTakeOut`. -/
def upGoodFarmerTakeOut (hand : Hand) : AI × Hand :=
  if s.isFree then s.lordFewCards u hand fun s hand => (s, s.upGoodFarmerFree u hand)
  else
    s.lordFewCards u hand fun s hand =>
      (s, if s.curHandSeat ≠ s.lordSeat then s.goodFarmerOverOtherFarmer u hand
        else s.farmerMustTakeOutLordCharge u hand)

/-- The last hand of the longest prefix that passes the test. -/
def lastWhile (ok : Hand → Bool) (hands : List Hand) : Option Hand := (hands.takeWhile ok).getLast?

/-- `upBadFarmerTakeOut`, free, past everyone with few cards. -/
def upBadFarmerFree (hand : Hand) : Hand :=
  match lastWhile (fun h => h.keyPoint ≤ card8) (s.vec .pair) with
  | some h => h
  | none => match lastWhile (fun h => h.keyPoint < s.lowestControl) (s.vec .solo) with
    | some h => h
    | none => match lastWhile (fun h => h.keyPoint < s.lowestControl) (s.vec .pair) with
      | some h => hand.become .solo h.keyPoint
      | none => s.findLowestHand hand

/-- The loops of `upBadFarmerTakeOut` for the first rank above the current one
that is held, but not four times. -/
def higherSingle (hand : Hand) : Hand :=
  match (List.range' (s.curHand.keyPoint + 1) (card2 - s.curHand.keyPoint)).find?
      fun i => 0 < s.aiPoints i && s.aiPoints i < 4 with
  | some i => hand.become .solo i
  | none => hand

/-- `upBadFarmerTakeOut` on a low solo. -/
def upBadFarmerLowSolo (hand : Hand) : Hand :=
  let higherP := max cardJ (s.curHand.keyPoint + 1)
  match ((s.vec .solo).takeWhile fun h => h.keyPoint ≤ cardA).reverse.find?
      fun h => higherP ≤ h.keyPoint with
  | some h => h
  | none => match lastWhile (fun h => higherP ≤ h.keyPoint) (s.vec .pair) with
    | some h => hand.become .solo h.keyPoint
    | none => match (s.vec .solo).find? fun h =>
        s.curHand.keyPoint < h.keyPoint && h.keyPoint ≤ card2 with
      | some h => h
      | none => s.higherSingle hand

/-- `upBadFarmerTakeOut`, not free, past a lord with few cards. -/
def upBadFarmerFollow (hand : Hand) : Hand :=
  let cur := s.curHand
  if cur.type = .solo ∧ cur.keyPoint < min cardJ s.lowestControl then s.upBadFarmerLowSolo hand
  else if s.curHandSeat ≠ s.lordSeat then hand
  else if cur.type = .solo ∧ (cur.keyPoint = card2 ∨ cur.keyPoint = blackJoker) then
    s.farmerTakeOutWhenLordTakeOutHighSolo hand
  else if cur.type = .solo ∧ cardJ ≤ cur.keyPoint ∧ cur.keyPoint ≤ cardA then s.higherSingle hand
  else s.farmerMustTakeOutLordCharge u hand

/-- `upBadFarmerTakeOut`. -/
def upBadFarmerTakeOut (hand : Hand) : AI × Hand :=
  let hand := hand.clear
  if s.isFree then
    if s.total s.lordSeat = 1 then s.farmerTakeOutLordOnly1Card u hand
    else if s.total s.prevSeat = 1 then (s, hand.become .solo (getLowestPoint s.aiPoints))
    else if s.total s.lordSeat = 2 then
      let r := s.farmerTakeOutLordOnly2Cards u hand
      if r.2.type ≠ .nothing then r else (r.1, r.1.upBadFarmerFree r.2)
    else
      let lowestPair := getLowestPairPoint s.aiPoints
      if s.total s.prevSeat = 2 ∧ !isHighestPair lowestPair s.otherPoints then
        (s, hand.become .pair lowestPair)
      else (s, s.upBadFarmerFree hand)
  else s.lordFewCards u hand fun s hand => (s, s.upBadFarmerFollow u hand)

/-- The farmer half of `takeOutLvl1` and `takeOutHighLvl`. -/
def farmerTakeOut (hand : Hand) : AI × Hand :=
  if s.isGoodFarmer then
    if s.aiPosition = .downFarmer then s.downGoodFarmerTakeOut u hand
    else s.upGoodFarmerTakeOut u hand
  else if s.aiPosition = .downFarmer then s.downBadFarmerTakeOut u hand
  else s.upBadFarmerTakeOut u hand

end Strategy

end AI

end RobotDdz
