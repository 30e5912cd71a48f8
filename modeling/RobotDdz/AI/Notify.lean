import RobotDdz.AI.State
import RobotDdz.Cards.GetHand
import Mathlib.Data.List.Perm.Subperm

/-!
# What the robot is told

`RbtInInitCard`, `RbtInSetLord` and `RbtInTakeOutCard`: the three calls that
keep the counts of the unplayed cards, of the robot's own and of the others'.
`RbtInCallScore` keeps the bids that `RbtOutGetCallScore` looks at.

`excess s r` is what `otherPoints` has at a rank beyond `remainPoints` less the
robot's own cards. Dealing makes it zero, a play leaves it alone whoever plays,
and the bottom cards leave it alone unless the robot is the lord: then its own
count grows and `otherPoints` is not corrected (`excess_rbtInSetLord`).

Mirroring notes vs `OGLordRobotAI.cpp`:
- `RbtInInitCard` sets every player's total to seventeen and the others' points
  to -1, the sign for cards that are not known; the calls after it test
  `points[0] >= 0` before they count for another player.
- `RbtInSetLord` goes three times round its loop whatever the number of bottom
  cards; the model takes the cards it is given, and `Task/Indices` says when
  there are too few. It sets the lord's total to twenty.
- `RbtInTakeOutCard` takes the played cards out of the unplayed ones, and out
  of the robot's own counts if the robot played them and out of `otherPoints`
  if not. A play without cards changes the history only.
- `RbtInCallScore` pushes every bid to the record and keeps the last that is
  not zero.
-/

namespace RobotDdz

open Loops

namespace AI

/-- `playerInfo[seat] = ...`. -/
def setInfo (s : AI) (seat : Int) (cards : CardsInfo) : AI :=
  { s with playerInfo := Function.update s.playerInfo seat cards }

/-- `fill(remainPoints, ..., 4)` and one of each joker; the last entry is not
written. -/
def freshRemain (remainPoints : Points) : Points := fun r =>
  if r < blackJoker then 4 else if r ≤ redJoker then 1 else remainPoints r

/-- `RbtInInitCard`. -/
def rbtInInitCard (u : Undef) (s : AI) (argSeat : Int) (argHandCard : List Int) : AI :=
  let s := { s with
    aiSeat := argSeat, lordSeat := -1, aiCardsVec := argHandCard
    playerInfo := fun i =>
      if 0 ≤ i ∧ i < 3 then
        if i = argSeat then { points := cardVecToPointArr argHandCard, total := 17 }
        else { points := fun _ => -1, total := 17 }
      else s.playerInfo i
    remainPoints := freshRemain s.remainPoints }
  let s := { s with
    otherPoints := pointsSub s.remainPoints s.aiPoints, lowestControl := card2
    curCaller := -1, curScore := 0, curHand := { s.curHand with type := .nothing }
    curHandSeat := -1, callHistory := [], history := [] }
  let s := s.sortHandMap u
  { s with
    controlNum := calControl s.aiPoints s.otherPoints s.lowestControl, mustHighLevel := false }

/-- One round of the loop of `RbtInSetLord`. -/
def takeLeftover (s : AI) (card : Int) : AI :=
  let s := if s.lordSeat = s.aiSeat then { s with aiCardsVec := s.aiCardsVec ++ [card] } else s
  let cards := s.playerInfo s.lordSeat
  if s.lordSeat = s.aiSeat ∨ 0 ≤ cards.points 0 then
    s.setInfo s.lordSeat { cards with points := cards.points.incAt (cardToPoint card) 1 }
  else s

/-- `RbtInSetLord` before its loop. -/
def seatLord (s : AI) (argLordSeat : Int) (argReceiceCard : List Int) : AI :=
  let s := { s with
    lordSeat := argLordSeat, downSeat := (argLordSeat + 1) % 3, upSeat := (argLordSeat + 2) % 3 }
  let s := { s.updateAiPosition with leftoverCards := argReceiceCard }
  s.setInfo s.lordSeat { s.playerInfo s.lordSeat with total := 20 }

/-- `RbtInSetLord`, for at least three bottom cards. -/
def rbtInSetLord (s : AI) (argLordSeat : Int) (argReceiceCard : List Int) : AI :=
  (argReceiceCard.take 3).foldl takeLeftover (s.seatLord argLordSeat argReceiceCard)

/-- One rank of the loop of `RbtInTakeOutCard`. -/
def takeOutRank (argSeat : Int) (points : Points) (i : Nat) (s : AI) : AI :=
  let s := { s with remainPoints := Function.update s.remainPoints i (s.remainPoints i - points i) }
  let s :=
    if argSeat ≠ s.aiSeat then
      { s with otherPoints := Function.update s.otherPoints i (s.otherPoints i - points i) }
    else s
  let cards := s.playerInfo argSeat
  if argSeat = s.aiSeat ∨ 0 ≤ cards.points 0 then
    s.setInfo argSeat
      { cards with points := Function.update cards.points i (cards.points i - points i) }
  else s

/-- The part of `RbtInTakeOutCard` that counts the cards. -/
def takeOutCount (s : AI) (argSeat : Int) (argCards : List Int) : AI :=
  let cards := s.playerInfo argSeat
  let s := s.setInfo argSeat { cards with total := cards.total - argCards.length }
  forUp (takeOutRank argSeat (cardVecToPointArr argCards)) 0 cardPointNum s

/-- The end of `RbtInTakeOutCard`: the hand goes into the history, and a hand
that is not a pass becomes the one to beat. -/
def recordHand (s : AI) (argSeat : Int) (hand : Hand) : AI :=
  let s := { s with history := s.history ++ [(argSeat, hand)] }
  if hand.type ≠ .nothing then { s with curHand := hand, curHandSeat := argSeat } else s

/-- `RbtInTakeOutCard`. -/
def rbtInTakeOutCard (s : AI) (argSeat : Int) (argCards : List Int) : AI :=
  if argCards.length = 0 then s.recordHand argSeat {}
  else (s.takeOutCount argSeat argCards).recordHand argSeat (getHand (cardVecToPointArr argCards))

/-- `RbtInCallScore`. -/
def rbtInCallScore (s : AI) (argSeat argCallScore : Int) : AI :=
  let s := { s with callHistory := s.callHistory ++ [(argSeat, argCallScore)] }
  if 0 < argCallScore then { s with curCaller := argSeat, curScore := argCallScore } else s

/-- `isCallLord` in `RbtOutGetCallScore`. -/
def isCallLord (s : AI) : Bool :=
  let jokers := s.aiPoints blackJoker + s.aiPoints redJoker
  if s.controlNum + s.summary.extraBombCount ≤ 1 then
    if (s.aiPoints blackJoker = 1 ∨ s.aiPoints redJoker = 1) ∧ 0 < s.aiPoints card2 then
      3 < s.summary.effectiveHandsCount
    else s.aiPoints card2 = 3 && s.callHistory.length = 2 && s.curScore = 0
  else if jokers = 1 ∧ s.aiPoints card2 = 2 ∧ s.summary.extraBombCount = 0 then
    3 < s.summary.effectiveHandsCount
  else true

/-- `RbtOutGetCallScore`, with `callScore`. -/
def rbtOutGetCallScore (s : AI) : Int := if s.isCallLord then 2 else 0

/-! ## What one call does to the counts -/

/-- `otherPoints` beyond what `remainPoints` and the robot's own cards say. -/
def excess (s : AI) (r : Nat) : Int := s.otherPoints r - (s.remainPoints r - s.aiPoints r)

theorem aiPoints_setInfo (s : AI) (seat : Int) (cards : CardsInfo) :
    (s.setInfo seat cards).aiPoints = if seat = s.aiSeat then cards.points else s.aiPoints := by
  simp only [aiPoints, setInfo, Function.update_apply]
  by_cases h : s.aiSeat = seat
  · rw [if_pos h, if_pos h.symm]
  · rw [if_neg h, if_neg (Ne.symm h)]

/-- One rank of a play: the counts of that rank move, everything else stays.
The robot's own counts move when the play is its own, the others' when it is
not. -/
theorem takeOutRank_spec (argSeat : Int) (points : Points) (i : Nat) (s : AI) :
    (takeOutRank argSeat points i s).aiSeat = s.aiSeat ∧
    (takeOutRank argSeat points i s).remainPoints
      = Function.update s.remainPoints i (s.remainPoints i - points i) ∧
    (takeOutRank argSeat points i s).otherPoints
      = (if argSeat = s.aiSeat then s.otherPoints
        else Function.update s.otherPoints i (s.otherPoints i - points i)) ∧
    (takeOutRank argSeat points i s).aiPoints
      = (if argSeat = s.aiSeat then Function.update s.aiPoints i (s.aiPoints i - points i)
        else s.aiPoints) := by
  unfold takeOutRank
  by_cases hs : argSeat = s.aiSeat
  · subst hs
    refine ⟨by simp [setInfo], by simp [setInfo], by simp [setInfo], ?_⟩
    simp [aiPoints_setInfo]
    rfl
  · -- the seat's own counts are only kept when they are known
    by_cases h0 : 0 ≤ (s.playerInfo argSeat).points 0
    · refine ⟨by simp [hs, h0, setInfo], by simp [hs, h0, setInfo], by simp [hs, h0, setInfo], ?_⟩
      simp [hs, h0, aiPoints_setInfo]
      rfl
    · refine ⟨by simp [hs, h0], by simp [hs, h0], by simp [hs, h0], ?_⟩
      simp [hs, h0]
      rfl

/-- The counts after `i` ranks of a play. -/
structure Counted (s s' : AI) (argSeat : Int) (points : Points) (i : Nat) : Prop where
  seat : s'.aiSeat = s.aiSeat
  remain : ∀ r, s'.remainPoints r = s.remainPoints r - if r < i then points r else 0
  other : ∀ r, s'.otherPoints r
    = s.otherPoints r - if argSeat ≠ s.aiSeat ∧ r < i then points r else 0
  own : ∀ r, s'.aiPoints r = s.aiPoints r - if argSeat = s.aiSeat ∧ r < i then points r else 0

theorem Counted.step {s s' : AI} {argSeat : Int} {points : Points} {i : Nat}
    (h : Counted s s' argSeat points i) :
    Counted s (takeOutRank argSeat points i s') argSeat points (i + 1) := by
  obtain ⟨hseat, hremain, hother, hown⟩ := takeOutRank_spec argSeat points i s'
  -- at rank `i` itself the old count is untouched; elsewhere `r < i` and `r < i + 1` agree
  have hat : ∀ r, r ≠ i → (r < i + 1 ↔ r < i) := fun r hr => by omega
  refine ⟨hseat.trans h.seat, fun r => ?_, fun r => ?_, fun r => ?_⟩
  · have hr := h.remain r
    rw [hremain, Function.update_apply]
    by_cases he : r = i
    · subst he
      simp at hr ⊢
      exact hr
    · simpa [he, hat r he] using hr
  · have hr := h.other r
    rw [hother, h.seat]
    by_cases hs : argSeat = s.aiSeat
    · simpa [hs] using hr
    · rw [if_neg hs, Function.update_apply]
      by_cases he : r = i
      · subst he
        simp [hs] at hr ⊢
        exact hr
      · simpa [he, hs, hat r he] using hr
  · have hr := h.own r
    rw [hown, h.seat]
    by_cases hs : argSeat = s.aiSeat
    · rw [if_pos hs, Function.update_apply]
      by_cases he : r = i
      · subst he
        simp [hs] at hr ⊢
        exact hr
      · simpa [he, hs, hat r he] using hr
    · simpa [hs] using hr

/-- Neither the history nor the current hand is a count. -/
theorem Counted.recordHand {s s' : AI} {argSeat : Int} {points : Points} {i : Nat}
    (h : Counted s s' argSeat points i) (seat : Int) (hand : Hand) :
    Counted s (s'.recordHand seat hand) argSeat points i := by
  unfold AI.recordHand
  split
  · exact ⟨h.seat, h.remain, h.other, h.own⟩
  · exact ⟨h.seat, h.remain, h.other, h.own⟩

/-- What a play does to the counts, over all ranks. The invariant is on the
ranks gone over so far; the fall in `total` comes before the loop and is no
count. -/
theorem rbtInTakeOutCard_counted (s : AI) (argSeat : Int) (argCards : List Int) :
    Counted s (s.rbtInTakeOutCard argSeat argCards) argSeat (cardVecToPointArr argCards)
      cardPointNum := by
  unfold rbtInTakeOutCard
  split
  next hn =>
    apply Counted.recordHand
    rw [List.length_eq_zero_iff.mp hn]
    refine ⟨rfl, fun r => ?_, fun r => ?_, fun r => ?_⟩ <;> simp [cardVecToPointArr]
  next =>
    apply Counted.recordHand
    -- the fall in `total` comes first and is no count either
    have hstart : Counted s (s.setInfo argSeat { s.playerInfo argSeat with
        total := (s.playerInfo argSeat).total - argCards.length }) argSeat
        (cardVecToPointArr argCards) 0 := by
      refine ⟨rfl, fun r => by simp [setInfo], fun r => by simp [setInfo], fun r => ?_⟩
      rw [aiPoints_setInfo]
      split
      next h => simp [aiPoints, h]
      next => simp
    have hrun := forUp_inv
      (fun i s' => Counted s s' argSeat (cardVecToPointArr argCards) i) 0 cardPointNum
      (fun i s' _ _ h => h.step) hstart
    rw [Nat.zero_add] at hrun
    exact hrun

theorem excess_rbtInTakeOutCard (s : AI) (argSeat : Int) (argCards : List Int) {r : Nat}
    (hr : r ≤ redJoker) : (s.rbtInTakeOutCard argSeat argCards).excess r = s.excess r := by
  have h := rbtInTakeOutCard_counted s argSeat argCards
  have hlt := lt_cardPointNum hr
  unfold excess
  rw [h.remain, h.other, h.own]
  by_cases hs : argSeat = s.aiSeat
  · simp [hs, hlt]
  · simp [hs, hlt]
    omega

/-- What a fresh deal sets. -/
theorem rbtInInitCard_spec (u : Undef) (s : AI) {argSeat : Int} (argHandCard : List Int)
    (h : 0 ≤ argSeat ∧ argSeat < 3) :
    (s.rbtInInitCard u argSeat argHandCard).aiSeat = argSeat ∧
    (s.rbtInInitCard u argSeat argHandCard).remainPoints = freshRemain s.remainPoints ∧
    (s.rbtInInitCard u argSeat argHandCard).aiPoints = cardVecToPointArr argHandCard := by
  unfold rbtInInitCard sortHandMap countOpponents
  dsimp only
  refine ⟨by split <;> rfl, by split <;> rfl, ?_⟩
  split <;> simp [aiPoints, h]

theorem lowestControl_rbtInInitCard (u : Undef) (s : AI) (seat : Int) (cards : List Int) :
    (s.rbtInInitCard u seat cards).lowestControl = card2 := by
  unfold rbtInInitCard sortHandMap countOpponents
  dsimp only
  split <;> rfl

/-- A fresh deal has nothing to correct. -/
theorem excess_rbtInInitCard (u : Undef) (s : AI) (argSeat : Int) (argHandCard : List Int)
    (r : Nat) : (s.rbtInInitCard u argSeat argHandCard).excess r = 0 := by
  unfold excess rbtInInitCard sortHandMap countOpponents
  dsimp only
  split <;> exact Int.sub_self _

/-! ## What the bottom cards do -/

/-- One bottom card: the deck counts stay, the robot's own count grows when it
is the lord. -/
theorem takeLeftover_spec (s : AI) (card : Int) :
    (takeLeftover s card).aiSeat = s.aiSeat ∧ (takeLeftover s card).lordSeat = s.lordSeat ∧
    (takeLeftover s card).remainPoints = s.remainPoints ∧
    (takeLeftover s card).otherPoints = s.otherPoints ∧
    (takeLeftover s card).aiPoints
      = (if s.lordSeat = s.aiSeat then s.aiPoints.incAt (cardToPoint card) 1 else s.aiPoints) := by
  unfold takeLeftover
  by_cases hl : s.lordSeat = s.aiSeat
  · refine ⟨by simp [hl, setInfo], by simp [hl, setInfo], by simp [hl, setInfo],
      by simp [hl, setInfo], ?_⟩
    simp [hl, aiPoints_setInfo]
    rfl
  · by_cases h0 : 0 ≤ (s.playerInfo s.lordSeat).points 0
    · refine ⟨by simp [hl, h0, setInfo], by simp [hl, h0, setInfo], by simp [hl, h0, setInfo],
        by simp [hl, h0, setInfo], ?_⟩
      simp [hl, h0, aiPoints_setInfo]
    · exact ⟨by simp [hl, h0], by simp [hl, h0], by simp [hl, h0], by simp [hl, h0],
        by simp [hl, h0]⟩

/-- The bottom cards reach the robot's own count only, and only when it is the
lord. -/
theorem foldl_takeLeftover_spec (cards : List Int) : ∀ s : AI,
    (cards.foldl takeLeftover s).aiSeat = s.aiSeat ∧
    (cards.foldl takeLeftover s).remainPoints = s.remainPoints ∧
    (cards.foldl takeLeftover s).otherPoints = s.otherPoints ∧
    ∀ r, (cards.foldl takeLeftover s).aiPoints r
      = s.aiPoints r + if s.lordSeat = s.aiSeat then cardVecToPointArr cards r else 0 := by
  induction cards with
  | nil =>
    intro s
    exact ⟨rfl, rfl, rfl, fun r => by simp [cardVecToPointArr]⟩
  | cons card cards ih =>
    intro s
    obtain ⟨hai, hlord, hremain, hother, hown⟩ := takeLeftover_spec s card
    obtain ⟨ihai, ihremain, ihother, ihown⟩ := ih (takeLeftover s card)
    refine ⟨ihai.trans hai, ihremain.trans hremain, ihother.trans hother, fun r => ?_⟩
    have hone : cardVecToPointArr (card :: cards) r
        = (if hasPoint r card then 1 else 0) + cardVecToPointArr cards r := by
      rw [cardVecToPointArr_apply, cardVecToPointArr_apply, List.countP_cons]
      split <;> push_cast <;> omega
    rw [List.foldl_cons, ihown, hai, hlord, hown]
    by_cases hl : s.lordSeat = s.aiSeat
    · rw [if_pos hl, if_pos hl, if_pos hl, incAt_apply, hone]
      omega
    · rw [if_neg hl, if_neg hl, if_neg hl]

/-- Seating the lord changes no count. -/
theorem aiPoints_seatLord (s : AI) (argLordSeat : Int) (argReceiceCard : List Int) :
    (s.seatLord argLordSeat argReceiceCard).aiPoints = s.aiPoints := by
  unfold seatLord
  rw [aiPoints_setInfo]
  split
  next h =>
    show (s.playerInfo argLordSeat).points = (s.playerInfo s.aiSeat).points
    rw [show argLordSeat = s.aiSeat from h]
  next => rfl

/-- What the bottom cards do to the counts. -/
theorem rbtInSetLord_spec (s : AI) (argLordSeat : Int) (argReceiceCard : List Int) :
    (s.rbtInSetLord argLordSeat argReceiceCard).aiSeat = s.aiSeat ∧
    (s.rbtInSetLord argLordSeat argReceiceCard).remainPoints = s.remainPoints ∧
    (s.rbtInSetLord argLordSeat argReceiceCard).otherPoints = s.otherPoints ∧
    ∀ r, (s.rbtInSetLord argLordSeat argReceiceCard).aiPoints r = s.aiPoints r
      + if argLordSeat = s.aiSeat then cardVecToPointArr (argReceiceCard.take 3) r else 0 := by
  obtain ⟨hai, hremain, hother, hown⟩ :=
    foldl_takeLeftover_spec (argReceiceCard.take 3) (s.seatLord argLordSeat argReceiceCard)
  refine ⟨hai, hremain, hother, fun r => ?_⟩
  have hr := hown r
  rw [aiPoints_seatLord] at hr
  exact hr

/-- The bottom cards are the excess of a robot that is the lord. -/
theorem excess_rbtInSetLord (s : AI) (argLordSeat : Int) (argReceiceCard : List Int) (r : Nat) :
    (s.rbtInSetLord argLordSeat argReceiceCard).excess r
      = s.excess r
        + if argLordSeat = s.aiSeat then cardVecToPointArr (argReceiceCard.take 3) r else 0 := by
  obtain ⟨-, hremain, hother, hown⟩ := rbtInSetLord_spec s argLordSeat argReceiceCard
  unfold excess
  rw [hremain, hother, hown]
  omega

/-! ## What one call writes -/

/-- The fields a play writes, and that the seat of the hand to beat afterwards
is the old one or the play's. Results about any other field read it off here. -/
theorem rbtInTakeOutCard_eq (s : AI) (argSeat : Int) (argCards : List Int) :
    ∃ info remain other curHand curHandSeat history,
      s.rbtInTakeOutCard argSeat argCards = { s with
        playerInfo := info, remainPoints := remain, otherPoints := other
        curHand := curHand, curHandSeat := curHandSeat, history := history } ∧
      (curHandSeat = s.curHandSeat ∨ curHandSeat = argSeat) := by
  have hrecord : ∀ (s : AI) (hand : Hand), ∃ curHand curHandSeat history,
      s.recordHand argSeat hand = { s with
        curHand := curHand, curHandSeat := curHandSeat, history := history } ∧
      (curHandSeat = s.curHandSeat ∨ curHandSeat = argSeat) := by
    intro s hand
    unfold recordHand
    split
    · exact ⟨_, _, _, rfl, Or.inr rfl⟩
    · exact ⟨_, _, _, rfl, Or.inl rfl⟩
  have hcount : ∃ info remain other, s.takeOutCount argSeat argCards
      = { s with playerInfo := info, remainPoints := remain, otherPoints := other } := by
    refine Loops.forUp_inv (fun _ (t : AI) => ∃ info remain other,
      t = { s with playerInfo := info, remainPoints := remain, otherPoints := other })
      0 cardPointNum ?_ ⟨_, _, _, rfl⟩
    intro i t _ _ ht
    obtain ⟨info, remain, other, rfl⟩ := ht
    unfold takeOutRank setInfo
    dsimp only
    split <;> split <;> exact ⟨_, _, _, rfl⟩
  unfold rbtInTakeOutCard
  split
  · obtain ⟨_, _, _, heq, hseat⟩ := hrecord s {}
    exact ⟨_, _, _, _, _, _, heq, hseat⟩
  · obtain ⟨info, remain, other, hc⟩ := hcount
    obtain ⟨_, _, _, heq, hseat⟩ := hrecord (s.takeOutCount argSeat argCards)
      (getHand (cardVecToPointArr argCards))
    rw [hc] at heq hseat ⊢
    exact ⟨_, _, _, _, _, _, heq, hseat⟩

/-- The loop of `RbtInSetLord` writes cards only: the record of the lord's seat
and, for the lord itself, its own cards. -/
theorem rbtInSetLord_eq (s : AI) (argLordSeat : Int) (argReceiceCard : List Int) :
    ∃ info vec, s.rbtInSetLord argLordSeat argReceiceCard
      = { s.seatLord argLordSeat argReceiceCard with playerInfo := info, aiCardsVec := vec } := by
  have hfold : ∀ (cards : List Int) (s : AI), ∃ info vec, cards.foldl takeLeftover s
      = { s with playerInfo := info, aiCardsVec := vec } := by
    intro cards
    induction cards with
    | nil => intro s; exact ⟨_, _, rfl⟩
    | cons card cards ih =>
      intro s
      have hone : ∃ info vec, takeLeftover s card
          = { s with playerInfo := info, aiCardsVec := vec } := by
        unfold takeLeftover setInfo
        dsimp only
        split <;> split <;> exact ⟨_, _, rfl⟩
      obtain ⟨_, _, heq⟩ := hone
      obtain ⟨_, _, heq'⟩ := ih (takeLeftover s card)
      rw [List.foldl_cons, heq', heq]
      exact ⟨_, _, rfl⟩
  exact hfold _ _

end AI

end RobotDdz
