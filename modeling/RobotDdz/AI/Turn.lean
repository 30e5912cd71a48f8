import RobotDdz.AI.Keeps
import RobotDdz.AI.TakeOut

/-!
# One turn

`RbtOutGetTakeOutCard`: the level picks a strategy, the strategy a hand, the
hand takes cards out of `aiCardsVec`, and what came out is looked at once more.
A leader whose cards are no hand takes out the lowest hand of the map on top of
them; a follower whose cards are a hand, but too low a one, takes them back.

A strategy changes the map, the summary and the counters, never the cards or
whose turn it is (`SameTurn`). So the outcome is decided by the hand it picked
(`turnContract_checkTakeOut`): cards taken for it that are no hand are never
recovered.

The contract of a turn is stated for the caller: no card is lost or made up, a
leader plays a hand, and a follower passes or plays a higher hand. It is proved
here from the hand that was picked, whatever picked it. What the strategies
pick is left to the modules after this one, level by level.

Mirroring notes vs `OGLordRobotAI.cpp`:
- What was taken out is read again into `checkHand`. The hand that was picked
  is compared with nothing: if its cards are not all held, only what came out
  counts.
- `RecoveryHandCards` puts back `vecLastTakeOutCards`, the cards of the last
  take-out. After the second take-out of a leader's turn the first cards are in
  neither.
- `hand` is a local variable without an initial value, which the model takes
  from `Undef`.
- Every level but 0 and 1 plays `takeOutHighLvl`.
-/

namespace RobotDdz

namespace AI

section Turn

variable (u : Undef)

/-! ## The levels -/

/-- `refindForTrio`. -/
def refindForTrio (s : AI) (hand : Hand) : Hand :=
  let copyPoints := pointsSub s.aiPoints (handToPointsArray hand)
  let copyHandsMap :=
    (sortHandsWithBestKind u copyPoints s.lowestControl s.maxOppNumber s.otherPoints false).1
  let lower (h : Hand) : Bool :=
    (s.isFree || s.curHand.keyPoint < h.keyPoint) && h.keyPoint < hand.keyPoint
  let found :=
    if isChain hand.type then
      (copyHandsMap.vec .trioChain).find? fun h => lower h && h.len = hand.len
    else (copyHandsMap.vec .trio).find? lower
  let hand := { hand with keyPoint := (found.map Hand.keyPoint).getD hand.keyPoint }
  let kickerSize := hand.kickerCount
  let kickerHands :=
    copyHandsMap.vec (if hand.type = .trioSolo ∨ hand.type = .trioChainSolo then .solo else .pair)
  let lowerKickers :=
    (kickerHands.takeWhile fun h => h.keyPoint < hand.kickerAt (kickerSize - 1)).map Hand.keyPoint
  let kickerSet : List Nat :=
    ((List.range kickerSize).map hand.kickerAt ++ lowerKickers).dedup.insertionSort (· ≤ ·)
  if 0 < kickerSize ∧ kickerSize < kickerSet.length then
    hand.setKickers (kickerSet.take kickerSize)
  else hand

/-- `takeOutLvl0`. -/
def takeOutLvl0 (s : AI) (hand : Hand) : AI × Hand :=
  let s := s.sortHandMap u
  (s,
    if s.curHandSeat = s.aiSeat ∨ s.aiPosition = .lord ∧ s.curHandSeat < 0 then
      s.findLowestHand hand
    else s.findHigherHand hand)

/-- The branches of `takeOutLvl1`. -/
def strategyLvl1 (s : AI) (hand : Hand) : AI × Hand :=
  if s.aiPosition = .lord then
    (s, if s.curHandSeat = -1 ∨ s.curHandSeat = s.lordSeat then s.lordTakeOutFree u hand
      else s.lordTakeOutHigher u hand)
  else s.farmerTakeOut u hand

/-- `takeOutLvl1`. -/
def takeOutLvl1 (s : AI) (hand : Hand) : AI × Hand :=
  let r := (s.sortHandMap u).strategyLvl1 u hand
  if r.2.type = .trio ∨ r.2.type = .trioSolo ∨ r.2.type = .trioPair
      ∨ r.2.type = .trioChainSolo ∨ r.2.type = .trioChainPair then
    (r.1, refindForTrio u r.1 r.2)
  else r

/-- `takeOutHighLvl`. -/
def takeOutHighLvl (s : AI) (hand : Hand) : AI × Hand :=
  let s := s.sortHandMapLvl
  if s.aiPosition = .lord then
    if s.curHandSeat = -1 ∨ s.curHandSeat = s.lordSeat then s.lordTakeOutFreeLvl u hand
    else (s, s.lordTakeOutHigher u hand)
  else s.farmerTakeOut u hand

/-- The first two assignments of `RbtOutGetTakeOutCard`. -/
def updateControl (s : AI) : AI :=
  let lowestControl := getLowestControl s.remainPoints
  { s with lowestControl, controlNum := calControl s.aiPoints s.otherPoints lowestControl }

/-- The part of `RbtOutGetTakeOutCard` that finds `hand`, which starts unset. -/
def takeOutByLevel (s : AI) : AI × Hand :=
  let s := s.updateControl
  if s.level = 0 then s.takeOutLvl0 u u.hand
  else if s.level = 1 then s.takeOutLvl1 u u.hand
  else s.takeOutHighLvl u u.hand

/-- The part of `RbtOutGetTakeOutCard` that takes the cards of `hand` and
checks them. -/
def checkTakeOut (s : AI) (hand : Hand) : AI × List Int :=
  let r := s.takeOutHand hand
  let checkHand := getHand (cardVecToPointArr r.2)
  if r.1.isFree then
    -- the cards taken so far are neither kept nor put back
    if checkHand.type = .nothing then r.1.takeOutHand (r.1.findLowestHand hand) else r
  else if checkHand.type ≠ .nothing ∧ !isHandHigherThan checkHand r.1.curHand then
    r.1.recoveryHandCards.takeOutHand hand.clear
  else r

/-- `RbtOutGetTakeOutCard`, with `vecCards`. -/
def rbtOutGetTakeOutCard (s : AI) : AI × List Int :=
  let r := s.takeOutByLevel u
  r.1.checkTakeOut r.2

end Turn

/-! ## What a strategy leaves alone -/

/-- The fields no strategy changes. -/
structure SameTurn (s s' : AI) : Prop where
  aiCardsVec : s'.aiCardsVec = s.aiCardsVec
  curHand : s'.curHand = s.curHand
  curHandSeat : s'.curHandSeat = s.curHandSeat
  aiSeat : s'.aiSeat = s.aiSeat
  aiPosition : s'.aiPosition = s.aiPosition

namespace SameTurn

theorem isFree {s s' : AI} (h : SameTurn s s') : s'.isFree = s.isFree := by
  unfold AI.isFree
  rw [h.aiPosition, h.curHandSeat, h.aiSeat]

end SameTurn

section Frames

variable {P : Prop} (u : Undef) (s : AI) (hand : Hand)

theorem keeps_updateControl : Keeps P s s.updateControl := .of_known rfl rfl

/-- Whose turn it is is shown. -/
theorem Keeps.sameTurn {s s' : AI} (h : Keeps P s s') : SameTurn s s' :=
  ⟨h.cards, h.curHand, h.curHandSeat, h.aiSeat, h.aiPosition⟩

/-- The turns that go through the branch of
`downFarmerTakeOutUpFarmerOnly1Card` that takes the bombs out of the robot's
own points. -/
structure TakesOwnBombs (s : AI) : Prop where
  level : s.level ≠ 0
  position : s.aiPosition = .downFarmer
  free : s.isFree = true
  oneCard : s.LeadsToOneCard

/-- The condition looks only at what the sorting keeps. -/
theorem LeadsToOneCard.congr {s s' : AI} (h : Keeps True s s') (hc : s'.LeadsToOneCard) :
    s.LeadsToOneCard := by
  have hpoints := h.aiPoints trivial
  have hnext : s'.nextSeat = s.nextSeat := by
    unfold nextSeat
    rw [h.aiSeat]
  refine ⟨?_, ?_, ?_⟩
  · rw [← h.total, ← hnext]
    exact hc.one
  · rw [← hpoints, ← h.otherPoints]
    exact hc.lowest
  · rw [← hpoints]
    exact hc.bomb

theorem keeps_strategy {s s' : AI} (h : Keeps True s s')
    (hP : P → ¬(s.aiPosition = .downFarmer ∧ s.isFree = true ∧ s.LeadsToOneCard)) :
    Keeps P s (s'.farmerTakeOut u hand).1 := by
  have hs : Keeps P s s' := ⟨fun _ => h.known trivial, h.shown, h.cards⟩
  refine hs.trans (s'.keeps_farmerTakeOut u hand fun hp hdown hfree hc => hP hp ⟨?_, ?_, ?_⟩)
  · rw [← h.aiPosition]
    exact hdown
  · rw [← h.isFree]
    exact hfree
  · exact hc.congr h

theorem keeps_takeOutLvl1
    (hP : P → ¬(s.aiPosition = .downFarmer ∧ s.isFree = true ∧ s.LeadsToOneCard)) :
    Keeps P s (s.takeOutLvl1 u hand).1 := by
  have hpick : Keeps P s ((s.sortHandMap u).strategyLvl1 u hand).1 := by
    unfold strategyLvl1
    split
    · exact s.keeps_sortHandMap u
    · exact keeps_strategy u hand (s.keeps_sortHandMap u) hP
  unfold takeOutLvl1
  simp only []
  split
  · exact hpick
  · exact hpick

theorem keeps_takeOutHighLvl
    (hP : P → ¬(s.aiPosition = .downFarmer ∧ s.isFree = true ∧ s.LeadsToOneCard)) :
    Keeps P s (s.takeOutHighLvl u hand).1 := by
  unfold takeOutHighLvl
  simp only []
  split
  · split
    · exact s.keeps_sortHandMapLvl.trans (keeps_lordTakeOutFreeLvl ..)
    · exact s.keeps_sortHandMapLvl
  · exact keeps_strategy u hand s.keeps_sortHandMapLvl hP

/-- What a turn leaves alone before it takes cards out. -/
theorem keeps_takeOutByLevel (hP : P → ¬s.TakesOwnBombs) :
    Keeps P s (s.takeOutByLevel u).1 := by
  have hP' : s.level ≠ 0 → P → ¬(s.updateControl.aiPosition = .downFarmer
      ∧ s.updateControl.isFree = true ∧ s.updateControl.LeadsToOneCard) :=
    fun hl hp hc => hP hp ⟨hl, hc.1, hc.2.1, hc.2.2.congr s.keeps_updateControl⟩
  refine s.keeps_updateControl.trans ?_
  unfold takeOutByLevel
  simp only []
  split
  · exact s.updateControl.keeps_sortHandMap u
  next hl =>
    split
    · exact s.updateControl.keeps_takeOutLvl1 u u.hand (hP' hl)
    · exact s.updateControl.keeps_takeOutHighLvl u u.hand (hP' hl)

theorem sameTurn_takeOutByLevel : SameTurn s (s.takeOutByLevel u).1 :=
  (s.keeps_takeOutByLevel (P := False) u fun hp => hp.elim).sameTurn

end Frames

/-! ## The contract of a turn -/

/-- What the caller may expect of a turn from the state `s`: no card is lost or
made up, a leader plays a hand, and a follower passes or plays a higher hand. -/
structure TurnContract (s : AI) (r : AI × List Int) : Prop where
  conserved : (r.2 ++ r.1.aiCardsVec).Perm s.aiCardsVec
  leads : s.isFree = true → s.aiCardsVec ≠ [] →
    r.2 ≠ [] ∧ (getHand (cardVecToPointArr r.2)).type ≠ .nothing
  follows : s.isFree = false → r.2 = [] ∨ (getHand (cardVecToPointArr r.2)).type ≠ .nothing
    ∧ isHandHigherThan (getHand (cardVecToPointArr r.2)) s.curHand = true

/-- A hand `getHand` recognises for some play of distinct cards, up to the
fields it leaves unset. -/
def PlayedHand (h : Hand) : Prop :=
  ∃ cards : List Int, cards.Nodup ∧ (∀ c ∈ cards, ValidCard c) ∧ h.type ≠ .nothing ∧
    (getHand (cardVecToPointArr cards)).Agrees h

/-- A state a turn can start from: at most twenty distinct cards, the robot's
point array their counts, and for a follower a hand to beat. -/
structure TurnState (s : AI) : Prop where
  nodup : s.aiCardsVec.Nodup
  valid : ∀ c ∈ s.aiCardsVec, ValidCard c
  size : s.aiCardsVec.length ≤ 20
  points : s.aiPoints = cardVecToPointArr s.aiCardsVec
  seat : -1 ≤ s.curHandSeat
  curHand : s.isFree = false → PlayedHand s.curHand

/-- Whether the cards held of those a hand asks for are a hand. -/
def Recognised (s : AI) (hand : Hand) : Prop := (getHand (s.heldOf hand)).type ≠ .nothing

/-- The condition on the hand a strategy picked: the cards held of it are a
hand; or there are none, and then a leader's next choice, the lowest hand of
the map, is one. -/
def PickPlayable (s : AI) (hand : Hand) : Prop :=
  s.Recognised hand ∨ (∀ r, s.heldOf hand r = 0) ∧
    (s.isFree = true → s.Recognised (s.findLowestHand hand))

theorem getHand_zero : (getHand Points.zero).type = .nothing := by decide

theorem Recognised.takeOut_ne_nil {s : AI} {hand : Hand} (h : s.Recognised hand) :
    (s.takeOutHand hand).2 ≠ [] := by
  intro hnil
  have hzero : s.heldOf hand = Points.zero := funext ((s.takeOutHand_eq_nil_iff hand).mp hnil)
  exact h (hzero ▸ getHand_zero)

/-- What is taken out after `r` cards were taken depends on the cards left
only. -/
theorem heldOf_congr {s s' : AI} (h : s'.aiCardsVec = s.aiCardsVec) (hand : Hand) :
    s'.heldOf hand = s.heldOf hand := by
  unfold heldOf
  rw [h]

section Contract

variable (s : AI) (hand : Hand)

/-- `checkTakeOut` by the cards held of the hand. -/
theorem checkTakeOut_eq : s.checkTakeOut hand =
    if s.isFree = true then
      if (getHand (s.heldOf hand)).type = .nothing then
        (s.takeOutHand hand).1.takeOutHand (s.findLowestHand hand)
      else s.takeOutHand hand
    else if (getHand (s.heldOf hand)).type ≠ .nothing
        ∧ !isHandHigherThan (getHand (s.heldOf hand)) s.curHand then
      (s.takeOutHand hand).1.recoveryHandCards.takeOutHand hand.clear
    else s.takeOutHand hand := by
  unfold checkTakeOut
  simp only [takeOutHand_counts]
  rfl

/-- A leader's turn, from the hand picked. If the first cards are no hand they
are gone, so the contract can hold only if there were none, and then the lowest
hand is taken. -/
theorem turnContract_lead (hcards : s.aiCardsVec ≠ []) (hfree : s.isFree = true) :
    TurnContract s (s.checkTakeOut hand) ↔ s.PickPlayable hand := by
  have hperm := s.takeOutHand_perm hand
  by_cases hrec : s.Recognised hand
  · -- the first cards are a hand and stay
    have hcheck : s.checkTakeOut hand = s.takeOutHand hand := by
      rw [checkTakeOut_eq, if_pos hfree, if_neg hrec]
    refine ⟨fun _ => .inl hrec, fun _ => ?_⟩
    rw [hcheck]
    refine ⟨hperm, fun _ _ => ⟨hrec.takeOut_ne_nil, ?_⟩, fun hf => ?_⟩
    · rw [takeOutHand_counts]
      exact hrec
    · rw [hfree] at hf
      exact Bool.noConfusion hf
  · -- the second cards are taken with the first ones gone
    have hcheck : s.checkTakeOut hand
        = (s.takeOutHand hand).1.takeOutHand (s.findLowestHand hand) := by
      rw [checkTakeOut_eq, if_pos hfree, if_pos (not_not.mp hrec)]
    rw [hcheck]
    have hperm' := (s.takeOutHand hand).1.takeOutHand_perm (s.findLowestHand hand)
    constructor
    · intro hc
      have hnil : (s.takeOutHand hand).2 = [] := by
        have h1 := hc.conserved.length_eq
        have h2 := hperm'.length_eq
        have h3 := hperm.length_eq
        rw [List.length_append] at h1 h2 h3
        exact List.eq_nil_of_length_eq_zero (by omega)
      refine .inr ⟨(s.takeOutHand_eq_nil_iff hand).mp hnil, fun _ => ?_⟩
      have hleads := (hc.leads hfree hcards).2
      rw [takeOutHand_counts, heldOf_congr (s.takeOutHand_keeps hnil)] at hleads
      exact hleads
    · intro hpick
      obtain ⟨hzero, hlow⟩ := hpick.resolve_left hrec
      have hnil := (s.takeOutHand_eq_nil_iff hand).mpr hzero
      have hkeep := s.takeOutHand_keeps hnil
      have hlow' : (s.takeOutHand hand).1.Recognised (s.findLowestHand hand) := by
        unfold Recognised
        rw [heldOf_congr hkeep]
        exact hlow hfree
      refine ⟨hkeep ▸ hperm', fun _ _ => ⟨hlow'.takeOut_ne_nil, ?_⟩, fun hf => ?_⟩
      · rw [takeOutHand_counts]
        exact hlow'
      · rw [hfree] at hf
        exact Bool.noConfusion hf

/-- Too low a hand goes back, and any other stays out. -/
theorem checkTakeOut_follow (hfree : s.isFree = false) : s.checkTakeOut hand =
    if (getHand (s.heldOf hand)).type ≠ .nothing
        ∧ !isHandHigherThan (getHand (s.heldOf hand)) s.curHand then
      ({ (s.takeOutHand hand).1.recoveryHandCards with vecLastTakeOutCards := [] }, [])
    else s.takeOutHand hand := by
  rw [checkTakeOut_eq, if_neg (by rw [hfree]; decide)]
  split
  · exact takeOutHand_nothing _ rfl
  · rfl

/-- So a follower's cards are never lost, whatever was picked. -/
theorem checkTakeOut_follow_perm (hfree : s.isFree = false) :
    ((s.checkTakeOut hand).2 ++ (s.checkTakeOut hand).1.aiCardsVec).Perm s.aiCardsVec := by
  have hperm := s.takeOutHand_perm hand
  rw [s.checkTakeOut_follow hand hfree]
  split
  · show ((s.takeOutHand hand).1.aiCardsVec ++ (s.takeOutHand hand).2).Perm s.aiCardsVec
    exact List.perm_append_comm.trans hperm
  · exact hperm

/-- A follower's turn, from the hand picked. Cards that are a hand but not a
higher one are put back, so the pick has to be a hand or nothing. -/
theorem turnContract_follow (hfree : s.isFree = false) :
    TurnContract s (s.checkTakeOut hand) ↔ s.PickPlayable hand := by
  have hperm := s.checkTakeOut_follow_perm hand hfree
  have hcheck := s.checkTakeOut_follow hand hfree
  have hnot : ¬s.isFree = true := by
    rw [hfree]
    decide
  by_cases hlow : (getHand (s.heldOf hand)).type ≠ .nothing
      ∧ !isHandHigherThan (getHand (s.heldOf hand)) s.curHand
  · rw [if_pos hlow] at hcheck
    rw [hcheck] at hperm ⊢
    exact ⟨fun _ => .inl hlow.1, fun _ => ⟨hperm, fun hf => absurd hf hnot, fun _ => .inl rfl⟩⟩
  · rw [if_neg hlow] at hcheck
    rw [hcheck] at hperm ⊢
    constructor
    · intro hc
      rcases hc.follows hfree with hnil | ⟨hrec, -⟩
      · exact .inr ⟨(s.takeOutHand_eq_nil_iff hand).mp hnil, fun hf => absurd hf hnot⟩
      · rw [takeOutHand_counts] at hrec
        exact .inl hrec
    · intro hpick
      refine ⟨hperm, fun hf => absurd hf hnot, fun _ => ?_⟩
      rcases hpick with hrec | ⟨hzero, -⟩
      · right
        rw [takeOutHand_counts]
        have hhigher := mt (And.intro hrec) hlow
        exact ⟨hrec, by simpa using hhigher⟩
      · exact .inl ((s.takeOutHand_eq_nil_iff hand).mpr hzero)

theorem turnContract_checkTakeOut (hcards : s.aiCardsVec ≠ []) :
    TurnContract s (s.checkTakeOut hand) ↔ s.PickPlayable hand := by
  by_cases hfree : s.isFree = true
  · exact s.turnContract_lead hand hcards hfree
  · exact s.turnContract_follow hand (Bool.eq_false_iff.mpr hfree)

end Contract

/-- The cards of the answer are the last ones taken out. -/
theorem lastTakeOutCards_answer (u : Undef) (s : AI) :
    (s.rbtOutGetTakeOutCard u).1.vecLastTakeOutCards = (s.rbtOutGetTakeOutCard u).2 := by
  unfold rbtOutGetTakeOutCard checkTakeOut
  dsimp only
  split
  · split <;> rfl
  · split <;> rfl

/-- A robot that follows loses no card at any level, whatever its strategy
picks. -/
theorem answer_follow_perm (u : Undef) {s : AI} (hfree : s.isFree = false) :
    ((s.rbtOutGetTakeOutCard u).2 ++ (s.rbtOutGetTakeOutCard u).1.aiCardsVec).Perm
      s.aiCardsVec := by
  have hsame := s.sameTurn_takeOutByLevel u
  rw [← hsame.isFree] at hfree
  rw [← hsame.aiCardsVec]
  exact checkTakeOut_follow_perm _ _ hfree

/-- The contract looks only at the fields a strategy keeps. -/
theorem SameTurn.turnContract_congr {s s' : AI} (h : SameTurn s s') (r : AI × List Int) :
    TurnContract s r ↔ TurnContract s' r := by
  constructor
  · intro hc
    refine ⟨h.aiCardsVec ▸ hc.conserved, ?_, ?_⟩
    · rw [h.isFree, h.aiCardsVec]
      exact hc.leads
    · rw [h.isFree, h.curHand]
      exact hc.follows
  · intro hc
    have hleads := hc.leads
    have hfollows := hc.follows
    rw [h.isFree, h.aiCardsVec] at hleads
    rw [h.isFree, h.curHand] at hfollows
    exact ⟨h.aiCardsVec ▸ hc.conserved, hleads, hfollows⟩

/-- A turn at any level keeps its contract exactly when the strategy's pick is
playable. -/
theorem turnContract_pick_iff (u : Undef) (s : AI) (hcards : s.aiCardsVec ≠ []) :
    TurnContract s (s.rbtOutGetTakeOutCard u)
      ↔ (s.takeOutByLevel u).1.PickPlayable (s.takeOutByLevel u).2 := by
  have hsame := s.sameTurn_takeOutByLevel u
  rw [hsame.turnContract_congr]
  refine turnContract_checkTakeOut _ _ ?_
  rw [hsame.aiCardsVec]
  exact hcards

end AI

end RobotDdz
