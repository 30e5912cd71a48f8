import RobotDdz.AI.State
import RobotDdz.Lib.Quota
import Mathlib.Data.List.Sort

/-!
# Moving cards in and out of the robot's hand

`takeOutHand` walks `aiCardsVec` and takes a card while the hand still wants
one of its rank; `RecoveryHandCards` puts the last cards taken back, and
`RemoveExtraCards` takes out the cards the server played in the robot's place.

Everything else uses two facts. `takeOutHand_perm`: the cards taken and the
cards left are the old ones. `takeOutHand_counts`: of each rank as many are
taken as the hand wants, or all there are. `takeOutHand_recovers` is the whole
account for a hand the cards allow, with the way back: the cards taken are
exactly the hand's, the others keep their order, and recovery undoes the call.

Mirroring notes vs `OGLordRobotAI.cpp`:
- `takeOutHand` goes once through `aiCardsVec` and erases the cards it takes.
  The general part is `Lib/Quota`, with the points of the hand for the quota
  and the rank of a card for its key.
- `vecLastTakeOutCards` is set to the cards taken in every call, also to none
  for a pass. `RecoveryHandCards` appends these and does not clear them, so
  that calling it twice puts the cards back twice.
- `RemoveExtraCards` erases the first occurrence of each card of the server's
  play.
- `IsSameCardsInfo` sorts copies of both lists before it compares them, so the
  order of the cards does not matter and their number does.
-/

namespace RobotDdz

namespace AI

/-- The two lists of `takeOutHand`: the cards taken, and `aiCardsVec`
afterwards. -/
def splitOff (hand : Hand) (aiCardsVec : List Int) : List Int × List Int :=
  Quota.take cardToPoint (handToPointsArray hand).readAt aiCardsVec

/-- `takeOutHand`, with `takeOutCards`. -/
def takeOutHand (s : AI) (hand : Hand) : AI × List Int :=
  let r := splitOff hand s.aiCardsVec
  ({ s with aiCardsVec := r.2, vecLastTakeOutCards := r.1 }, r.1)

/-- `RecoveryHandCards`. -/
def recoveryHandCards (s : AI) : AI :=
  { s with aiCardsVec := s.aiCardsVec ++ s.vecLastTakeOutCards }

/-- `RemoveExtraCards`. -/
def removeExtraCards (s : AI) (vecCurrentCards : List Int) : AI :=
  { s with aiCardsVec := vecCurrentCards.foldl List.erase s.aiCardsVec }

/-- `IsSameCardsInfo`. -/
def isSameCardsInfo (vecCards1 vecCards2 : List Int) : Bool :=
  if vecCards1.length ≠ vecCards2.length then false
  else vecCards1.insertionSort (· ≤ ·) = vecCards2.insertionSort (· ≤ ·)

/-- `IsLastTakeOutCards`. -/
def isLastTakeOutCards (s : AI) (vecCurrentCards : List Int) : Bool :=
  isSameCardsInfo s.vecLastTakeOutCards vecCurrentCards

/-! ## What they do to the cards -/

theorem takeOutHand_perm (s : AI) (hand : Hand) :
    ((s.takeOutHand hand).2 ++ (s.takeOutHand hand).1.aiCardsVec).Perm s.aiCardsVec :=
  Quota.take_perm ..

@[simp] theorem takeOutHand_last (s : AI) (hand : Hand) :
    (s.takeOutHand hand).1.vecLastTakeOutCards = (s.takeOutHand hand).2 := rfl

/-- Nothing is taken for a pass. -/
theorem takeOutHand_nothing (s : AI) {hand : Hand} (h : hand.type = .nothing) :
    s.takeOutHand hand = ({ s with vecLastTakeOutCards := [] }, []) := by
  have hz : ∀ k, (handToPointsArray hand).readAt k ≤ 0 := by
    intro k
    simp only [handToPointsArray, h, Points.readAt, Points.zero_apply]
    split <;> exact Int.le_refl 0
  unfold takeOutHand splitOff
  rw [Quota.take_nonpos _ hz]

/-- The cards held of those a hand asks for, rank by rank. -/
def heldOf (s : AI) (hand : Hand) : Points :=
  fun r => min (handToPointsArray hand r) (cardVecToPointArr s.aiCardsVec r)

/-- What is taken for any hand. -/
theorem takeOutHand_counts (s : AI) (hand : Hand) :
    cardVecToPointArr (s.takeOutHand hand).2 = s.heldOf hand := by
  funext r
  have hread : (handToPointsArray hand).readAt (r : Int) = handToPointsArray hand r := by
    simp [Points.readAt]
  have hcount :=
    Quota.countP_take cardToPoint (handToPointsArray hand).readAt s.aiCardsVec (r : Int)
  rw [hread, max_eq_left (handToPointsArray_nonneg hand r)] at hcount
  rw [cardVecToPointArr_apply, heldOf, cardVecToPointArr_apply]
  exact hcount

theorem takeOutHand_eq_nil_iff (s : AI) (hand : Hand) :
    (s.takeOutHand hand).2 = [] ↔ ∀ r, s.heldOf hand r = 0 := by
  constructor
  · intro hnil r
    rw [← s.takeOutHand_counts hand, hnil]
    rfl
  · intro hzero
    rw [List.eq_nil_iff_forall_not_mem]
    intro card hmem
    have hpos := Quota.pos_of_mem_take hmem
    unfold Points.readAt at hpos
    split at hpos
    next h0 =>
      obtain ⟨r, hr⟩ := Int.eq_ofNat_of_zero_le h0
      have hin : 0 < (s.takeOutHand hand).2.countP (hasPoint r) :=
        List.countP_pos_iff.mpr ⟨card, hmem, beq_iff_eq.mpr hr⟩
      have hnone := hzero r
      rw [← s.takeOutHand_counts hand, cardVecToPointArr_apply] at hnone
      omega
    next => exact absurd hpos (by decide)

/-- When nothing is taken, the cards stay as they are. -/
theorem takeOutHand_keeps (s : AI) {hand : Hand} (h : (s.takeOutHand hand).2 = []) :
    (s.takeOutHand hand).1.aiCardsVec = s.aiCardsVec := Quota.take_rest h

/-- Taking a hand out and putting it back. The cards taken are the hand's, the
others stay in their order, and the last cards taken put back are all cards
again. -/
theorem takeOutHand_recovers (s : AI) (hand : Hand) (hnodup : s.aiCardsVec.Nodup)
    (hheld : ∀ r < cardPointNum, handToPointsArray hand r ≤ cardVecToPointArr s.aiCardsVec r) :
    let r := s.takeOutHand hand
    (∀ k < cardPointNum, cardVecToPointArr r.2 k = handToPointsArray hand k) ∧
      r.1.vecLastTakeOutCards = r.2 ∧
      r.1.aiCardsVec = s.aiCardsVec.filter (· ∉ r.2) ∧
      (r.2 ++ r.1.aiCardsVec).Perm s.aiCardsVec ∧
      r.1.recoveryHandCards.aiCardsVec.Perm s.aiCardsVec := by
  intro r
  have hperm : (r.2 ++ r.1.aiCardsVec).Perm s.aiCardsVec := s.takeOutHand_perm hand
  refine ⟨fun k hk => ?_, rfl, Quota.take_rest_eq_filter _ _ hnodup, hperm, ?_⟩
  · show cardVecToPointArr (s.takeOutHand hand).2 k = _
    rw [takeOutHand_counts]
    exact min_eq_left (hheld k hk)
  · show (r.1.aiCardsVec ++ r.2).Perm _
    exact List.perm_append_comm.trans hperm

/-- A trio with a kicker out of seven cards. -/
theorem takeOutHand_recovers_trioSolo :
    let s : AI := { aiCardsVec := [14, 53, 1, 27, 7, 40, 20] }
    let r := s.takeOutHand { type := .trioSolo, keyPoint := 1, kicker := [7] }
    r.2 = [14, 1, 27, 7] ∧ r.1.aiCardsVec = [53, 40, 20] ∧
      r.1.recoveryHandCards.aiCardsVec.Perm s.aiCardsVec :=
  ⟨by decide, by decide, (takeOutHand_recovers _ { type := .trioSolo, keyPoint := 1, kicker := [7] }
    (by decide) (by decide)).2.2.2.2⟩

theorem isSameCardsInfo_iff (l l' : List Int) : isSameCardsInfo l l' = true ↔ l.Perm l' := by
  unfold isSameCardsInfo
  constructor
  · intro h
    split at h
    · exact Bool.noConfusion h
    · have hsort := of_decide_eq_true h
      refine (List.perm_insertionSort (· ≤ ·) l).symm.trans ?_
      rw [hsort]
      exact List.perm_insertionSort (· ≤ ·) l'
  · intro h
    rw [if_neg (fun hne => hne h.length_eq), decide_eq_true_iff]
    have hperm := ((List.perm_insertionSort (· ≤ ·) l).trans h).trans
      (List.perm_insertionSort (· ≤ ·) l').symm
    exact hperm.eq_of_pairwise' (List.pairwise_insertionSort _ l) (List.pairwise_insertionSort _ l')

theorem isLastTakeOutCards_iff (s : AI) (cards : List Int) :
    s.isLastTakeOutCards cards = true ↔ s.vecLastTakeOutCards.Perm cards := isSameCardsInfo_iff ..

theorem removeExtraCards_cards (s : AI) (cards : List Int) :
    (s.removeExtraCards cards).aiCardsVec = s.aiCardsVec.diff cards :=
  (List.diff_eq_foldl _ _).symm

end AI

end RobotDdz
