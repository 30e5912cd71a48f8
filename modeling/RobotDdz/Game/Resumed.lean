import RobotDdz.Game.Seat
import RobotDdz.Task.Handlers

/-!
# A robot that has resumed

A robot that comes back into a running game gets its seat, the lord's and the
cards it holds (`RecvKeepPlayAck`), but not the hand to beat. Until the next
play is announced it takes itself for the leader as the lord, and for a
follower of nothing as a farmer.

`resumed_plays_iff`: at level 0 all its turns are legal plays exactly when such
a turn happens to be one. The lord plays its lowest hand, which must lead or
beat the last one by luck; a farmer plays its first bomb or passes, so that it
cannot lead without a bomb.

The robot is compared with the table as in `Game/Seat`, by an invariant that
has the cards and the counts but leaves the hand to beat open: it is the
table's, or there is none (`Resuming`). An announced play that is recognised
closes the gap for good. Until then a turn is blind, and `Rebuilt.plays_blind`
says which blind turns are legal.

Mirroring notes vs `RobotTask.cpp`:
- `RecvKeepPlayAck` resets the AI, sets the seats and gives it the cards; it
  does not tell it any play, although `RbtInTakeOutRecord` is there for it.
- As the lord without a hand to beat the robot leads. As a farmer it follows a
  hand of type `NOTHING`, which every bomb beats.
-/

namespace RobotDdz

open AI Runs

/-- The table after the plays of a deal. -/
def tableAfter (d : Deal) (lord : Int) (plays : List (Int × List Int)) : Table :=
  plays.foldl (fun t p => t.put p.1 p.2) (d.started lord)

/-- The map a robot of level 0 sorts in its turn. -/
def turnMap (u : Undef) (s : AI) : HandsMap := (s.updateControl.sortHandMap u).handsMap

/-- The hand a robot of level 0 leads with. -/
def leadHand (u : Undef) (s : AI) : Hand := (s.updateControl.sortHandMap u).findLowestHand u.hand

/-- A turn without the hand to beat is a legal play all the same: the lord
leads, or its lowest hand beats the last one; a farmer has a bomb to lead with,
or its first bomb beats the last hand. -/
def SeatEvent.Lucky (lord seat : Int) (x : AI × Table) : SeatEvent → Prop
  | other _ _ => True
  | own u => x.1.curHandSeat = -1 → ∀ p ∈ x.2.last,
    if lord = seat then p.1 = seat ∨ isHandHigherThan (leadHand u x.1) p.2 = true
    else if p.1 = seat then (turnMap u x.1).vec .bomb ≠ []
    else ∀ b ∈ ((turnMap u x.1).vec .bomb).head?, isHandHigherThan b p.2 = true

/-- A robot of level 0 that counts its cards right, and has the hand to beat or
none. -/
structure Resuming (lord seat : Int) (x : AI × Table) : Prop where
  aiSeat : x.1.aiSeat = seat
  position : x.1.aiPosition = .lord ↔ lord = seat
  level : LevelZero seat x
  table : x.2.Sound
  hand : SeesHand x.1 x.2 ∨ x.1.curHand.type = .nothing ∧ x.1.curHandSeat = -1

/-- It also has the cards it holds. -/
structure Rebuilt (lord seat : Int) (x : AI × Table) : Prop extends Resuming lord seat x where
  cards : x.1.aiCardsVec.Perm (x.2.held seat)

/-! ## What is announced -/

/-- An announced play is the hand to beat if it is recognised, also for a robot
that had none before; a pass leaves what was there. -/
theorem curHand_announced (s : AI) (p : Int) (cards : List Int) :
    (recvGetTakeOutCardNotify s p cards).curHand
        = (if (handOf cards).type ≠ .nothing then handOf cards else s.curHand) ∧
      (recvGetTakeOutCardNotify s p cards).curHandSeat
        = if (handOf cards).type ≠ .nothing then p else s.curHandSeat := by
  obtain ⟨vec, hvec⟩ := recvGetTakeOutCardNotify_eq s p cards
  rw [hvec]
  show (s.rbtInTakeOutCard p cards).curHand = _ ∧ (s.rbtInTakeOutCard p cards).curHandSeat = _
  have hcount : (s.takeOutCount p cards).curHand = s.curHand ∧
      (s.takeOutCount p cards).curHandSeat = s.curHandSeat := (s.takeOutCount_shows p cards).2
  unfold rbtInTakeOutCard recordHand
  by_cases hnil : cards.length = 0
  · rw [if_pos hnil, List.length_eq_zero_iff.mp hnil, if_neg (not_not.mpr handOf_nil),
      if_neg (not_not.mpr handOf_nil)]
    exact ⟨rfl, rfl⟩
  · rw [if_neg hnil]
    unfold handOf
    split
    · exact ⟨rfl, rfl⟩
    · exact hcount

/-- Seeing a play keeps or brings the hand to beat. -/
theorem seesHand_announced {s : AI} {t : Table} (p : Int) (cards : List Int)
    (h : SeesHand s t ∨ s.curHand.type = .nothing ∧ s.curHandSeat = -1) :
    SeesHand (recvGetTakeOutCardNotify s p cards) (t.put p cards) ∨
      (recvGetTakeOutCardNotify s p cards).curHand.type = .nothing ∧
        (recvGetTakeOutCardNotify s p cards).curHandSeat = -1 := by
  obtain ⟨hhand, hseat⟩ := curHand_announced s p cards
  unfold SeesHand at h ⊢
  rw [Table.put_last, hhand, hseat]
  by_cases hrec : (handOf cards).type ≠ .nothing
  · rw [if_pos hrec, if_pos hrec, if_pos hrec]
    exact .inl ⟨rfl, rfl⟩
  · rw [if_neg hrec, if_neg hrec, if_neg hrec]
    exact h

section Table

variable {lord seat : Int} {x : AI × Table}

/-- A play is seen, whoever plays. -/
theorem Resuming.announced (h : Resuming lord seat x) (hs : Seat seat) {p : Int} (hp : Seat p)
    {cards : List Int} (hsub : cards.Subperm (x.2.held p)) :
    Resuming lord seat (recvGetTakeOutCardNotify x.1 p cards, x.2.put p cards) := by
  obtain ⟨_, _, _, _, _, _, heq, -⟩ := x.1.rbtInTakeOutCard_eq p cards
  obtain ⟨vec, hvec⟩ := recvGetTakeOutCardNotify_eq x.1 p cards
  refine ⟨?_, ?_, ⟨(level_announced x.1 p cards).trans h.level.level,
    aiPoints_announced h.aiSeat h.table hs h.level.points hsub⟩, h.table.put hp hsub,
    seesHand_announced p cards h.hand⟩
  · show (recvGetTakeOutCardNotify x.1 p cards).aiSeat = seat
    rw [hvec, heq]
    exact h.aiSeat
  · show (recvGetTakeOutCardNotify x.1 p cards).aiPosition = .lord ↔ lord = seat
    rw [hvec, heq]
    exact h.position

/-- Being asked changes neither what the robot has nor what it lacks. -/
theorem Resuming.asked (h : Resuming lord seat x) (u : Undef) :
    Resuming lord seat ((x.1.rbtOutGetTakeOutCard u).1, x.2) := by
  have hshown := deciding_keeps_shown u x.1
  refine ⟨?_, ?_, h.level.asked u, h.table, ?_⟩
  · show (x.1.rbtOutGetTakeOutCard u).1.aiSeat = seat
    rw [eq_of_shown hshown AI.aiSeat]
    exact h.aiSeat
  · show (x.1.rbtOutGetTakeOutCard u).1.aiPosition = .lord ↔ lord = seat
    rw [eq_of_shown hshown AI.aiPosition]
    exact h.position
  · have hhand := h.hand
    unfold SeesHand at hhand ⊢
    dsimp only at hhand ⊢
    rw [eq_of_shown hshown AI.curHand, eq_of_shown hshown AI.curHandSeat]
    exact hhand

/-- An event keeps it, a turn of the robot if it plays by the rules. -/
theorem Rebuilt.step (h : Rebuilt lord seat x) (hs : Seat seat) {e : SeatEvent}
    (ha : e.Allowed lord seat x) (hp : e.Plays seat x) : Rebuilt lord seat (e.step x) := by
  cases e with
  | other p cards =>
    obtain ⟨hp, hne, hsub⟩ := ha
    refine ⟨h.announced hs hp hsub, ?_⟩
    show (recvGetTakeOutCardNotify x.1 p cards).aiCardsVec.Perm ((x.2.put p cards).held seat)
    rw [recvGetTakeOutCardNotify_other (by rw [h.aiSeat]; exact hne),
      (rbtInTakeOutCard_cards x.1 p cards).1, Table.put_held, play,
      Function.update_of_ne (Ne.symm hne)]
    exact h.cards
  | own u =>
    refine ⟨?_, hp.2⟩
    show Resuming lord seat (recvGetTakeOutCardNotify (x.1.rbtOutGetTakeOutCard u).1 x.1.aiSeat
      (x.1.rbtOutGetTakeOutCard u).2, x.2.put x.1.aiSeat (x.1.rbtOutGetTakeOutCard u).2)
    rw [h.aiSeat]
    exact (h.asked u).announced hs hs hp.1.held

/-! ## A turn without the hand to beat -/

/-- The map of a turn is a splitter's, of the robot's cards. -/
theorem Rebuilt.turnMap_vec (h : Rebuilt lord seat x) (hs : Seat seat) (u : Undef) :
    LegalHolding (cardVecToPointArr x.1.aiCardsVec) ∧ ∃ k, ∀ t, (turnMap u x.1).vec t
      = (splitCardsToHands k (cardVecToPointArr x.1.aiCardsVec) true).vec t := by
  have hvalid : ∀ c ∈ x.1.aiCardsVec, ValidCard c :=
    fun c hc => h.table.held_valid hs c (h.cards.subset hc)
  have hpoints : x.1.updateControl.aiPoints = cardVecToPointArr x.1.aiCardsVec :=
    h.level.points.trans (cardVecToPointArr_perm h.cards).symm
  refine ⟨⟨legalCounts_of_nodup (h.cards.nodup_iff.mpr (h.table.held_nodup hs)) hvalid, ?_⟩, ?_⟩
  · rw [total_cardVecToPointArr hvalid, h.cards.length_eq]
    exact_mod_cast h.table.size seat hs
  · obtain ⟨k, hvec⟩ := sortHandMap_vec u x.1.updateControl
    rw [hpoints] at hvec
    exact ⟨k, hvec⟩

/-- A hand of the map is within the robot's cards. -/
theorem Rebuilt.le_cards (h : Rebuilt lord seat x) (hs : Seat seat) (u : Undef) {t : HandType}
    {hand : Hand} (hmem : hand ∈ (turnMap u x.1).vec t) (r : Nat) :
    handToPointsArray hand r ≤ cardVecToPointArr x.1.aiCardsVec r := by
  obtain ⟨hholding, k, hvec⟩ := h.turnMap_vec hs u
  rw [hvec] at hmem
  exact Int.le_trans (le_handsSum (HandsMap.mem_hands.mpr ⟨t, hmem⟩) r)
    (splitInto_sum_le hholding.toLegalCounts (.kind k) true r)

/-- The lowest hand is recognised. -/
theorem Rebuilt.leadHand_shaped (h : Rebuilt lord seat x) (hs : Seat seat)
    (hcards : x.2.held seat ≠ []) (u : Undef) :
    (∃ t, leadHand u x.1 ∈ (turnMap u x.1).vec t) ∧ (leadHand u x.1).Shaped := by
  obtain ⟨hholding, k, hvec⟩ := h.turnMap_vec hs u
  obtain ⟨card, cards, hcons⟩ := List.exists_cons_of_ne_nil hcards
  have hmem : card ∈ x.1.aiCardsVec :=
    h.cards.symm.subset (hcons ▸ List.mem_cons_self)
  have hvalid := h.table.held_valid hs card (h.cards.subset hmem)
  obtain ⟨r, hrank⟩ := Int.eq_ofNat_of_zero_le (cardToPoint_range hvalid).1
  have hr : 0 < cardVecToPointArr x.1.aiCardsVec r := by
    rw [cardVecToPointArr_apply]
    have hpos : 0 < x.1.aiCardsVec.countP (hasPoint r) :=
      List.countP_pos_iff.mpr ⟨card, hmem, beq_iff_eq.mpr hrank⟩
    exact_mod_cast hpos
  have hlow := lowest_shaped hholding k hr (rfl : u.hand.clear.type = .nothing)
  rw [← lowestOf_congr hvec] at hlow
  simp only [← hvec] at hlow
  exact hlow

/-- The bombs are recognised, and there is no hand without a type. -/
theorem Rebuilt.bombs (h : Rebuilt lord seat x) (hs : Seat seat) (u : Undef) :
    (∀ b ∈ (turnMap u x.1).vec .bomb, b.Shaped ∧ (b.type = .bomb ∨ b.type = .nuke)) ∧
      (turnMap u x.1).vec .nothing = [] := by
  obtain ⟨hholding, k, hvec⟩ := h.turnMap_vec hs u
  refine ⟨fun b hb => ?_, List.eq_nil_iff_forall_not_mem.mpr fun b hb => ?_⟩
  · rw [hvec] at hb
    rcases mem_splitInto hholding.toLegalCounts (.kind k) true hb with ⟨hshaped, ht⟩ | ⟨ht, -⟩
    · exact ⟨hshaped, ht.imp_right And.right⟩
    · exact HandType.noConfusion ht
  · rw [hvec] at hb
    rcases mem_splitInto hholding.toLegalCounts (.kind k) true hb with ⟨hshaped, ht⟩ | ⟨ht, -⟩
    · have hbody := hshaped.body
      rcases ht with ht | ⟨ht, -⟩
      · rw [ht] at hbody
        exact hbody
      · exact HandType.noConfusion ht
    · exact HandType.noConfusion ht

/-- What a hand beats depends on what agreeing hands share. -/
theorem isHandHigherThan_agrees {a a' : Hand} (h : a.Agrees a') (c : Hand) :
    isHandHigherThan a c = isHandHigherThan a' c := by
  unfold isHandHigherThan
  rw [h.type, h.keyPoint]
  by_cases hchain : isChain a'.type = true
  · rw [h.len hchain]
  · simp only [hchain, Bool.false_eq_true, if_false]

/-- A recognised hand within the cards is played if it leads or is higher than
the hand the robot has to beat. -/
theorem checkTakeOut_shaped {s : AI} {hand : Hand} (hshaped : hand.Shaped)
    (hle : ∀ r, handToPointsArray hand r ≤ cardVecToPointArr s.aiCardsVec r)
    (hgoes : s.isFree = true ∨ isHandHigherThan hand s.curHand = true) :
    s.checkTakeOut hand = s.takeOutHand hand ∧
      (handOf (s.takeOutHand hand).2).Agrees hand ∧ (s.takeOutHand hand).2 ≠ [] := by
  have hheld : s.heldOf hand = handToPointsArray hand := funext fun r => min_eq_left (hle r)
  have hrec := recognised_of_shaped hshaped hle
  have hagrees : (getHand (s.heldOf hand)).Agrees hand := by
    rw [hheld, getHand_eq_canonical hshaped]
    exact hshaped.canonical_agrees
  refine ⟨?_, ?_, hrec.takeOut_ne_nil⟩
  · rw [checkTakeOut_eq]
    split
    · exact if_neg hrec
    next hfree =>
      have hhigher := hgoes.resolve_left hfree
      rw [← isHandHigherThan_agrees hagrees] at hhigher
      rw [if_neg]
      rw [hhigher]
      exact fun hc => Bool.noConfusion hc.2
  · unfold handOf
    rw [takeOutHand_counts]
    exact hagrees

/-- Whether an answer made of the robot's cards is a legal play: over its own
hand it has to be a hand, over another's a pass or a higher hand on the table,
whatever the robot takes for the hand to beat. -/
theorem Rebuilt.plays_iff_answer (h : Rebuilt lord seat x) {u : Undef}
    (hperm : ((x.1.rbtOutGetTakeOutCard u).2 ++ (x.1.rbtOutGetTakeOutCard u).1.aiCardsVec).Perm
      x.1.aiCardsVec) {p : Int × Hand} (hlast : x.2.last = some p) :
    SeatEvent.Plays seat x (.own u) ↔
      (p.1 = seat → (handOf (x.1.rbtOutGetTakeOutCard u).2).type ≠ .nothing) ∧
      (p.1 ≠ seat → (x.1.rbtOutGetTakeOutCard u).2 = [] ∨
        (handOf (x.1.rbtOutGetTakeOutCard u).2).type ≠ .nothing ∧
          isHandHigherThan (handOf (x.1.rbtOutGetTakeOutCard u).2) p.2 = true) := by
  have hheld := hperm.trans h.cards
  have hsub : (x.1.rbtOutGetTakeOutCard u).2.Subperm (x.2.held seat) :=
    (List.sublist_append_left _ _).subperm.trans hheld.subperm
  have hkept : (x.1.rbtOutGetTakeOutCard u).1.aiCardsVec.Perm
      ((x.2.held seat).diff (x.1.rbtOutGetTakeOutCard u).2) := by
    refine (List.perm_append_left_iff (x.1.rbtOutGetTakeOutCard u).2).mp (hheld.trans ?_)
    exact (List.subperm_append_diff_self_of_count_le fun c _ => hsub.count_le c).symm
  have hleft := answer_announced u x.1
  constructor
  · intro hplays
    exact ⟨fun he => hplays.1.leads (by simp [Table.Leads, hlast, he]),
      fun hne => hplays.1.follows p hlast hne⟩
  · intro hrules
    refine ⟨⟨hsub, fun hl => hrules.1 (hl p hlast), fun q hq hne => ?_⟩, ?_⟩
    · obtain rfl := Option.some.inj (hlast.symm.trans hq)
      exact hrules.2 hne
    · show (recvGetTakeOutCardNotify _ x.1.aiSeat _).aiCardsVec.Perm
        ((x.2.put x.1.aiSeat _).held seat)
      rw [hleft, h.aiSeat, Table.put_held, play, Function.update_self]
      exact hkept

/-- A bomb is higher than a hand without a type. -/
theorem isHandHigherThan_nothing {b c : Hand} (hb : b.type = .bomb ∨ b.type = .nuke)
    (hc : c.type = .nothing) : isHandHigherThan b c = true := by
  unfold isHandHigherThan
  rw [hc]
  rcases hb with hb | hb <;> simp [hb]

/-- A follower of no hand picks its first bomb or nothing. -/
theorem findHigherHand_nothing {s : AI} (hcur : s.curHand.type = .nothing)
    (hnone : s.handsMap.vec .nothing = []) (hand : Hand) :
    s.findHigherHand hand = (s.handsMap.vec .bomb).headD hand.clear := by
  have hclear : s.findHigherHandNotBomb hand = hand.clear := by
    unfold findHigherHandNotBomb
    rw [hcur, hnone]
    rfl
  unfold findHigherHand
  rw [hclear, hcur]
  exact if_pos ⟨rfl, .inl fun h => HandType.noConfusion h⟩

/-- A robot without the hand to beat picks its lowest hand as the lord, its
first bomb or nothing as a farmer. -/
theorem Rebuilt.pick_blind (h : Rebuilt lord seat x) (hs : Seat seat) (u : Undef)
    (hcur : x.1.curHand.type = .nothing) (hblind : x.1.curHandSeat = -1) :
    (x.1.takeOutByLevel u).2
      = if lord = seat then leadHand u x.1 else ((turnMap u x.1).vec .bomb).headD u.hand.clear := by
  have hsame := (x.1.updateControl.keeps_sortHandMap (P := True) u).sameTurn
  have hpick : x.1.takeOutByLevel u = x.1.updateControl.takeOutLvl0 u u.hand :=
    if_pos h.level.level
  have hfree : ((x.1.updateControl.sortHandMap u).curHandSeat
      = (x.1.updateControl.sortHandMap u).aiSeat ∨
        (x.1.updateControl.sortHandMap u).aiPosition = .lord ∧
          (x.1.updateControl.sortHandMap u).curHandSeat < 0) ↔ lord = seat := by
    obtain ⟨hs0, -⟩ := hs
    rw [hsame.curHandSeat, hsame.aiSeat, hsame.aiPosition]
    show x.1.curHandSeat = x.1.aiSeat ∨ x.1.aiPosition = .lord ∧ x.1.curHandSeat < 0 ↔ _
    rw [h.position, h.aiSeat, hblind]
    omega
  have hcur' : (x.1.updateControl.sortHandMap u).curHand.type = .nothing := by
    rw [hsame.curHand]
    exact hcur
  rw [hpick]
  unfold takeOutLvl0
  dsimp only
  rw [findHigherHand_nothing hcur' (h.bombs hs u).2]
  exact if_congr hfree rfl rfl

/-- A recognised hand of the map that leads or beats the hand the robot has is
what it answers. -/
theorem Rebuilt.answer_shaped (h : Rebuilt lord seat x) (hs : Seat seat) (u : Undef) {t : HandType}
    {hand : Hand} (hmem : hand ∈ (turnMap u x.1).vec t) (hshaped : hand.Shaped)
    (hpick : (x.1.takeOutByLevel u).2 = hand)
    (hgoes : x.1.isFree = true ∨ isHandHigherThan hand x.1.curHand = true) :
    ((x.1.rbtOutGetTakeOutCard u).2 ++ (x.1.rbtOutGetTakeOutCard u).1.aiCardsVec).Perm
        x.1.aiCardsVec ∧
      (handOf (x.1.rbtOutGetTakeOutCard u).2).Agrees hand ∧
      (x.1.rbtOutGetTakeOutCard u).2 ≠ [] := by
  have hsame := x.1.sameTurn_takeOutByLevel u
  obtain ⟨heq, hagrees, hne⟩ := checkTakeOut_shaped (s := (x.1.takeOutByLevel u).1) hshaped
    (fun r => by rw [hsame.aiCardsVec]; exact h.le_cards hs u hmem r)
    (by rw [hsame.isFree, hsame.curHand]; exact hgoes)
  have hanswer : x.1.rbtOutGetTakeOutCard u = (x.1.takeOutByLevel u).1.takeOutHand hand := by
    rw [← heq, ← hpick]
    rfl
  rw [hanswer, ← hsame.aiCardsVec]
  exact ⟨(x.1.takeOutByLevel u).1.takeOutHand_perm hand, hagrees, hne⟩

/-- A follower that picks nothing passes. -/
theorem answer_nothing {s : AI} {u : Undef} (hpick : (s.takeOutByLevel u).2.type = .nothing)
    (hfollows : s.isFree = false) :
    (s.rbtOutGetTakeOutCard u).2 = [] ∧ (s.rbtOutGetTakeOutCard u).1.aiCardsVec = s.aiCardsVec := by
  have hsame := s.sameTurn_takeOutByLevel u
  have hheld : (s.takeOutByLevel u).1.heldOf (s.takeOutByLevel u).2 = Points.zero :=
    funext fun r => heldOf_nothing _ hpick r
  have hanswer : s.rbtOutGetTakeOutCard u
      = (s.takeOutByLevel u).1.takeOutHand (s.takeOutByLevel u).2 := by
    show (s.takeOutByLevel u).1.checkTakeOut (s.takeOutByLevel u).2 = _
    rw [checkTakeOut_eq, hsame.isFree, hfollows, hheld, getHand_zero]
    simp
  rw [hanswer, takeOutHand_nothing _ hpick]
  exact ⟨rfl, hsame.aiCardsVec⟩

theorem Hand.Agrees.type_ne {a b : Hand} (h : a.Agrees b) (hb : b.Shaped) :
    a.type ≠ .nothing := by
  intro hnothing
  have hbody := hb.body
  rw [← h.type, hnothing] at hbody
  exact hbody

/-- A robot without the hand to beat plays by the rules just when its turn is a
lucky one. -/
theorem Rebuilt.plays_blind (h : Rebuilt lord seat x) (hs : Seat seat) {u : Undef}
    (hcards : x.2.held seat ≠ []) {p : Int × Hand} (hlast : x.2.last = some p)
    (hcur : x.1.curHand.type = .nothing) (hblind : x.1.curHandSeat = -1) :
    SeatEvent.Plays seat x (.own u) ↔ SeatEvent.Lucky lord seat x (.own u) := by
  have hlucky : SeatEvent.Lucky lord seat x (.own u) ↔
      if lord = seat then p.1 = seat ∨ isHandHigherThan (leadHand u x.1) p.2 = true
      else if p.1 = seat then (turnMap u x.1).vec .bomb ≠ []
      else ∀ b ∈ ((turnMap u x.1).vec .bomb).head?, isHandHigherThan b p.2 = true := by
    show (x.1.curHandSeat = -1 → ∀ p ∈ x.2.last, _) ↔ _
    rw [hlast]
    simp [hblind]
  have hpick := h.pick_blind hs u hcur hblind
  have hfree : x.1.isFree = true ↔ lord = seat := by
    obtain ⟨hs0, -⟩ := hs
    rw [isFree_iff (by omega), h.position, h.aiSeat]
    omega
  rw [hlucky]
  by_cases hl : lord = seat
  · rw [if_pos hl] at hpick ⊢
    obtain ⟨⟨t, hmem⟩, hshaped⟩ := h.leadHand_shaped hs hcards u
    obtain ⟨hperm, hagrees, hne⟩ :=
      h.answer_shaped hs u hmem hshaped hpick (.inl (hfree.mpr hl))
    rw [h.plays_iff_answer hperm hlast, isHandHigherThan_agrees hagrees]
    have htype := hagrees.type_ne hshaped
    simp only [htype, hne, ne_eq, not_false_eq_true, implies_true, true_and, false_or]
    exact Decidable.or_iff_not_imp_left.symm
  · have hfollows : x.1.isFree = false := Bool.eq_false_iff.mpr fun hf => hl (hfree.mp hf)
    rw [if_neg hl] at hpick ⊢
    cases hbombs : (turnMap u x.1).vec .bomb with
    | nil =>
      rw [hbombs] at hpick
      obtain ⟨hpass, hkept⟩ := answer_nothing (by rw [hpick]; rfl) hfollows
      have hperm : ((x.1.rbtOutGetTakeOutCard u).2 ++
          (x.1.rbtOutGetTakeOutCard u).1.aiCardsVec).Perm x.1.aiCardsVec := by
        rw [hpass, hkept]
        exact List.Perm.refl _
      rw [h.plays_iff_answer hperm hlast, hpass]
      have hnone : (handOf []).type = .nothing := handOf_nil
      simp [hnone]
    | cons b bombs =>
      have hmem : b ∈ (turnMap u x.1).vec .bomb := hbombs ▸ List.mem_cons_self
      obtain ⟨hshaped, ht⟩ := (h.bombs hs u).1 b hmem
      rw [hbombs] at hpick
      obtain ⟨hperm, hagrees, hne⟩ := h.answer_shaped hs u hmem hshaped hpick
        (.inr (isHandHigherThan_nothing ht hcur))
      rw [h.plays_iff_answer hperm hlast, isHandHigherThan_agrees hagrees]
      have htype := hagrees.type_ne hshaped
      by_cases hp : p.1 = seat
      · simp [hp, htype]
      · simp [hp, htype, hne]

/-- A turn is a legal play just when it is a lucky one. A robot that sees the
hand to beat plays legally; a blind one is lucky by the condition on its cards. -/
theorem Rebuilt.plays_iff (h : Rebuilt lord seat x) (hs : Seat seat) {e : SeatEvent}
    (ha : e.Allowed lord seat x) : e.Plays seat x ↔ e.Lucky lord seat x := by
  cases e with
  | other => exact Iff.rfl
  | own u =>
    rcases h.hand with hsees | ⟨hcur, hblind⟩
    · have hsees' : Sees lord seat x.1 x.2 := ⟨h.aiSeat, h.position, hsees, h.cards⟩
      refine iff_of_true (hsees'.plays_levelZero hs h.table h.level ha) fun hblind p hp => ?_
      -- with a last hand to see the robot is not blind
      obtain ⟨⟨hp0, -⟩, -⟩ := h.table.last p hp
      unfold SeesHand at hsees
      rw [Option.mem_def.mp hp] at hsees
      have hseat : x.1.curHandSeat = p.1 := hsees.2
      omega
    · cases hlast : x.2.last with
      | none =>
        have hsees : Sees lord seat x.1 x.2 := by
          refine ⟨h.aiSeat, h.position, ?_, h.cards⟩
          unfold SeesHand
          rw [hlast]
          exact ⟨hcur, hblind⟩
        refine iff_of_true (hsees.plays_levelZero hs h.table h.level ha) fun _ p hp => ?_
        rw [hlast] at hp
        exact absurd hp (Option.not_mem_none p)
      | some p => exact h.plays_blind hs ha.1 hlast hcur hblind

end Table

/-! ## The way back -/

/-- The answer to a robot that comes back: its seat, the lord's and the cards
it holds. -/
structure Reports (robotId lord : Int) (held : Int → List Int) (ack : KeepPlayingAck)
    (seat : Nat) : Prop where
  result : ack.result = 0
  seatlord : ack.seatlord = lord
  found : ack.playerinfo.findIdx? (·.1 = robotId) = some seat
  cards : (((ack.playerinfo[seat]?).map Prod.snd).getD []).Perm (held seat)

/-- What every seat holds after the plays. -/
theorem tableAfter_held (d : Deal) (lord : Int) (plays : List (Int × List Int)) :
    (tableAfter d lord plays).held = heldAfter d lord plays := by
  suffices h : ∀ t : Table,
      (plays.foldl (fun t p => t.put p.1 p.2) t).held = plays.foldl play t.held from h _
  intro t
  induction plays generalizing t with
  | nil => rfl
  | cons p plays ih => exact ih _

/-- The table stays sound. -/
theorem tableAfter_sound {d : Deal} (hd : d.Legal) {lord : Int} (hl : Seat lord)
    {plays : List (Int × List Int)} (hplays : Playable (d.held lord) plays) :
    (tableAfter d lord plays).Sound := by
  suffices h : ∀ t : Table, t.Sound → Playable t.held plays →
      (plays.foldl (fun t p => t.put p.1 p.2) t).Sound from h _ (hd.sound hl).1 hplays
  intro t ht hp
  clear hplays
  induction plays generalizing t with
  | nil => exact ht
  | cons p plays ih =>
    obtain ⟨hs, hsub, hrest⟩ := hp
    exact ih _ (ht.put hs hsub) hrest

/-- A robot that is told its seat and its cards has them and no hand to beat,
and it is at the table of the plays so far. -/
theorem rebuilt_rbtInSetCard (u : Undef) {s : AI} (hlevel : s.level = 0) {d : Deal}
    (hd : d.Legal) {seat lord : Int} (hs : Seat seat) (hl : Seat lord)
    {plays : List (Int × List Int)} (hplays : Playable (d.held lord) plays) {cards : List Int}
    (hcards : cards.Perm (heldAfter d lord plays seat)) (bottom : List Int) :
    Rebuilt lord seat ((s.rbtResetData.rbtInSetSeat seat lord).rbtInSetCard u cards bottom,
      tableAfter d lord plays) := by
  obtain ⟨hown, -, hhand, hhandSeat, hpos, -⟩ := rbtInSetCard_spec u s hs lord cards bottom
  obtain ⟨_, _, _, _, heq⟩ :=
    sortHandMap_eq u ((s.rbtResetData.rbtInSetSeat seat lord).setCards cards)
  have hheld : cards.Perm ((tableAfter d lord plays).held seat) := by
    rw [tableAfter_held]
    exact hcards
  refine ⟨⟨?_, ?_, ⟨?_, ?_⟩, tableAfter_sound hd hl hplays, .inr ⟨?_, hhandSeat⟩⟩, ?_⟩
  · show (((s.rbtResetData.rbtInSetSeat seat lord).setCards cards).sortHandMap u).aiSeat = seat
    rw [heq]
    rfl
  · show ((s.rbtResetData.rbtInSetSeat seat lord).rbtInSetCard u cards bottom).aiPosition
      = .lord ↔ _
    rw [hpos]
    show (if lord = seat then Position.lord else _) = _ ↔ _
    split
    next h => exact iff_of_true rfl h
    next h =>
      refine iff_of_false ?_ h
      split <;> exact Position.noConfusion
  · show (((s.rbtResetData.rbtInSetSeat seat lord).setCards cards).sortHandMap u).level = 0
    rw [heq]
    exact hlevel
  · exact hown.trans (cardVecToPointArr_perm hheld)
  · show ((s.rbtResetData.rbtInSetSeat seat lord).rbtInSetCard u cards bottom).curHand.type = _
    rw [hhand]
  · show (((s.rbtResetData.rbtInSetSeat seat lord).setCards cards).sortHandMap u).aiCardsVec.Perm _
    rw [heq]
    exact hheld

/-- The handler of the answer does so. -/
theorem rebuilt_recvKeepPlayAck (o : Outside) {t : RobotTask} (hstatus : t.status = .keepPlay)
    (hlevel : t.robot.level = 0) {d : Deal} (hd : d.Legal) {lord : Int} (hl : Seat lord)
    {plays : List (Int × List Int)} (hplays : Playable (d.held lord) plays)
    {ack : KeepPlayingAck} {seat : Nat} (hs : Seat seat)
    (hack : Reports t.robotId lord (heldAfter d lord plays) ack seat) :
    Rebuilt lord seat ((t.recvKeepPlayAck o (some ack)).task.robot, tableAfter d lord plays) := by
  have hrobot : (t.recvKeepPlayAck o (some ack)).task.robot
      = (({ t.robot with aiSeat := seat } : AI).rbtResetData.rbtInSetSeat seat lord).rbtInSetCard
        o.undef (((ack.playerinfo[seat]?).map Prod.snd).getD []) ack.basecards := by
    rw [← hack.seatlord]
    unfold RobotTask.recvKeepPlayAck
    rw [if_neg (not_not.mpr hstatus)]
    dsimp only
    rw [if_neg (not_not.mpr hack.result), hack.found]
    rfl
  rw [hrobot]
  exact rebuilt_rbtInSetCard o.undef hlevel hd hs hl hplays hack.cards ack.basecards

/-- A robot of level 0 that comes back into a game after any plays: whatever
the others play from then on, its turns are legal plays that leave it with the
cards it holds exactly when each turn without the hand to beat is a lucky one. -/
theorem resumed_plays_iff (o : Outside) {t : RobotTask} (hstatus : t.status = .keepPlay)
    (hlevel : t.robot.level = 0) {d : Deal} (hd : d.Legal) {lord : Int} (hl : Seat lord)
    {plays : List (Int × List Int)} (hplays : Playable (d.held lord) plays)
    {ack : KeepPlayingAck} {seat : Nat} (hs : Seat seat)
    (hack : Reports t.robotId lord (heldAfter d lord plays) ack seat) {es : List SeatEvent}
    (hes : Along SeatEvent.step (fun x e => e.Allowed lord seat x)
      ((t.recvKeepPlayAck o (some ack)).task.robot, tableAfter d lord plays) es) :
    Along SeatEvent.step (fun x e => e.Plays seat x)
        ((t.recvKeepPlayAck o (some ack)).task.robot, tableAfter d lord plays) es
      ↔ Along SeatEvent.step (fun x e => e.Lucky lord seat x)
        ((t.recvKeepPlayAck o (some ack)).task.robot, tableAfter d lord plays) es :=
  hes.congr (Rebuilt lord seat) (fun _ _ h ha => h.plays_iff hs ha)
    (fun _ _ h ha hp => h.step hs ha hp)
    (rebuilt_recvKeepPlayAck o hstatus hlevel hd hl hplays hs hack)

/-- The lord of the ordered deal comes back after the opening plays, with the
seven to beat. -/
def comesBack : RobotTask :=
  { robotId := 7, isMatch := false, delaySendActiveMsgTime := 5, delaySendPassiveMsgTime := 3
    costId := 1, status := .keepPlay }

/-- What it is told. -/
def comesBackAck : KeepPlayingAck :=
  { result := 0
    playerinfo := [(7, heldAfter orderedDeal 0 openingPlays 0), (8, []), (9, [])]
    seatlord := 0, basecards := [] }

theorem reports_comesBack :
    Reports 7 0 (heldAfter orderedDeal 0 openingPlays) comesBackAck 0 :=
  ⟨rfl, rfl, by decide, List.Perm.refl _⟩

theorem resumed_plays_iff_comesBack :
    let x := ((comesBack.recvKeepPlayAck ⟨.zero, 0⟩ (some comesBackAck)).task.robot,
      tableAfter orderedDeal 0 openingPlays)
    Along SeatEvent.step (fun x e => e.Plays 0 x) x [.own .zero]
      ↔ Along SeatEvent.step (fun x e => e.Lucky 0 0 x) x [.own .zero] :=
  resumed_plays_iff ⟨.zero, 0⟩ rfl rfl orderedDeal_legal ⟨by decide, by decide⟩
    openingPlays_playable ⟨by decide, by decide⟩ reports_comesBack
    ⟨⟨by decide, fun _ => rfl⟩, trivial⟩

end RobotDdz
