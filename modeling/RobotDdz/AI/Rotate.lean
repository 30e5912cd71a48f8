import RobotDdz.AI.SamePlay

/-!
# Rotating the table

A decision goes by positions, so turning the table by `k` seats ought to change
nothing. It does not where a farmer follows a lord with one card on a solo:
there the source compares `aiSeat` with `DOWNFARMER`, a seat with a position.
`SeatTestReached` says when a turn comes to that line, from the state before
it:

> `rotation_invariant`: a turn that does not reach the comparison plays the
> same cards at every rotation.

Where it is reached the two answers may still lead to the same cards;
`rotation_same_iff` says that they must, and `farmerAtTwo` is a table where
they do not.

The work is in `Reseated`, two robots that differ by a renaming of the seats
alone. Each function a turn calls is shown to answer such robots alike, from
the sort up to `RbtOutGetTakeOutCard`.

`takeOutSeats` lists the seats a decision looks up. Nothing at any other seat
matters (`rbtOutGetTakeOutCard_local`).

The exact law is over the two answers that the comparison leads to. They are
given as functions of the robot (`downAnswer`, `otherAnswer`), each with the
comparison replaced by its outcome, so that "the same cards" is a statement
about the state before the turn.

Mirroring notes vs `OGLordRobotAI.cpp`:
- `DOWNFARMER` is the enumerator 2 of `Position`, so `aiSeat == DOWNFARMER`
  compares a seat with 2 whatever the position of the robot.
- The seats next to the robot's are computed from `aiSeat` with `% 3` where
  they are needed; those next to the lord's are kept in `downSeat` and
  `upSeat`.
-/

namespace RobotDdz

namespace AI

/-- The seat `sortHandMap` looks up beside the table's. -/
def sortSeats (s : AI) : List Int :=
  if s.lordSeat = -1 ∨ s.lordSeat = s.aiSeat then [] else [s.lordSeat]

/-- The seat a lord looks up who follows. -/
def followSeats (s : AI) : List Int :=
  if s.curHandSeat = -1 ∨ s.curHandSeat = s.lordSeat then [] else [s.curHandSeat]

/-- The seats at which `RbtOutGetTakeOutCard` indexes `playerInfo`. Its loops
and the seats next to the robot's stay at the table. -/
def takeOutSeats (s : AI) : List Int :=
  [s.aiSeat, 0, 1, 2] ++
    if s.level = 0 then s.sortSeats
    else if s.level = 1 then
      s.sortSeats ++ if s.aiPosition = .lord then s.followSeats else [s.lordSeat]
    else s.lordSeat ::
      if s.aiPosition = .lord then s.downSeat :: s.upSeat :: s.followSeats else []

theorem lordSeat_mem (s : AI)
    (h : s.lordSeat ≠ -1 ∨ s.level ≠ 0 ∧ (s.aiPosition ≠ .lord ∨ s.level ≠ 1)) :
    s.lordSeat ∈ s.takeOutSeats := by
  unfold takeOutSeats
  rcases h with hset | ⟨h0, hor⟩
  · by_cases hself : s.lordSeat = s.aiSeat
    · exact List.mem_append_left _ (hself ▸ List.mem_cons_self)
    · have hsort : s.sortSeats = [s.lordSeat] := if_neg (not_or.mpr ⟨hset, hself⟩)
      apply List.mem_append_right
      rw [hsort]
      split
      · exact List.mem_cons_self
      · split <;> exact List.mem_cons_self
  · apply List.mem_append_right
    rw [if_neg h0]
    split
    next h1 =>
      rw [if_neg (hor.resolve_right (not_not.mpr h1))]
      exact List.mem_append_right _ List.mem_cons_self
    next => exact List.mem_cons_self

theorem curHandSeat_mem (s : AI) (h0 : s.level ≠ 0) (hp : s.aiPosition = .lord)
    (hfollow : ¬(s.curHandSeat = -1 ∨ s.curHandSeat = s.lordSeat)) :
    s.curHandSeat ∈ s.takeOutSeats := by
  have hseats : s.followSeats = [s.curHandSeat] := if_neg hfollow
  unfold takeOutSeats
  apply List.mem_append_right
  rw [if_neg h0, if_pos hp, if_pos hp, hseats]
  split
  · exact List.mem_append_right _ List.mem_cons_self
  · simp

theorem sides_mem (s : AI) (h0 : s.level ≠ 0) (h1 : s.level ≠ 1) (hp : s.aiPosition = .lord) :
    s.downSeat ∈ s.takeOutSeats ∧ s.upSeat ∈ s.takeOutSeats := by
  unfold takeOutSeats
  rw [if_neg h0, if_neg h1, if_pos hp]
  constructor <;> simp

/-- The robot as its strategy finds it, above level 0. -/
def sorted (u : Undef) (s : AI) : AI :=
  if s.level = 1 then s.updateControl.sortHandMap u else s.updateControl.sortHandMapLvl

theorem sorted_one {u : Undef} {s : AI} (h : s.level = 1) :
    s.sorted u = s.updateControl.sortHandMap u := if_pos h

theorem sorted_high {u : Undef} {s : AI} (h : s.level ≠ 1) :
    s.sorted u = s.updateControl.sortHandMapLvl := if_neg h

/-- The turns in which the robot's seat is compared with `DOWNFARMER`. -/
structure SeatTestReached (u : Undef) (s : AI) : Prop where
  level : s.level ≠ 0
  farmer : s.aiPosition ≠ .lord
  test : (s.sorted u).SeatTest u

namespace Reseated

variable {σ : Int → Int} {known : Int → Prop} {s s' : AI} {u : Undef} {hand : Hand}

section Renaming

variable (hσ : SeatRenaming σ) (h : Reseated σ known s s')

include hσ h

/-! ## One turn -/

theorem refindForTrio : AI.refindForTrio u s' hand = AI.refindForTrio u s hand := by
  unfold AI.refindForTrio
  simp only [h.isFree hσ, h.aiPoints, h.lowestControl, h.field AI.maxOppNumber fun _ _ => rfl,
    h.otherPoints, h.curHand]

theorem takeOutLvl0 (hlord : s.lordSeat ≠ -1 → known s.lordSeat) :
    SamePlay σ known (s.takeOutLvl0 u hand) (s'.takeOutLvl0 u hand) := by
  have hs := h.sortHandMap (u := u) hσ hlord
  refine ⟨hs, ?_⟩
  have hneg : (s'.sortHandMap u).curHandSeat < 0 ↔ (s.sortHandMap u).curHandSeat < 0 := by
    rw [hs.curHandSeat]
    exact hσ.neg _
  unfold AI.takeOutLvl0
  simp only [hs.curHandSeat_ai hσ, hneg, hs.aiPosition,
    hs.field (·.findLowestHand hand) fun _ _ => rfl,
    hs.field (·.findHigherHand hand) fun _ _ => rfl]

omit hσ in
theorem takeOutHand (hand : Hand) :
    Reseated σ known (s.takeOutHand hand).1 (s'.takeOutHand hand).1
      ∧ (s'.takeOutHand hand).2 = (s.takeOutHand hand).2 := by
  have hsplit : splitOff hand s'.aiCardsVec = splitOff hand s.aiCardsVec := by
    rw [h.field AI.aiCardsVec fun _ _ => rfl]
  unfold AI.takeOutHand
  simp only [hsplit]
  refine ⟨h.map fun t => { t with
    aiCardsVec := (splitOff hand s.aiCardsVec).2
    vecLastTakeOutCards := (splitOff hand s.aiCardsVec).1 }, trivial⟩

/-- The last step of `RbtOutGetTakeOutCard`. -/
theorem checkTakeOut : (s'.checkTakeOut hand).2 = (s.checkTakeOut hand).2 := by
  obtain ⟨hr, hcards⟩ := h.takeOutHand hand
  unfold AI.checkTakeOut
  simp only []
  rw [hcards, hr.isFree hσ, hr.field (·.findLowestHand hand) fun _ _ => rfl, hr.curHand]
  split
  · split
    · exact (hr.takeOutHand _).2
    · exact hcards
  · split
    · exact ((hr.map recoveryHandCards).takeOutHand _).2
    · exact hcards

/-- The strategy's robot, renamed. -/
theorem sorted (hlord : s.level = 1 → s.lordSeat ≠ -1 → known s.lordSeat)
    (hopp : s.level ≠ 1 → s.SeesOpponents known) :
    Reseated σ known (s.sorted u) (s'.sorted u) := by
  have hs := h.updateControl
  unfold AI.sorted
  rw [h.level]
  split
  next hone => exact hs.sortHandMap hσ (hlord hone)
  next hone => exact hs.sortHandMapLvl ((hopp hone).keeps (keeps_updateControl s))

theorem strategyLvl1 (hlord : s.aiPosition ≠ .lord → known s.lordSeat)
    (hcur : s.aiPosition = .lord → ¬(s.curHandSeat = -1 ∨ s.curHandSeat = s.lordSeat) →
      known s.curHandSeat)
    (htest : s.aiPosition ≠ .lord → s.SeatTest u →
      (σ s.aiSeat = Position.downFarmer.toInt ↔ s.aiSeat = Position.downFarmer.toInt)) :
    SamePlay σ known (AI.strategyLvl1 u s hand) (AI.strategyLvl1 u s' hand) := by
  unfold AI.strategyLvl1
  simp only [h.aiPosition, h.curHandSeat_unknown hσ, h.curHandSeat_lord hσ]
  split
  next hp =>
    refine ⟨h, ?_⟩
    show (if s.curHandSeat = -1 ∨ s.curHandSeat = s.lordSeat then s'.lordTakeOutFree u hand
      else s'.lordTakeOutHigher u hand) = _
    split
    next => exact h.lordTakeOutFree hσ
    next hfollow => exact h.lordTakeOutHigher hσ (hcur hp hfollow)
  next hp => exact h.farmerTakeOut hσ (hlord hp) (htest hp)

omit h in
theorem takeOutLvl1 (hs : Reseated σ known (s.sortHandMap u) (s'.sortHandMap u))
    (hlord : s.aiPosition ≠ .lord → known s.lordSeat)
    (hcur : s.aiPosition = .lord → ¬(s.curHandSeat = -1 ∨ s.curHandSeat = s.lordSeat) →
      known s.curHandSeat)
    (htest : s.aiPosition ≠ .lord → (s.sortHandMap u).SeatTest u →
      (σ s.aiSeat = Position.downFarmer.toInt ↔ s.aiSeat = Position.downFarmer.toInt)) :
    SamePlay σ known (AI.takeOutLvl1 u s hand) (AI.takeOutLvl1 u s' hand) := by
  have hk : Keeps False s (s.sortHandMap u) := s.keeps_sortHandMap u
  have hplay : SamePlay σ known ((s.sortHandMap u).strategyLvl1 u hand)
      ((s'.sortHandMap u).strategyLvl1 u hand) := by
    apply hs.strategyLvl1 hσ
    · rw [hk.aiPosition, eq_of_shown hk.shown AI.lordSeat]
      exact hlord
    · rw [hk.aiPosition, hk.curHandSeat, eq_of_shown hk.shown AI.lordSeat]
      exact hcur
    · rw [hk.aiPosition, hk.aiSeat]
      exact htest
  unfold AI.takeOutLvl1
  simp only [hplay.hand]
  split
  · exact ⟨hplay.robot, hplay.robot.refindForTrio hσ⟩
  · exact hplay

omit h in
theorem takeOutHighLvl (hs : Reseated σ known s.sortHandMapLvl s'.sortHandMapLvl)
    (hopp : s.SeesOpponents known)
    (hcur : s.aiPosition = .lord → ¬(s.curHandSeat = -1 ∨ s.curHandSeat = s.lordSeat) →
      known s.curHandSeat)
    (htest : s.aiPosition ≠ .lord → s.sortHandMapLvl.SeatTest u →
      (σ s.aiSeat = Position.downFarmer.toInt ↔ s.aiSeat = Position.downFarmer.toInt)) :
    SamePlay σ known (AI.takeOutHighLvl u s hand) (AI.takeOutHighLvl u s' hand) := by
  have hk : Keeps False s s.sortHandMapLvl := s.keeps_sortHandMapLvl
  have hopp' := hopp.keeps hk
  rw [← hk.aiPosition, ← hk.curHandSeat, ← eq_of_shown hk.shown AI.lordSeat] at hcur
  rw [← hk.aiPosition, ← hk.aiSeat] at htest
  unfold AI.takeOutHighLvl
  simp only []
  rw [hs.aiPosition]
  split
  next hp =>
    simp only [hs.curHandSeat_unknown hσ, hs.curHandSeat_lord hσ]
    split
    next => exact hs.lordTakeOutFreeLvl hσ hopp' hp
    next hfollow => exact ⟨hs, hs.lordTakeOutHigher hσ (hcur hp hfollow)⟩
  next hp => exact hs.farmerTakeOut hσ hopp'.lord (htest hp)

/-- The hand a level picks, where every seat it looks up moved along. The one
place that compares a seat with a number is `htest`, and it matters only in a
turn that comes to it. -/
theorem takeOutByLevel (hknown : ∀ i ∈ s.takeOutSeats, known i)
    (htest : s.SeatTestReached u → (σ s.aiSeat = Position.downFarmer.toInt
      ↔ s.aiSeat = Position.downFarmer.toInt)) :
    SamePlay σ known (s.takeOutByLevel u) (s'.takeOutByLevel u) := by
  have hc := h.updateControl
  have hk : Keeps False s s.updateControl := s.keeps_updateControl
  have hset : s.lordSeat ≠ -1 → known s.lordSeat := fun hset =>
    hknown _ (s.lordSeat_mem (Or.inl hset))
  have hopp : s.level ≠ 0 → s.level ≠ 1 → s.SeesOpponents known := fun h0 h1 =>
    ⟨hknown _ (s.lordSeat_mem (Or.inr ⟨h0, Or.inr h1⟩)), fun hp =>
      ⟨hknown _ (s.sides_mem h0 h1 hp).1, hknown _ (s.sides_mem h0 h1 hp).2⟩⟩
  have hlevel : s'.level = s.level := h.level
  unfold AI.takeOutByLevel
  simp only []
  rw [show s'.updateControl.level = s.level from hlevel,
    show s.updateControl.level = s.level from rfl]
  by_cases h0 : s.level = 0
  · rw [if_pos h0, if_pos h0]
    exact hc.takeOutLvl0 hσ hset
  · rw [if_neg h0, if_neg h0]
    have hs := h.sorted (u := u) hσ (fun _ => hset) (hopp h0)
    have hcur : s.aiPosition = .lord → ¬(s.curHandSeat = -1 ∨ s.curHandSeat = s.lordSeat) →
        known s.curHandSeat := fun hp hfollow => hknown _ (s.curHandSeat_mem h0 hp hfollow)
    by_cases h1 : s.level = 1
    · rw [if_pos h1, if_pos h1]
      rw [sorted_one h1, sorted_one (hlevel.trans h1)] at hs
      apply hs.takeOutLvl1 hσ
      · intro hp
        exact hknown _ (s.lordSeat_mem (Or.inr ⟨h0, Or.inl hp⟩))
      · exact hcur
      · intro hp ht
        exact htest ⟨h0, hp, by rw [sorted_one h1]; exact ht⟩
    · rw [if_neg h1, if_neg h1]
      rw [sorted_high h1, sorted_high fun he => h1 (hlevel.symm.trans he)] at hs
      apply hs.takeOutHighLvl hσ ((hopp h0 h1).keeps hk)
      · exact hcur
      · intro hp ht
        exact htest ⟨h0, hp, by rw [sorted_high h1]; exact ht⟩

/-- The whole decision. -/
theorem rbtOutGetTakeOutCard (hknown : ∀ i ∈ s.takeOutSeats, known i)
    (htest : s.SeatTestReached u → (σ s.aiSeat = Position.downFarmer.toInt
      ↔ s.aiSeat = Position.downFarmer.toInt)) :
    (s'.rbtOutGetTakeOutCard u).2 = (s.rbtOutGetTakeOutCard u).2 := by
  have hplay := h.takeOutByLevel hσ hknown htest
  unfold AI.rbtOutGetTakeOutCard
  simp only []
  rw [hplay.hand]
  exact hplay.robot.checkTakeOut hσ

end Renaming

end Reseated

/-! ## The comparison with `DOWNFARMER` -/

section Answers

variable (u : Undef) (s : AI) (hand : Hand)

/-- What a farmer plays where its seat equals `DOWNFARMER`. -/
def downAnswer : Hand :=
  if s.curHandSeat = s.lordSeat then s.findHigherHandNotBomb (s.bestHighestSolo u hand)
  else if s.isGood s.summary s.controlNum s.minOppNumber then s.findHigherHandNotBomb hand
  else hand.clear

/-- What it plays where it does not. -/
def otherAnswer : Hand :=
  if 0 < (s.vec .bomb).length ∧ (s.curHandSeat = s.lordSeat ∨ (s.vec .solo).length = 1) then
    vecAt u (s.vec .bomb) 0
  else s.bestHighestSolo u hand

/-- The cards a picked hand comes to. -/
def cardsOf : List Int :=
  (s.checkTakeOut
    (if s.level = 1 ∧ (hand.type = .trio ∨ hand.type = .trioSolo ∨ hand.type = .trioPair
        ∨ hand.type = .trioChainSolo ∨ hand.type = .trioChainPair) then refindForTrio u s hand
      else hand)).2

/-- The cards for one outcome of the comparison. -/
def answerCards (down : Bool) : List Int :=
  let s := (s.sorted u).sortLordOnly1Card u
  s.cardsOf u (if down then s.downAnswer u u.hand.clear else s.otherAnswer u u.hand.clear)

/-- Where the comparison is made, it decides between the two. -/
theorem farmerFollowLordOnly1Card_tests {s : AI} (ht : s.TestsSeat) :
    s.farmerFollowLordOnly1Card u hand
      = if s.aiSeat = Position.downFarmer.toInt then s.downAnswer u hand
        else s.otherAnswer u hand := by
  obtain ⟨hsolo, hbomb⟩ := ht
  unfold farmerFollowLordOnly1Card downAnswer otherAnswer
  simp only [if_pos hsolo]
  by_cases hlord : s.curHandSeat = s.lordSeat
  · have hnone : ¬(0 < (s.vec .bomb).length ∧ (s.vec .solo).length = 1) :=
      fun hb => hbomb ⟨hlord, hb⟩
    simp only [hlord, if_neg hnone, if_true, true_or, and_true]
  · simp only [hlord, if_false, false_or]

/-- A farmer that follows while the lord has one card. -/
theorem farmerTakeOut_lordOnly1Card {s : AI} (hfollow : s.isFree = false)
    (hone : s.total s.lordSeat = 1) :
    s.farmerTakeOut u hand = s.farmerTakeOutLordOnly1Card u hand := by
  have hfree : ¬s.isFree = true := fun he => Bool.false_ne_true (hfollow.symm.trans he)
  have hfew : ∀ hand rest, s.lordFewCards u hand rest = s.farmerTakeOutLordOnly1Card u hand :=
    fun hand rest => if_pos hone
  unfold farmerTakeOut downGoodFarmerTakeOut upGoodFarmerTakeOut downBadFarmerTakeOut
    upBadFarmerTakeOut
  simp only [if_neg hfree, hfew]
  split
  · split <;> rfl
  · split <;> rfl

/-- Where the comparison is reached, the cards are those of its outcome: what
is before it sorts the cards, and what is after it takes them. -/
theorem rbtOutGetTakeOutCard_tested {s : AI} (ht : s.SeatTestReached u) :
    (s.rbtOutGetTakeOutCard u).2
      = s.answerCards u (s.aiSeat = Position.downFarmer.toInt) := by
  obtain ⟨h0, hfarmer, htest⟩ := ht
  have hk : Keeps False s (s.sorted u) := by
    have hc : Keeps False s s.updateControl := s.keeps_updateControl
    unfold sorted
    split
    · exact hc.trans (keeps_sortHandMap ..)
    · exact hc.trans (keeps_sortHandMapLvl _)
  have hk' : Keeps False (s.sorted u) ((s.sorted u).sortLordOnly1Card u) := keeps_withMap ..
  have hfree : ¬((s.sorted u).sortLordOnly1Card u).isFree = true := by
    rw [hk'.isFree, htest.follows]
    exact Bool.false_ne_true
  have hpick : (s.sorted u).farmerTakeOut u u.hand = ((s.sorted u).sortLordOnly1Card u,
      if s.aiSeat = Position.downFarmer.toInt then
        ((s.sorted u).sortLordOnly1Card u).downAnswer u u.hand.clear
      else ((s.sorted u).sortLordOnly1Card u).otherAnswer u u.hand.clear) := by
    rw [farmerTakeOut_lordOnly1Card u u.hand htest.follows htest.lordCards]
    unfold farmerTakeOutLordOnly1Card
    simp only [if_neg hfree, farmerFollowLordOnly1Card_tests u u.hand.clear htest.tests,
      hk'.aiSeat, hk.aiSeat]
  have hposition : (s.sorted u).aiPosition ≠ .lord := by
    rw [hk.aiPosition]
    exact hfarmer
  have hlevel : ((s.sorted u).sortLordOnly1Card u).level = s.level := by
    rw [eq_of_shown hk'.shown AI.level, eq_of_shown hk.shown AI.level]
  unfold rbtOutGetTakeOutCard takeOutByLevel answerCards cardsOf
  simp only [decide_eq_true_eq, hlevel]
  generalize (if s.aiSeat = Position.downFarmer.toInt then _ else _) = picked at hpick ⊢
  rw [show s.updateControl.level = s.level from rfl, if_neg h0]
  by_cases h1 : s.level = 1
  · rw [if_pos h1]
    unfold takeOutLvl1 strategyLvl1
    rw [← sorted_one h1, if_neg hposition, hpick]
    simp only [h1, true_and]
    split
    · rfl
    · rfl
  · rw [if_neg h1]
    unfold takeOutHighLvl
    simp only []
    rw [← sorted_high (u := u) h1, if_neg hposition, hpick]
    simp only [h1, false_and, if_false]

end Answers

namespace Reseated

variable {σ : Int → Int} {known : Int → Prop} {s s' : AI} {u : Undef}

theorem testsSeat (hσ : SeatRenaming σ) (h : Reseated σ known s s') :
    s'.TestsSeat ↔ s.TestsSeat := by
  unfold TestsSeat
  rw [h.curHand, h.curHandSeat_lord hσ, h.vec]

/-- The comparison is reached at both places. -/
theorem seatTestReached (hσ : SeatRenaming σ) (h : Reseated σ known s s') (hknown : ∀ i, known i) :
    s'.SeatTestReached u ↔ s.SeatTestReached u := by
  have hs := h.sorted (u := u) hσ (fun _ _ => hknown _)
    fun _ => ⟨hknown _, fun _ => ⟨hknown _, hknown _⟩⟩
  have hfree := hs.isFree hσ
  have htotal := hs.total_lord (hknown _)
  have htests := (hs.sortLordOnly1Card (u := u)).testsSeat hσ
  have hlevel := h.level
  have hposition := h.aiPosition
  constructor
  · intro ht
    exact ⟨hlevel ▸ ht.level, hposition ▸ ht.farmer, hfree ▸ ht.test.follows,
      htotal ▸ ht.test.lordCards, htests.mp ht.test.tests⟩
  · intro ht
    exact ⟨hlevel.symm ▸ ht.level, hposition.symm ▸ ht.farmer, hfree.symm ▸ ht.test.follows,
      htotal.symm ▸ ht.test.lordCards, htests.mpr ht.test.tests⟩

/-- Both outcomes lead to the same cards at both places. -/
theorem answerCards (hσ : SeatRenaming σ) (h : Reseated σ known s s') (hknown : ∀ i, known i)
    (down : Bool) : s'.answerCards u down = s.answerCards u down := by
  have hs := h.sorted (u := u) hσ (fun _ _ => hknown _)
    fun _ => ⟨hknown _, fun _ => ⟨hknown _, hknown _⟩⟩
  have ht := hs.sortLordOnly1Card (u := u)
  have hgood := ht.field (fun s => s.isGood s.summary s.controlNum s.minOppNumber) fun _ _ => rfl
  have hbest := ht.read (·.bestHighestSolo u u.hand.clear) fun s => seatless_bestHighestSolo u s _
  have hhigher : ∀ hand, _ := fun hand => ht.field (·.findHigherHandNotBomb hand) fun _ _ => rfl
  have hdown : ((s'.sorted u).sortLordOnly1Card u).downAnswer u u.hand.clear
      = ((s.sorted u).sortLordOnly1Card u).downAnswer u u.hand.clear := by
    unfold downAnswer
    rw [hgood, hbest]
    simp only [ht.curHandSeat_lord hσ, hhigher]
  have hother : ((s'.sorted u).sortLordOnly1Card u).otherAnswer u u.hand.clear
      = ((s.sorted u).sortLordOnly1Card u).otherAnswer u u.hand.clear := by
    unfold otherAnswer
    rw [hbest]
    simp only [ht.curHandSeat_lord hσ, ht.vec]
  unfold AI.answerCards cardsOf
  simp only [hdown, hother]
  rw [ht.level, ht.refindForTrio hσ]
  exact ht.checkTakeOut hσ

end Reseated

/-! ## The rotation -/

/-- A seat turned by `k`; the unknown seat is none of the table's. -/
def rotSeat (k i : Int) : Int := if 0 ≤ i ∧ i < 3 then (i + k) % 3 else i

/-- The table turned by `k` seats. -/
def rotate (k : Int) (s : AI) : AI := s.reseat (rotSeat k) fun i => s.playerInfo (rotSeat (-k) i)

theorem rotSeat_seat {i : Int} (hi : Seat i) (k : Int) : rotSeat k i = (i + k) % 3 := if_pos hi

theorem rotSeat_rotSeat (k i : Int) : rotSeat (-k) (rotSeat k i) = i := by
  by_cases hi : Seat i
  · obtain ⟨h0, h3⟩ := hi
    rw [rotSeat_seat ⟨h0, h3⟩, rotSeat_seat (seat_emod _)]
    omega
  · rw [show rotSeat k i = i from if_neg hi]
    exact if_neg hi

theorem rotSeat_renaming (k : Int) : SeatRenaming (rotSeat k) where
  injective i j hij := by rw [← rotSeat_rotSeat k i, hij, rotSeat_rotSeat]
  unknown := rfl
  neg i := by
    unfold rotSeat
    split <;> omega
  seat {i} hi := by
    rw [rotSeat_seat hi]
    exact seat_emod _
  next {i} hi := by
    rw [rotSeat_seat hi, rotSeat_seat (seat_emod _)]
    omega

theorem reseated_rotate (k : Int) {s : AI} (hs : Seat s.aiSeat) :
    Reseated (rotSeat k) (fun _ => True) s (s.rotate k) := by
  refine ⟨⟨_, rfl⟩, fun i _ => ?_, fun _ _ => trivial, hs⟩
  show s.playerInfo (rotSeat (-k) (rotSeat k i)) = s.playerInfo i
  rw [rotSeat_rotSeat]

/-- A turn that does not reach the comparison with `DOWNFARMER` plays the same
cards wherever the robot sits. -/
theorem rotate_untested (u : Undef) {s : AI} (hs : Seat s.aiSeat) (h : ¬s.SeatTestReached u)
    (k : Int) : ((s.rotate k).rbtOutGetTakeOutCard u).2 = (s.rbtOutGetTakeOutCard u).2 :=
  (reseated_rotate k hs).rbtOutGetTakeOutCard (rotSeat_renaming k) (fun _ _ => trivial)
    fun ht => absurd ht h

/-- The exact law: either the comparison is not reached, or both its answers
lead to the same cards. -/
theorem rotation_same_iff (u : Undef) {s : AI} (hs : Seat s.aiSeat) :
    (∀ k, ((s.rotate k).rbtOutGetTakeOutCard u).2 = (s.rbtOutGetTakeOutCard u).2) ↔
      (s.SeatTestReached u → s.answerCards u true = s.answerCards u false) := by
  have hturn : ∀ k, s.SeatTestReached u → ((s.rotate k).rbtOutGetTakeOutCard u).2
      = s.answerCards u (rotSeat k s.aiSeat = Position.downFarmer.toInt) := by
    intro k ht
    have h := reseated_rotate k hs
    have ht' := (h.seatTestReached (rotSeat_renaming k) fun _ => trivial).mpr ht
    rw [rbtOutGetTakeOutCard_tested u ht',
      h.answerCards (rotSeat_renaming k) fun _ => trivial, h.aiSeat]
  constructor
  · intro hall ht
    have hcards := rbtOutGetTakeOutCard_tested u ht
    -- turn the table so that the comparison comes out the other way
    by_cases hdown : s.aiSeat = Position.downFarmer.toInt
    · have hother : rotSeat 1 s.aiSeat ≠ Position.downFarmer.toInt := by
        rw [hdown]
        decide
      rw [decide_eq_true hdown, ← hall 1, hturn 1 ht, decide_eq_false hother] at hcards
      exact hcards.symm
    · have hother : rotSeat (2 - s.aiSeat) s.aiSeat = Position.downFarmer.toInt := by
        rw [rotSeat_seat hs, add_sub_cancel]
        rfl
      rw [decide_eq_false hdown, ← hall (2 - s.aiSeat), hturn _ ht, decide_eq_true hother] at hcards
      exact hcards
  · intro hsame k
    by_cases ht : s.SeatTestReached u
    · rw [hturn k ht, rbtOutGetTakeOutCard_tested u ht]
      have heq := hsame ht
      cases decide (rotSeat k s.aiSeat = Position.downFarmer.toInt) <;>
        cases decide (s.aiSeat = Position.downFarmer.toInt) <;> simp [heq]
    · exact rotate_untested u hs ht k

/-- Turning the table changes nothing for a seated robot whose turn does not
come to the comparison with `DOWNFARMER`. -/
theorem rotation_invariant (u : Undef) {s : AI} (hs : Seat s.aiSeat)
    (huntested : ¬s.SeatTestReached u) :
    ∀ k, ((s.rotate k).rbtOutGetTakeOutCard u).2 = (s.rbtOutGetTakeOutCard u).2 :=
  rotate_untested u hs huntested

/-- A farmer after the lord with a five and an ace, and a four of the lord's to
follow, who has one card left. -/
def farmerAtTwo : AI :=
  { level := 1, aiSeat := 2, lordSeat := 1, downSeat := 2, upSeat := 0, aiPosition := .downFarmer
    aiCardsVec := [2, 11]
    playerInfo := fun i =>
      if i = 2 then { points := cardVecToPointArr [2, 11], total := 2 }
      else { points := fun _ => -1, total := if i = 1 then 1 else 3 }
    remainPoints := cardVecToPointArr [2, 11, 10, 9, 3, 16]
    otherPoints := cardVecToPointArr [10, 9, 3, 16]
    curHand := { type := .solo, keyPoint := 1, len := 1 }, curHandSeat := 1 }

/-- The same farmer with an eight of the lord's to follow, who has two cards
left. -/
def farmerAtTwoEarlier : AI :=
  { farmerAtTwo with
    playerInfo := fun i =>
      if i = 2 then { points := cardVecToPointArr [2, 11], total := 2 }
      else { points := fun _ => -1, total := 2 }
    curHand := { type := .solo, keyPoint := 5, len := 1 } }

/-- The lord not being at one card, the ace is played at every seat. -/
theorem rotation_invariant_farmerAtTwoEarlier :
    ((farmerAtTwoEarlier.rotate 1).rbtOutGetTakeOutCard .zero).2 = [11] ∧
      ((farmerAtTwoEarlier.rotate 2).rbtOutGetTakeOutCard .zero).2 = [11] := by
  have huntested : ¬farmerAtTwoEarlier.SeatTestReached .zero :=
    fun ht => absurd ht.test.lordCards (by decide +kernel)
  have hsame := rotation_invariant .zero ⟨by decide, by decide⟩ huntested
  have hcards : (farmerAtTwoEarlier.rbtOutGetTakeOutCard .zero).2 = [11] := by decide +kernel
  exact ⟨(hsame 1).trans hcards, (hsame 2).trans hcards⟩

/-- At seat 2 it plays the five; one seat on, in the same position, the ace. -/
theorem rotate_farmerAtTwo : (farmerAtTwo.rbtOutGetTakeOutCard .zero).2 = [2] ∧
    ((farmerAtTwo.rotate 1).rbtOutGetTakeOutCard .zero).2 = [11] := by
  decide +kernel

/-! ## What a decision looks up -/

/-- Players at other seats than `takeOutSeats` make no difference to a seated
robot. -/
theorem rbtOutGetTakeOutCard_local (u : Undef) {s : AI} (hs : Seat s.aiSeat)
    (info : Int → CardsInfo) (hinfo : ∀ i ∈ s.takeOutSeats, info i = s.playerInfo i) :
    (({ s with playerInfo := info } : AI).rbtOutGetTakeOutCard u).2
      = (s.rbtOutGetTakeOutCard u).2 := by
  have hid : SeatRenaming id :=
    ⟨Function.injective_id, rfl, fun _ => Iff.rfl, fun hi => hi, fun _ => rfl⟩
  have htable : ∀ i, Seat i → i ∈ s.takeOutSeats := by
    intro i hi
    have hmem := List.mem_cons_of_mem s.aiSeat (mem_table.mpr hi)
    exact List.mem_append_left _ hmem
  have h : Reseated id (· ∈ s.takeOutSeats) s { s with playerInfo := info } := by
    refine ⟨⟨info, ?_⟩, hinfo, htable, hs⟩
    unfold reseat
    simp only [id_eq, Prod.mk.eta, List.map_id']
  exact h.rbtOutGetTakeOutCard hid (fun i hi => hi) fun _ => Iff.rfl

end AI

end RobotDdz
