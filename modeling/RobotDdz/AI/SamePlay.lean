import RobotDdz.AI.Reseat

/-!
# The same play at other seats

Strategy by strategy: a robot that sits elsewhere picks the same hand. What a
strategy looks up beside the three seats of the table is a hypothesis: a farmer
the lord's seat, the lord the seat of the hand to beat, the high level the
seats next to the lord's.

One comparison does not go by this rule. `farmerFollowLordOnly1Card` compares
the robot's seat with `DOWNFARMER`, which is no seat (`SeatTest`). There the
renaming has to respect the answer.

Each lemma follows the text of one strategy. It rewrites what the strategy
looks up on the renamed robot to what the other one sees, by the lemmas of
`Reseat`, and then the two sides are the same term; where the strategy goes on
with a changed robot, the pair is related again (`SamePlay`) and the cases are
split as the source splits them. The two guards in front of a farmer's turn,
`upFarmerOneCard` and `lordFewCards`, take the rest of the turn as an argument,
so their lemmas take a proof about it.

The seats a strategy asks for are asked for in the statement: `known
s.lordSeat` for a farmer, `known s.curHandSeat` for the lord over a hand, and
`SeesOpponents` for the high level, which looks at the points of the opponents
and not at their number of cards alone.
-/

namespace RobotDdz

namespace AI

/-- Where `farmerFollowLordOnly1Card` compares the robot's seat with
`DOWNFARMER`. -/
def TestsSeat (s : AI) : Prop :=
  s.curHand.type = .solo ∧
    ¬(s.curHandSeat = s.lordSeat ∧ 0 < (s.vec .bomb).length ∧ (s.vec .solo).length = 1)

/-- The same, where a farmer that follows a lord with one card comes to it. -/
structure SeatTest (u : Undef) (s : AI) : Prop where
  follows : s.isFree = false
  lordCards : s.total s.lordSeat = 1
  tests : (s.sortLordOnly1Card u).TestsSeat

/-- The seats the high level looks up: the lord's, and as the lord its
neighbours'. -/
structure SeesOpponents (known : Int → Prop) (s : AI) : Prop where
  lord : known s.lordSeat
  sides : s.aiPosition = .lord → known s.downSeat ∧ known s.upSeat

/-- The seats the high level looks up are shown, so a step that keeps what is
shown keeps them looked up. -/
theorem SeesOpponents.keeps {known : Int → Prop} {s s' : AI} (hs : s.SeesOpponents known)
    (h : Keeps False s s') : s'.SeesOpponents known := by
  refine ⟨?_, fun hp => ?_⟩
  · rw [eq_of_shown h.shown AI.lordSeat]
    exact hs.lord
  · rw [eq_of_shown h.shown AI.downSeat, eq_of_shown h.shown AI.upSeat]
    exact hs.sides (h.aiPosition.symm.trans hp)

/-- The same play at other seats: the same hand, and a robot renamed. -/
structure SamePlay (σ : Int → Int) (known : Int → Prop) (r r' : AI × Hand) : Prop where
  robot : Reseated σ known r.1 r'.1
  hand : r'.2 = r.2

/-- Rewriting the robot's own points leaves the counts alone. -/
theorem total_ownPoints (s : AI) (points : Points) (seat : Int) :
    ({ s with
      playerInfo := Function.update s.playerInfo s.aiSeat
        { s.playerInfo s.aiSeat with points := points } } : AI).total seat = s.total seat := by
  unfold total
  simp only [Function.update_apply]
  split
  next h => rw [h]
  next => rfl

namespace Reseated

variable {σ : Int → Int} {known : Int → Prop} {s s' : AI} {u : Undef} {hand : Hand}

section Renaming

variable (hσ : SeatRenaming σ) (h : Reseated σ known s s')

include hσ h

/-! ## The lord -/

/-- The lord's free turn. Both farmers' numbers of cards are looked up by
neighbourhood. -/
theorem lordTakeOutFree : s'.lordTakeOutFree u hand = s.lordTakeOutFree u hand := by
  unfold AI.lordTakeOutFree
  rw [h.total_next hσ, h.total_prev hσ,
    h.read (·.lordTakeOutFreeFarmerOnly1Card u hand) fun _ => rfl,
    h.read (·.lordTakeOutFreeFarmerOnly2Cards u hand)
      fun s => seatless_lordTakeOutFreeFarmerOnly2Cards u s hand,
    h.read (·.lordTakeOutFreeNormal u hand) fun _ => rfl, h.vec]

/-- The lord over a hand: the number of cards of the one who played it, and of
the player before. -/
theorem lordTakeOutHigher (hcur : known s.curHandSeat) :
    s'.lordTakeOutHigher u hand = s.lordTakeOutHigher u hand := by
  unfold AI.lordTakeOutHigher
  rw [h.total_cur hcur, h.total_prev hσ,
    h.read (·.lordTakeOutHigherFarmerOnly1Card u hand)
      fun s => seatless_lordTakeOutHigherFarmerOnly1Card u s hand,
    h.read (·.lordTakeOutHigherFarmerOnly2Cards u hand)
      fun s => seatless_lordTakeOutHigherFarmerOnly2Cards u s hand,
    h.read (·.lordTakeOutHigherNormal u hand) fun s => seatless_lordTakeOutHigherNormal u s hand]

/-! ## A farmer follows -/

/-- The good farmer over the other one's hand. Which neighbour the other farmer
is depends on the role, and the role is the same. -/
theorem goodFarmerOverOtherFarmer :
    s'.goodFarmerOverOtherFarmer u hand = s.goodFarmerOverOtherFarmer u hand := by
  have hother : s'.total (if s'.aiPosition = .downFarmer then s'.nextSeat else s'.prevSeat)
      = s.total (if s.aiPosition = .downFarmer then s.nextSeat else s.prevSeat) := by
    rw [h.aiPosition]
    split
    · exact h.total_next hσ
    · exact h.total_prev hσ
  unfold AI.goodFarmerOverOtherFarmer
  simp only [hother, h.field (·.findHigherHandNotBomb u.hand) fun _ _ => rfl, h.summary,
    h.vec, h.curHand, h.lowestControl,
    h.read (·.findBestHigherHandFromPoints u hand.clear true false)
      fun s => seatless_findBestHigherHandFromPoints u s ..]

/-- The good farmer after the lord, when there is a hand to beat. It compares
the seat of the hand with the lord's, which any renaming respects. -/
theorem downGoodFarmerFollow :
    s'.downGoodFarmerFollow u hand = s.downGoodFarmerFollow u hand := by
  have hmap : ∀ hand, s'.findBestHigherHandFromMap u hand = s.findBestHigherHandFromMap u hand :=
    fun hand => h.read (·.findBestHigherHandFromMap u hand) fun _ => rfl
  have hpoints : ∀ hand, s'.findBestHigherHandFromPoints u hand false false
      = s.findBestHigherHandFromPoints u hand false false := fun hand =>
    h.read (·.findBestHigherHandFromPoints u hand false false)
      fun s => seatless_findBestHigherHandFromPoints u s ..
  unfold AI.downGoodFarmerFollow
  simp only [ne_eq, h.curHandSeat_lord hσ, h.goodFarmerOverOtherFarmer hσ, hmap, hpoints,
    h.curHand, h.vec, h.field AI.isDanger fun _ _ => rfl,
    h.read (·.isGoodAfterBomb u) fun _ => rfl,
    h.read (fun s => s.farmerTakeOutWhenLordTakeOutHighSolo hand) fun _ => rfl,
    h.read (·.farmerMustTakeOutLordCharge u hand)
      fun s => seatless_farmerMustTakeOutLordCharge u s hand]

/-- The bad farmer after the lord, when there is a hand to beat. -/
theorem downBadFarmerFollow : s'.downBadFarmerFollow u hand = s.downBadFarmerFollow u hand := by
  have hmap : ∀ hand, s'.findBestHigherHandFromMap u hand = s.findBestHigherHandFromMap u hand :=
    fun hand => h.read (·.findBestHigherHandFromMap u hand) fun _ => rfl
  have hcharge : ∀ hand, s'.farmerMustTakeOutLordCharge u hand
      = s.farmerMustTakeOutLordCharge u hand := fun hand =>
    h.read (·.farmerMustTakeOutLordCharge u hand)
      fun s => seatless_farmerMustTakeOutLordCharge u s hand
  unfold AI.downBadFarmerFollow
  simp only [ne_eq, h.curHandSeat_lord hσ, h.isFirstHalf hσ, hmap, hcharge, h.curHand,
    h.read (fun s => s.farmerTakeOutWhenLordTakeOutHighSolo hand) fun _ => rfl]

/-- The good farmer before the lord, on a free turn: it looks at the lord's
number of cards as that of the player before it. -/
theorem upGoodFarmerFree : s'.upGoodFarmerFree u hand = s.upGoodFarmerFree u hand := by
  have hgood := h.field (fun s => s.isGood s.summary s.controlNum s.minOppNumber) fun _ _ => rfl
  have hlowest : ∀ hand, s'.findLowestHand hand = s.findLowestHand hand :=
    fun hand => h.field (·.findLowestHand hand) fun _ _ => rfl
  have hmost : ∀ hand, s'.findMostCardsHandNotBomb hand = s.findMostCardsHandNotBomb hand :=
    fun hand => h.field (·.findMostCardsHandNotBomb hand) fun _ _ => rfl
  unfold AI.upGoodFarmerFree
  rw [hgood]
  simp only [h.total_prev hσ, h.vec, h.lowestControl,
    h.summary, h.otherPoints, hlowest, hmost,
    h.field (·.findChargeHandFirst u hand true) fun _ _ => rfl]

/-- A farmer's free turn while the lord has one card. -/
theorem downFarmerFreeLordOnly1Card :
    s'.downFarmerFreeLordOnly1Card u hand = s.downFarmerFreeLordOnly1Card u hand := by
  have hgood := h.field (fun s => s.isGood s.summary s.controlNum s.minOppNumber) fun _ _ => rfl
  unfold AI.downFarmerFreeLordOnly1Card
  rw [hgood]
  simp only [h.total_prev hσ, h.vec, h.aiPoints, h.otherPoints,
    h.field AI.handsMap fun _ _ => rfl, h.read (·.fourWithSolos u hand) fun _ => rfl]

/-- The bad farmer before the lord, when there is a hand to beat. -/
theorem upBadFarmerFollow : s'.upBadFarmerFollow u hand = s.upBadFarmerFollow u hand := by
  unfold AI.upBadFarmerFollow
  simp only [ne_eq, h.curHandSeat_lord hσ, h.curHand, h.lowestControl,
    h.read (·.upBadFarmerLowSolo hand) fun _ => rfl, h.read (·.higherSingle hand) fun _ => rfl,
    h.read (·.farmerTakeOutWhenLordTakeOutHighSolo hand) fun _ => rfl,
    h.read (·.farmerMustTakeOutLordCharge u hand)
      fun s => seatless_farmerMustTakeOutLordCharge u s hand]

/-! ## A farmer and a lord with one card -/

/-- A farmer over a hand while the lord has one card. The comparison of the own
seat with `DOWNFARMER` is made on a solo only, and after the bomb has been
tried; `htest` is asked for there and nowhere else. -/
theorem farmerFollowLordOnly1Card
    (htest : s.TestsSeat → (σ s.aiSeat = Position.downFarmer.toInt
      ↔ s.aiSeat = Position.downFarmer.toInt)) :
    s'.farmerFollowLordOnly1Card u hand = s.farmerFollowLordOnly1Card u hand := by
  have hgood := h.field (fun s => s.isGood s.summary s.controlNum s.minOppNumber) fun _ _ => rfl
  have hhigher : ∀ hand, s'.findHigherHandNotBomb hand = s.findHigherHandNotBomb hand :=
    fun hand => h.field (·.findHigherHandNotBomb hand) fun _ _ => rfl
  have hbest := h.read (·.bestHighestSolo u hand) fun s => seatless_bestHighestSolo u s hand
  have hmust := h.read (·.farmerMustTakeOutLordOnly1Card u hand)
    fun s => seatless_farmerMustTakeOutLordOnly1Card u s hand
  unfold AI.farmerFollowLordOnly1Card
  rw [hgood]
  simp only [h.curHandSeat_lord hσ, h.vec, h.curHand, hhigher, hbest,
    hmust, h.aiSeat]
  by_cases ht : s.TestsSeat
  · simp only [htest ht]
  · -- the solo of the lord is met with the bomb before the test
    unfold TestsSeat at ht
    rw [not_and_or, not_not] at ht
    rcases ht with hsolo | ⟨hlord, hbomb⟩
    · simp only [if_neg hsolo]
    · simp only [if_pos hlord, if_pos hbomb]

/-- The turn of a farmer while the lord has one card. The comparison, where it
is made, comes out as before. -/
theorem farmerTakeOutLordOnly1Card
    (htest : s.isFree = false → (s.sortLordOnly1Card u).TestsSeat →
      (σ s.aiSeat = Position.downFarmer.toInt ↔ s.aiSeat = Position.downFarmer.toInt)) :
    SamePlay σ known (s.farmerTakeOutLordOnly1Card u hand)
      (s'.farmerTakeOutLordOnly1Card u hand) := by
  have hs := h.sortLordOnly1Card (u := u)
  have hkeeps : Keeps False s (s.sortLordOnly1Card u) := s.keeps_withMap ..
  refine ⟨hs, ?_⟩
  unfold AI.farmerTakeOutLordOnly1Card
  simp only [hs.isFree hσ, hs.aiPosition, hkeeps.isFree]
  split
  next =>
    rw [hs.read (·.upFarmerFreeLordOnly1Card u hand.clear) fun _ => rfl,
      hs.downFarmerFreeLordOnly1Card hσ]
  next hfollow =>
    apply hs.farmerFollowLordOnly1Card hσ
    rw [hkeeps.aiSeat]
    exact htest (eq_false_of_ne_true hfollow)

/-- The turn of a farmer while the lord has two cards. Only a free turn falls
back on the strategy for one card, and a free turn makes no comparison. -/
theorem farmerTakeOutLordOnly2Cards :
    SamePlay σ known (s.farmerTakeOutLordOnly2Cards u hand)
      (s'.farmerTakeOutLordOnly2Cards u hand) := by
  have hone (htest : s.isFree = false → _) : SamePlay σ known
      (s.farmerTakeOutLordOnly1Card u hand.clear) (s'.farmerTakeOutLordOnly1Card u hand.clear) :=
    h.farmerTakeOutLordOnly1Card hσ htest
  unfold AI.farmerTakeOutLordOnly2Cards
  simp only [h.isFree hσ, h.vec, h.aiPoints, h.otherPoints,
    h.curHand, h.curHandSeat_lord hσ,
    h.read (·.farmerMustTakeOutLordCharge u hand.clear)
      fun s => seatless_farmerMustTakeOutLordCharge u s _]
  split
  next hfree =>
    split
    · exact ⟨h, rfl⟩
    · split
      · split <;> exact ⟨h, rfl⟩
      · exact hone fun hfollow => Bool.noConfusion (hfree.symm.trans hfollow)
  next => split <;> exact ⟨h, rfl⟩

/-- The robot's own points, rewritten in both robots, each at its own seat. The
renaming is injective, so no other player is hit. -/
theorem ownPoints (points : Points) : Reseated σ known
    { s with
      playerInfo := Function.update s.playerInfo s.aiSeat
        { s.playerInfo s.aiSeat with points := points } }
    { s' with
      playerInfo := Function.update s'.playerInfo s'.aiSeat
        { s'.playerInfo s'.aiSeat with points := points } } := by
  have hown := h.info (h.table _ h.seated)
  obtain ⟨⟨info, rfl⟩, hagree, htable, hseated⟩ := h
  refine ⟨⟨Function.update info (σ s.aiSeat) { info (σ s.aiSeat) with points := points }, rfl⟩,
    fun i hi => ?_, htable, hseated⟩
  show Function.update info (σ s.aiSeat) { info (σ s.aiSeat) with points := points } (σ i)
    = Function.update s.playerInfo s.aiSeat { s.playerInfo s.aiSeat with points := points } i
  have hown' : info (σ s.aiSeat) = s.playerInfo s.aiSeat := hown
  by_cases hi' : i = s.aiSeat
  · rw [hi', Function.update_self, Function.update_self, hown']
  · rw [Function.update_of_ne hi', Function.update_of_ne fun he => hi' (hσ.injective he)]
    exact hagree i hi

/-- The farmer after the lord lets the other farmer finish. In one branch it
takes the bombs out of its own points (`ownPoints`), and both robots do so. -/
theorem downFarmerTakeOutUpFarmerOnly1Card (hfree : s.isFree = true) (hlord : known s.lordSeat) :
    SamePlay σ known (s.downFarmerTakeOutUpFarmerOnly1Card u hand)
      (s'.downFarmerTakeOutUpFarmerOnly1Card u hand) := by
  have hgood := h.field (fun s => s.isGood s.summary s.controlNum s.minOppNumber) fun _ _ => rfl
  have hlow : hasUniLowestSolo s'.aiPoints s'.otherPoints
      = hasUniLowestSolo s.aiPoints s.otherPoints := by rw [h.aiPoints, h.otherPoints]
  have hlowest : getLowestPoint s'.aiPoints = getLowestPoint s.aiPoints := by rw [h.aiPoints]
  have hsplit : getBomb ⟨s'.aiPoints, .empty⟩ = getBomb ⟨s.aiPoints, .empty⟩ := by rw [h.aiPoints]
  have hbomb := h.field (fun s => getHighestBomb s.otherPoints) fun _ _ => rfl
  have hown := h.ownPoints hσ (getBomb ⟨s.aiPoints, .empty⟩).cards
  have hone : SamePlay σ known (s.farmerTakeOutLordOnly1Card u hand.clear)
      (s'.farmerTakeOutLordOnly1Card u hand.clear) :=
    h.farmerTakeOutLordOnly1Card hσ fun hfollow =>
      Bool.noConfusion (hfree.symm.trans hfollow)
  unfold AI.downFarmerTakeOutUpFarmerOnly1Card
  simp only []
  rw [hlow, hlowest, hsplit, hbomb, hgood, h.total_lord hlord]
  split
  · split
    · exact ⟨hown, rfl⟩
    · split
      · rw [total_ownPoints, total_ownPoints, h.total_lord hlord]
        split <;> exact ⟨hown, rfl⟩
      · exact ⟨hown, rfl⟩
  · split
    · exact hone
    · split <;> exact ⟨h, rfl⟩

/-! ## A farmer's turn -/

/-- The guard on the lord's number of cards in front of a farmer's own choice:
one card, two cards, or the rest of the turn. -/
theorem lordFewCards (hlord : known s.lordSeat)
    (htest : s.SeatTest u → (σ s.aiSeat = Position.downFarmer.toInt
      ↔ s.aiSeat = Position.downFarmer.toInt)) {rest : AI → Hand → AI × Hand}
    (hrest : ∀ {t t' : AI}, Reseated σ known t t' → ∀ hand,
      SamePlay σ known (rest t hand) (rest t' hand)) :
    SamePlay σ known (s.lordFewCards u hand rest) (s'.lordFewCards u hand rest) := by
  have htwo : SamePlay σ known (s.farmerTakeOutLordOnly2Cards u hand)
      (s'.farmerTakeOutLordOnly2Cards u hand) := h.farmerTakeOutLordOnly2Cards hσ
  unfold AI.lordFewCards
  simp only [h.total_lord hlord, htwo.hand]
  split
  next hone =>
    exact h.farmerTakeOutLordOnly1Card hσ fun hfollow ht => htest ⟨hfollow, hone, ht⟩
  next =>
    split
    · split
      · exact htwo
      · exact hrest htwo.robot _
    · exact hrest h _

/-- The guard on the other farmer's last card, in front of the one above. The
rest of the turn may begin with the points rewritten, so it is asked about any
related pair. -/
theorem upFarmerOneCard (hfree : s.isFree = true) (hlord : known s.lordSeat)
    {rest : AI → Hand → AI × Hand}
    (hrest : ∀ {t t' : AI}, Reseated σ known t t' → t.isFree = true → known t.lordSeat →
      ∀ hand, SamePlay σ known (rest t hand) (rest t' hand)) :
    SamePlay σ known (s.upFarmerOneCard u hand rest) (s'.upFarmerOneCard u hand rest) := by
  have hone : SamePlay σ known (s.downFarmerTakeOutUpFarmerOnly1Card u hand)
      (s'.downFarmerTakeOutUpFarmerOnly1Card u hand) :=
    h.downFarmerTakeOutUpFarmerOnly1Card hσ hfree hlord
  have hkeeps := s.keeps_downFarmerTakeOutUpFarmerOnly1Card (P := False) u hand False.elim
  unfold AI.upFarmerOneCard
  simp only [h.total_next hσ, hone.hand]
  split
  · split
    · exact hone
    · apply hrest hone.robot
      · rw [hkeeps.isFree]
        exact hfree
      · rw [eq_of_shown hkeeps.shown AI.lordSeat]
        exact hlord
  · exact hrest h hfree hlord _

/-- A free turn after the lord: nobody's seat is compared with `DOWNFARMER`. -/
theorem freeFarmer (hfree : s.isFree = true) (hlord : known s.lordSeat) {f : AI → Hand → Hand}
    (hf : ∀ {t t' : AI}, Reseated σ known t t' → ∀ hand, f t' hand = f t hand) :
    SamePlay σ known
      (s.upFarmerOneCard u hand fun s hand => s.lordFewCards u hand fun s hand => (s, f s hand))
      (s'.upFarmerOneCard u hand fun s hand =>
        s.lordFewCards u hand fun s hand => (s, f s hand)) := by
  apply h.upFarmerOneCard hσ hfree hlord
  intro t t' ht htfree htlord hand
  apply ht.lordFewCards hσ htlord
  · intro htest
    exact Bool.noConfusion (htfree.symm.trans htest.follows)
  · intro t t' ht hand
    exact ⟨ht, hf ht hand⟩

section Farmer

variable (hlord : known s.lordSeat)
  (htest : s.SeatTest u → (σ s.aiSeat = Position.downFarmer.toInt
    ↔ s.aiSeat = Position.downFarmer.toInt))

include hlord htest

/-- A turn that begins with the lord's count. -/
theorem fewCards {f : AI → Hand → Hand}
    (hf : ∀ {t t' : AI}, Reseated σ known t t' → ∀ hand, f t' hand = f t hand) :
    SamePlay σ known (s.lordFewCards u hand fun s hand => (s, f s hand))
      (s'.lordFewCards u hand fun s hand => (s, f s hand)) :=
  h.lordFewCards hσ hlord htest fun ht hand => ⟨ht, hf ht hand⟩

/-- The turn of the good farmer after the lord. -/
theorem downGoodFarmerTakeOut :
    SamePlay σ known (s.downGoodFarmerTakeOut u hand) (s'.downGoodFarmerTakeOut u hand) := by
  unfold AI.downGoodFarmerTakeOut
  simp only []
  rw [h.isFree hσ]
  split
  next hfree =>
    exact h.freeFarmer hσ hfree hlord fun ht hand =>
      ht.read (·.downGoodFarmerFree u hand) fun _ => rfl
  next => exact h.fewCards hσ hlord htest fun ht _ => ht.downGoodFarmerFollow hσ

/-- The turn of the bad farmer after the lord. -/
theorem downBadFarmerTakeOut :
    SamePlay σ known (s.downBadFarmerTakeOut u hand) (s'.downBadFarmerTakeOut u hand) := by
  unfold AI.downBadFarmerTakeOut
  simp only []
  rw [h.isFree hσ]
  split
  next hfree =>
    exact h.freeFarmer hσ hfree hlord fun ht hand => ht.field (·.findLowestHand hand) fun _ _ => rfl
  next => exact h.fewCards hσ hlord htest fun ht _ => ht.downBadFarmerFollow hσ

/-- The turn of the good farmer before the lord. -/
theorem upGoodFarmerTakeOut :
    SamePlay σ known (s.upGoodFarmerTakeOut u hand) (s'.upGoodFarmerTakeOut u hand) := by
  unfold AI.upGoodFarmerTakeOut
  rw [h.isFree hσ]
  split
  · exact h.fewCards hσ hlord htest fun ht _ => ht.upGoodFarmerFree hσ
  · apply h.fewCards hσ hlord htest
    intro t t' ht hand
    have hover : t'.goodFarmerOverOtherFarmer u hand = t.goodFarmerOverOtherFarmer u hand :=
      ht.goodFarmerOverOtherFarmer hσ
    have hcharge := ht.read (·.farmerMustTakeOutLordCharge u hand)
      fun s => seatless_farmerMustTakeOutLordCharge u s hand
    simp only [ne_eq, ht.curHandSeat_lord hσ, hover, hcharge]

/-- The turn of the bad farmer before the lord. Its free turn has guards of its
own, in another order than the common ones. -/
theorem upBadFarmerTakeOut :
    SamePlay σ known (s.upBadFarmerTakeOut u hand) (s'.upBadFarmerTakeOut u hand) := by
  have hlowest : getLowestPoint s'.aiPoints = getLowestPoint s.aiPoints := by rw [h.aiPoints]
  have hpair : getLowestPairPoint s'.aiPoints = getLowestPairPoint s.aiPoints := by
    rw [h.aiPoints]
  have hothers : isHighestPair (getLowestPairPoint s.aiPoints) s'.otherPoints
      = isHighestPair (getLowestPairPoint s.aiPoints) s.otherPoints := by
    rw [h.otherPoints]
  have htwo : SamePlay σ known (s.farmerTakeOutLordOnly2Cards u hand.clear)
      (s'.farmerTakeOutLordOnly2Cards u hand.clear) := h.farmerTakeOutLordOnly2Cards hσ
  have hfree : ∀ {t t' : AI}, Reseated σ known t t' → ∀ hand,
      t'.upBadFarmerFree hand = t.upBadFarmerFree hand :=
    fun ht hand => ht.read (·.upBadFarmerFree hand) fun _ => rfl
  unfold AI.upBadFarmerTakeOut
  simp only []
  rw [h.isFree hσ, h.total_lord hlord, h.total_prev hσ, hpair, hothers, hlowest]
  split
  next hfree' =>
    split
    · apply h.farmerTakeOutLordOnly1Card hσ
      intro hfollow
      exact Bool.noConfusion (hfree'.symm.trans hfollow)
    · split
      · exact ⟨h, rfl⟩
      · split
        · rw [htwo.hand, hfree htwo.robot]
          split
          · exact htwo
          · exact ⟨htwo.robot, rfl⟩
        · split
          · exact ⟨h, rfl⟩
          · exact ⟨h, hfree h _⟩
  next => exact h.fewCards hσ hlord htest fun ht _ => ht.upBadFarmerFollow hσ

/-- A farmer's turn: four strategies, told apart by the role and by who the
good farmer is. -/
theorem farmerTakeOut :
    SamePlay σ known (s.farmerTakeOut u hand) (s'.farmerTakeOut u hand) := by
  unfold AI.farmerTakeOut
  rw [h.isGoodFarmer hσ hlord, h.aiPosition]
  split
  · split
    · exact h.downGoodFarmerTakeOut hσ hlord htest
    · exact h.upGoodFarmerTakeOut hσ hlord htest
  · split
    · exact h.downBadFarmerTakeOut hσ hlord htest
    · exact h.upBadFarmerTakeOut hσ hlord htest

end Farmer

/-! ## The high level -/

omit hσ in
/-- The points of a player that moved along. -/
theorem pointsOf {i : Int} (hi : known i) : s'.pointsOf (σ i) = s.pointsOf i :=
  congrArg CardsInfo.points (h.info hi)

section Opponents

variable (hopp : s.SeesOpponents known)

include hopp

omit hσ in
/-- The opponent the high level looks at first: the next player for the lord,
the lord for a farmer. -/
theorem firstOpp : s'.firstOpp = s.firstOpp := by
  have hdown : s'.downSeat = σ s.downSeat := by
    obtain ⟨info, rfl⟩ := h.eq
    rfl
  unfold AI.firstOpp
  rw [h.aiPosition]
  by_cases hp : s.aiPosition = .lord
  · rw [if_pos hp, if_pos hp, hdown, h.pointsOf (hopp.sides hp).1]
  · rw [if_neg hp, if_neg hp, h.lordSeat, h.pointsOf hopp.lord]

omit hσ in
/-- The lord's second opponent. -/
theorem pointsOf_up (hp : s.aiPosition = .lord) : s'.pointsOf s'.upSeat = s.pointsOf s.upSeat := by
  have hup : s'.upSeat = σ s.upSeat := by
    obtain ⟨info, rfl⟩ := h.eq
    rfl
  rw [hup, h.pointsOf (hopp.sides hp).2]

omit hσ in
/-- The highest hand of one kind that an opponent may hold, as the high level
estimates it. -/
theorem findOppHighestPoint : s'.findOppHighestPoint = s.findOppHighestPoint := by
  have hfirst := h.firstOpp hopp
  funext type
  unfold AI.findOppHighestPoint
  rw [hfirst, h.aiPosition]
  by_cases hp : s.aiPosition = .lord
  · rw [h.pointsOf_up hopp hp]
  · simp only [if_neg hp]

omit hσ in
/-- The highest chain of one kind and length that an opponent may hold. -/
theorem findOppHighestChain : s'.findOppHighestChain = s.findOppHighestChain := by
  have hfirst := h.firstOpp hopp
  funext type len
  unfold AI.findOppHighestChain
  rw [hfirst, h.aiPosition]
  by_cases hp : s.aiPosition = .lord
  · rw [h.pointsOf_up hopp hp]
  · simp only [if_neg hp]

omit hσ in
/-- Both estimates agree, so the count of high hands does. -/
theorem countHighHand : s'.countHighHand = s.countHighHand :=
  countHighHand_congr (h.findOppHighestPoint hopp) (h.findOppHighestChain hopp)

omit hσ in
/-- Both estimates agree, so the summary of the high level does. -/
theorem getHandsMapSummaryLvl : s'.getHandsMapSummaryLvl = s.getHandsMapSummaryLvl :=
  getHandsMapSummaryLvl_congr (h.findOppHighestPoint hopp) (h.findOppHighestChain hopp)

omit hσ in
/-- The first candidate for the map is written as it comes. -/
theorem sortFirst (m : HandsMap) : Reseated σ known (s.sortFirst m) (s'.sortFirst m) := by
  unfold AI.sortFirst
  rw [h.countHighHand hopp, h.getHandsMapSummaryLvl hopp, h.field AI.counts fun _ _ => rfl]
  exact h.setSorted ..

omit hσ in
/-- A later candidate is kept or dropped by a comparison of two summaries,
which agree. -/
theorem sortLater (tmpMap : HandsMap) (tmp : HighCounts)
    (better : HandsMapSummary → HandsMapSummary → Bool) :
    Reseated σ known (s.sortLater tmpMap tmp better).1 (s'.sortLater tmpMap tmp better).1
      ∧ (s'.sortLater tmpMap tmp better).2 = (s.sortLater tmpMap tmp better).2 := by
  have hbetter : ∀ tmp, better s'.summary tmp = better s.summary tmp :=
    fun tmp => by rw [h.summary]
  unfold AI.sortLater
  rw [h.countHighHand hopp, h.getHandsMapSummaryLvl hopp, h.field AI.handsMap fun _ _ => rfl]
  refine ⟨?_, rfl⟩
  simp only []
  rw [hbetter]
  split
  · exact h.setSorted ..
  · exact h.map fun t => { t with handsMap := (s.getHandsMapSummaryLvl s.handsMap
      (s.countHighHand s.handsMap tmp)).1 }

omit hσ in
/-- The charge of one kind that the high level looks for. -/
theorem chargeOfType : s'.chargeOfType = s.chargeOfType := by
  funext t
  unfold AI.chargeOfType
  rw [h.findOppHighestChain hopp, h.vec]

/-- Whether the lord is in danger: its two opponents' points, looked up at
their new seats. -/
theorem isDangerLvl (hp : s.aiPosition = .lord) : s'.isDangerLvl = s.isDangerLvl := by
  have hdown : s'.downSeat = σ s.downSeat := by
    obtain ⟨info, rfl⟩ := h.eq
    rfl
  unfold AI.isDangerLvl
  simp only [h.pointsOf_up hopp hp, hdown, h.pointsOf (hopp.sides hp).1, h.aiSeat, h.lordSeat,
    hσ.injective.eq_iff, h.pointsOf hopp.lord, h.vec]

omit hσ in
/-- The sorting of the high level, by the lord's number of cards and the role:
two candidates for the map or three. -/
theorem sortHandMapLvl : Reseated σ known s.sortHandMapLvl s'.sortHandMapLvl := by
  have hfirst : ∀ m, Reseated σ known (s.sortFirst m) (s'.sortFirst m)
      ∧ (s.sortFirst m).SeesOpponents known := fun m =>
    ⟨h.sortFirst hopp m, hopp.keeps (s.keeps_setSorted ..)⟩
  unfold AI.sortHandMapLvl
  rw [h.total_lord hopp.lord, h.aiPosition, h.aiPoints]
  split
  · obtain ⟨hs, hs'⟩ := hfirst (splitCardsToHandsKind4 s.aiPoints false)
    simp only [hs.aiPoints]
    exact (hs.sortLater hs' ..).1
  · obtain ⟨hs, hs'⟩ := hfirst (splitCardsToHands .kind1 s.aiPoints false)
    obtain ⟨hr, hc⟩ := hs.sortLater hs'
      (splitCardsToHands .kind2 (s.sortFirst (splitCardsToHands .kind1 s.aiPoints false)).aiPoints
        false) {} fun summary tmp => !compareHandMapSummary summary tmp
    simp only [hs.aiPoints, hc]
    exact (hr.sortLater (hs'.keeps (keeps_sortLater ..)) ..).1

omit hσ in
/-- The search for a charge. It stores a counter on the way, and the second
robot stores the same one. -/
theorem findChargeHandFirstLvl (first : Bool) :
    SamePlay σ known (s.findChargeHandFirstLvl u hand first)
      (s'.findChargeHandFirstLvl u hand first) := by
  have hmap := h.field AI.searchMap fun _ _ => rfl
  have htype : s'.chargeType = s.chargeType := h.field AI.chargeType fun _ _ => rfl
  have hcount := h.field AI.goodLowHandCount fun _ _ => rfl
  have hset : Reseated σ known
      { s with goodLowHandCount := s.searchMap.getD s.goodLowHandCount }
      { s' with goodLowHandCount := s.searchMap.getD s.goodLowHandCount } :=
    h.map fun t => { t with goodLowHandCount := s.searchMap.getD s.goodLowHandCount }
  have hset' : AI.SeesOpponents known
      { s with goodLowHandCount := s.searchMap.getD s.goodLowHandCount } :=
    hopp.keeps (.of_known rfl rfl)
  have hoftype := hset.chargeOfType hset'
  have hcharge : ∀ hand, _ := fun hand =>
    hset.field (·.findChargeHandFirst u hand first) fun _ _ => rfl
  unfold AI.findChargeHandFirstLvl
  simp only []
  rw [hmap, htype, hcount, hoftype]
  split
  next hand' _ =>
    refine ⟨hset, ?_⟩
    show (if hand'.type = .nothing then _ else hand') = if hand'.type = .nothing then _ else hand'
    rw [hcharge]
  next => exact ⟨hset, hcharge _⟩

/-- The lord's free turn at the high level, which is the only turn where it
looks at danger. -/
theorem lordTakeOutFreeLvl (hp : s.aiPosition = .lord) :
    SamePlay σ known (s.lordTakeOutFreeLvl u hand) (s'.lordTakeOutFreeLvl u hand) := by
  have hvec := h.vec
  have hone := h.read (·.lordTakeOutFreeFarmerOnly1Card u hand) fun _ => rfl
  have htwo : s'.lordTakeOutFreeFarmerOnly2CardsLvl u hand
      = s.lordTakeOutFreeFarmerOnly2CardsLvl u hand := by
    unfold AI.lordTakeOutFreeFarmerOnly2CardsLvl
    rw [h.nextSeat hσ, h.pointsOf (h.table s.nextSeat (seat_emod _)), ← h.nextSeat hσ,
      h.total_next hσ, h.total_prev hσ, hone,
      h.read (·.lordTakeOutFreeFarmerOnly2Cards u hand)
        fun s => seatless_lordTakeOutFreeFarmerOnly2Cards u s hand]
  unfold AI.lordTakeOutFreeLvl AI.lordTakeOutFreeNormalLvl
  rw [h.total_next hσ, h.total_prev hσ, hvec, hone, htwo, h.isDangerLvl hσ hopp hp,
    h.summary, h.field (·.findLowestHand hand) fun _ _ => rfl]
  split
  · exact ⟨h, rfl⟩
  · split
    · exact ⟨h, rfl⟩
    · split
      · split
        · exact ⟨h, rfl⟩
        · exact h.findChargeHandFirstLvl hopp false
      · exact ⟨h, rfl⟩

end Opponents

end Renaming

end Reseated

end AI

end RobotDdz
