import RobotDdz.AI.Turn

/-!
# What the robot knows, across its own turns

`RbtOutGetTakeOutCard` is a question: it should answer and change nothing but
the cards in hand and the analysis. `deciding_keeps_known_iff` is the exact
law: what is known stays the same unless the turn goes through the one branch
that passes the robot's own point array to `getBomb` (`TakesOwnBombs`), and
there it never does.

Whatever the branch, the others' cards, the counts of all players, the unplayed
cards and the hand to beat stay (`deciding_keeps_shown`).

The law is exact in a strong sense: if the turn goes through the branch, what
is known changes in every case, not only for some cards. That is why the
condition can be read off the state before the turn, without running it:
`TakesOwnBombs` has the tests in front of the branch and whether `getBomb` will
find something to take.

Mirroring notes vs `OGLordRobotAI.cpp`:
- `getBomb` takes its counts as an `int []`, that is by reference, and works on
  the caller's array.
- The cards in `aiCardsVec` stay. What is wrong afterwards is
  `playerInfo[aiSeat].points`, which every later decision of the deal begins
  with.
-/

namespace RobotDdz

namespace AI

section Deciding

variable (u : Undef) (s : AI)

/-- Taking cards out of the hand, back in or out once more changes nothing
known. -/
theorem known_checkTakeOut (hand : Hand) : (s.checkTakeOut hand).1.known = s.known := by
  unfold checkTakeOut
  simp only []
  split
  · split <;> rfl
  · split <;> rfl

/-- What a turn shows, at any level and in any state. -/
theorem deciding_keeps_shown : (s.rbtOutGetTakeOutCard u).1.shown = s.shown := by
  have hkeeps := (s.keeps_takeOutByLevel (P := False) u fun hp => hp.elim).shown
  unfold rbtOutGetTakeOutCard
  rw [← hkeeps]
  exact shown_eq_of_known (known_checkTakeOut _ _)

/-- At level 0 a turn leaves all that is known as it is. -/
theorem known_answer_levelZero {s : AI} (hl : s.level = 0) :
    (s.rbtOutGetTakeOutCard u).1.known = s.known :=
  (known_checkTakeOut _ _).trans
    ((s.keeps_takeOutByLevel (P := True) u fun _ hbombs => hbombs.level hl).known trivial)

/-- A farmer's free turn after the lord, when the next player has one card and
the robot has the lone lowest one. -/
theorem farmerTakeOut_robs {s : AI} (hand : Hand) (hpos : s.aiPosition = .downFarmer)
    (hfree : s.isFree = true) (hone : s.LeadsToOneCard) :
    (s.farmerTakeOut u hand).1.aiPoints = (getBomb ⟨s.aiPoints, .empty⟩).cards := by
  have hguard : ∀ (hand : Hand) (rest : AI → Hand → AI × Hand),
      (s.upFarmerOneCard u hand rest).1.aiPoints = (getBomb ⟨s.aiPoints, .empty⟩).cards := by
    intro hand rest
    obtain ⟨hpoints, hplays⟩ := s.downFarmerTakeOutUpFarmerOnly1Card_robs u hand hone.lowest
    unfold upFarmerOneCard
    simp only []
    rw [if_pos hone.one, if_pos hplays]
    exact hpoints
  unfold farmerTakeOut downGoodFarmerTakeOut downBadFarmerTakeOut
  simp only [hpos, hfree, if_true]
  -- a good farmer and a bad one begin alike
  split
  · exact hguard ..
  · exact hguard ..

/-- The branch is open after the sorting if it was before. -/
theorem LeadsToOneCard.after {s s' : AI} (h : Keeps True s s') (hc : s.LeadsToOneCard) :
    s'.LeadsToOneCard :=
  hc.congr ⟨fun _ => (h.known trivial).symm, h.shown.symm, h.cards.symm⟩

theorem aiPoints_of_known {s s' : AI} (h : s'.known = s.known) : s'.aiPoints = s.aiPoints :=
  eq_of_known h aiPoints

/-- The turn that takes the robot's bombs away: at level 1 and above it goes
through `getBomb` on the robot's own counts, and no later step of the turn puts
the cards back. -/
theorem takeOutByLevel_robs {s : AI} (h : s.TakesOwnBombs) :
    (s.takeOutByLevel u).1.aiPoints = (getBomb ⟨s.aiPoints, .empty⟩).cards := by
  have hsorted : ∀ {s' : AI} (hand : Hand), Keeps True s s' →
      (s'.farmerTakeOut u hand).1.aiPoints = (getBomb ⟨s.aiPoints, .empty⟩).cards := by
    intro s' hand hk
    rw [farmerTakeOut_robs u hand (hk.aiPosition.trans h.position) (hk.isFree.trans h.free)
      (h.oneCard.after hk), aiPoints_of_known (hk.known trivial)]
  have hlord : ∀ {s' : AI}, Keeps True s s' → ¬s'.aiPosition = .lord := by
    intro s' hk
    rw [hk.aiPosition, h.position]
    decide
  have hctl : Keeps True s s.updateControl := s.keeps_updateControl
  unfold takeOutByLevel
  simp only []
  rw [if_neg (show ¬s.updateControl.level = 0 from h.level)]
  split
  · -- level 1: the trios are looked at once more, which changes no state
    have hk := hctl.trans (s.updateControl.keeps_sortHandMap u)
    have hpick : ∀ hand, (strategyLvl1 u (s.updateControl.sortHandMap u) hand).1.aiPoints
        = (getBomb ⟨s.aiPoints, .empty⟩).cards := by
      intro hand
      unfold strategyLvl1
      rw [if_neg (hlord hk)]
      exact hsorted hand hk
    unfold takeOutLvl1
    simp only []
    split
    · exact hpick _
    · exact hpick _
  · have hk := hctl.trans s.updateControl.keeps_sortHandMapLvl
    unfold takeOutHighLvl
    simp only []
    rw [if_neg (hlord hk)]
    exact hsorted _ hk

/-- Deciding changes nothing the robot knows, except in the turns that lead to
a farmer with one card while the robot holds a bomb: there it always loses its
bombs from its own counts. -/
theorem deciding_keeps_known_iff :
    (s.rbtOutGetTakeOutCard u).1.known = s.known ↔ ¬s.TakesOwnBombs := by
  have hcheck : (s.rbtOutGetTakeOutCard u).1.known = (s.takeOutByLevel u).1.known :=
    known_checkTakeOut _ _
  constructor
  · intro h hbad
    have hpoints := aiPoints_of_known (hcheck.symm.trans h)
    rw [takeOutByLevel_robs u hbad] at hpoints
    exact (getBomb_cards_eq_iff _ _).mp hpoints hbad.oneCard.bomb
  · intro h
    rw [hcheck]
    exact (s.keeps_takeOutByLevel u fun _ => h).known trivial

/-- A farmer after the lord leads with four threes, a four and a five against a
farmer with one card; nobody else has a three or a four. -/
def bombLead : AI :=
  { level := 1, aiSeat := 1, lordSeat := 0, downSeat := 1, upSeat := 2, aiPosition := .downFarmer
    aiCardsVec := [0, 13, 26, 39, 1, 2]
    playerInfo := fun seat =>
      if seat = 1 then ⟨cardVecToPointArr [0, 13, 26, 39, 1, 2], 6⟩
      else ⟨fun _ => -1, if seat = 2 then 1 else 5⟩
    remainPoints := Points.ofList [4, 1, 1, 0, 0, 1, 1, 1, 1, 1, 1]
    otherPoints := Points.ofList [0, 0, 0, 0, 0, 1, 1, 1, 1, 1, 1]
    curHand := { type := .solo, keyPoint := blackJoker }, curHandSeat := 1 }

/-- Asked for its play, the robot strikes its four threes from its own counts. -/
theorem bombLead_forgets :
    (bombLead.rbtOutGetTakeOutCard .zero).1.known ≠ bombLead.known
      ∧ bombLead.aiPoints card3 = 4
      ∧ (bombLead.rbtOutGetTakeOutCard .zero).1.aiPoints card3 = 0 := by
  refine ⟨fun h => ?_, by decide, by decide +kernel⟩
  have hpoints := congrFun (aiPoints_of_known h) card3
  have hzero : (bombLead.rbtOutGetTakeOutCard .zero).1.aiPoints card3 = 0 := by decide +kernel
  rw [hzero] at hpoints
  exact absurd hpoints (by decide)

end Deciding

end AI

end RobotDdz
