import RobotDdz.AI.Lvl

/-!
# What a strategy leaves alone

A strategy works on the analysis: the map of hands, the summary, the counters.
`known` is the robot with that and the cards in its hand wiped, so that "the
robot knows the same" is an equation between two `known`s, and a frame is
proved by `rfl` for every function that writes analysis fields only.

One function writes more. `downFarmerTakeOutUpFarmerOnly1Card` passes the
robot's own point array to `getBomb`, which takes the bombs out of it. So a
frame comes in two strengths (`Keeps P`): the whole of `known` under the
condition `P`, which the callers of that function choose such that the branch
is not taken, and always `shown`, which is `known` less the robot's own points.

The frames run along the strategies as the source calls them. A function that
returns a hand and writes nothing needs no lemma: the model gives it no new
robot. What is left is the analysis (`sortHandMap`, `sortLater`,
`countOpponents`), which writes analysis fields, and the farmer's strategies,
which sort again before they choose.

The module ends with the branch that breaks the frame. `LeadsToOneCard` is its
condition, as the source tests it before it calls `getBomb`, and
`downFarmerTakeOutUpFarmerOnly1Card_robs` says that the branch does write
whenever there is a bomb to take: the exception in `Keeps` is not there for
convenience.
-/

namespace RobotDdz

namespace AI

/-- The robot without its cards and without anything it works out from what it
knows. -/
def known (s : AI) : AI :=
  { s with
    aiCardsVec := [], vecLastTakeOutCards := []
    handsMap := .empty, summary := {}, uniHighHandCount := fun _ => 0
    highHandCount := fun _ => 0, goodLowHandCount := fun _ => 0, handsTrioCount := 0
    lowestControl := card3, controlNum := 0, maxOppNumber := 0, minOppNumber := 0
    mustHighLevel := false }

/-- `known` without the robot's own points. -/
def shown (s : AI) : AI :=
  { s.known with
    playerInfo := Function.update s.playerInfo s.aiSeat
      { s.playerInfo s.aiSeat with points := Points.zero } }

/-- Reading a field that is known. -/
theorem eq_of_known {α : Type} {s s' : AI} (h : s'.known = s.known) (f : AI → α)
    (hf : ∀ s : AI, f s.known = f s := by intro s; rfl) : f s' = f s := by
  rw [← hf s', h, hf s]

/-- Reading a field that is shown. -/
theorem eq_of_shown {α : Type} {s s' : AI} (h : s'.shown = s.shown) (f : AI → α)
    (hf : ∀ s : AI, f s.shown = f s := by intro s; rfl) : f s' = f s := by
  rw [← hf s', h, hf s]

/-- What is shown has every player's number of cards. -/
theorem total_shown (s : AI) (seat : Int) : s.shown.total seat = s.total seat := by
  unfold shown total
  simp only [Function.update_apply]
  split
  next h => rw [h]
  next => rfl

/-- What is shown is known. -/
theorem shown_eq_of_known {s s' : AI} (h : s'.known = s.known) : s'.shown = s.shown := by
  have hinfo := eq_of_known h AI.playerInfo
  have hseat := eq_of_known h AI.aiSeat
  unfold shown
  rw [h, hinfo, hseat]

/-- What is known is kept if `P` holds, what is shown and the cards in any
case. -/
structure Keeps (P : Prop) (s s' : AI) : Prop where
  known : P → s'.known = s.known
  shown : s'.shown = s.shown
  cards : s'.aiCardsVec = s.aiCardsVec

namespace Keeps

variable {P : Prop} {s s' s'' : AI}

/-- Doing nothing keeps everything. -/
theorem refl (s : AI) : Keeps P s s := ⟨fun _ => rfl, rfl, rfl⟩

/-- Frames compose, so the frame of a strategy is that of its parts, one after
the other. -/
theorem trans (h : Keeps P s s') (h' : Keeps P s' s'') : Keeps P s s'' :=
  ⟨fun hp => (h'.known hp).trans (h.known hp), h'.shown.trans h.shown, h'.cards.trans h.cards⟩

/-- Whatever writes analysis fields only keeps both parts, for any condition.
The caller shows the two equations by `rfl`. -/
theorem of_known (h : s'.known = s.known) (hc : s'.aiCardsVec = s.aiCardsVec) : Keeps P s s' :=
  ⟨fun _ => h, shown_eq_of_known h, hc⟩

/-- The seat is shown, so every strategy keeps it. -/
theorem aiSeat (h : Keeps P s s') : s'.aiSeat = s.aiSeat := eq_of_shown h.shown AI.aiSeat

theorem aiPosition (h : Keeps P s s') : s'.aiPosition = s.aiPosition :=
  eq_of_shown h.shown AI.aiPosition

/-- No strategy changes the hand to beat; that is for the messages of the game
to do. -/
theorem curHand (h : Keeps P s s') : s'.curHand = s.curHand := eq_of_shown h.shown AI.curHand

theorem curHandSeat (h : Keeps P s s') : s'.curHandSeat = s.curHandSeat :=
  eq_of_shown h.shown AI.curHandSeat

theorem remainPoints (h : Keeps P s s') : s'.remainPoints = s.remainPoints :=
  eq_of_shown h.shown AI.remainPoints

/-- The count of the others' cards is shown, hence kept without a condition. -/
theorem otherPoints (h : Keeps P s s') : s'.otherPoints = s.otherPoints :=
  eq_of_shown h.shown AI.otherPoints

/-- Every player's number of cards is kept, the robot's own included: the
branch that writes its points does not write its total. -/
theorem total (h : Keeps P s s') (seat : Int) : s'.total seat = s.total seat :=
  eq_of_shown h.shown (fun s => s.total seat) (total_shown · seat)

theorem isFree (h : Keeps P s s') : s'.isFree = s.isFree := by
  unfold AI.isFree
  rw [h.aiPosition, h.curHandSeat, h.aiSeat]

/-- The robot's own points are kept where the condition holds. This is the one
field that is known but not shown. -/
theorem aiPoints (h : Keeps P s s') (hP : P) : s'.aiPoints = s.aiPoints := by
  unfold AI.aiPoints
  rw [eq_of_known (h.known hP) AI.playerInfo, h.aiSeat]

end Keeps

/-! ## The analysis -/

section Frames

variable {P : Prop} (u : Undef) (s : AI) (hand : Hand)

/-- A new map and a new summary of it. -/
theorem keeps_withMap (m : HandsMap) (summary : HandsMapSummary) :
    Keeps P s { s with handsMap := m, summary := summary } := .of_known rfl rfl

/-- The map, its summary and the counts of high hands, as the high level writes
them. -/
theorem keeps_setSorted (m : HandsMap) (summary : HandsMapSummary) (c : HighCounts) :
    Keeps P s (s.setSorted m summary c) := .of_known rfl rfl

theorem keeps_countOpponents : Keeps P s s.countOpponents := by
  unfold countOpponents
  split <;> exact .of_known rfl rfl

/-- Sorting the robot's cards keeps what it knows: it reads the points and
writes the map. -/
theorem keeps_sortHandMap : Keeps P s (s.sortHandMap u) := by
  unfold sortHandMap
  exact s.keeps_countOpponents.trans (keeps_withMap ..)

/-- A later candidate for the map is written or dropped; nothing else is
touched either way. -/
theorem keeps_sortLater (tmpMap : HandsMap) (tmp : HighCounts)
    (better : HandsMapSummary → HandsMapSummary → Bool) :
    Keeps P s (s.sortLater tmpMap tmp better).1 := by
  unfold sortLater
  simp only []
  split <;> exact .of_known rfl rfl

/-- The sorting of the high level, with its two or three candidates. -/
theorem keeps_sortHandMapLvl : Keeps P s s.sortHandMapLvl := by
  have hfirst : ∀ m, Keeps P s (s.sortFirst m) := fun m => keeps_setSorted ..
  unfold sortHandMapLvl
  split
  · exact (hfirst _).trans (keeps_sortLater ..)
  · exact ((hfirst _).trans (keeps_sortLater ..)).trans (keeps_sortLater ..)

/-! ## The farmers -/

/-- A farmer sorts once more against a lord with one card, and then only
chooses. -/
theorem keeps_farmerTakeOutLordOnly1Card :
    Keeps P s (s.farmerTakeOutLordOnly1Card u hand).1 := by
  unfold farmerTakeOutLordOnly1Card sortLordOnly1Card
  exact keeps_withMap ..

/-- Against a lord with two cards it may fall back on the strategy for one
card. -/
theorem keeps_farmerTakeOutLordOnly2Cards :
    Keeps P s (s.farmerTakeOutLordOnly2Cards u hand).1 := by
  unfold farmerTakeOutLordOnly2Cards
  simp only []
  split
  · split
    · exact .refl s
    · split
      · split <;> exact .refl s
      · exact keeps_farmerTakeOutLordOnly1Card ..
  · split <;> exact .refl s

/-- A write to the robot's own points is not shown. -/
theorem keeps_ownPoints (points : Points) (hP : P → points = s.aiPoints) :
    Keeps P s { s with
      playerInfo := Function.update s.playerInfo s.aiSeat
        { s.playerInfo s.aiSeat with points := points } } := by
  refine ⟨fun hp => ?_, ?_, rfl⟩
  · have hsame : Function.update s.playerInfo s.aiSeat
        { s.playerInfo s.aiSeat with points := points } = s.playerInfo := by
      rw [hP hp]
      exact Function.update_eq_self s.aiSeat s.playerInfo
    unfold known
    simp only [hsame]
  · unfold shown
    simp [known]

/-- Whether `getBomb` finds a bomb. -/
def HoldsBomb (points : Points) : Prop :=
  (∃ r ≤ card2, points r = 4) ∨ points blackJoker = 1 ∧ points redJoker = 1

/-- `getBomb` leaves the points alone exactly when there is no bomb to take: no
rank with four cards, and not both jokers. -/
theorem getBomb_cards_eq_iff (points : Points) (m : HandsMap) :
    (getBomb ⟨points, m⟩).cards = points ↔ ¬HoldsBomb points := by
  constructor
  · intro h hb
    have hat := fun r => congrFun h r
    simp only [getBomb_cards] at hat
    rcases hb with hfour | hjokers
    · obtain ⟨r, hr, h4⟩ := hfour
      have hr' := hat r
      rw [deNuked_eq hr, if_pos ⟨hr, h4⟩, h4] at hr'
      exact absurd hr' (by decide)
    · have hb := hat blackJoker
      have hzero : deNuked points blackJoker = 0 := if_pos ⟨hjokers, Or.inl rfl⟩
      rw [hzero, hjokers.1] at hb
      exact absurd hb (by decide)
  · intro hb
    obtain ⟨hfour, hjokers⟩ := not_or.mp hb
    funext r
    have hkeep : deNuked points r = points r := if_neg fun h => hjokers h.1
    rw [getBomb_cards]
    show (if r ≤ card2 ∧ deNuked points r = 4 then 0 else deNuked points r) = points r
    rw [hkeep, if_neg fun h => hfour ⟨r, h⟩]

/-- The branch of `downFarmerTakeOutUpFarmerOnly1Card` that works on the
robot's own points. -/
theorem keeps_downFarmerTakeOutUpFarmerOnly1Card
    (hP : P → hasUniLowestSolo s.aiPoints s.otherPoints = true → ¬HoldsBomb s.aiPoints) :
    Keeps P s (s.downFarmerTakeOutUpFarmerOnly1Card u hand).1 := by
  unfold downFarmerTakeOutUpFarmerOnly1Card
  simp only []
  split
  next hlow =>
    have hown := s.keeps_ownPoints (P := P) (getBomb ⟨s.aiPoints, .empty⟩).cards
      fun hp => (getBomb_cards_eq_iff _ _).mpr (hP hp hlow)
    split
    · exact hown
    · split
      · split <;> exact hown
      · exact hown
  next =>
    split
    · exact keeps_farmerTakeOutLordOnly1Card ..
    · split <;> exact .refl s

/-- The guards in front of a farmer's own choice keep what it keeps. -/
theorem keeps_lordFewCards {rest : AI → Hand → AI × Hand}
    (hrest : ∀ s hand, Keeps P s (rest s hand).1) :
    Keeps P s (s.lordFewCards u hand rest).1 := by
  unfold lordFewCards
  simp only []
  split
  · exact keeps_farmerTakeOutLordOnly1Card ..
  · split
    · have h2 := s.keeps_farmerTakeOutLordOnly2Cards (P := P) u hand
      split
      · exact h2
      · exact h2.trans (hrest ..)
    · exact hrest ..

/-- The condition under which a free turn after the lord takes the robot's own
bombs away. -/
structure LeadsToOneCard (s : AI) : Prop where
  one : s.total s.nextSeat = 1
  lowest : hasUniLowestSolo s.aiPoints s.otherPoints = true
  bomb : HoldsBomb s.aiPoints

/-- The guard that leads to the branch that writes. `hP` says that under `P`
the branch is not taken, and then the frame is that of the rest of the turn. -/
theorem keeps_upFarmerOneCard {rest : AI → Hand → AI × Hand}
    (hrest : ∀ s hand, Keeps P s (rest s hand).1) (hP : P → ¬s.LeadsToOneCard) :
    Keeps P s (s.upFarmerOneCard u hand rest).1 := by
  unfold upFarmerOneCard
  simp only []
  split
  next hone =>
    have h1 := s.keeps_downFarmerTakeOutUpFarmerOnly1Card (P := P) u hand
      fun hp hlow hb => hP hp ⟨hone, hlow, hb⟩
    split
    · exact h1
    · exact h1.trans (hrest ..)
  next => exact hrest ..

/-- The bad farmer before the lord never comes to the branch that writes. -/
theorem keeps_upBadFarmerTakeOut : Keeps P s (s.upBadFarmerTakeOut u hand).1 := by
  unfold upBadFarmerTakeOut
  simp only []
  split
  · split
    · exact keeps_farmerTakeOutLordOnly1Card ..
    · split
      · exact .refl s
      · split
        · split <;> exact keeps_farmerTakeOutLordOnly2Cards ..
        · split <;> exact .refl s
  · exact s.keeps_lordFewCards u _ fun s _ => .refl s

/-- A farmer's whole turn. Only the farmer after the lord, on a free turn, can
come to the branch, so the condition asks for no more. -/
theorem keeps_farmerTakeOut
    (hP : P → s.aiPosition = .downFarmer → s.isFree = true → ¬s.LeadsToOneCard) :
    Keeps P s (s.farmerTakeOut u hand).1 := by
  have hfew : ∀ (s : AI) (hand : Hand) (f : AI → Hand → Hand),
      Keeps P s (s.lordFewCards u hand fun s hand => (s, f s hand)).1 :=
    fun s hand _ => s.keeps_lordFewCards u hand fun s _ => .refl s
  have hone : ∀ (hand : Hand) (f : AI → Hand → Hand), s.aiPosition = .downFarmer →
      s.isFree = true → Keeps P s (s.upFarmerOneCard u hand fun s hand =>
        s.lordFewCards u hand fun s hand => (s, f s hand)).1 :=
    fun hand _ hdown hfree => s.keeps_upFarmerOneCard u hand (fun s hand => hfew s hand _)
      fun hp => hP hp hdown hfree
  unfold farmerTakeOut
  split
  · split
    next hdown =>
      unfold downGoodFarmerTakeOut
      split
      next hfree => exact hone _ _ hdown hfree
      next => exact hfew ..
    next =>
      unfold upGoodFarmerTakeOut
      split
      · exact hfew ..
      · exact hfew ..
  · split
    next hdown =>
      unfold downBadFarmerTakeOut
      split
      next hfree => exact hone _ _ hdown hfree
      next => exact hfew ..
    next => exact keeps_upBadFarmerTakeOut ..

/-- The lord's free turn at the high level searches for a charge and keeps a
counter of it. -/
theorem keeps_lordTakeOutFreeLvl : Keeps P s (s.lordTakeOutFreeLvl u hand).1 := by
  have hcharge : ∀ first, Keeps P s (s.findChargeHandFirstLvl u hand first).1 := by
    intro first
    unfold findChargeHandFirstLvl
    simp only []
    split <;> exact .of_known rfl rfl
  unfold lordTakeOutFreeLvl lordTakeOutFreeNormalLvl
  split
  · exact .refl s
  · split
    · exact .refl s
    · split
      · split
        · exact .refl s
        · exact hcharge false
      · exact .refl s

/-! ## The branch that does write -/

/-- With a lone lowest card the robot's own points go through `getBomb`, and it
plays. -/
theorem downFarmerTakeOutUpFarmerOnly1Card_robs
    (hlow : hasUniLowestSolo s.aiPoints s.otherPoints = true) :
    (s.downFarmerTakeOutUpFarmerOnly1Card u hand).1.aiPoints
        = (getBomb ⟨s.aiPoints, .empty⟩).cards
      ∧ (s.downFarmerTakeOutUpFarmerOnly1Card u hand).2.type ≠ .nothing := by
  have hbombs : ∀ h ∈ (getBomb ⟨s.aiPoints, .empty⟩).handMap.vec .bomb, h.type ≠ .nothing := by
    intro h hh
    rw [getBomb_vec] at hh
    rcases List.mem_append.mp hh with hh | hh
    · rcases List.mem_append.mp hh with hh | hh
      · exact absurd hh List.not_mem_nil
      · unfold nukes at hh
        split at hh
        · rw [List.mem_singleton.mp hh]; decide
        · exact absurd hh List.not_mem_nil
    · obtain ⟨i, -, -, rfl⟩ := mem_exacts.mp hh
      exact HandType.noConfusion
  have hown : ∀ (s : AI) (points : Points), ({ s with
      playerInfo := Function.update s.playerInfo s.aiSeat
        { s.playerInfo s.aiSeat with points := points } } : AI).aiPoints = points := by
    intro s points
    simp [aiPoints]
  unfold downFarmerTakeOutUpFarmerOnly1Card
  simp only []
  rw [if_pos hlow]
  split
  · exact ⟨hown .., by simp [Hand.become]⟩
  next back hlast =>
    have hback : back.type ≠ .nothing := hbombs _ (List.mem_of_getLast? hlast)
    split
    · split
      · refine ⟨hown .., hbombs _ ?_⟩
        have hpos := List.length_pos_of_mem (List.mem_of_getLast? hlast)
        rw [vecAt, List.getD_eq_getElem _ _ hpos]
        exact List.getElem_mem hpos
      · exact ⟨hown .., hback⟩
    · exact ⟨hown .., by simp [Hand.become]⟩

end Frames

end AI

end RobotDdz
