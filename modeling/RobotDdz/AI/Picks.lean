import RobotDdz.AI.LevelZero
import RobotDdz.AI.Higher

/-!
# What a strategy picks

The strategies of level 1 and of the levels above it, branch by branch, as far
as the hand is concerned that they return. A branch returns one of these:

* a hand of one or a few cards of a single rank, or the rocket, which it sets up itself;
* a hand of the map, or of the map that `farmerTakeOutLordOnly1Card` makes anew;
* a hand `findBestHigherHandFromPoints` has found above the one on the table;
* a four with the first two solos, which the lord builds in one branch and a farmer in two;
* no hand.

`Allows u s Q` says of a property `Q` that it holds of all these. Every
strategy then returns a hand with the property (`Allows.lordTakeOutHigher`,
`Allows.lordTakeOutFree`, `Allows.lordTakeOutFreeLvl`, `Allows.farmerTakeOut`),
whatever the property is, and the map is one of the two at the end. The lord's
four is kept apart (`LordFour`): its bomb may be the rocket, so it has a
property only where the caller can show it.

`vecAt` past the end of a vector gives whatever lies there. The proofs show
that no strategy returns such a hand; for the lord this needs a map that is not
empty.

`Q` is left open so that the results serve any purpose. The turn contract from
level 1 on instantiates it with what a hand of one rank or a hand of held cards
has (`allows_of_plays`), and never looks into a strategy again.

Mirroring notes vs `OGLordRobotAI.cpp`:
- The source hands a `Hand &` through all strategies and clears it at the start
  of most. Where a strategy does not clear it, its lemma asks for the property
  of the hand that came in; `upGoodFarmerTakeOut` is the one whose callees
  never look at it.
- A search that finds nothing leaves a cleared hand behind, whose type is
  `NOTHING`; `Allows.clear` covers it.
- Two farmer's strategies sort the cards again before they choose, so the map a
  hand comes from may be another one than at the start of the turn
  (`sortLordOnly1Card`). `Picked` keeps track of which.
-/

namespace RobotDdz

open Loops

/-- The types of a few cards of one rank, of the rocket, and of no cards. -/
def HandType.plain : List HandType := [.nothing, .solo, .pair, .trio, .lzBomb, .bomb, .nuke, .lz]

namespace AI

section Found

variable (u : Undef) (s : AI)

/-- The hands the loop of `findBestHigherHandFromPoints` goes through: each is
the next higher one in the points, the first above the hand on the table. -/
inductive Found : Hand → Prop
  | first (h : (s.nextHigher u s.curHand u.hand).type ≠ .nothing) :
      Found (s.nextHigher u s.curHand u.hand)
  | next {found : Hand} (hfound : Found found)
      (h : (s.nextHigher u found found).type ≠ .nothing) : Found (s.nextHigher u found found)

variable {u s}

/-- A run of the loop goes through such hands. -/
theorem HigherRun.found {force : Bool} {now higher : Hand} {acc : List Candidate} {rounds : Nat}
    {found : List Hand} {r : Option Hand × List Candidate}
    (h : s.HigherRun u force now higher acc rounds found r)
    (hstart : (s.nextHigher u now higher).type ≠ .nothing → s.Found u (s.nextHigher u now higher)) :
    ∀ h ∈ found, s.Found u h := by
  induction h with
  | stop => exact fun h hh => absurd hh List.not_mem_nil
  | take hsome =>
    intro h hh
    rw [List.mem_singleton.mp hh]
    exact hstart hsome
  | next hsome _ _ ih =>
    intro h hh
    rcases List.mem_cons.mp hh with rfl | hh
    · exact hstart hsome
    · exact ih (fun hnext => (hstart hsome).next hnext) h hh

/-- A hand chosen among them is one of them. -/
theorem findBestHigherHandFromPoints_found (u : Undef) (s : AI) (hand : Hand)
    (force lordOnly1Card : Bool)
    (hsome : (s.findBestHigherHandFromPoints u hand force lordOnly1Card).type ≠ .nothing) :
    s.Found u (s.findBestHigherHandFromPoints u hand force lordOnly1Card) := by
  obtain ⟨rounds, found, hrun, -⟩ := higherCandidates_run (u := u) (s := s) force cardPointNum
    s.curHand u.hand [] (Nat.le_trans (Nat.succ_le_succ (Nat.sub_le redJoker _)) (by decide))
  exact hrun.found .first _ (hrun.chosen hand lordOnly1Card hsome)

end Found

section Picks

variable (u : Undef) (s : AI)

/-- The turn goes through the branches that beat the hand on the table. -/
def Follows : Prop :=
  if s.aiPosition = .lord then ¬(s.curHandSeat = -1 ∨ s.curHandSeat = s.lordSeat)
  else s.isFree = false

/-- The property holds of everything the strategies choose from, but for the
lord's four. -/
structure Allows (Q : Hand → Prop) : Prop where
  plain : ∀ hand, hand.type ∈ HandType.plain → Q hand
  map : ∀ t, ∀ hand ∈ s.vec t, Q hand
  oneCard : ∀ t, ∀ hand ∈ (s.sortLordOnly1Card u).vec t, Q hand
  found : s.Follows → ∀ hand, s.Found u hand → Q hand
  four : 2 ≤ ((s.sortLordOnly1Card u).vec .solo).length → ∀ hand four,
    (s.sortLordOnly1Card u).fourWithSolos u hand = some four → Q four

/-- The four with two solos that `lordTakeOutFreeFarmerOnly1Card` builds. -/
def lordFour (hand : Hand) : Hand :=
  let hand := findLowestHandNotSoloAndNoControl s.handsMap s.lowestControl hand
  (hand.become .fourDualSolo (vecAt u (s.vec .bomb) 0).keyPoint).setKickers
    [(vecAt u (s.vec .solo) 0).keyPoint, (vecAt u (s.vec .solo) 1).keyPoint]

/-- The tests in front of it. -/
def LordFour (hand : Hand) : Prop :=
  (findLowestHandNotSoloAndNoControl s.handsMap s.lowestControl hand).type = .nothing ∧
    ((s.vec .solo).length = 2 ∨ (s.vec .solo).length = 3) ∧ s.isDanger = true ∧
    0 < (s.vec .bomb).length

/-- What a farmer returns: a hand with the property and one of the two maps.
But for a solo or a bomb, the robot is otherwise as it was: with these a branch
returns that works on its points. -/
structure Picked (Q : Hand → Prop) (r : AI × Hand) : Prop where
  hand : Q r.2
  map : r.1.handsMap = s.handsMap ∨ r.1.handsMap = (s.sortLordOnly1Card u).handsMap
  same : r.2.type ∉ [HandType.solo, .bomb, .nuke] → r.1 = s ∨ r.1 = s.sortLordOnly1Card u

end Picks

/-! ## The searches -/

section Searches

variable {u : Undef} {s : AI} {Q : Hand → Prop}

/-- A hand read within the vector is a hand of the map. -/
theorem vecAt_mem {hands : List Hand} {i : Nat} (hi : i < hands.length) :
    vecAt u hands i ∈ hands := by
  unfold vecAt
  rw [List.getD_eq_getElem _ _ hi]
  exact List.getElem_mem hi

/-- A fold that keeps what it has or takes a hand of the list. -/
theorem foldl_pick {hands : List Hand} {step : Hand → Hand → Hand}
    (hstep : ∀ hand h, step hand h = hand ∨ step hand h = h) (hall : ∀ h ∈ hands, Q h)
    {hand : Hand} (hhand : Q hand) : Q (hands.foldl step hand) := by
  refine List.foldlRecOn (motive := Q) _ _ hhand fun hand hq h hh => ?_
  rcases hstep hand h with heq | heq
  · rw [heq]
    exact hq
  · rw [heq]
    exact hall h hh

/-- The lowest hand that is neither a solo nor a control is a hand of the map,
or there is none. -/
theorem findLowestHandNotSoloAndNoControl_pick (m : HandsMap) (lowestControl : Nat) (hand : Hand)
    (hm : ∀ t, ∀ h ∈ m.vec t, Q h) (hnone : Q hand.clear) :
    Q (findLowestHandNotSoloAndNoControl m lowestControl hand) := by
  refine foldl_pick (fun hand h => ?_) (fun h hh => ?_) hnone
  · unfold lowerHand
    split
    · split
      · exact .inr rfl
      · exact .inl rfl
    · exact .inl rfl
  · obtain ⟨t, -, ht⟩ := List.mem_flatMap.mp hh
    exact hm t h ht

/-- The lower of two hands is one of the two. -/
theorem lowerHand_pick (hand h : Hand) : lowerHand hand h = hand ∨ lowerHand hand h = h := by
  unfold lowerHand
  split
  · exact .inr rfl
  · exact .inl rfl

/-- The lowest hand that is no solo is a hand of the map, or there is none. -/
theorem findLowestHandNotSolo_pick (m : HandsMap) (hand : Hand)
    (hm : ∀ t, ∀ h ∈ m.vec t, Q h) (hnone : Q hand.clear) : Q (findLowestHandNotSolo m hand) := by
  refine foldl_pick lowerHand_pick (fun h hh => ?_) hnone
  obtain ⟨t, -, ht⟩ := List.mem_flatMap.mp hh
  exact hm t h ht

/-- With nothing but solos and bombs in the map the search finds nothing, and
only then. -/
theorem findLowestHandNotSolo_nothing {m : HandsMap} {hand : Hand}
    (hsome : ∀ t, ∀ h ∈ m.vec t, h.type ≠ .nothing)
    (hnone : (findLowestHandNotSolo m hand).type = .nothing) {t : HandType}
    (ht : t ∈ notSoloTypes) : m.vec t = [] := by
  have hall : ∀ h ∈ notSoloTypes.flatMap m.vec, h.type ≠ .nothing := by
    intro h hh
    obtain ⟨t, -, ht⟩ := List.mem_flatMap.mp hh
    exact hsome t h ht
  have hempty : notSoloTypes.flatMap m.vec = [] := by
    unfold findLowestHandNotSolo at hnone
    cases hl : notSoloTypes.flatMap m.vec with
    | nil => rfl
    | cons h hands =>
      rw [hl] at hall hnone
      have hfirst : lowerHand hand.clear h = h := if_pos (.inl rfl)
      rw [List.foldl_cons, hfirst] at hnone
      exact absurd hnone (foldl_pick (Q := fun h => h.type ≠ .nothing) lowerHand_pick
        (fun h hh => hall h (List.mem_cons_of_mem _ hh)) (hall h List.mem_cons_self))
  exact List.flatMap_eq_nil_iff.mp hempty t ht

/-- The hand with the most cards is a hand of the map, or there is none. -/
theorem findMostCardsHand_pick (m : HandsMap) (hand : Hand)
    (hm : ∀ t, ∀ h ∈ m.vec t, Q h) (hnone : Q hand.clear) : Q (findMostCardsHand m hand) := by
  refine foldl_pick (fun hand h => ?_) (fun h hh => ?_) hnone
  · split
    · exact .inr rfl
    · exact .inl rfl
  · obtain ⟨t, ht⟩ := HandsMap.mem_hands.mp hh
    exact hm t h ht

variable (h : s.Allows u Q)

include h

/-- No hand: the search found nothing. -/
theorem Allows.clear (hand : Hand) : Q hand.clear :=
  h.plain _ (show HandType.nothing ∈ HandType.plain by decide)

/-- A hand of one rank that a branch sets up itself. -/
theorem Allows.become {t : HandType} (ht : t ∈ HandType.plain) (hand : Hand) (keyPoint : Nat) :
    Q (hand.become t keyPoint) := h.plain _ ht

/-- A hand read from a vector of the map. The bound is asked for: past the end
the source reads whatever lies there. -/
theorem Allows.vecAt {t : HandType} {i : Nat} (hi : i < (s.vec t).length) :
    Q (vecAt u (s.vec t) i) := h.map t _ (vecAt_mem hi)

/-- The lowest hand of the map, for a free turn. -/
theorem Allows.findLowestHand (hand : Hand) : Q (s.findLowestHand hand) := by
  refine List.foldlRecOn (motive := Q) _ _ (h.clear hand) fun hand hq t _ => ?_
  cases hv : s.handsMap.vec t with
  | nil => exact hq
  | cons front hands =>
    rcases lowestFront_cons hand front hands with heq | heq
    · rw [heq]
      exact h.map t front (by rw [vec, hv]; exact List.mem_cons_self)
    · rw [heq]
      exact hq

/-- The hand with the most cards that is no bomb. -/
theorem Allows.findMostCardsHandNotBomb (hand : Hand) : Q (s.findMostCardsHandNotBomb hand) := by
  refine List.foldlRecOn (motive := Q) _ _ (h.clear hand) fun hand hq t _ => ?_
  cases hv : s.handsMap.vec t with
  | nil => exact hq
  | cons front hands =>
    have hfront := h.map t front (by rw [vec, hv]; exact List.mem_cons_self)
    simp only [mostCardsFront]
    split
    · exact hfront
    · split
      · exact hfront
      · exact hq

/-- A hand of the map above the one on the table, bombs left aside. -/
theorem Allows.findHigherHandNotBomb (hand : Hand) : Q (s.findHigherHandNotBomb hand) := by
  unfold AI.findHigherHandNotBomb
  cases hfind : (s.handsMap.vec s.curHand.type).find? s.beatsCurHand with
  | none => exact h.clear hand
  | some found => exact h.map _ found (List.mem_of_find?_eq_some hfind)

/-- One hand of the loop of `findChargeHandFirst` stays or gives way to
another. -/
theorem Allows.chargeStep (typeCountFirst : Bool) (t : HandType) {x : Hand × Bool} (hx : Q x.1)
    {hand : Hand} (hh : hand ∈ s.vec t) : Q (s.chargeStep u typeCountFirst t x hand).1 := by
  have hhand := h.map t hand hh
  obtain ⟨old, isCharge⟩ := x
  unfold AI.chargeStep
  simp only []
  split
  · exact hhand
  split
  · exact hx
  split
  · split
    · split
      · split
        · exact hhand
        · exact hx
      · split
        · exact hhand
        · exact hx
    · exact hx
  split
  · exact hhand
  split
  · exact hhand
  · exact hx

/-- The charge first, or the lowest hand: in either case a hand of the map or
none. The induction is over the hands that the loop goes through,
`Allows.chargeStep` being its step. -/
theorem Allows.findChargeHandFirst (hand : Hand) (typeCountFirst : Bool) :
    Q (s.findChargeHandFirst u hand typeCountFirst) := by
  refine List.foldlRecOn (motive := fun x : Hand × Bool => Q x.1) _ _ (h.clear hand)
    fun x hx t _ => ?_
  exact List.foldlRecOn (motive := fun x : Hand × Bool => Q x.1) _ _ hx
    fun x hx hand hh => h.chargeStep typeCountFirst t hx hh

/-- The best hand of the map above the one on the table. -/
theorem Allows.findBestHigherHandFromMap (hand : Hand) :
    Q (s.findBestHigherHandFromMap u hand) := by
  unfold AI.findBestHigherHandFromMap
  cases hfind : (s.vec s.curHand.type).find? fun hand => isHandHigherThan hand s.curHand with
  | none => exact h.clear hand
  | some higher =>
    have hhigher := h.map _ higher (List.mem_of_find?_eq_some hfind)
    dsimp only
    split
    · exact hhigher
    · split
      · exact hhigher
      · exact h.clear hand

/-- The best hand of the robot's points above the one on the table. This is the
only search that builds a hand the map does not have, and it is made where the
turn follows. -/
theorem Allows.findBestHigherHandFromPoints (hf : s.Follows) (hand : Hand)
    (force lordOnly1Card : Bool) :
    Q (s.findBestHigherHandFromPoints u hand force lordOnly1Card) := by
  by_cases hnone : (s.findBestHigherHandFromPoints u hand force lordOnly1Card).type = .nothing
  · exact h.plain _ (by rw [hnone]; decide)
  · exact h.found hf _ (findBestHigherHandFromPoints_found u s hand force lordOnly1Card hnone)

end Searches

/-! ## The lord -/

section Lord

variable {u : Undef} {s : AI} {Q : Hand → Prop} (h : s.Allows u Q)

include h

variable (hf : s.Follows)

include hf

theorem Allows.lordTakeOutHigherRebuild (hand : Hand) : Q (s.lordTakeOutHigherRebuild u hand) :=
  h.findBestHigherHandFromPoints hf _ _ _

theorem Allows.lordTakeOutHigherNormal (hand : Hand) : Q (s.lordTakeOutHigherNormal u hand) := by
  unfold AI.lordTakeOutHigherNormal
  dsimp only
  split
  · exact h.findBestHigherHandFromMap _
  split
  next hbomb => exact h.vecAt hbomb.1
  next => exact h.lordTakeOutHigherRebuild hf _

theorem Allows.lordTakeOutHigherFarmerOnly1Card (hand : Hand) :
    Q (s.lordTakeOutHigherFarmerOnly1Card u hand) := by
  unfold AI.lordTakeOutHigherFarmerOnly1Card
  dsimp only
  split
  · split
    next found hfind =>
      exact h.map .solo found (List.mem_of_mem_tail (List.mem_of_find?_eq_some hfind))
    next =>
      split
      next hone => exact h.vecAt (by omega)
      split
      next hbomb => exact h.vecAt hbomb.1
      split
      · exact h.become (by decide) _ _
      · exact h.clear hand
  · exact h.lordTakeOutHigherNormal hf _

theorem Allows.lordTakeOutHigherFarmerOnly2Cards (hand : Hand) :
    Q (s.lordTakeOutHigherFarmerOnly2Cards u hand) := by
  unfold AI.lordTakeOutHigherFarmerOnly2Cards
  dsimp only
  split
  · split
    · split
      next found hfind =>
        exact h.map .pair found (List.mem_reverse.mp (List.mem_of_find?_eq_some hfind))
      next => exact h.lordTakeOutHigherRebuild hf _
    · exact h.lordTakeOutHigherNormal hf _
  · exact h.clear hand

/-- The lord over a farmer's hand, by the number of cards the farmers have
left. `Follows` is met: a lord who is not free has a hand to beat. -/
theorem Allows.lordTakeOutHigher (hand : Hand) : Q (s.lordTakeOutHigher u hand) := by
  unfold AI.lordTakeOutHigher
  split
  · exact h.lordTakeOutHigherFarmerOnly1Card hf hand
  split
  · exact h.lordTakeOutHigherFarmerOnly2Cards hf hand
  · exact h.lordTakeOutHigherNormal hf hand

omit hf

variable (hfour : ∀ hand, s.LordFour hand → Q (s.lordFour u hand))
  (hsome : ∀ t, ∀ hand ∈ s.vec t, hand.type ≠ .nothing) (hmap : ∃ t, s.vec t ≠ [])

include hfour hsome hmap

/-- The end of the branch has a solo or a bomb to take: there is nothing else
in the map. -/
theorem Allows.lordTakeOutFreeFarmerOnly1Card (hand : Hand) :
    Q (s.lordTakeOutFreeFarmerOnly1Card u hand) := by
  have hlow := findLowestHandNotSoloAndNoControl_pick s.handsMap s.lowestControl hand h.map
    (h.clear hand)
  unfold AI.lordTakeOutFreeFarmerOnly1Card
  dsimp only
  split
  · exact hlow
  next hnone =>
    split
    next hguard => exact hfour hand ⟨not_not.mp hnone, hguard.1, hguard.2.1, hguard.2.2⟩
    split
    next htwo => exact h.vecAt htwo
    next htwo =>
      split
      · exact findLowestHandNotSolo_pick _ _ h.map (h.clear _)
      next hnone' =>
        have hother : ∀ t ∈ notSoloTypes, s.vec t = [] := fun t ht =>
          findLowestHandNotSolo_nothing hsome (not_not.mp hnone') ht
        have hrest : (s.vec .bomb).length = 0 → 0 < (s.vec .solo).length := by
          intro hbomb
          obtain ⟨t, ht⟩ := hmap
          by_contra hsolo
          refine ht ?_
          by_cases htb : t = .bomb
          · rw [htb]
            exact List.eq_nil_of_length_eq_zero hbomb
          by_cases hts : t = .solo
          · rw [hts]
            exact List.eq_nil_of_length_eq_zero (Nat.eq_zero_of_not_pos hsolo)
          exact hother t (List.mem_filter.mpr ⟨HandType.mem_all t, by simp [htb, hts]⟩)
        split
        next hsolo =>
          refine h.vecAt ?_
          rcases hsolo with hbomb | hone
          · exact hrest hbomb
          · omega
        next hsolo => exact h.vecAt (Nat.pos_of_ne_zero fun hbomb => hsolo (.inl hbomb))

omit hfour hsome hmap

/-- The lord's free turn while both farmers have many cards. -/
theorem Allows.lordTakeOutFreeNormal (hand : Hand) : Q (s.lordTakeOutFreeNormal u hand) := by
  unfold AI.lordTakeOutFreeNormal
  dsimp only
  split
  · split
    next hbomb => exact h.vecAt hbomb.1
    next => exact h.findChargeHandFirst _ _
  · exact h.findLowestHand _

include hfour hsome hmap

/-- The lord's free turn when a farmer has two cards: a low solo, half of a
pair, or one of the other two free turns. -/
theorem Allows.lordTakeOutFreeFarmerOnly2Cards (hand : Hand) :
    Q (s.lordTakeOutFreeFarmerOnly2Cards u hand) := by
  unfold AI.lordTakeOutFreeFarmerOnly2Cards
  dsimp only
  split
  · split
    next found hfind =>
      exact h.map .solo found (List.mem_reverse.mp (List.mem_of_find?_eq_some hfind))
    next =>
      split
      · exact h.become (by decide) _ _
      · exact h.lordTakeOutFreeNormal _
  · exact h.lordTakeOutFreeFarmerOnly1Card hfour hsome hmap _

/-- The lord's free turn as a whole. -/
theorem Allows.lordTakeOutFree (hand : Hand) : Q (s.lordTakeOutFree u hand) := by
  unfold AI.lordTakeOutFree
  split
  · exact h.lordTakeOutFreeFarmerOnly1Card hfour hsome hmap _
  split
  · exact h.lordTakeOutFreeFarmerOnly2Cards hfour hsome hmap _
  · exact h.lordTakeOutFreeNormal _

omit hfour hsome hmap

omit h in
/-- The search of the high level stores a counter and leaves the map as it is. -/
theorem findChargeHandFirstLvl_map (u : Undef) (s : AI) (hand : Hand) (typeCountFirst : Bool) :
    (s.findChargeHandFirstLvl u hand typeCountFirst).1.handsMap = s.handsMap := by
  unfold AI.findChargeHandFirstLvl
  dsimp only
  split <;> rfl

/-- The lord of the high level looks for a charging hand with its counters
first. -/
theorem Allows.findChargeHandFirstLvl (hand : Hand) (typeCountFirst : Bool) :
    Q (s.findChargeHandFirstLvl u hand typeCountFirst).2 := by
  unfold AI.findChargeHandFirstLvl
  dsimp only
  generalize s.searchMap.bind (fun counts => s.chargeType counts typeCountFirst) = found
  have hmem : ∀ t hand, s.chargeOfType t = some hand → hand ∈ s.vec t := by
    intro t hand hc
    unfold chargeOfType at hc
    dsimp only at hc
    split at hc
    · exact List.mem_of_find?_eq_some hc
    · exact List.mem_of_head? hc
  split
  next hand' hfound =>
    obtain ⟨t, -, hc⟩ := Option.bind_eq_some_iff.mp hfound
    dsimp only
    split
    · exact h.findChargeHandFirst _ _
    · exact h.map t hand' (hmem t hand' hc)
  next => exact h.findChargeHandFirst _ _

include hfour hsome hmap

/-- The lord's free turn at the high level returns a hand with the property and
leaves the map as it is. -/
theorem Allows.lordTakeOutFreeLvl (hand : Hand) : Q (s.lordTakeOutFreeLvl u hand).2 ∧
    (s.lordTakeOutFreeLvl u hand).1.handsMap = s.handsMap := by
  unfold AI.lordTakeOutFreeLvl
  split
  · exact ⟨h.lordTakeOutFreeFarmerOnly1Card hfour hsome hmap _, rfl⟩
  split
  · refine ⟨?_, rfl⟩
    show Q (s.lordTakeOutFreeFarmerOnly2CardsLvl u hand)
    unfold AI.lordTakeOutFreeFarmerOnly2CardsLvl
    dsimp only
    split
    · exact h.lordTakeOutFreeFarmerOnly2Cards hfour hsome hmap _
    · exact h.lordTakeOutFreeFarmerOnly1Card hfour hsome hmap _
  · unfold AI.lordTakeOutFreeNormalLvl
    split
    · split
      next hbomb => exact ⟨h.vecAt hbomb.1, rfl⟩
      next => exact ⟨h.findChargeHandFirstLvl _ _, findChargeHandFirstLvl_map u s hand false⟩
    · exact ⟨h.findLowestHand _, rfl⟩

end Lord

/-! ## The farmers -/

section Farmers

variable {u : Undef} {s : AI} {Q : Hand → Prop}

/-- Sorting the cards writes the map and the summary. -/
theorem sortLordOnly1Card_eq (u : Undef) (s : AI) : ∃ m summary,
    s.sortLordOnly1Card u = { s with handsMap := m, summary := summary } ∧
      ∀ s' : AI, s'.aiPoints = s.aiPoints → s'.lowestControl = s.lowestControl →
        s'.maxOppNumber = s.maxOppNumber → s'.otherPoints = s.otherPoints →
        s'.sortLordOnly1Card u = { s' with handsMap := m, summary := summary } := by
  refine ⟨_, _, rfl, fun s' hpoints hlow hopp hother => ?_⟩
  unfold sortLordOnly1Card
  rw [hpoints, hlow, hopp, hother]

/-- Sorting for a lord with one card keeps all that the robot knows. -/
theorem keeps_sorted (u : Undef) (s : AI) : Keeps True s (s.sortLordOnly1Card u) := by
  unfold sortLordOnly1Card
  exact keeps_withMap ..

/-- It looks only at what it leaves as it is. -/
theorem sortLordOnly1Card_again (u : Undef) (s : AI) :
    (s.sortLordOnly1Card u).sortLordOnly1Card u = s.sortLordOnly1Card u := by
  obtain ⟨m, summary, heq, hagain⟩ := sortLordOnly1Card_eq u s
  rw [heq]
  exact hagain _ rfl rfl rfl rfl

/-- The map and the summary play no part in the search above the hand on the
table. -/
theorem Found.sorted {hand : Hand} (hfound : (s.sortLordOnly1Card u).Found u hand) :
    s.Found u hand := by
  obtain ⟨m, summary, heq, -⟩ := sortLordOnly1Card_eq u s
  rw [heq] at hfound
  have hnext : nextHigher u { s with handsMap := m, summary := summary } = s.nextHigher u := rfl
  induction hfound with
  | first hsome =>
    rw [hnext] at hsome ⊢
    exact .first hsome
  | next _ hsome ih =>
    rw [hnext] at hsome ⊢
    exact .next ih hsome

variable (h : s.Allows u Q)

include h

/-- A robot that has its cards sorted for a lord with one card. -/
theorem Allows.sorted : (s.sortLordOnly1Card u).Allows u Q := by
  have hagain := sortLordOnly1Card_again u s
  obtain ⟨m, summary, heq, -⟩ := sortLordOnly1Card_eq u s
  have hfollows : (s.sortLordOnly1Card u).Follows ↔ s.Follows := by
    rw [heq]
    exact Iff.rfl
  refine ⟨h.plain, h.oneCard, ?_, fun hf hand hfound => ?_, ?_⟩
  · rw [hagain]
    exact h.oneCard
  · exact h.found (hfollows.mp hf) hand hfound.sorted
  · rw [hagain]
    exact h.four

/-- A farmer that must stop the lord's last card: the map first, then the
points. -/
theorem Allows.farmerMustTakeOutLordOnly1Card (hf : s.Follows) (hand : Hand) :
    Q (s.farmerMustTakeOutLordOnly1Card u hand) := by
  unfold AI.farmerMustTakeOutLordOnly1Card
  dsimp only
  split
  · exact h.findBestHigherHandFromPoints hf _ _ _
  · exact h.findHigherHandNotBomb _

/-- A farmer that must stop a charge of the lord. -/
theorem Allows.farmerMustTakeOutLordCharge (hf : s.Follows) (hand : Hand) :
    Q (s.farmerMustTakeOutLordCharge u hand) := by
  unfold AI.farmerMustTakeOutLordCharge
  dsimp only
  split
  · exact h.findHigherHandNotBomb _
  · split
    · exact h.findHigherHandNotBomb _
    · exact h.findBestHigherHandFromPoints hf _ _ _

/-- The good farmer over the other farmer's hand: he may pass, take a hand of
the map or look through the points. -/
theorem Allows.goodFarmerOverOtherFarmer (hf : s.Follows) (hand : Hand) :
    Q (s.goodFarmerOverOtherFarmer u hand) := by
  unfold AI.goodFarmerOverOtherFarmer
  dsimp only
  generalize (if s.aiPosition = .downFarmer then s.nextSeat else s.prevSeat) = seat
  split
  · exact h.findHigherHandNotBomb _
  split
  · exact h.clear hand
  split
  · exact h.findHigherHandNotBomb _
  · exact h.findBestHigherHandFromPoints hf _ _ _

/-- What is played on a high solo of the lord: a joker, or nothing. -/
theorem Allows.farmerTakeOutWhenLordTakeOutHighSolo (hand : Hand) :
    Q (s.farmerTakeOutWhenLordTakeOutHighSolo hand) := by
  unfold AI.farmerTakeOutWhenLordTakeOutHighSolo
  dsimp only
  split
  · split
    · exact h.become (by decide) _ _
    · split
      · exact h.become (by decide) _ _
      · exact h.clear hand
  · split
    · exact h.become (by decide) _ _
    · exact h.clear hand

/-- A solo chosen among the own points, or the hand that came in. -/
theorem Allows.bestHighestSolo {hand : Hand} (hhand : Q hand) : Q (s.bestHighestSolo u hand) := by
  unfold AI.bestHighestSolo
  dsimp only
  split
  · exact hhand
  · exact h.become (by decide) _ _

variable (hfour : 2 ≤ (s.vec .solo).length → ∀ hand four,
  s.fourWithSolos u hand = some four → Q four)

include hfour

/-- The free turn of the farmer before the lord, while the lord has one card. -/
theorem Allows.upFarmerFreeLordOnly1Card {hand : Hand} (hhand : Q hand) :
    Q (s.upFarmerFreeLordOnly1Card u hand) := by
  unfold AI.upFarmerFreeLordOnly1Card
  dsimp only
  split
  · exact findMostCardsHand_pick _ _ h.map (h.clear hand)
  split
  · exact h.become (by decide) _ _
  split
  next four heq =>
    split at heq
    next hguard => exact hfour (by omega) hand four heq
    next => exact absurd heq (by simp)
  next =>
    split
    · exact h.become (by decide) _ _
    · exact hhand

/-- The free turn of the farmer after the lord, while the lord has one card. It
ends in reads of the map that need a hand to be there, which the tests in front
of them show. -/
theorem Allows.downFarmerFreeLordOnly1Card {hand : Hand} (hhand : Q hand) :
    Q (s.downFarmerFreeLordOnly1Card u hand) := by
  unfold AI.downFarmerFreeLordOnly1Card
  dsimp only
  split
  · exact findMostCardsHand_pick _ _ h.map (h.clear hand)
  split
  · exact h.become (by decide) _ _
  split
  next htwo => exact h.vecAt (by omega)
  split
  next pair heq =>
    have hhead := (Option.filter_eq_some_iff.mp heq).1
    exact h.map .pair pair (List.mem_of_head? hhead)
  next =>
    split
    next four heq =>
      split at heq
      next hguard =>
        refine hfour ?_ hand four heq
        have hle := (List.takeWhile_sublist (l := s.vec .solo)
          fun hand => !isHighestSolo hand.keyPoint s.otherPoints).length_le
        omega
      next => exact absurd heq (by simp)
    next =>
      split
      next hsolo => exact h.vecAt (by omega)
      next => exact hhand

omit hfour

/-- A farmer over a hand while the lord has one card: the highest solo, a play
it must make, or a higher hand of the map that is no bomb, each of which is
allowed. -/
theorem Allows.farmerFollowLordOnly1Card (hf : s.Follows) {hand : Hand} (hhand : Q hand) :
    Q (s.farmerFollowLordOnly1Card u hand) := by
  have hsolo := h.bestHighestSolo hhand
  unfold AI.farmerFollowLordOnly1Card
  dsimp only
  split
  · split
    · split
      next hbomb => exact h.vecAt hbomb.1
      split
      · exact h.findHigherHandNotBomb _
      split
      next hbomb => exact h.vecAt hbomb
      · exact hsolo
    · exact h.farmerMustTakeOutLordOnly1Card hf _
  split
  · split
    · split
      · exact h.findHigherHandNotBomb _
      · exact h.clear hand
    · split
      next hbomb => exact h.vecAt hbomb.1
      next => exact hsolo
  · exact h.findHigherHandNotBomb _

omit h in
/-- A hand with the property and one of the two robots make a pick. -/
theorem picked_of_state {r : AI × Hand} (hhand : Q r.2)
    (hs : r.1 = s ∨ r.1 = s.sortLordOnly1Card u) : s.Picked u Q r :=
  ⟨hhand, hs.imp (congrArg AI.handsMap) (congrArg AI.handsMap), fun _ => hs⟩

omit h in
/-- What is picked after the cards were sorted anew is picked. -/
theorem Picked.of_sorted {s' : AI} {r : AI × Hand} (hp : s'.Picked u Q r)
    (hs : s' = s ∨ s' = s.sortLordOnly1Card u) : s.Picked u Q r := by
  rcases hs with rfl | rfl
  · exact hp
  · obtain ⟨hhand, hmap, hsame⟩ := hp
    rw [sortLordOnly1Card_again] at hmap hsame
    exact ⟨hhand, .inr (hmap.elim id id), fun ht => .inr ((hsame ht).elim id id)⟩

/-- The sorted robot chooses from hands with the property too. -/
theorem Allows.of_sorted {s' : AI} (hs : s' = s ∨ s' = s.sortLordOnly1Card u) :
    s'.Allows u Q := by
  rcases hs with rfl | rfl
  · exact h
  · exact h.sorted

/-! ### A lord with one card or two -/

variable (hpos : s.aiPosition ≠ .lord)

include hpos

omit h in
/-- A farmer whose turn is not free follows. -/
theorem follows_of_farmer (hfree : ¬s.isFree = true) : s.Follows := by
  unfold Follows
  rw [if_neg hpos]
  exact Bool.eq_false_iff.mpr hfree

/-- A farmer's turn while the lord has one card: the cards are sorted anew, and
the hand comes from the new map. -/
theorem Allows.farmerTakeOutLordOnly1Card (hand : Hand) :
    Q (s.farmerTakeOutLordOnly1Card u hand).2 ∧
      (s.farmerTakeOutLordOnly1Card u hand).1 = s.sortLordOnly1Card u := by
  refine ⟨?_, rfl⟩
  have h' := h.sorted
  have hpos' : (s.sortLordOnly1Card u).aiPosition ≠ .lord := by
    rw [(keeps_sorted u s).aiPosition]
    exact hpos
  have hfour := h'.four
  rw [sortLordOnly1Card_again] at hfour
  unfold AI.farmerTakeOutLordOnly1Card
  dsimp only
  generalize s.sortLordOnly1Card u = s' at h' hpos' hfour ⊢
  split
  · split
    · exact h'.upFarmerFreeLordOnly1Card hfour (h.clear hand)
    · exact h'.downFarmerFreeLordOnly1Card hfour (h.clear hand)
  next hfree =>
    exact h'.farmerFollowLordOnly1Card (follows_of_farmer hpos' hfree) (h.clear hand)

/-- A farmer's turn while the lord has two cards: on the map as it was, or by
the strategy for one card. -/
theorem Allows.farmerTakeOutLordOnly2Cards (hand : Hand) :
    Q (s.farmerTakeOutLordOnly2Cards u hand).2 ∧
      ((s.farmerTakeOutLordOnly2Cards u hand).1 = s ∨
        (s.farmerTakeOutLordOnly2Cards u hand).1 = s.sortLordOnly1Card u) := by
  unfold AI.farmerTakeOutLordOnly2Cards
  dsimp only
  split
  · split
    · exact ⟨h.clear hand, .inl rfl⟩
    split
    · split
      · exact ⟨h.become (by decide) _ _, .inl rfl⟩
      · refine ⟨?_, .inl rfl⟩
        dsimp only
        cases hfind : (s.vec .solo).reverse.find? fun solo =>
            solo.keyPoint ≤ getHighestPoint s.otherPoints with
        | none => exact h.clear hand
        | some solo =>
          exact h.map .solo solo (List.mem_reverse.mp (List.mem_of_find?_eq_some hfind))
    · have hone := h.farmerTakeOutLordOnly1Card hpos hand.clear
      exact ⟨hone.1, .inr hone.2⟩
  next hfree =>
    split
    next pair hfind =>
      split at hfind
      · exact ⟨h.map .pair pair (List.mem_of_find?_eq_some hfind), .inl rfl⟩
      · exact absurd hfind (by simp)
    next =>
      exact ⟨h.farmerMustTakeOutLordCharge (follows_of_farmer hpos hfree) _, .inl rfl⟩

/-- A lord with few cards is dealt with, or the rest of the function goes on
with the hand as it came, of which it may need less, or with one that has been
looked for. -/
theorem Allows.lordFewCards {R : Hand → Prop} (hR : ∀ hand, Q hand → R hand) {hand : Hand}
    (hhand : R hand) {rest : AI → Hand → AI × Hand}
    (hrest : ∀ s' hand, s' = s ∨ s' = s.sortLordOnly1Card u → s'.Allows u Q → R hand →
      s'.Picked u Q (rest s' hand)) : s.Picked u Q (s.lordFewCards u hand rest) := by
  have hgo : ∀ s' hand, s' = s ∨ s' = s.sortLordOnly1Card u → R hand →
      s.Picked u Q (rest s' hand) :=
    fun s' hand hs hq => (hrest s' hand hs (h.of_sorted hs) hq).of_sorted hs
  unfold AI.lordFewCards
  split
  · have hone := h.farmerTakeOutLordOnly1Card hpos hand
    exact picked_of_state hone.1 (.inr hone.2)
  split
  · have htwo := h.farmerTakeOutLordOnly2Cards hpos hand
    dsimp only
    split
    · exact picked_of_state htwo.1 htwo.2
    · exact hgo _ _ htwo.2 (hR _ htwo.1)
  · exact hgo s hand (.inl rfl) hhand

/-! ### The other farmer with one card -/

omit h hpos in
/-- The bombs of a split by `getBomb` are bombs and the rocket. -/
theorem getBomb_plain (points : Points) {bomb : Hand}
    (hb : bomb ∈ (getBomb ⟨points, .empty⟩).handMap.vec .bomb) :
    bomb.type = .nuke ∨ bomb.type = .bomb := by
  rw [getBomb_vec] at hb
  rcases List.mem_append.mp hb with hb | hb
  · rcases List.mem_append.mp hb with hb | hb
    · exact absurd hb List.not_mem_nil
    · unfold nukes at hb
      split at hb
      · rw [List.mem_singleton.mp hb]
        exact .inl rfl
      · exact absurd hb List.not_mem_nil
  · obtain ⟨r, -, -, rfl⟩ := mem_exacts.mp hb
    exact .inr rfl

/-- The farmer after the lord lets the other one finish. It sets up a card of
its own, also from points that `getBomb` has been through; if it finds nothing,
it has left the robot in one of the two states. -/
theorem Allows.downFarmerTakeOutUpFarmerOnly1Card (hand : Hand) :
    s.Picked u Q (s.downFarmerTakeOutUpFarmerOnly1Card u hand) ∧
      ((s.downFarmerTakeOutUpFarmerOnly1Card u hand).2.type = .nothing →
        (s.downFarmerTakeOutUpFarmerOnly1Card u hand).1 = s ∨
          (s.downFarmerTakeOutUpFarmerOnly1Card u hand).1 = s.sortLordOnly1Card u) := by
  have hsolo : ∀ keyPoint, Q (hand.clear.become .solo keyPoint) := h.become (by decide) _
  have hin : HandType.solo ∈ [HandType.solo, .bomb, .nuke] := by decide
  unfold AI.downFarmerTakeOutUpFarmerOnly1Card
  dsimp only
  split
  · have hbomb : ∀ bomb, bomb ∈ (getBomb ⟨s.aiPoints, .empty⟩).handMap.vec .bomb →
        Q bomb ∧ bomb.type ≠ .nothing ∧ bomb.type ∈ [HandType.solo, .bomb, .nuke] := by
      intro bomb hb
      rcases getBomb_plain s.aiPoints hb with ht | ht
      · exact ⟨h.plain _ (by rw [ht]; decide), by rw [ht]; decide⟩
      · exact ⟨h.plain _ (by rw [ht]; decide), by rw [ht]; decide⟩
    split
    · exact ⟨⟨hsolo _, .inl rfl, fun hno => absurd hin hno⟩,
        fun hnone => HandType.noConfusion hnone⟩
    next back hlast =>
      have hback := hbomb back (List.mem_of_getLast? hlast)
      split
      · split
        · have hfront := hbomb _ (vecAt_mem (u := u) (i := 0)
            (List.length_pos_of_mem (List.mem_of_getLast? hlast)))
          exact ⟨⟨hfront.1, .inl rfl, fun hno => absurd hfront.2.2 hno⟩,
            fun hnone => absurd hnone hfront.2.1⟩
        · exact ⟨⟨hback.1, .inl rfl, fun hno => absurd hback.2.2 hno⟩,
            fun hnone => absurd hnone hback.2.1⟩
      · exact ⟨⟨hsolo _, .inl rfl, fun hno => absurd hin hno⟩,
          fun hnone => HandType.noConfusion hnone⟩
  split
  · have hone := h.farmerTakeOutLordOnly1Card hpos hand.clear
    exact ⟨picked_of_state hone.1 (.inr hone.2), fun _ => .inr hone.2⟩
  split
  · exact ⟨⟨hsolo _, .inl rfl, fun hno => absurd hin hno⟩,
      fun hnone => HandType.noConfusion hnone⟩
  · exact ⟨picked_of_state (h.clear hand) (.inl rfl), fun _ => .inl rfl⟩

/-- The guard on the other farmer's last card. What follows the guard may start
from either state, so the rest of the turn is asked about both. -/
theorem Allows.upFarmerOneCard {hand : Hand} (hhand : Q hand) {rest : AI → Hand → AI × Hand}
    (hrest : ∀ s' hand, s' = s ∨ s' = s.sortLordOnly1Card u → s'.Allows u Q → Q hand →
      s'.Picked u Q (rest s' hand)) : s.Picked u Q (s.upFarmerOneCard u hand rest) := by
  unfold AI.upFarmerOneCard
  split
  · have hone := h.downFarmerTakeOutUpFarmerOnly1Card hpos hand
    dsimp only
    split
    · exact hone.1
    next hnone =>
      have hs := hone.2 (not_not.mp hnone)
      exact (hrest _ _ hs (h.of_sorted hs) hone.1.hand).of_sorted hs
  · exact hrest s hand (.inl rfl) h hhand

/-! ### The farmers' own choice -/

omit hpos

/-- The good farmer after the lord, close to the end: the charge first. -/
theorem Allows.downGoodFarmerCharge (hand : Hand) : Q (s.downGoodFarmerCharge u hand) := by
  have hcharge := h.findChargeHandFirst hand true
  have hlow := h.findLowestHand (s.findChargeHandFirst u hand true)
  unfold AI.downGoodFarmerCharge
  dsimp only
  generalize s.findChargeHandFirst u hand true = found at hcharge hlow ⊢
  -- whatever the tests say, it is the charging hand or the lowest one
  repeat' split
  all_goals first
    | exact hcharge
    | exact hlow

/-- The free turn of the good farmer after the lord. -/
theorem Allows.downGoodFarmerFree {hand : Hand} (hhand : Q hand) :
    Q (s.downGoodFarmerFree u hand) := by
  unfold AI.downGoodFarmerFree
  dsimp only
  split
  · split
    next t hfind =>
      have hsome := List.find?_some hfind
      rw [Bool.and_eq_true, decide_eq_true_iff] at hsome
      exact h.vecAt hsome.1
    next => exact hhand
  split
  · exact h.downGoodFarmerCharge _
  · exact h.findLowestHand _

/-- What both farmers after the lord try on a solo of his. -/
theorem Allows.highSolo {hand : Hand} (hhand : Q hand) (high : Bool) :
    Q (if high = true then s.farmerTakeOutWhenLordTakeOutHighSolo hand else hand) := by
  split
  · exact h.farmerTakeOutWhenLordTakeOutHighSolo hand
  · exact hhand

/-- The good farmer after the lord, over a hand. Its branches call strategies
that are allowed by themselves; a pick made before one of them is handed on. -/
theorem Allows.downGoodFarmerFollow (hf : s.Follows) {hand : Hand} (hhand : Q hand) :
    Q (s.downGoodFarmerFollow u hand) := by
  unfold AI.downGoodFarmerFollow
  dsimp only
  split
  · exact h.goodFarmerOverOtherFarmer hf _
  split
  · exact h.farmerMustTakeOutLordCharge hf _
  generalize (decide (s.curHand.type = HandType.solo)
    && (decide (s.curHand.keyPoint = card2) || decide (s.curHand.keyPoint = blackJoker))) = high
  have htried := h.highSolo hhand high
  generalize (if high = true then s.farmerTakeOutWhenLordTakeOutHighSolo hand else hand) = tried
    at htried ⊢
  split
  · exact htried
  split
  · exact h.findBestHigherHandFromMap _
  split
  next hbomb => exact h.vecAt hbomb.1
  next => exact h.findBestHigherHandFromPoints hf _ _ _

/-- The bad farmer after the lord, over a hand. -/
theorem Allows.downBadFarmerFollow (hf : s.Follows) {hand : Hand} (hhand : Q hand) :
    Q (s.downBadFarmerFollow u hand) := by
  unfold AI.downBadFarmerFollow
  dsimp only
  split
  · exact h.clear hand
  split
  · exact h.farmerMustTakeOutLordCharge hf _
  generalize (decide (s.curHand.type = HandType.solo)
    && (decide (s.curHand.keyPoint = card2) || decide (s.curHand.keyPoint = blackJoker))) = high
  have htried := h.highSolo hhand high
  generalize (if high = true then s.farmerTakeOutWhenLordTakeOutHighSolo hand else hand) = tried
    at htried ⊢
  split
  · exact htried
  split
  · exact h.farmerMustTakeOutLordCharge hf _
  · exact h.findBestHigherHandFromMap _

/-- The free turn of the good farmer before the lord. -/
theorem Allows.upGoodFarmerFree {hand : Hand} : Q (s.upGoodFarmerFree u hand) := by
  unfold AI.upGoodFarmerFree
  dsimp only
  split
  · exact h.findLowestHand _
  split
  next hsolo => exact h.vecAt hsolo.2.1
  split
  next hpair => exact h.vecAt hpair.2.1
  split
  · split
    · exact h.findChargeHandFirst _ _
    · exact h.findLowestHand _
  · split
    · exact h.findLowestHand _
    · exact h.findMostCardsHandNotBomb _

omit h in
/-- The last hand of the first stretch that meets a test is a hand of the list. -/
theorem lastWhile_mem {ok : Hand → Bool} {hands : List Hand} {hand : Hand}
    (hl : lastWhile ok hands = some hand) : hand ∈ hands :=
  (List.takeWhile_sublist ok).subset (List.mem_of_getLast? hl)

/-- The free turn of the bad farmer before the lord: a low hand, so that the
other one may go on. -/
theorem Allows.upBadFarmerFree {hand : Hand} : Q (s.upBadFarmerFree hand) := by
  unfold AI.upBadFarmerFree
  split
  next found hl => exact h.map .pair found (lastWhile_mem hl)
  next =>
    split
    next found hl => exact h.map .solo found (lastWhile_mem hl)
    next =>
      split
      · exact h.become (by decide) _ _
      · exact h.findLowestHand _

theorem Allows.higherSingle {hand : Hand} (hhand : Q hand) : Q (s.higherSingle hand) := by
  unfold AI.higherSingle
  split
  · exact h.become (by decide) _ _
  · exact hhand

theorem Allows.upBadFarmerLowSolo {hand : Hand} (hhand : Q hand) :
    Q (s.upBadFarmerLowSolo hand) := by
  unfold AI.upBadFarmerLowSolo
  dsimp only
  split
  next found hfind =>
    have hmem := List.mem_reverse.mp (List.mem_of_find?_eq_some hfind)
    exact h.map .solo found ((List.takeWhile_sublist _).subset hmem)
  next =>
    split
    · exact h.become (by decide) _ _
    · split
      next found hfind => exact h.map .solo found (List.mem_of_find?_eq_some hfind)
      next => exact h.higherSingle hhand

/-- The bad farmer before the lord, over a hand. -/
theorem Allows.upBadFarmerFollow (hf : s.Follows) {hand : Hand} (hhand : Q hand) :
    Q (s.upBadFarmerFollow u hand) := by
  unfold AI.upBadFarmerFollow
  dsimp only
  split
  · exact h.upBadFarmerLowSolo hhand
  split
  · exact hhand
  split
  · exact h.farmerTakeOutWhenLordTakeOutHighSolo _
  split
  · exact h.higherSingle hhand
  · exact h.farmerMustTakeOutLordCharge hf _

omit h in
/-- Whose turn it is stays when the cards are sorted. -/
theorem same_of_sorted {s' : AI} (hs : s' = s ∨ s' = s.sortLordOnly1Card u) :
    s'.isFree = s.isFree ∧ s'.aiPosition = s.aiPosition := by
  rcases hs with rfl | rfl
  · exact ⟨rfl, rfl⟩
  · exact ⟨(keeps_sorted u s).isFree, (keeps_sorted u s).aiPosition⟩

omit h in
/-- A farmer that follows still does once the cards are sorted. -/
theorem follows_of_sorted {s' : AI} (hs : s' = s ∨ s' = s.sortLordOnly1Card u)
    (hpos : s.aiPosition ≠ .lord) (hfree : ¬s.isFree = true) : s'.Follows := by
  obtain ⟨hf, hp⟩ := same_of_sorted hs
  refine follows_of_farmer ?_ ?_
  · rw [hp]
    exact hpos
  · rw [hf]
    exact hfree

/-- A choice that leaves the robot as it is. -/
theorem Allows.lordFewCards_then (hpos : s.aiPosition ≠ .lord) {R : Hand → Prop}
    (hR : ∀ hand, Q hand → R hand) {hand : Hand} (hhand : R hand)
    {choice : AI → Hand → Hand} (hchoice : ∀ s' hand, s' = s ∨ s' = s.sortLordOnly1Card u →
      s'.Allows u Q → R hand → Q (choice s' hand)) :
    s.Picked u Q (s.lordFewCards u hand fun s hand => (s, choice s hand)) :=
  h.lordFewCards hpos hR hhand fun s' hand hs h' hq =>
    picked_of_state (hchoice s' hand hs h' hq) (.inl rfl)

/-- Both guards in front of a farmer's free choice, when the choice leaves the
robot as it is. -/
theorem Allows.upFarmerOneCard_then (hpos : s.aiPosition ≠ .lord) {hand : Hand} (hhand : Q hand)
    {choice : AI → Hand → Hand} (hchoice : ∀ s' hand, s'.Allows u Q → Q hand →
      Q (choice s' hand)) :
    s.Picked u Q (s.upFarmerOneCard u hand fun s hand =>
      s.lordFewCards u hand fun s hand => (s, choice s hand)) := by
  refine h.upFarmerOneCard hpos hhand fun s' hand hs h' hq => ?_
  have hpos' : s'.aiPosition ≠ .lord := by
    rw [(same_of_sorted hs).2]
    exact hpos
  exact h'.lordFewCards_then hpos' (fun _ => id) hq fun s'' hand _ h'' hq => hchoice s'' hand h'' hq

variable (hpos : s.aiPosition ≠ .lord)

include hpos

/-- The turn of the good farmer after the lord. -/
theorem Allows.downGoodFarmerTakeOut (hand : Hand) :
    s.Picked u Q (s.downGoodFarmerTakeOut u hand) := by
  unfold AI.downGoodFarmerTakeOut
  dsimp only
  split
  · exact h.upFarmerOneCard_then hpos (h.clear hand) fun s' _ h' hq => h'.downGoodFarmerFree hq
  next hfree =>
    exact h.lordFewCards_then hpos (fun _ => id) (h.clear hand) fun s' _ hs h' hq =>
      h'.downGoodFarmerFollow (follows_of_sorted hs hpos hfree) hq

/-- The turn of the bad farmer after the lord. -/
theorem Allows.downBadFarmerTakeOut (hand : Hand) :
    s.Picked u Q (s.downBadFarmerTakeOut u hand) := by
  unfold AI.downBadFarmerTakeOut
  dsimp only
  split
  · exact h.upFarmerOneCard_then hpos (h.clear hand) fun s' _ h' _ => h'.findLowestHand _
  next hfree =>
    exact h.lordFewCards_then hpos (fun _ => id) (h.clear hand) fun s' _ hs h' hq =>
      h'.downBadFarmerFollow (follows_of_sorted hs hpos hfree) hq

/-- The turn of the good farmer before the lord. It is the one function that
does not clear the hand first; nothing it calls looks at it. -/
theorem Allows.upGoodFarmerTakeOut (hand : Hand) :
    s.Picked u Q (s.upGoodFarmerTakeOut u hand) := by
  unfold AI.upGoodFarmerTakeOut
  split
  · exact h.lordFewCards_then hpos (R := fun _ => True) (fun _ _ => trivial) trivial
      fun s' _ _ h' _ => h'.upGoodFarmerFree
  next hfree =>
    refine h.lordFewCards_then hpos (R := fun _ => True) (fun _ _ => trivial) trivial
      fun s' hand hs h' _ => ?_
    have hf := follows_of_sorted hs hpos hfree
    split
    · exact h'.goodFarmerOverOtherFarmer hf _
    · exact h'.farmerMustTakeOutLordCharge hf _

/-- The turn of the bad farmer before the lord, whose guards stand in another
order. -/
theorem Allows.upBadFarmerTakeOut (hand : Hand) :
    s.Picked u Q (s.upBadFarmerTakeOut u hand) := by
  unfold AI.upBadFarmerTakeOut
  dsimp only
  split
  · split
    · have hone := h.farmerTakeOutLordOnly1Card hpos hand.clear
      exact picked_of_state hone.1 (.inr hone.2)
    split
    · exact picked_of_state (h.become (by decide) _ _) (.inl rfl)
    split
    · have htwo := h.farmerTakeOutLordOnly2Cards hpos hand.clear
      split
      · exact picked_of_state htwo.1 htwo.2
      · exact picked_of_state (h.of_sorted htwo.2).upBadFarmerFree htwo.2
    · split
      · exact picked_of_state (h.become (by decide) _ _) (.inl rfl)
      · exact picked_of_state h.upBadFarmerFree (.inl rfl)
  next hfree =>
    exact h.lordFewCards_then hpos (fun _ => id) (h.clear hand) fun s' _ hs h' hq =>
      h'.upBadFarmerFollow (follows_of_sorted hs hpos hfree) hq

/-- Whatever a farmer picks has the property. -/
theorem Allows.farmerTakeOut (hand : Hand) :
    s.Picked u Q (s.farmerTakeOut u hand) := by
  unfold AI.farmerTakeOut
  split
  · split
    · exact h.downGoodFarmerTakeOut hpos hand
    · exact h.upGoodFarmerTakeOut hpos hand
  split
  · exact h.downBadFarmerTakeOut hpos hand
  · exact h.upBadFarmerTakeOut hpos hand

end Farmers

end AI

end RobotDdz
