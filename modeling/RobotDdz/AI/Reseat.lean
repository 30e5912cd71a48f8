import RobotDdz.AI.Turn
import RobotDdz.AI.Deal
import Mathlib.Data.List.Perm.Subperm

/-!
# The same robot at other seats

A decision takes the seats only to look up a player and to compare one seat
with another. So a robot that sits elsewhere, with every seat renamed by `σ`
and every player the decision looks at moved along, decides the same. `Reseated
σ known s s'` says that `s'` is `s` renamed, and that the players at the seats
of `known` moved along.

There is one lemma for each strategy that looks at a seat. The others see the
seats only through the robot's own points, and `Reseated.read` serves them all.

The strategies are compared in three groups:

- A strategy that reads no seat at all is read off the robot directly
  (`Reseated.field`): the map, the summary, the counters and the cards of the
  others are the same in both robots.
- A strategy that reads the robot's own points finds them through its seat.
  With the seats forgotten (`seatless`) the own points are still there, so such
  a strategy gives on `s.seatless` what it gives on `s`, mostly by `rfl`; the
  lemmas `seatless_*` say so of those that loop.
- A strategy that looks up a neighbour, the lord or the seat of the last hand
  has its own lemma, here or in the module after this one. `known` is the set
  of seats that such a look-up may ask for.

The source writes seats as `int` and steps round the table with `% 3`. A
renaming that keeps the unknown seat `-1`, the table and the order round it is
therefore all that is asked of `σ` (`SeatRenaming`); a rotation of the table is
one, and the one that the callers use.
-/

namespace RobotDdz

namespace AI

/-- A renaming of the seats: the unknown seat stays unknown, the table stays
the table, and neighbours stay neighbours. -/
structure SeatRenaming (σ : Int → Int) : Prop where
  injective : Function.Injective σ
  unknown : σ (-1) = -1
  neg : ∀ i, σ i < 0 ↔ i < 0
  seat : ∀ {i}, Seat i → Seat (σ i)
  next : ∀ {i}, Seat i → (σ i + 1) % 3 = σ ((i + 1) % 3)

/-- Every seat renamed, and the players given anew. -/
def reseat (σ : Int → Int) (info : Int → CardsInfo) (s : AI) : AI :=
  { s with
    aiSeat := σ s.aiSeat, lordSeat := σ s.lordSeat, downSeat := σ s.downSeat
    upSeat := σ s.upSeat, curHandSeat := σ s.curHandSeat, curCaller := σ s.curCaller
    callHistory := s.callHistory.map fun p => (σ p.1, p.2)
    history := s.history.map fun p => (σ p.1, p.2)
    playerInfo := info }

/-- The robot with its seats forgotten: only its own cards are left of the
players'. -/
def seatless (s : AI) : AI :=
  { s with
    aiSeat := -1, lordSeat := -1, downSeat := -1, upSeat := -1, curHandSeat := -1
    curCaller := -1, callHistory := [], history := []
    playerInfo := fun _ => { points := s.aiPoints, total := 0 } }

/-- `s'` is `s` with the seats renamed, and `s` sits at the table. -/
structure Reseated (σ : Int → Int) (known : Int → Prop) (s s' : AI) : Prop where
  eq : ∃ info, s' = s.reseat σ info
  agree : ∀ i, known i → s'.playerInfo (σ i) = s.playerInfo i
  table : ∀ i, Seat i → known i
  seated : Seat s.aiSeat

/-- The three seats of the table, as the list that the opponents are counted
over. -/
theorem mem_table {i : Int} : i ∈ ([0, 1, 2] : List Int) ↔ Seat i := by
  simp only [List.mem_cons, List.not_mem_nil, or_false]
  unfold Seat
  omega

/-- The renamed seats of the table are the seats of the table again, in another
order. -/
theorem SeatRenaming.perm {σ : Int → Int} (hσ : SeatRenaming σ) :
    (([0, 1, 2] : List Int).map σ).Perm [0, 1, 2] := by
  have hnodup : (([0, 1, 2] : List Int).map σ).Nodup :=
    (by decide : ([0, 1, 2] : List Int).Nodup).map hσ.injective
  have hsub : ([0, 1, 2] : List Int).map σ ⊆ [0, 1, 2] := by
    intro i hi
    obtain ⟨j, hj, rfl⟩ := List.mem_map.mp hi
    exact mem_table.mpr (hσ.seat (mem_table.mp hj))
  exact (List.subperm_of_subset hnodup hsub).perm_of_length_le (Nat.le_refl 3)

/-- The seat before a renamed one is the renamed seat before it. The source
writes it as two steps forward, so the law for the next seat gives it twice
over. -/
theorem SeatRenaming.prev {σ : Int → Int} (hσ : SeatRenaming σ) {i : Int} (hi : Seat i) :
    (σ i + 2) % 3 = σ ((i + 2) % 3) := by
  have htwice := hσ.next (seat_emod (i + 1))
  rw [← hσ.next hi] at htwice
  have harg : ((i + 1) % 3 + 1) % 3 = (i + 2) % 3 := by omega
  rw [harg] at htwice
  rw [← htwice]
  omega

/-! ## Looking without seats -/

section Seatless

variable (u : Undef) (s : AI) (hand : Hand)

/-- The loop that raises the hand to beat step by step looks at the robot's own
points and map only, so forgetting the seats changes none of its candidates.
The induction is on the fuel of the loop. -/
theorem seatless_higherCandidates (force : Bool) (fuel : Nat) :
    ∀ (nowHand higher : Hand) (acc : List Candidate),
      s.seatless.higherCandidates u force fuel nowHand higher acc
        = s.higherCandidates u force fuel nowHand higher acc := by
  induction fuel with
  | zero => intros; rfl
  | succ fuel ih =>
    intro nowHand higher acc
    have hpoints : s.seatless.aiPoints = s.aiPoints := rfl
    have hother : s.seatless.otherPoints = s.otherPoints := rfl
    have hlow : s.seatless.lowestControl = s.lowestControl := rfl
    have hmax : s.seatless.maxOppNumber = s.maxOppNumber := rfl
    have hmap : s.seatless.handsMap = s.handsMap := rfl
    have hsummary : s.seatless.summary = s.summary := rfl
    have hcontrol : s.seatless.controlNum = s.controlNum := rfl
    simp only [higherCandidates, ih, hpoints, hother, hlow, hmax, hmap, hsummary, hcontrol]

/-- The search over the candidates, hence the hand it settles on, without
seats. -/
theorem seatless_findBestHigherHandFromPoints (force lordOnly1Card : Bool) :
    s.seatless.findBestHigherHandFromPoints u hand force lordOnly1Card
      = s.findBestHigherHandFromPoints u hand force lordOnly1Card := by
  unfold findBestHigherHandFromPoints
  rw [seatless_higherCandidates]
  rfl

/-- The choice of a solo by what it leaves of the own points, without seats. -/
theorem seatless_bestHighestSolo :
    s.seatless.bestHighestSolo u hand = s.bestHighestSolo u hand := by
  have hpoints : s.seatless.aiPoints = s.aiPoints := rfl
  have hwithout : s.seatless.summaryWithout u = s.summaryWithout u := rfl
  unfold bestHighestSolo
  rw [hpoints, hwithout]
  rfl

/-- The lord's free turn against a farmer with two cards, once the cards are
counted. -/
theorem seatless_lordTakeOutFreeFarmerOnly2Cards : s.seatless.lordTakeOutFreeFarmerOnly2Cards u hand
    = s.lordTakeOutFreeFarmerOnly2Cards u hand := by
  have hpoints : s.seatless.aiPoints = s.aiPoints := rfl
  have h1 : s.seatless.lordTakeOutFreeFarmerOnly1Card u hand
      = s.lordTakeOutFreeFarmerOnly1Card u hand := rfl
  have hn : s.seatless.lordTakeOutFreeNormal u hand = s.lordTakeOutFreeNormal u hand := rfl
  unfold lordTakeOutFreeFarmerOnly2Cards
  rw [hpoints, h1, hn]
  rfl

/-- The lord's search through its own points when the map has no higher hand. -/
theorem seatless_lordTakeOutHigherRebuild : s.seatless.lordTakeOutHigherRebuild u hand
    = s.lordTakeOutHigherRebuild u hand := seatless_findBestHigherHandFromPoints ..

/-- The lord over a hand when no farmer is short of cards. -/
theorem seatless_lordTakeOutHigherNormal :
    s.seatless.lordTakeOutHigherNormal u hand = s.lordTakeOutHigherNormal u hand := by
  have hmap : s.seatless.findBestHigherHandFromMap u hand.clear
      = s.findBestHigherHandFromMap u hand.clear := rfl
  have hvec : s.seatless.vec = s.vec := rfl
  have hdanger : s.seatless.isDanger = s.isDanger := rfl
  have hbomb : s.seatless.isGoodAfterBomb u = s.isGoodAfterBomb u := rfl
  unfold lordTakeOutHigherNormal
  simp only [hmap, hvec, hdanger, hbomb, seatless_lordTakeOutHigherRebuild]

/-- The lord over a hand when a farmer has one card left. -/
theorem seatless_lordTakeOutHigherFarmerOnly1Card :
    s.seatless.lordTakeOutHigherFarmerOnly1Card u hand
      = s.lordTakeOutHigherFarmerOnly1Card u hand := by
  unfold lordTakeOutHigherFarmerOnly1Card
  simp only [seatless_lordTakeOutHigherNormal]
  rfl

/-- The lord over a hand when a farmer has two cards left. -/
theorem seatless_lordTakeOutHigherFarmerOnly2Cards :
    s.seatless.lordTakeOutHigherFarmerOnly2Cards u hand
      = s.lordTakeOutHigherFarmerOnly2Cards u hand := by
  unfold lordTakeOutHigherFarmerOnly2Cards
  simp only [seatless_lordTakeOutHigherNormal, seatless_lordTakeOutHigherRebuild]
  rfl

/-- A farmer that has to stop a lord with one card: the candidates do not go by
seats. -/
theorem seatless_farmerMustTakeOutLordOnly1Card : s.seatless.farmerMustTakeOutLordOnly1Card u hand
    = s.farmerMustTakeOutLordOnly1Card u hand := by
  unfold farmerMustTakeOutLordOnly1Card
  simp only [seatless_findBestHigherHandFromPoints]
  rfl

/-- A farmer that has to stop a charge of the lord: the candidates do not go by
seats. -/
theorem seatless_farmerMustTakeOutLordCharge : s.seatless.farmerMustTakeOutLordCharge u hand
    = s.farmerMustTakeOutLordCharge u hand := by
  unfold farmerMustTakeOutLordCharge
  simp only [seatless_findBestHigherHandFromPoints]
  rfl

end Seatless

namespace Reseated

variable {σ : Int → Int} {known : Int → Prop} {s s' : AI} {u : Undef} {hand : Hand}

/-- Rewriting the robot, its players and seats left alone. -/
theorem map (h : Reseated σ known s s') (g : AI → AI)
    (hg : ∀ (s : AI) (info : Int → CardsInfo), g (s.reseat σ info) = (g s).reseat σ info
      := by intros; rfl)
    (hinfo : ∀ s : AI, (g s).playerInfo = s.playerInfo := by intro; rfl)
    (hseat : ∀ s : AI, (g s).aiSeat = s.aiSeat := by intro; rfl) :
    Reseated σ known (g s) (g s') := by
  obtain ⟨⟨info, rfl⟩, hagree, htable, hseated⟩ := h
  refine ⟨⟨info, hg s info⟩, fun i hi => ?_, htable, ?_⟩
  · rw [hinfo, hinfo]
    exact hagree i hi
  · rw [hseat]
    exact hseated

/-- A seat that is looked up. -/
theorem info (h : Reseated σ known s s') {i : Int} (hi : known i) :
    s'.playerInfo (σ i) = s.playerInfo i := h.agree i hi

/-- Reading a field that is no seat. -/
theorem field {α : Type} (h : Reseated σ known s s') (f : AI → α)
    (hf : ∀ (s : AI) (info : Int → CardsInfo), f (s.reseat σ info) = f s) :
    f s' = f s := by
  obtain ⟨info, rfl⟩ := h.eq
  exact hf s info

/-- The hand to beat is no seat and stays. -/
theorem curHand (h : Reseated σ known s s') : s'.curHand = s.curHand :=
  h.field AI.curHand fun _ _ => rfl

/-- What the others hold together is counted without seats. -/
theorem otherPoints (h : Reseated σ known s s') : s'.otherPoints = s.otherPoints :=
  h.field AI.otherPoints fun _ _ => rfl

/-- The role at the table goes along with the seat: a renaming keeps the
neighbours. -/
theorem aiPosition (h : Reseated σ known s s') : s'.aiPosition = s.aiPosition :=
  h.field AI.aiPosition fun _ _ => rfl

theorem lowestControl (h : Reseated σ known s s') : s'.lowestControl = s.lowestControl :=
  h.field AI.lowestControl fun _ _ => rfl

theorem summary (h : Reseated σ known s s') : s'.summary = s.summary :=
  h.field AI.summary fun _ _ => rfl

theorem level (h : Reseated σ known s s') : s'.level = s.level :=
  h.field AI.level fun _ _ => rfl

/-- The hands of one kind in the map are the same ones. -/
theorem vec (h : Reseated σ known s s') : s'.vec = s.vec :=
  h.field AI.vec fun _ _ => rfl

/-- Writing the same map and the same summary on both sides keeps the renaming. -/
theorem setMap (h : Reseated σ known s s') (m : HandsMap) (summary : HandsMapSummary) :
    Reseated σ known { s with handsMap := m, summary } { s' with handsMap := m, summary } :=
  h.map fun s => { s with handsMap := m, summary }

/-- Writing the same two counts of the opponents' cards on both sides keeps the
renaming. -/
theorem setOpponents (h : Reseated σ known s s') (maxOppNumber minOppNumber : Int) :
    Reseated σ known { s with maxOppNumber, minOppNumber } { s' with maxOppNumber, minOppNumber } :=
  h.map fun s => { s with maxOppNumber, minOppNumber }

/-- Writing the result of one sorting on both sides keeps the renaming. -/
theorem setSorted (h : Reseated σ known s s') (m : HandsMap) (summary : HandsMapSummary)
    (c : HighCounts) : Reseated σ known (s.setSorted m summary c) (s'.setSorted m summary c) :=
  h.map fun s => s.setSorted m summary c

/-- Writing the same control rank and count on both sides keeps the renaming. -/
theorem setControl (h : Reseated σ known s s') (lowestControl : Nat) (controlNum : Int) :
    Reseated σ known { s with lowestControl, controlNum } { s' with lowestControl, controlNum } :=
  h.map fun s => { s with lowestControl, controlNum }

theorem aiSeat (h : Reseated σ known s s') : s'.aiSeat = σ s.aiSeat := by
  obtain ⟨info, rfl⟩ := h.eq
  rfl

theorem lordSeat (h : Reseated σ known s s') : s'.lordSeat = σ s.lordSeat := by
  obtain ⟨info, rfl⟩ := h.eq
  rfl

theorem curHandSeat (h : Reseated σ known s s') : s'.curHandSeat = σ s.curHandSeat := by
  obtain ⟨info, rfl⟩ := h.eq
  rfl

/-- The robot's own points are found at the renamed seat. This is where
`Reseated` has to know that the robot itself moved along. -/
theorem aiPoints (h : Reseated σ known s s') : s'.aiPoints = s.aiPoints := by
  unfold AI.aiPoints
  rw [h.aiSeat, h.info (h.table _ h.seated)]

/-- Reading what shows no seat but through the robot's own points. -/
theorem read {α : Type} (h : Reseated σ known s s') (f : AI → α)
    (hf : ∀ s : AI, f s.seatless = f s) : f s' = f s := by
  have hsame : s'.seatless = s.seatless := by
    have hpoints := h.aiPoints
    obtain ⟨info, rfl⟩ := h.eq
    unfold seatless
    rw [hpoints]
    rfl
  rw [← hf s', hsame, hf s]

/-- Sorting the robot's own cards. -/
theorem bestKind {α : Type} (h : Reseated σ known s s')
    (sort : Points → Nat → Int → Points → Bool → α) :
    sort s'.aiPoints s'.lowestControl s'.maxOppNumber s'.otherPoints true
      = sort s.aiPoints s.lowestControl s.maxOppNumber s.otherPoints true := by
  rw [h.aiPoints, h.lowestControl, h.field AI.maxOppNumber fun _ _ => rfl, h.otherPoints]

/-- The lord's number of cards, when the lord is one of the players that moved
along. -/
theorem total_lord (h : Reseated σ known s s') (hlord : known s.lordSeat) :
    s'.total s'.lordSeat = s.total s.lordSeat := by
  unfold AI.total
  rw [h.lordSeat, h.info hlord]

/-- The number of cards of the player whose hand is to beat. -/
theorem total_cur (h : Reseated σ known s s') (hcur : known s.curHandSeat) :
    s'.total s'.curHandSeat = s.total s.curHandSeat := by
  unfold AI.total
  rw [h.curHandSeat, h.info hcur]

/-- The split against a lord with one card reads the own points and writes the
map. -/
theorem sortLordOnly1Card (h : Reseated σ known s s') :
    Reseated σ known (s.sortLordOnly1Card u) (s'.sortLordOnly1Card u) := by
  have hbest := h.bestKind (sortHandsLordOnly1Card u)
  unfold AI.sortLordOnly1Card
  simp only [hbest]
  exact h.setMap ..

/-- The control rank comes from the robot's points and the others' cards. -/
theorem updateControl (h : Reseated σ known s s') :
    Reseated σ known s.updateControl s'.updateControl := by
  have hlow := h.field (fun s => getLowestControl s.remainPoints) fun _ _ => rfl
  have hcontrol : calControl s'.aiPoints s'.otherPoints (getLowestControl s'.remainPoints)
      = calControl s.aiPoints s.otherPoints (getLowestControl s.remainPoints) := by
    rw [h.aiPoints, h.otherPoints, hlow]
  unfold AI.updateControl
  simp only []
  rw [hcontrol, hlow]
  exact h.setControl ..

section Renaming

variable (hσ : SeatRenaming σ) (h : Reseated σ known s s')

include hσ h

/-- The player after the robot, under its new name. -/
theorem nextSeat : s'.nextSeat = σ s.nextSeat := by
  unfold AI.nextSeat
  rw [h.aiSeat]
  exact hσ.next h.seated

/-- The player before the robot, under its new name. -/
theorem prevSeat : s'.prevSeat = σ s.prevSeat := by
  unfold AI.prevSeat
  rw [h.aiSeat]
  exact hσ.prev h.seated

/-- The number of cards the next player holds is looked up at the new name of
its seat. -/
theorem total_next : s'.total s'.nextSeat = s.total s.nextSeat := by
  unfold AI.total
  rw [h.nextSeat hσ, h.info (h.table s.nextSeat (seat_emod _))]

/-- The number of cards the player before holds, looked up likewise. -/
theorem total_prev : s'.total s'.prevSeat = s.total s.prevSeat := by
  unfold AI.total
  rw [h.prevSeat hσ, h.info (h.table s.prevSeat (seat_emod _))]

/-- Two seats are the same one under any names. -/
theorem curHandSeat_lord : s'.curHandSeat = s'.lordSeat ↔ s.curHandSeat = s.lordSeat := by
  rw [h.curHandSeat, h.lordSeat]
  exact hσ.injective.eq_iff

/-- Whether the hand to beat is the robot's own. -/
theorem curHandSeat_ai : s'.curHandSeat = s'.aiSeat ↔ s.curHandSeat = s.aiSeat := by
  rw [h.curHandSeat, h.aiSeat]
  exact hσ.injective.eq_iff

/-- Whether the robot is the lord. -/
theorem lordSeat_ai : s'.lordSeat = s'.aiSeat ↔ s.lordSeat = s.aiSeat := by
  rw [h.lordSeat, h.aiSeat]
  exact hσ.injective.eq_iff

/-- Whether anyone has played: `-1` is the seat before the first hand, and
keeps its meaning. -/
theorem curHandSeat_unknown : s'.curHandSeat = -1 ↔ s.curHandSeat = -1 := by
  rw [h.curHandSeat]
  exact ⟨fun he => hσ.injective (he.trans hσ.unknown.symm), fun he => by rw [he, hσ.unknown]⟩

/-- Whether a lord is set already. -/
theorem lordSeat_unknown : s'.lordSeat = -1 ↔ s.lordSeat = -1 := by
  rw [h.lordSeat]
  exact ⟨fun he => hσ.injective (he.trans hσ.unknown.symm), fun he => by rw [he, hσ.unknown]⟩

/-- A free turn: the lord opens, or everybody passed on the robot's own hand. -/
theorem isFree : s'.isFree = s.isFree := by
  unfold AI.isFree
  simp only [h.aiPosition, h.curHandSeat_unknown hσ, h.curHandSeat_ai hσ]

/-! ## The analysis -/

/-- The opponents, under their new names. -/
theorem oppSeats : (s.oppSeats.map σ).Perm s'.oppSeats := by
  have hfilter : s.oppSeats.map σ = (([0, 1, 2] : List Int).map σ).filter (· ≠ σ s.aiSeat) := by
    unfold AI.oppSeats
    rw [List.filter_map]
    congr 1
    apply List.filter_congr
    intro i _
    simp only [Function.comp_apply, hσ.injective.eq_iff, ne_eq]
  rw [hfilter]
  unfold AI.oppSeats
  rw [h.aiSeat]
  exact hσ.perm.filter _

/-- A fold over the opponents' numbers of cards. -/
theorem foldl_oppSeats (op : Int → Int → Int) (hop : ∀ a b c, op (op a b) c = op (op a c) b)
    (start : Int) : s'.oppSeats.foldl (fun n i => op n (s'.total i)) start
      = s.oppSeats.foldl (fun n i => op n (s.total i)) start := by
  have hcomm : RightCommutative fun n i => op n (s'.total i) := ⟨fun a b c => hop a _ _⟩
  rw [← (h.oppSeats hσ).foldl_eq, List.foldl_map]
  apply List.foldl_ext
  intro n i hi
  have hseat : Seat i := mem_table.mp (List.mem_filter.mp hi).1
  show op n (s'.total (σ i)) = op n (s.total i)
  unfold AI.total
  rw [h.info (h.table i hseat)]

/-- The largest and the smallest number of cards an opponent holds. The
opponents are visited in another order; maximum and minimum do not mind
(`foldl_oppSeats`). A farmer counts the lord alone, once the lord is known. -/
theorem countOpponents (hlord : s.lordSeat ≠ -1 → known s.lordSeat) :
    Reseated σ known s.countOpponents s'.countOpponents := by
  have hmax := h.foldl_oppSeats hσ max (fun a b c => max_right_comm a b c) 0
  have hmin := h.foldl_oppSeats hσ min (fun a b c => min_right_comm a b c) 20
  unfold AI.countOpponents
  rw [hmax, hmin]
  simp only [h.lordSeat_unknown hσ, h.lordSeat_ai hσ]
  split
  next => exact h.setOpponents ..
  next hfarmer =>
    rw [h.total_lord (hlord fun he => hfarmer (Or.inl he))]
    exact h.setOpponents ..

/-- Sorting the own cards gives the same map, and counts the same opponents. -/
theorem sortHandMap (hlord : s.lordSeat ≠ -1 → known s.lordSeat) :
    Reseated σ known (s.sortHandMap u) (s'.sortHandMap u) := by
  have hc := h.countOpponents hσ hlord
  have hbest := hc.bestKind (sortHandsWithBestKind u)
  unfold AI.sortHandMap
  simp only [hbest]
  exact hc.setMap ..

/-! ## Judging the position -/

/-- The test for the first half of a game looks at all three seats, and the
lord's has a bound of its own. The renamed table has the same players. -/
theorem isFirstHalf : s'.isFirstHalf = s.isFirstHalf := by
  unfold AI.isFirstHalf
  rw [← hσ.perm.all_eq, List.all_map, Bool.eq_iff_iff, List.all_eq_true, List.all_eq_true]
  apply forall₂_congr
  intro i hi
  have htotal : s'.total (σ i) = s.total i :=
    congrArg CardsInfo.total (h.info (h.table i (mem_table.mp hi)))
  have hlord : σ i = s'.lordSeat ↔ i = s.lordSeat := by rw [h.lordSeat, hσ.injective.eq_iff]
  show (!(decide (σ i = s'.lordSeat) && decide (s'.total (σ i) ≤ 10)
    || decide (s'.total (σ i) ≤ 8))) = true ↔ _
  rw [htotal, decide_eq_decide.mpr hlord]

/-- Which of the two farmers counts as the good one. -/
theorem isGoodFarmer (hlord : known s.lordSeat) : s'.isGoodFarmer = s.isGoodFarmer := by
  have hgood := h.read (fun s => s.isGood s.summary s.controlNum s.minOppNumber) fun _ => rfl
  unfold AI.isGoodFarmer
  rw [h.total_lord hlord, hgood, h.isFirstHalf hσ, h.summary, h.field AI.controlNum fun _ _ => rfl]

end Renaming

end Reseated

end AI

end RobotDdz
