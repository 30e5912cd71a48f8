import RobotDdz.AI.Knowledge
import RobotDdz.AI.Deal
import RobotDdz.Lib.Runs

/-!
# The card counter

A live deal as the robot is told it: the hand, the lord, and then any mixture
of its own decisions and of plays by the three seats. Next to the robot runs
the table (`Table`), what each seat really holds and which recognised play came
last.

`card_counter_exact`: after every call the robot's `remainPoints`, the number
of cards it counts for each seat and the hand to beat are those of the table. A
decision may take bombs out of the robot's own points (`TakesOwnBombs`), but
nothing here reads these.

The robot and the table run side by side as one system (`step`), so that the
result is an invariant of its runs (`CountsTable`) and is proved by the rule
for them. A decision changes the robot and not the table; a play changes both.
What a decision changes is read off the frames of `Keeps`, hence no strategy is
looked at.

Mirroring notes vs `OGLordRobotAI.cpp`:
- `RbtInTakeOutCard` subtracts the size of the play from the total of the
  player, and records the hand that `getHand` makes of the cards, which is none
  for a play that is not recognised. The hand to beat changes only if there is
  one.
- The lord's total is set to twenty by `RbtInSetLord`; no other call adds to a
  total.
-/

namespace RobotDdz

open AI Runs

/-- What the seats hold, the bottom cards while nobody has them, and the last
play that `getHand` recognised. -/
structure Table where
  held : Int → List Int
  bottom : List Int := []
  last : Option (Int × Hand) := none

/-- The cards nobody has played yet. -/
def Table.unplayed (t : Table) : List Int := t.held 0 ++ t.held 1 ++ t.held 2 ++ t.bottom

/-- The table after the deal. -/
def Deal.dealt (d : Deal) : Table := { held := d.hand, bottom := d.bottom }

/-- The table when the lord has the bottom cards. -/
def Deal.started (d : Deal) (lord : Int) : Table := { held := d.held lord }

/-- A call in the middle of a deal: a question to the robot, with whatever
undefined reads give it, or the notification of a play, an empty one being a
pass. -/
inductive Call where
  | decide (u : Undef)
  | played (seat : Int) (cards : List Int)

namespace Call

/-- A call may name a seat of the table and cards it holds. -/
def Legal (t : Table) : Call → Prop
  | decide _ => True
  | played seat cards => Seat seat ∧ cards.Subperm (t.held seat)

/-- What a call does to the table. -/
def happen (t : Table) : Call → Table
  | decide _ => t
  | played seat cards =>
    let hand := getHand (cardVecToPointArr cards)
    { t with
      held := play t.held (seat, cards)
      last := if hand.type ≠ .nothing then some (seat, hand) else t.last }

/-- What a call does to the robot. -/
def tell (s : AI) : Call → AI
  | decide u => (s.rbtOutGetTakeOutCard u).1
  | played seat cards => s.rbtInTakeOutCard seat cards

/-- The robot and the table side by side. -/
def step (x : AI × Table) (c : Call) : AI × Table := (c.tell x.1, c.happen x.2)

end Call

/-- What the robot counts is what is on the table. -/
structure CountsTable (s : AI) (t : Table) : Prop where
  remain : ∀ r, r ≤ redJoker → s.remainPoints r = cardVecToPointArr t.unplayed r
  total : ∀ i, Seat i → s.total i = (t.held i).length
  current : match t.last with
    | none => s.curHand.type = .nothing ∧ s.curHandSeat = -1
    | some (seat, hand) => s.curHand = hand ∧ s.curHandSeat = seat

/-! ## The two calls of a deal -/

/-- Nothing counted is lost in a decision. -/
theorem CountsTable.of_shown {s s' : AI} {t : Table} (h : CountsTable s t)
    (hs : s'.shown = s.shown) : CountsTable s' t := by
  refine ⟨fun r hr => ?_, fun i hi => ?_, ?_⟩
  · rw [eq_of_shown hs AI.remainPoints]
    exact h.remain r hr
  · rw [eq_of_shown hs (fun s => s.total i) (total_shown · i)]
    exact h.total i hi
  · rw [eq_of_shown hs AI.curHand, eq_of_shown hs AI.curHandSeat]
    exact h.current

namespace AI

theorem total_setInfo (s : AI) (seat : Int) (cards : CardsInfo) (i : Int) :
    (s.setInfo seat cards).total i = if i = seat then cards.total else s.total i := by
  simp only [total, setInfo, Function.update_apply]
  split <;> rfl

/-- Writing a player's points leaves every total. -/
theorem total_setInfo_points (s : AI) (seat : Int) (points : Points) (i : Int) :
    (s.setInfo seat { s.playerInfo seat with points := points }).total i = s.total i := by
  rw [total_setInfo]
  split
  next h => rw [h]; rfl
  next => rfl

/-- Taking the cards of a rank out of the counts changes no total and no hand
to beat. -/
theorem takeOutRank_shows (argSeat : Int) (points : Points) (i : Nat) (s : AI) :
    (∀ seat, (takeOutRank argSeat points i s).total seat = s.total seat) ∧
    (takeOutRank argSeat points i s).curHand = s.curHand ∧
    (takeOutRank argSeat points i s).curHandSeat = s.curHandSeat := by
  unfold takeOutRank
  by_cases hs : argSeat = s.aiSeat
  · simp only [hs, ne_eq, not_true_eq_false, if_false, true_or, if_true]
    exact ⟨fun seat => total_setInfo_points _ _ _ seat, rfl, rfl⟩
  · by_cases h0 : 0 ≤ (s.playerInfo argSeat).points 0
    · simp only [hs, h0, ne_eq, not_false_eq_true, if_true, or_true]
      exact ⟨fun seat => total_setInfo_points _ _ _ seat, rfl, rfl⟩
    · simp only [hs, h0, ne_eq, not_false_eq_true, if_true, or_self, if_false]
      exact ⟨fun _ => rfl, trivial, trivial⟩

/-- What a play does to the totals and, before it is recorded, to the hand to
beat. -/
theorem takeOutCount_shows (s : AI) (argSeat : Int) (argCards : List Int) :
    (∀ seat, (s.takeOutCount argSeat argCards).total seat
      = if seat = argSeat then s.total seat - argCards.length else s.total seat) ∧
    (s.takeOutCount argSeat argCards).curHand = s.curHand ∧
    (s.takeOutCount argSeat argCards).curHandSeat = s.curHandSeat := by
  have hrun := Loops.forUp_inv
    (b := takeOutRank argSeat (cardVecToPointArr argCards))
    (fun _ s' => (∀ seat, s'.total seat
        = if seat = argSeat then s.total seat - argCards.length else s.total seat) ∧
      s'.curHand = s.curHand ∧ s'.curHandSeat = s.curHandSeat) 0 cardPointNum
    (s := s.setInfo argSeat { s.playerInfo argSeat with
      total := (s.playerInfo argSeat).total - argCards.length }) ?_ ?_
  · exact hrun
  · intro i s' _ _ h
    obtain ⟨htotal, hhand, hseat⟩ := takeOutRank_shows argSeat (cardVecToPointArr argCards) i s'
    exact ⟨fun seat => (htotal seat).trans (h.1 seat), hhand.trans h.2.1, hseat.trans h.2.2⟩
  · refine ⟨fun seat => ?_, rfl, rfl⟩
    rw [total_setInfo]
    split
    next h => rw [h]; rfl
    next => rfl

/-- What a play does to the totals. -/
theorem total_rbtInTakeOutCard (s : AI) (argSeat : Int) (argCards : List Int) (seat : Int) :
    (s.rbtInTakeOutCard argSeat argCards).total seat
      = if seat = argSeat then s.total seat - argCards.length else s.total seat := by
  have hrecord : ∀ (s : AI) (hand : Hand),
      (s.recordHand argSeat hand).total seat = s.total seat := by
    intro s hand
    unfold recordHand
    split <;> rfl
  unfold rbtInTakeOutCard
  split
  next hn => rw [hrecord, hn]; simp
  next => rw [hrecord, (s.takeOutCount_shows argSeat argCards).1]

/-- What a play does to the hand to beat: cards that are recognised replace it
and its seat, a pass or cards that are no hand leave both. -/
theorem current_rbtInTakeOutCard (s : AI) (argSeat : Int) (argCards : List Int) :
    (s.rbtInTakeOutCard argSeat argCards).curHand
        = (if (getHand (cardVecToPointArr argCards)).type ≠ .nothing then
            getHand (cardVecToPointArr argCards) else s.curHand) ∧
      (s.rbtInTakeOutCard argSeat argCards).curHandSeat
        = if (getHand (cardVecToPointArr argCards)).type ≠ .nothing then argSeat
          else s.curHandSeat := by
  unfold rbtInTakeOutCard
  split
  next hn =>
    -- a pass: no cards are no hand
    rw [List.length_eq_zero_iff.mp hn]
    have hzero : (getHand (cardVecToPointArr [])).type = .nothing := getHand_zero
    rw [if_neg (not_not.mpr hzero), if_neg (not_not.mpr hzero)]
    exact ⟨rfl, rfl⟩
  next =>
    obtain ⟨-, hhand, hseat⟩ := s.takeOutCount_shows argSeat argCards
    unfold recordHand
    split
    · exact ⟨rfl, rfl⟩
    · exact ⟨hhand, hseat⟩

end AI

/-- A legal play of a seat of the table: what leaves its hand leaves the
unplayed cards. -/
theorem unplayed_play {t : Table} {seat : Int} {cards : List Int} (hs : Seat seat)
    (hsub : cards.Subperm (t.held seat)) (last : Option (Int × Hand)) (r : Nat) :
    cardVecToPointArr (Table.unplayed
        { t with held := play t.held (seat, cards), last := last }) r
      = cardVecToPointArr t.unplayed r - cardVecToPointArr cards r := by
  have hdiff := cardVecToPointArr_diff hsub r
  obtain ⟨hs0, hs3⟩ := hs
  have hseat : seat = 0 ∨ seat = 1 ∨ seat = 2 := by omega
  simp only [Table.unplayed, cardVecToPointArr_append, play, Function.update_apply]
  rcases hseat with rfl | rfl | rfl
  all_goals
    simp only [if_true, if_false, Int.reduceEq, hdiff]
    omega

/-- One call of a deal. A decision shows nothing of itself in these fields; a
play takes its cards from the counts on both sides, the robot's and the
table's. -/
theorem CountsTable.step {x : AI × Table} (h : CountsTable x.1 x.2) {c : Call}
    (hc : c.Legal x.2) : CountsTable (Call.step x c).1 (Call.step x c).2 := by
  cases c with
  | decide u => exact h.of_shown (deciding_keeps_shown u x.1)
  | played seat cards =>
    obtain ⟨hs, hsub⟩ := hc
    have hcounted := rbtInTakeOutCard_counted x.1 seat cards
    obtain ⟨hhand, hseat⟩ := current_rbtInTakeOutCard x.1 seat cards
    refine ⟨fun r hr => ?_, fun i hi => ?_, ?_⟩
    · show (x.1.rbtInTakeOutCard seat cards).remainPoints r = _
      have hlt := lt_cardPointNum hr
      rw [hcounted.remain, if_pos hlt, h.remain r hr]
      exact (unplayed_play hs hsub _ r).symm
    · show (x.1.rbtInTakeOutCard seat cards).total i = ((play x.2.held (seat, cards)) i).length
      rw [total_rbtInTakeOutCard, h.total i hi]
      simp only [play, Function.update_apply]
      split
      next he =>
        have hperm : (cards ++ (x.2.held seat).diff cards).Perm (x.2.held seat) :=
          List.subperm_append_diff_self_of_count_le fun y _ => hsub.count_le y
        have hlen := hperm.length_eq
        rw [List.length_append] at hlen
        rw [he]
        omega
      next => rfl
    · have hcur := h.current
      simp only [Call.step, Call.tell, Call.happen]
      by_cases ht : (getHand (cardVecToPointArr cards)).type ≠ .nothing
      · rw [if_pos ht] at hhand hseat ⊢
        exact ⟨hhand, hseat⟩
      · rw [if_neg ht] at hhand hseat ⊢
        rw [hhand, hseat]
        exact hcur

/-! ## The start of a deal -/

/-- The deck less nothing: all cards of the deal are unplayed. -/
theorem remain_dealt {d : Deal} (hd : d.Legal) (old : Points) {r : Nat} (hr : r ≤ redJoker) :
    freshRemain old r = cardVecToPointArr d.dealt.unplayed r := by
  have hfresh : freshRemain old r = freshRemain Points.zero r := by
    unfold freshRemain
    rw [if_pos hr, if_pos hr]
  rw [hfresh, ← deck_counts r hr, ← cardVecToPointArr_perm hd.cards]
  rfl

/-- The lord's pick-up moves the bottom cards, it plays none. -/
theorem unplayed_started (d : Deal) {lord : Int} (hl : Seat lord) (r : Nat) :
    cardVecToPointArr (d.started lord).unplayed r = cardVecToPointArr d.dealt.unplayed r := by
  obtain ⟨hl0, hl3⟩ := hl
  have hlord : lord = 0 ∨ lord = 1 ∨ lord = 2 := by omega
  simp only [Table.unplayed, Deal.started, Deal.dealt, Deal.held, cardVecToPointArr_append]
  rcases hlord with rfl | rfl | rfl
  all_goals
    simp only [if_true, if_false, Int.reduceEq, cardVecToPointArr_append]
    have hnil : cardVecToPointArr [] r = 0 := rfl
    omega

theorem countsTable_dealt (u : Undef) (s : AI) {d : Deal} (hd : d.Legal) {seat : Int}
    (hs : Seat seat) : CountsTable (s.rbtInInitCard u seat (d.hand seat)) d.dealt := by
  obtain ⟨-, hremain, -⟩ := rbtInInitCard_spec u s (d.hand seat) hs
  refine ⟨fun r hr => ?_, fun i hi => ?_, ?_⟩
  · rw [hremain]
    exact remain_dealt hd _ hr
  · show (s.rbtInInitCard u seat (d.hand seat)).total i = (d.hand i).length
    rw [hd.seventeen i hi]
    unfold rbtInInitCard sortHandMap countOpponents
    dsimp only
    split <;> simp only [total, if_pos (show 0 ≤ i ∧ i < 3 from hi)] <;> split <;> rfl
  · show (s.rbtInInitCard u seat (d.hand seat)).curHand.type = .nothing ∧
      (s.rbtInInitCard u seat (d.hand seat)).curHandSeat = -1
    unfold rbtInInitCard sortHandMap countOpponents
    dsimp only
    exact ⟨by split <;> rfl, by split <;> rfl⟩

/-- A bottom card changes no unplayed count, no total and no hand to beat. -/
theorem takeLeftover_shows (s : AI) (card : Int) :
    (takeLeftover s card).remainPoints = s.remainPoints ∧
    (∀ seat, (takeLeftover s card).total seat = s.total seat) ∧
    (takeLeftover s card).curHand = s.curHand ∧
    (takeLeftover s card).curHandSeat = s.curHandSeat := by
  unfold takeLeftover
  by_cases hl : s.lordSeat = s.aiSeat
  · rw [if_pos hl, if_pos (Or.inl hl)]
    exact ⟨rfl, fun seat => total_setInfo_points _ _ _ seat, rfl, rfl⟩
  · rw [if_neg hl]
    by_cases h0 : 0 ≤ (s.playerInfo s.lordSeat).points 0
    · rw [if_pos (Or.inr h0)]
      exact ⟨rfl, fun seat => total_setInfo_points _ _ _ seat, rfl, rfl⟩
    · rw [if_neg (by simp [hl, h0])]
      exact ⟨rfl, fun _ => rfl, rfl, rfl⟩

theorem foldl_takeLeftover_shows (cards : List Int) : ∀ s : AI,
    (cards.foldl takeLeftover s).remainPoints = s.remainPoints ∧
    (∀ seat, (cards.foldl takeLeftover s).total seat = s.total seat) ∧
    (cards.foldl takeLeftover s).curHand = s.curHand ∧
    (cards.foldl takeLeftover s).curHandSeat = s.curHandSeat := by
  induction cards with
  | nil => intro s; exact ⟨rfl, fun _ => rfl, rfl, rfl⟩
  | cons card cards ih =>
    intro s
    obtain ⟨hremain, htotal, hhand, hseat⟩ := takeLeftover_shows s card
    obtain ⟨ihr, iht, ihh, ihs⟩ := ih (takeLeftover s card)
    exact ⟨ihr.trans hremain, fun seat => (iht seat).trans (htotal seat), ihh.trans hhand,
      ihs.trans hseat⟩

/-- Setting the lord: its total becomes twenty, as the bottom cards join its
hand on the table, and the counts of what is left in the game stay. -/
theorem countsTable_started {s : AI} {d : Deal} (hd : d.Legal) {lord : Int} (hl : Seat lord)
    (h : CountsTable s d.dealt) : CountsTable (s.rbtInSetLord lord d.bottom) (d.started lord) := by
  obtain ⟨hremain, htotal, hhand, hseat⟩ :=
    foldl_takeLeftover_shows (d.bottom.take 3) (s.seatLord lord d.bottom)
  refine ⟨fun r hr => ?_, fun i hi => ?_, ?_⟩
  · rw [unplayed_started d hl, ← h.remain r hr]
    exact congrFun hremain r
  · show (s.rbtInSetLord lord d.bottom).total i = (d.held lord i).length
    have hseated : (s.seatLord lord d.bottom).total i = if i = lord then 20 else s.total i :=
      total_setInfo ..
    rw [rbtInSetLord, htotal, hseated, h.total i hi]
    unfold Deal.held Deal.dealt
    split
    · rw [List.length_append, hd.three, hd.seventeen i hi]
      rfl
    · rfl
  · show (s.rbtInSetLord lord d.bottom).curHand.type = .nothing ∧
      (s.rbtInSetLord lord d.bottom).curHandSeat = -1
    unfold rbtInSetLord
    rw [hhand, hseat]
    exact h.current

/-- The robot in seat `seat` and the table, when the lord has the bottom cards. -/
def Deal.begin (d : Deal) (u : Undef) (s : AI) (seat lord : Int) : AI × Table :=
  ((s.rbtInInitCard u seat (d.hand seat)).rbtInSetLord lord d.bottom, d.started lord)

/-- The card counter is exact in every legal deal: after the deal, after the
lord has the bottom cards and after every call of any run of decisions and
plays. -/
theorem card_counter_exact (u : Undef) (s : AI) {d : Deal} (hd : d.Legal) {seat lord : Int}
    (hs : Seat seat) (hl : Seat lord) :
    CountsTable (s.rbtInInitCard u seat (d.hand seat)) d.dealt ∧
    ∀ calls : List Call,
      Along Call.step (fun x c => c.Legal x.2) (d.begin u s seat lord) calls →
        CountsTable (run Call.step (d.begin u s seat lord) calls).1
          (run Call.step (d.begin u s seat lord) calls).2 := by
  have hdealt := countsTable_dealt u s hd hs
  refine ⟨hdealt, fun calls hlegal => ?_⟩
  exact hlegal.inv (fun x => CountsTable x.1 x.2) (fun x c hx hc => hx.step hc)
    (countsTable_started hd hl hdealt)

/-- A robot in seat 2 of the ordered deal, asked before and after seat 0 has
led two threes and seat 1 has passed. -/
theorem card_counter_exact_pair :
    let calls : List Call := [.decide .zero, .played 0 [0, 13], .played 1 [], .decide .zero]
    CountsTable (({} : AI).rbtInInitCard .zero 2 (orderedDeal.hand 2)) orderedDeal.dealt ∧
    CountsTable (run Call.step (orderedDeal.begin .zero {} 2 0) calls).1
      (run Call.step (orderedDeal.begin .zero {} 2 0) calls).2 := by
  have h := @card_counter_exact .zero {} orderedDeal orderedDeal_legal 2 0
    ⟨by decide, by decide⟩ ⟨by decide, by decide⟩
  refine ⟨h.1, h.2 _ ⟨trivial, ⟨⟨by decide, by decide⟩, by decide⟩, ?_⟩⟩
  exact ⟨⟨⟨by decide, by decide⟩, List.nil_subperm⟩, trivial, trivial⟩

end RobotDdz
