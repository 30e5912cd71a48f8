import RobotDdz.Game.Seat
import RobotDdz.Task.Bidding
import RobotDdz.Task.Delays
import RobotDdz.Task.Outcomes

/-!
# Three robots at one table

Three task robots play a deal against each other, each on its own connection:
the cards are dealt, bids are notified, the lord is named and takes the bottom
cards, and from then on the play a robot requests is announced to all three,
with the next seat to move.

`robots_play`: robots of level 0 never make an illegal play, a request is
always waiting until somebody is out of cards, and that happens within 162
plays. The bids are arbitrary, and so is whatever each call meets from outside.

The one thing that can stop them on the way is the delay of an answer to a bid.
With one second configured it is a remainder by zero, which ends the process,
and so all three robots. `Heard` says that no bid does that, and the robots of
`robots_play` are configured otherwise.

A game goes through three stages: dealt (`HasHand`), told the lord
(`inRound_told`) and playing (`Live`). In the last the seat to move `Waits`
with its request, and the others are `InRound`.

The other two players of `Game/Seat` are robots here, so their plays are what
their own handlers request. `Live` is the invariant of the whole table, and one
step lemma (`Live.step`) says what an announcement does to all three: the robot
in turn has requested a legal play, everybody sees it, and the next one is
asked. That the game ends is the bound of `Game/Rules`.
-/

namespace RobotDdz

open AI Runs

/-- The cards a handler asks to play. There are none where the delay comes out
of a division by zero. -/
def Outcome.plays (r : Outcome) : Option (List Int) :=
  match r.node.request, r.node.delaySecond with
  | some (.takeOut cards), some _ => some cards
  | _, _ => none

/-- The three robots, the round as it really is, and the request of the seat to
move. -/
structure Robots where
  task : Int → RobotTask
  round : Round
  pending : Option (List Int)

namespace Robots

/-- What each robot does when the play of the seat to move is announced. -/
def announce (g : Robots) (o : Int → Outside) (cards : List Int) (i : Int) : Outcome :=
  (g.task i).recvTakeOutNotify (o i)
    (some { seatno := g.round.turn, seatnext := g.round.next, cards })

/-- One play: what the seat to move has requested is announced to all three. -/
def step (g : Robots) (o : Int → Outside) : Robots :=
  if g.round.Over then g
  else match g.pending with
    | none => g
    | some cards =>
      { task := fun i => (g.announce o cards i).task
        round := g.round.step cards
        pending := (g.announce o cards g.round.next).plays }

/-- The robot of seat `i` when it has been told the lord: after the deal, which
names the first bidder, and any bids. -/
def told (d : Deal) (lord headerseat : Int) (t : RobotTask) (o : Outside) (bids : List BidEvent) :
    RobotTask :=
  ((run RobotTask.bidStep (t.dealt o headerseat [d.hand 0, d.hand 1, d.hand 2])
    bids).recvGetLordNotify (some lord)).task

/-- The robot of a seat comes through the bids: none of its answers stops the
process. -/
def Heard (d : Deal) (headerseat : Int) (t : RobotTask) (o : Outside) (bids : List BidEvent) :
    Prop :=
  Along RobotTask.bidStep (fun t e => (t.recvUserCallScoreNotify e.1 (some e.2)).Computed)
    (t.dealt o headerseat [d.hand 0, d.hand 1, d.hand 2]) bids

/-- The three robots when the bottom cards have been announced. -/
def start (d : Deal) (lord headerseat : Int) (t : Int → RobotTask) (o o' : Int → Outside)
    (bids : Int → List BidEvent) : Robots :=
  let out i := (told d lord headerseat (t i) (o i) (bids i)).recvGetBaseCardNotify (o' i)
    (some d.bottom)
  { task := fun i => (out i).task
    round := ⟨d.started lord, lord⟩
    pending := (out lord).plays }

/-- While everybody has cards, a request waits, is a legal play, and is the
next play made. -/
def PlaysOn (g : Robots) (o : Int → Outside) : Prop :=
  ¬g.round.Over → ∃ cards, g.pending = some cards ∧ g.round.Legal cards ∧
    (g.step o).round = g.round.step cards

end Robots

/-! ## One robot's handlers -/

/-- A task robot of level 0 in a game. -/
structure InRound (lord seat : Int) (t : RobotTask) (tb : Table) : Prop where
  gamming : t.status = .gamming
  robot : AtTable lord seat t.robot tb
  level : LevelZero seat (t.robot, tb)

/-- A robot that has been asked for its play, with the cards it requested. -/
structure Waits (lord seat : Int) (r : Outcome) (tb : Table) : Prop where
  gamming : r.task.status = .gamming
  asked : ∃ s u, AtTable lord seat s tb ∧ LevelZero seat (s, tb) ∧
    r.task.robot = (s.rbtOutGetTakeOutCard u).1 ∧ r.plays = some (s.rbtOutGetTakeOutCard u).2

section Handlers

variable {lord seat : Int} {t : RobotTask} {tb : Table}

/-- The request for the robot's play. -/
theorem InRound.waits (h : InRound lord seat t tb) (o : Outside) (bottom : Bool) :
    Waits lord seat (t.sendTakeOutCardReq o bottom) tb := by
  have hplays : (t.sendTakeOutCardReq o bottom).plays
      = some (t.robot.rbtOutGetTakeOutCard o.undef).2 := by
    obtain ⟨delay, hdelay⟩ :=
      Option.ne_none_iff_exists'.mp (RobotTask.sendTakeOutCardReq_computed o t bottom)
    unfold Outcome.plays
    rw [hdelay]
    rfl
  exact ⟨h.gamming, t.robot, o.undef, h.robot, h.level, rfl, hplays⟩

/-- A play is announced: the robot sees it, and is asked when it is next. -/
theorem recvTakeOutNotify_gamming (ht : t.status = .gamming) (o : Outside) (ntf : TakeoutCardNtf) :
    t.recvTakeOutNotify o (some ntf) =
      if ntf.seatnext = t.robot.aiSeat then
        RobotTask.sendTakeOutCardReq o
          { t with robot := recvGetTakeOutCardNotify t.robot ntf.seatno ntf.cards } false
      else RobotTask.handled
        { t with robot := recvGetTakeOutCardNotify t.robot ntf.seatno ntf.cards } :=
  if_neg (not_not.mpr ht)

/-- The bottom cards are announced: the robot sees the lord take them, and the
lord is asked. -/
theorem recvGetBaseCardNotify_gamming (ht : t.status = .gamming) (o : Outside)
    (basecards : List Int) :
    t.recvGetBaseCardNotify o (some basecards) =
      if (t.robot.rbtInSetLord t.robot.lordSeat basecards).lordSeat
          = (t.robot.rbtInSetLord t.robot.lordSeat basecards).aiSeat then
        RobotTask.sendTakeOutCardReq o
          { t with robot := t.robot.rbtInSetLord t.robot.lordSeat basecards } true
      else RobotTask.handled
        { t with robot := t.robot.rbtInSetLord t.robot.lordSeat basecards } :=
  if_neg (not_not.mpr ht)

/-! ## Up to the first play -/

/-- A robot of level 0 that has been dealt its hand. -/
structure HasHand (d : Deal) (seat : Int) (t : RobotTask) : Prop where
  seated : RobotTask.Seated seat t
  robot : Dealt d seat t.robot
  level : t.robot.level = 0

/-- The deal: every robot gets the hand of its seat and stays at its level. -/
theorem hasHand_dealt {d : Deal} (hd : d.Legal) (hs : Seat seat) (ht : RobotTask.Seated seat t)
    (hlevel : t.robot.level = 0) (o : Outside) (headerseat : Int) :
    HasHand d seat (t.dealt o headerseat [d.hand 0, d.hand 1, d.hand 2]) := by
  obtain ⟨h0, h3⟩ := hs
  have hseat : seat = 0 ∨ seat = 1 ∨ seat = 2 := by omega
  have hhand : ([d.hand 0, d.hand 1, d.hand 2] : List (List Int)).getD seat.toNat []
      = d.hand seat := by
    rcases hseat with rfl | rfl | rfl <;> rfl
  have hrobot : (t.dealt o headerseat [d.hand 0, d.hand 1, d.hand 2]).robot
      = t.robot.rbtInInitCard o.undef seat (d.hand seat) := by
    unfold RobotTask.dealt RobotTask.recvInitHardCardNotify RobotTask.inGame
    rw [if_neg (not_not.mpr ht.gamming)]
    dsimp only
    rw [ht.seat, hhand, if_neg (by omega)]
    split <;> rfl
  have hrecord := RobotTask.dealt_record o headerseat [d.hand 0, d.hand 1, d.hand 2]
    (t := t) ⟨ht.gamming, rfl⟩ (by rw [ht.seat]; omega)
  refine ⟨?_, ?_, ?_⟩
  · rw [← ht.seat]
    exact hrecord.1
  · rw [hrobot]
    exact dealt_rbtInInitCard o.undef t.robot hd ⟨h0, h3⟩
  · rw [hrobot, level_rbtInInitCard]
    exact hlevel

/-- A bid is no card: what the robot is dealt, and its level, stay through any
bid, whether it is recorded or answered. -/
theorem HasHand.bidStep {d : Deal} (h : HasHand d seat t) (e : BidEvent) :
    HasHand d seat (t.bidStep e) := by
  obtain ⟨hseated, hrec, hskip⟩ := RobotTask.bidStep_record h.seated e
  cases hr : RobotTask.recorded seat e with
  | true =>
    have hcall : ∃ history caller score, t.robot.rbtInCallScore e.2.seatno e.2.score
        = { t.robot with callHistory := history, curCaller := caller, curScore := score } := by
      unfold rbtInCallScore
      dsimp only
      split <;> exact ⟨_, _, _, rfl⟩
    obtain ⟨_, _, _, heq⟩ := hcall
    have hrobot := h.robot
    refine ⟨hseated, ?_, ?_⟩
    · rw [hrec hr, heq]
      exact ⟨hrobot.aiSeat, hrobot.cards, hrobot.points,
        ⟨hrobot.counts.remain, hrobot.counts.total, hrobot.counts.current⟩⟩
    · rw [hrec hr, heq]
      exact h.level
  | false =>
    refine ⟨hseated, ?_, ?_⟩
    · rw [hskip hr]
      exact h.robot
    · rw [hskip hr]
      exact h.level

theorem HasHand.bids {d : Deal} (es : List BidEvent) : ∀ {t : RobotTask}, HasHand d seat t →
    HasHand d seat (run RobotTask.bidStep t es) := by
  induction es with
  | nil => intro t h; exact h
  | cons e es ih => intro t h; exact ih (h.bidStep e)

theorem same_bidStep (t : RobotTask) (e : BidEvent) : t.Same (t.bidStep e) :=
  RobotTask.same_handle e.1 (.callScore (some e.2)) rfl

/-- A robot that can compute its delays comes through the deal and the bids. -/
theorem heard_of_delay {d : Deal} (hdelay : t.delaySendPassiveMsgTime ≠ 1) (o : Outside)
    (headerseat : Int) (bids : List BidEvent) : Robots.Heard d headerseat t o bids := by
  have hdealt : t.Same (t.dealt o headerseat [d.hand 0, d.hand 1, d.hand 2]) :=
    RobotTask.same_handle o (.dealCard (some (headerseat, [d.hand 0, d.hand 1, d.hand 2]))) rfl
  have hstep : ∀ (t : RobotTask) (e : BidEvent), t.delaySendPassiveMsgTime ≠ 1 → True →
      (t.bidStep e).delaySendPassiveMsgTime ≠ 1 ∧
        (t.recvUserCallScoreNotify e.1 (some e.2)).Computed :=
    fun t e h _ => ⟨(same_bidStep t e).delay ▸ h,
      RobotTask.recvUserCallScoreNotify_computed h e.1 (some e.2)⟩
  exact (along_of_inv (W := fun _ => True) (fun t => t.delaySendPassiveMsgTime ≠ 1) hstep
    (fun _ _ => trivial) (hdealt.delay ▸ hdelay)).2

/-- The robot that has been told the lord takes the bottom cards as announced,
and is then at the table with the lord's hand of twenty. -/
theorem inRound_told {d : Deal} (hd : d.Legal) (hs : Seat seat) (hl : Seat lord)
    (ht : RobotTask.Seated seat t) (hlevel : t.robot.level = 0) (o : Outside) (headerseat : Int)
    (bids : List BidEvent) :
    let t' := Robots.told d lord headerseat t o bids
    t'.robot.lordSeat = lord ∧
      InRound lord seat { t' with robot := t'.robot.rbtInSetLord lord d.bottom }
        (d.started lord) := by
  have h := (hasHand_dealt hd hs ht hlevel o headerseat).bids bids
  have htold : Robots.told d lord headerseat t o bids
      = { run RobotTask.bidStep (t.dealt o headerseat [d.hand 0, d.hand 1, d.hand 2]) bids with
          robot := { (run RobotTask.bidStep (t.dealt o headerseat
            [d.hand 0, d.hand 1, d.hand 2]) bids).robot with lordSeat := lord } } := by
    unfold Robots.told RobotTask.recvGetLordNotify RobotTask.inGame
    rw [if_neg (not_not.mpr h.seated.gamming)]
    rfl
  intro t'
  have ht' : t' = _ := htold
  have hrobot := h.robot
  have hdealt : Dealt d seat t'.robot := by
    rw [ht']
    exact ⟨hrobot.aiSeat, hrobot.cards, hrobot.points,
      ⟨hrobot.counts.remain, hrobot.counts.total, hrobot.counts.current⟩⟩
  have hlevel' : t'.robot.level = 0 := by
    rw [ht']
    exact h.level
  refine ⟨by rw [ht'], ?_, (hdealt.liveSeat hd hl).robot, hdealt.levelZero hd hlevel' lord⟩
  rw [ht']
  exact h.seated.gamming

end Handlers

/-! ## From play to play -/

namespace Robots

variable {lord : Int}

/-- Every robot has the table right, and the seat to move has been asked. -/
structure Live (lord : Int) (g : Robots) : Prop where
  round : g.round.Sound
  first : g.round.table.last = none → lord = g.round.turn
  mover : ∃ r : Outcome, Waits lord g.round.turn r g.round.table ∧
    g.task g.round.turn = r.task ∧ g.pending = r.plays
  others : ∀ i, Seat i → i ≠ g.round.turn → InRound lord i (g.task i) g.round.table

/-- The play of the robot in turn, and what it leaves: a legal play, after
which every robot has the table right again. -/
theorem Live.announced {g : Robots} (h : Live lord g) (hover : ¬g.round.Over) :
    ∃ cards, g.pending = some cards ∧ g.round.Legal cards ∧ ∀ i, Seat i →
      (g.task i).status = .gamming ∧
      InRound lord i
        { g.task i with
          robot := recvGetTakeOutCardNotify (g.task i).robot g.round.turn cards }
        (g.round.step cards).table := by
  obtain ⟨r, ⟨hgamming, s, u, hs, hz, hrobot, hplays⟩, htask, hpending⟩ := h.mover
  have hturn := h.round.turn
  have ht := h.round.table
  have hallowed : SeatEvent.Allowed lord g.round.turn (s, g.round.table) (.own u) :=
    ⟨g.round.held_ne_nil hover hturn, h.first⟩
  have hown := hs.sees.plays_levelZero hturn ht hz hallowed
  refine ⟨(s.rbtOutGetTakeOutCard u).2, hpending.trans hplays, ⟨hover, hown.1⟩, fun i hi => ?_⟩
  by_cases hi' : i = g.round.turn
  · -- the mover sees its own play
    have hlive : LiveSeat lord g.round.turn (s, g.round.table) := ⟨hs, ht⟩
    have hstep := (hlive.step hturn hallowed hown).robot
    have hlevel := hz.step hturn hlive hallowed hown
    simp only [SeatEvent.step, hs.aiSeat] at hstep hlevel
    rw [hi', htask, hrobot]
    exact ⟨hgamming, hgamming, hstep, hlevel⟩
  · obtain ⟨hgam, hrob, hlev⟩ := h.others i hi hi'
    have hallowed' : SeatEvent.Allowed lord i ((g.task i).robot, g.round.table)
        (.other g.round.turn (s.rbtOutGetTakeOutCard u).2) :=
      ⟨hturn, Ne.symm hi', hown.1.held⟩
    exact ⟨hgam, hgam, hrob.other hturn (Ne.symm hi') hown.1.held,
      hlev.step hi ⟨hrob, ht⟩ hallowed' trivial⟩

/-- One play. What the robot in turn has requested is announced: it is legal,
every robot sees it, and the next seat is asked, which answers with a legal
play of its own. -/
theorem Live.step {g : Robots} (h : Live lord g) (hover : ¬g.round.Over) (o : Int → Outside) :
    Live lord (g.step o) ∧ g.PlaysOn o := by
  obtain ⟨cards, hpending, hlegal, hseen⟩ := h.announced hover
  have hstep : g.step o = {
      task := fun i => (g.announce o cards i).task
      round := g.round.step cards
      pending := (g.announce o cards g.round.next).plays } := by
    unfold Robots.step
    rw [if_neg hover, hpending]
  have hannounce : ∀ i, Seat i → g.announce o cards i
      = if g.round.next = i then
          RobotTask.sendTakeOutCardReq (o i)
            { g.task i with
              robot := recvGetTakeOutCardNotify (g.task i).robot g.round.turn cards } false
        else RobotTask.handled
          { g.task i with
            robot := recvGetTakeOutCardNotify (g.task i).robot g.round.turn cards } := by
    intro i hi
    obtain ⟨hgamming, hround⟩ := hseen i hi
    have hseat : (g.task i).robot.aiSeat = i := by
      have hkeep := hround.robot.aiSeat
      obtain ⟨_, _, _, _, _, _, heq, -⟩ := (g.task i).robot.rbtInTakeOutCard_eq g.round.turn cards
      obtain ⟨_, hvec⟩ := recvGetTakeOutCardNotify_eq (g.task i).robot g.round.turn cards
      simp only [hvec, heq] at hkeep
      exact hkeep
    unfold announce
    rw [recvTakeOutNotify_gamming hgamming, hseat]
  have hnext : Seat g.round.next := seat_emod _
  rw [hstep]
  refine ⟨⟨h.round.step hlegal, fun hnone => absurd hnone (Round.last_step hlegal), ?_, ?_⟩,
    fun _ => ⟨cards, hpending, hlegal, by rw [hstep]⟩⟩
  · refine ⟨g.announce o cards g.round.next, ?_, rfl, rfl⟩
    rw [hannounce _ hnext, if_pos rfl]
    exact (hseen _ hnext).2.waits (o g.round.next) false
  · intro i hi hne
    show InRound lord i (g.announce o cards i).task _
    rw [hannounce i hi, if_neg (fun he => hne he.symm)]
    exact (hseen i hi).2

/-- The table is set: the lord has been asked, and the others wait with their
cards. -/
theorem live_start {d : Deal} (hd : d.Legal) (hl : Seat lord) (headerseat : Int)
    {t : Int → RobotTask} (ht : ∀ i, Seat i → RobotTask.Seated i (t i) ∧ (t i).robot.level = 0)
    (o o' : Int → Outside) (bids : Int → List BidEvent) :
    Live lord (start d lord headerseat t o o' bids) := by
  have hout : ∀ i, Seat i → ∃ t', InRound lord i t' (d.started lord) ∧
      (told d lord headerseat (t i) (o i) (bids i)).recvGetBaseCardNotify (o' i) (some d.bottom)
        = if lord = i then t'.sendTakeOutCardReq (o' i) true else t'.handled := by
    intro i hi
    obtain ⟨hseat, hround⟩ :=
      inRound_told hd hi hl (ht i hi).1 (ht i hi).2 (o i) headerseat (bids i)
    refine ⟨_, hround, ?_⟩
    have haiSeat := hround.robot.aiSeat
    have hlordSeat : ((told d lord headerseat (t i) (o i) (bids i)).robot.rbtInSetLord lord
        d.bottom).lordSeat = lord := by
      obtain ⟨_, _, heq⟩ := (told d lord headerseat (t i) (o i)
        (bids i)).robot.rbtInSetLord_eq lord d.bottom
      rw [heq]
      rfl
    dsimp only at haiSeat
    have hgamming : (told d lord headerseat (t i) (o i) (bids i)).status = .gamming :=
      hround.gamming
    rw [recvGetBaseCardNotify_gamming hgamming, hseat, hlordSeat, haiSeat]
  refine ⟨⟨(hd.sound hl).1, hl⟩, fun _ => rfl, ?_, fun i hi hne => ?_⟩
  · obtain ⟨t', hround, heq⟩ := hout lord hl
    rw [if_pos rfl] at heq
    exact ⟨_, heq ▸ hround.waits (o' lord) true, rfl, rfl⟩
  · obtain ⟨t', hround, heq⟩ := hout i hi
    rw [if_neg (fun he => hne he.symm)] at heq
    show InRound lord i ((told d lord headerseat (t i) (o i) (bids i)).recvGetBaseCardNotify (o' i)
      (some d.bottom)).task _
    rw [heq]
    exact hround

/-- From a table that is set: as long as everybody has cards a request is
waiting, it is a legal play, and it is the next play of the round, and after as
many plays as the measure says somebody is out of cards. -/
theorem Live.plays {g : Robots} (h : Live lord g) (plays : List (Int → Outside)) :
    Live lord (run Robots.step g plays) ∧ Along Robots.step PlaysOn g plays ∧
      (g.round.measure ≤ plays.length → (run Robots.step g plays).round.Over) := by
  have hover : ∀ (g : Robots) (o : Int → Outside), g.round.Over → g.step o = g :=
    fun g o h => if_pos h
  have hstep : ∀ (g : Robots) (o : Int → Outside), Live lord g →
      Live lord (g.step o) ∧ g.PlaysOn o := by
    intro g o hg
    by_cases h : g.round.Over
    · rw [hover g o h]
      exact ⟨hg, fun hn => absurd h hn⟩
    · exact hg.step h o
  obtain ⟨hend, halong⟩ := along_of_inv (W := fun _ => True) (Live lord)
    (fun g o hg _ => hstep g o hg) (fun _ _ => trivial) h
  refine ⟨hend, halong, fun hlong => ?_⟩
  have hfalls : ∀ (g : Robots) (o : Int → Outside), Live lord g → ¬g.round.Over →
      Live lord (g.step o) ∧ (g.step o).round.measure < g.round.measure := by
    intro g o hg hn
    obtain ⟨hg', hplays⟩ := hg.step hn o
    obtain ⟨cards, -, hlegal, hround⟩ := hplays hn
    rw [hround]
    exact ⟨hg', Round.measure_step hg.round hlegal⟩
  rcases done_or_length_le (Live lord) (fun g => g.round.Over) (fun g => g.round.measure) hfalls
    (fun g o hg => by rw [hover g o hg]; exact hg) plays h with hdone | hle
  · exact hdone
  · -- with cards on the table the measure is not used up
    by_contra hnot
    have hcards := List.length_pos_iff.mpr
      (Round.held_ne_nil hnot (show Seat 0 from ⟨by decide, by decide⟩))
    have hpos : 0 < (run Robots.step g plays).round.measure := by
      unfold Round.measure Table.left
      omega
    omega

theorem measure_start {d : Deal} (hd : d.Legal) (hl : Seat lord) (headerseat : Int)
    (t : Int → RobotTask) (o o' : Int → Outside) (bids : Int → List BidEvent) :
    (start d lord headerseat t o o' bids).round.measure = 162 := by
  show 3 * (d.started lord).left + 0 = 162
  rw [(hd.sound hl).2]

/-- Three robots of level 0 that are not configured with a delay of one second
play a legal deal, whatever they bid and whoever is the lord: no bid stops
them; as long as everybody has cards a request is waiting, it is a legal play,
and it is the next play of the round; after 162 plays somebody is out of cards. -/
theorem robots_play {d : Deal} (hd : d.Legal) (hl : Seat lord) (headerseat : Int)
    {t : Int → RobotTask} (ht : ∀ i, Seat i → RobotTask.Seated i (t i) ∧ (t i).robot.level = 0)
    (hdelay : ∀ i, Seat i → (t i).delaySendPassiveMsgTime ≠ 1)
    (o o' : Int → Outside) (bids : Int → List BidEvent) (plays : List (Int → Outside)) :
    (∀ i, Seat i → Heard d headerseat (t i) (o i) (bids i)) ∧
    Along Robots.step PlaysOn (start d lord headerseat t o o' bids) plays ∧
    (162 ≤ plays.length →
      (run Robots.step (start d lord headerseat t o o' bids) plays).round.Over) := by
  obtain ⟨-, halong, hover⟩ := (live_start hd hl headerseat ht o o' bids).plays plays
  rw [measure_start hd hl] at hover
  exact ⟨fun i hi => heard_of_delay (hdelay i hi) (o i) headerseat (bids i), halong, hover⟩

/-- A robot of level 0 in a game, in a seat. -/
def seatedRobot (seat : Int) : RobotTask where
  robotId := seat
  isMatch := false
  delaySendActiveMsgTime := 5
  delaySendPassiveMsgTime := 4
  costId := 0
  status := .gamming
  robot := { aiSeat := seat }

/-- The ordered deal, with the second seat as the lord and the two bids that
made it so. -/
def orderedStart : Robots :=
  start orderedDeal 1 0 seatedRobot (fun _ => ⟨.zero, 0⟩) (fun _ => ⟨.zero, 0⟩)
    fun _ => [(⟨.zero, 0⟩, ⟨0, 1, 0⟩), (⟨.zero, 0⟩, ⟨1, 2, 2⟩)]

theorem robots_play_ordered :
    Along Robots.step PlaysOn orderedStart (List.replicate 162 fun _ => ⟨.zero, 0⟩) ∧
      (run Robots.step orderedStart (List.replicate 162 fun _ => ⟨.zero, 0⟩)).round.Over := by
  have hplay := robots_play orderedDeal_legal (show Seat 1 from ⟨by decide, by decide⟩) 0
    (t := seatedRobot) (fun _ _ => ⟨⟨rfl, rfl⟩, rfl⟩)
    (fun _ _ => show (4 : Int) ≠ 1 by decide) (fun _ => ⟨.zero, 0⟩) (fun _ => ⟨.zero, 0⟩)
    (fun _ => [(⟨.zero, 0⟩, ⟨0, 1, 0⟩), (⟨.zero, 0⟩, ⟨1, 2, 2⟩)])
    (List.replicate 162 fun _ => ⟨.zero, 0⟩)
  exact ⟨hplay.2.1, hplay.2.2 (by rw [List.length_replicate])⟩

end Robots

end RobotDdz
