import RobotDdz.Game.Robots
import RobotDdz.Task.Stages

/-!
# A match

In a match the robots stay in the game when a game is over: the result resets
the robot, and the start of the next game tells it its seat by the ids of the
three players (`RecvGetGameResultNotify`, `RecvGameStartNotify`). A match is
any number of games one after another, each with any three of its robots in any
seats.

`match_plays`: robots of level 0 play every game of a match as they play the
first.

A game of a match is one step here (`step`), from the start of the game to the
reset at its result, and a match is a run of such steps. The step lemma,
`step_ready`, takes a game from any three robots that are ready to three robots
that are ready again; what happens within the game is `Live.plays` of the
module before, which starts from a table that is set and does not mind how it
was set.

Of what a robot keeps from one game to the next, the next game needs its id,
its level and its configured delay. The AI is reset and the seats are given
anew by the ids.
-/

namespace RobotDdz

open AI Runs

/-- A game of a match: the ids of the robots in the seats, the deal, the lord
and the first to bid, what the calls meet from outside, the bids that are
notified and the plays announced. -/
structure Game where
  seats : Int → Int
  deal : Deal
  lord : Int
  headerseat : Int
  outside : Int → Outside
  outside' : Int → Outside
  bids : Int → List BidEvent
  plays : List (Int → Outside)

namespace Match

/-- The robot in a seat when the game has started. -/
def seated (task : Int → RobotTask) (g : Game) (i : Int) : RobotTask :=
  ((task (g.seats i)).recvGameStartNotify (some [g.seats 0, g.seats 1, g.seats 2])).task

/-- The table when the bottom cards of the game have been announced. -/
def begun (task : Int → RobotTask) (g : Game) : Robots :=
  Robots.start g.deal g.lord g.headerseat (seated task g) g.outside g.outside' g.bids

/-- The robots of the match, by their ids, after a game and its result. -/
def step (task : Int → RobotTask) (g : Game) : Int → RobotTask := fun id =>
  match ([0, 1, 2] : List Int).find? fun i => g.seats i = id with
  | some i => ((run Robots.step (begun task g) g.plays).task i).recvGetGameResultNotify.task
  | none => task id

/-- A game: no bid stops the robots, every play is legal, and the plays last
until somebody is out of cards. -/
def PlaysOut (task : Int → RobotTask) (g : Game) : Prop :=
  (∀ i, Seat i →
    Robots.Heard g.deal g.headerseat (seated task g i) (g.outside i) (g.bids i)) ∧
  Along Robots.step Robots.PlaysOn (begun task g) g.plays ∧
    (run Robots.step (begun task g) g.plays).round.Over

/-- A robot of level 0 between the games of a match, not configured with a
delay of one second. -/
structure Ready (id : Int) (t : RobotTask) : Prop where
  robotId : t.robotId = id
  isMatch : t.isMatch = true
  gamming : t.status = .gamming
  level : t.robot.level = 0
  delay : t.delaySendPassiveMsgTime ≠ 1

/-- A game of three of the robots, with a legal deal and time to play it. -/
structure Proper (robots : List Int) (g : Game) : Prop where
  deal : g.deal.Legal
  lord : Seat g.lord
  robots : ∀ i, Seat i → g.seats i ∈ robots
  apart : ∀ i j, Seat i → Seat j → g.seats i = g.seats j → i = j
  long : 162 ≤ g.plays.length

/-! ## What a robot keeps -/

theorem same_bids (es : List BidEvent) :
    ∀ t : RobotTask, t.Same (run RobotTask.bidStep t es) := by
  induction es with
  | nil => exact RobotTask.same_refl
  | cons e es ih =>
    intro t
    exact (same_bidStep t e).trans (ih _)

theorem same_start (d : Deal) (lord headerseat : Int) (t : Int → RobotTask) (o o' : Int → Outside)
    (bids : Int → List BidEvent) (i : Int) :
    (t i).Same ((Robots.start d lord headerseat t o o' bids).task i) := by
  have hdealt : (t i).Same ((t i).dealt (o i) headerseat [d.hand 0, d.hand 1, d.hand 2]) :=
    RobotTask.same_handle (o i) (.dealCard (some (headerseat, [d.hand 0, d.hand 1, d.hand 2]))) rfl
  have hbids := hdealt.trans (same_bids (bids i) _)
  have htold : (t i).Same (Robots.told d lord headerseat (t i) (o i) (bids i)) :=
    hbids.trans (RobotTask.same_handle (o i) (.setLord (some lord)) rfl)
  exact htold.trans (RobotTask.same_handle (o' i) (.baseCard (some d.bottom)) rfl)

theorem same_step (g : Robots) (o : Int → Outside) (i : Int) :
    (g.task i).Same ((g.step o).task i) := by
  unfold Robots.step
  split
  · exact RobotTask.same_refl _
  · split
    · exact RobotTask.same_refl _
    next cards _ =>
      exact RobotTask.same_handle (o i)
        (.takeOut (some { seatno := g.round.turn, seatnext := g.round.next, cards })) rfl

theorem same_run (plays : List (Int → Outside)) (i : Int) :
    ∀ g : Robots, (g.task i).Same ((run Robots.step g plays).task i) := by
  induction plays with
  | nil => exact fun g => RobotTask.same_refl _
  | cons o plays ih => exact fun g => (same_step g o i).trans (ih _)

/-- At a table that is set every robot is in the game and of level 0. -/
theorem live_level {lord : Int} {g : Robots} (h : Robots.Live lord g) {i : Int} (hi : Seat i) :
    (g.task i).status = .gamming ∧ (g.task i).robot.level = 0 := by
  by_cases hturn : i = g.round.turn
  · obtain ⟨r, ⟨hgamming, s, u, -, hlevel, hrobot, -⟩, htask, -⟩ := h.mover
    rw [hturn, htask, hrobot]
    exact ⟨hgamming, (hlevel.asked u).level⟩
  · have hround := h.others i hi hturn
    exact ⟨hround.gamming, hround.level.level⟩

/-! ## From game to game -/

section Game

variable {robots : List Int} {task : Int → RobotTask} {g : Game}

/-- A robot that is told the players finds its seat. -/
theorem findIdx?_seat (hg : Proper robots g) {i : Int} (hi : Seat i) :
    ([g.seats 0, g.seats 1, g.seats 2] : List Int).findIdx? (· = g.seats i) = some i.toNat := by
  have hne : ∀ j, Seat j → j ≠ i → g.seats j ≠ g.seats i :=
    fun j hj hji he => hji (hg.apart j i hj hi he)
  obtain ⟨h0, h3⟩ := hi
  have hseat : i = 0 ∨ i = 1 ∨ i = 2 := by omega
  rcases hseat with rfl | rfl | rfl
  · simp [List.findIdx?_cons]
  · simp [List.findIdx?_cons, hne 0 ⟨by decide, by decide⟩]
  · simp [List.findIdx?_cons, hne 0 ⟨by decide, by decide⟩, hne 1 ⟨by decide, by decide⟩]

theorem seated_ready (hready : ∀ id ∈ robots, Ready id (task id)) (hg : Proper robots g) {i : Int}
    (hi : Seat i) : RobotTask.Seated i (seated task g i) ∧ (seated task g i).robot.level = 0 ∧
      (task (g.seats i)).Same (seated task g i) := by
  have ht := hready _ (hg.robots i hi)
  have hseated : seated task g i = { task (g.seats i) with
      robot := { (task (g.seats i)).robot with aiSeat := i.toNat } } := by
    unfold seated RobotTask.recvGameStartNotify RobotTask.inGame
    rw [if_neg (not_not.mpr ht.gamming)]
    dsimp only
    rw [ht.robotId, findIdx?_seat hg hi]
    rfl
  have hcast : ((i.toNat : Nat) : Int) = i := Int.toNat_of_nonneg hi.1
  rw [hseated]
  exact ⟨⟨ht.gamming, hcast⟩, ht.level, rfl, rfl, rfl⟩

/-- The table of the game is set. -/
theorem live_begun (hready : ∀ id ∈ robots, Ready id (task id)) (hg : Proper robots g) :
    Robots.Live g.lord (begun task g) :=
  Robots.live_start hg.deal hg.lord g.headerseat
    (fun _ hi => ⟨(seated_ready hready hg hi).1, (seated_ready hready hg hi).2.1⟩)
    g.outside g.outside' g.bids

/-- A game is played out, and leaves the robots ready for the next one: no bid
stops them, the plays last until somebody is out of cards, and the result
resets the AI and nothing a game needs. -/
theorem step_ready (hready : ∀ id ∈ robots, Ready id (task id)) (hg : Proper robots g) :
    (∀ id ∈ robots, Ready id (step task g id)) ∧ PlaysOut task g := by
  obtain ⟨hend, halong, hover⟩ := (live_begun hready hg).plays g.plays
  have hmeasure : (begun task g).round.measure = 162 :=
    Robots.measure_start hg.deal hg.lord g.headerseat _ g.outside g.outside' g.bids
  have hheard : ∀ i, Seat i →
      Robots.Heard g.deal g.headerseat (seated task g i) (g.outside i) (g.bids i) := by
    intro i hi
    have hdelay := (hready _ (hg.robots i hi)).delay
    exact heard_of_delay ((seated_ready hready hg hi).2.2.delay ▸ hdelay) _ _ _
  refine ⟨fun id hid => ?_, hheard, halong, hover (hmeasure ▸ hg.long)⟩
  unfold step
  split
  next i hfind =>
    have hi : Seat i := by
      have hmem := List.mem_of_find?_eq_some hfind
      simp only [List.mem_cons, List.not_mem_nil, or_false] at hmem
      rcases hmem with rfl | rfl | rfl <;> exact ⟨by decide, by decide⟩
    have hseat : g.seats i = id := by
      have hfound := List.find?_some hfind
      exact of_decide_eq_true hfound
    have ht := hready id hid
    have hsame : (task id).Same ((run Robots.step (begun task g) g.plays).task i) := by
      rw [← hseat]
      exact (seated_ready hready hg hi).2.2.trans
        ((same_start g.deal g.lord g.headerseat _ g.outside g.outside' g.bids i).trans
          (same_run g.plays i _))
    obtain ⟨-, hlevel⟩ := live_level hend hi
    generalize (run Robots.step (begun task g) g.plays).task i = t at hsame hlevel
    have hresult : t.recvGetGameResultNotify.task
        = { t with robot := t.robot.rbtResetData, status := .gamming } := by
      unfold RobotTask.recvGetGameResultNotify
      rw [if_pos (hsame.isMatch.trans ht.isMatch)]
      rfl
    rw [hresult]
    exact ⟨hsame.robotId.trans ht.robotId, hsame.isMatch.trans ht.isMatch, rfl, hlevel,
      hsame.delay.symm ▸ ht.delay⟩
  next => exact hready id hid

/-- Robots of level 0 that are not configured with a delay of one second play
every game of a match: whoever sits where and whatever is bid, no bid stops
them, as long as everybody has cards a request is waiting, which is a legal
play and the next play made, and the game ends with a player out of cards. -/
theorem match_plays (hready : ∀ id ∈ robots, Ready id (task id)) {gs : List Game}
    (hgs : ∀ g ∈ gs, Proper robots g) : Along step PlaysOut task gs := by
  have hstep : ∀ (task : Int → RobotTask) (g : Game), (∀ id ∈ robots, Ready id (task id)) →
      Proper robots g → (∀ id ∈ robots, Ready id (step task g id)) ∧ PlaysOut task g :=
    fun _ _ hready hg => step_ready hready hg
  exact (along_of_inv (fun task => ∀ id ∈ robots, Ready id (task id)) hstep hgs hready).2

end Game

/-- A robot of level 0 in a match. -/
def matchRobot (id : Int) : RobotTask where
  robotId := id
  isMatch := true
  delaySendActiveMsgTime := 5
  delaySendPassiveMsgTime := 4
  costId := 0
  status := .gamming

/-- A game of the ordered deal with no bids, for the robots 7, 8 and 9 from a
seat on. -/
def orderedGame (first : Int) : Game where
  seats i := 7 + (i + first) % 3
  deal := orderedDeal
  lord := 1
  headerseat := 0
  outside _ := ⟨.zero, 0⟩
  outside' _ := ⟨.zero, 0⟩
  bids _ := []
  plays := List.replicate 162 fun _ => ⟨.zero, 0⟩

theorem proper_orderedGame (first : Int) : Proper [7, 8, 9] (orderedGame first) := by
  refine ⟨orderedDeal_legal, show Seat 1 from ⟨by decide, by decide⟩, fun i hi => ?_,
    fun i j hi hj he => ?_, Nat.le_of_eq List.length_replicate.symm⟩
  · show 7 + (i + first) % 3 ∈ _
    simp only [List.mem_cons, List.not_mem_nil, or_false]
    omega
  · obtain ⟨hi0, hi3⟩ := hi
    obtain ⟨hj0, hj3⟩ := hj
    have he' : 7 + (i + first) % 3 = 7 + (j + first) % 3 := he
    omega

theorem match_plays_ordered :
    Along step PlaysOut matchRobot [orderedGame 0, orderedGame 1] := by
  have hgs : ∀ g ∈ [orderedGame 0, orderedGame 1], Proper [7, 8, 9] g := by
    simp [proper_orderedGame]
  exact match_plays (fun _ _ => ⟨rfl, rfl, rfl, rfl, show (4 : Int) ≠ 1 by decide⟩) hgs

end Match

end RobotDdz
