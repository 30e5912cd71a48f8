import RobotDdz.AI.Knowledge
import RobotDdz.AI.Rotate
import RobotDdz.Task.Outcomes
import RobotDdz.Task.Scene

/-!
# The order of the notifications

`aiSeat` and `lordSeat` are `-1` from the scene on. `RecvGameStartNotify` sets
the one, `RecvGetLordNotify` the other, and a deal unsets the lord again. Of
the handlers that index an array with them only `RecvInitHardCardNotify` looks
whether they are set.

`seatsUsed` lists the seats a message's handler indexes with, `Safe` says that
they are seats of the table and that no robot without one asks to play.
`order_safe_iff` is the exact law, over every sequence of well-formed messages:
it is safe just when the bottom cards find the lord and the robot's seat set,
and the robot's turn finds the lord set where its level looks him up.

How the law is proved: `InPlay` is a robot in a game with its seats set or not,
and every handler of the game keeps it, fails or ends the game
(`InPlay.handle_stays`). So at every message the seats are each a seat of the
table or `-1`, and what the message's handler indexes with can be read off,
message by message (`seats_iff` and its special cases). `asks_to_play` adds the
only two messages after which a robot may be asked for a play.

Mirroring notes vs `RobotTask.cpp` and `OGLordRobotAI.cpp`:
- `RbtInTakeOutCard` looks up the seat of the message itself; the server's
  messages are well formed, so it is one of the table.
- `RbtInSetLord` takes the seat that `RecvGetLordNotify` has stored, not one
  from its own message, and steps round the table from it: at `-1` the
  neighbours are 0 and 1.
- `RbtInSetLord` prints the robot's own entry to the log. That read is listed
  as well.
-/

namespace RobotDdz

open Runs

/-! ## The seats used -/

namespace AI

/-- `RbtInInitCard`, which goes over the table and to the robot's own entry. -/
def rbtInInitCardSeats (argSeat : Int) : List Int := [0, 1, 2, argSeat]

/-- `RbtOutGetCallScore`. -/
def rbtOutGetCallScoreSeats (s : AI) : List Int := [s.aiSeat]

/-- `RbtInSetLord`; the robot's own entry is for the log. -/
def rbtInSetLordSeats (s : AI) (argLordSeat : Int) : List Int := [argLordSeat, s.aiSeat]

/-- `RbtInTakeOutCard`. -/
def rbtInTakeOutCardSeats (argSeat : Int) (argCards : List Int) : List Int :=
  if argCards.length = 0 then [] else [argSeat]

end AI

open AI

namespace RobotTask

/-- The seats that the handler of a message indexes an array with. -/
def seatsUsed (t : RobotTask) : Msg → List Int
  | .keepAck (some ack) =>
    if t.status ≠ .keepPlay ∨ ack.result ≠ 0 then []
    else match ack.playerinfo.findIdx? (·.1 = t.robotId) with
      | none => []
      | some index => (index : Int) :: 0 :: 1 :: 2 ::
          if ack.seatlord = -1 ∨ ack.seatlord = index then [] else [ack.seatlord]
  | .dealCard (some (headerseat, _)) =>
    let aiSeat := t.robot.aiSeat
    if t.status ≠ .gamming ∨ aiSeat = -1 then []
    else
      aiSeat :: rbtInInitCardSeats aiSeat
        ++ if headerseat = aiSeat then t.robot.rbtOutGetCallScoreSeats else []
  | .callScore (some ntf) =>
    if t.status ≠ .gamming ∨ ntf.seatnext = -1 ∨ ntf.seatnext ≠ t.robot.aiSeat then []
    else t.robot.rbtOutGetCallScoreSeats
  | .baseCard (some basecards) =>
    if t.status ≠ .gamming then []
    else
      let robot := t.robot.rbtInSetLord t.robot.lordSeat basecards
      t.robot.rbtInSetLordSeats t.robot.lordSeat
        ++ if robot.lordSeat = robot.aiSeat then robot.takeOutSeats else []
  | .takeOut (some ntf) =>
    if t.status ≠ .gamming then []
    else
      let robot := recvGetTakeOutCardNotify t.robot ntf.seatno ntf.cards
      rbtInTakeOutCardSeats ntf.seatno ntf.cards
        ++ if ntf.seatnext = t.robot.aiSeat then robot.takeOutSeats else []
  | _ => []

/-- A handling that goes to no entry outside the table and lets no robot
without a seat play. -/
structure SafeHandling (o : Outside) (t : RobotTask) (msg : Msg) : Prop where
  seats : ∀ i ∈ t.seatsUsed msg, Seat i
  play : ∀ r cards, t.handle o msg = some r → r.node.request = some (.takeOut cards) →
    Seat r.task.robot.aiSeat

end RobotTask

/-- Distinct cards of the deck. -/
def Cards (cards : List Int) : Prop := cards.Nodup ∧ ∀ card ∈ cards, ValidCard card

/-- Contents as they should be, where there are any. -/
def Msg.WellFormed : Msg → Prop
  | .startGame (some userinfo) => userinfo.length ≤ 3
  | .dealCard (some (headerseat, cards)) => Seat headerseat ∧ cards.length = 3 ∧ Cards cards.flatten
  | .callScore (some ntf) => Seat ntf.seatno ∧ (ntf.seatnext = -1 ∨ Seat ntf.seatnext)
  | .setLord (some seatlord) => Seat seatlord
  | .baseCard (some basecards) => basecards.length = 3 ∧ Cards basecards
  | .takeOut (some ntf) => Seat ntf.seatno ∧ Seat ntf.seatnext ∧ Cards ntf.cards
  | .trust (some seatno) => Seat seatno
  | _ => True

/-- The same of an event. -/
def LinkEvent.WellFormed : LinkEvent → Prop
  | .receive _ msg => msg.WellFormed
  | .heartBeatTime => True

/-- A turn that looks up no seat that is not set: the lord's is for the farmers
and for the levels above 1, those next to the lord's for the lord above level
1. -/
def AI.MayPlay (s : AI) : Prop :=
  s.level = 0 ∨ s.level = 1 ∧ s.aiPosition = .lord ∨
    s.lordSeat ≠ -1 ∧ (s.level = 1 ∨ s.aiPosition ≠ .lord ∨ s.downSeat ≠ -1 ∧ s.upSeat ≠ -1)

/-- The bottom cards come when the lord's and the robot's seat are set, and the
robot's turn when it may play. -/
def RobotTask.InOrder (t : RobotTask) : Msg → Prop
  | .baseCard (some _) => t.robot.lordSeat ≠ -1 ∧ t.robot.aiSeat ≠ -1
  | .takeOut (some ntf) => ntf.seatnext = t.robot.aiSeat → t.robot.MayPlay
  | _ => True

namespace Link

/-- A safe event. A closed connection delivers nothing. -/
def Safe (l : Link) : LinkEvent → Prop
  | .receive o msg => l.closed = true ∨ l.task.SafeHandling o msg
  | .heartBeatTime => True

/-- An event in order. -/
def InOrder (l : Link) : LinkEvent → Prop
  | .receive _ msg => l.closed = true ∨ l.task.InOrder msg
  | .heartBeatTime => True

end Link

/-! ## Seats that are set or not -/

/-- A seat of the table, or none yet. -/
def SeatOrNone (i : Int) : Prop := i = -1 ∨ Seat i

/-- Set is the same as being a seat of the table. -/
theorem SeatOrNone.seat_iff {i : Int} (h : SeatOrNone i) : Seat i ↔ i ≠ -1 := by
  constructor
  · intro hs hi
    unfold Seat at hs
    omega
  · exact h.resolve_left

/-- What holds of a robot's seats in a game. -/
structure SeatsKnown (s : AI) : Prop where
  aiSeat : SeatOrNone s.aiSeat
  lordSeat : SeatOrNone s.lordSeat
  downSeat : SeatOrNone s.downSeat
  upSeat : SeatOrNone s.upSeat
  curHandSeat : SeatOrNone s.curHandSeat

namespace SeatsKnown

variable {s s' : AI}

/-- Sorting the cards looks up seats of the table only: it tests the lord's
against `-1` first. -/
theorem sortSeats (hs : SeatsKnown s) : ∀ i ∈ s.sortSeats, Seat i := by
  intro i hi
  unfold AI.sortSeats at hi
  split at hi
  next => exact absurd hi List.not_mem_nil
  next hset =>
    rw [List.mem_singleton.mp hi]
    exact hs.lordSeat.seat_iff.mpr fun he => hset (Or.inl he)

/-- Following a hand looks up who played it, if somebody has. -/
theorem followSeats (hs : SeatsKnown s) : ∀ i ∈ s.followSeats, Seat i := by
  intro i hi
  unfold AI.followSeats at hi
  split at hi
  next => exact absurd hi List.not_mem_nil
  next hset =>
    rw [List.mem_singleton.mp hi]
    exact hs.curHandSeat.seat_iff.mpr fun he => hset (Or.inl he)

/-- If the turn looks up seats of the table only, then it asks for none that is
not set. -/
theorem mayPlay_of_seats (hs : SeatsKnown s) (hall : ∀ i ∈ s.takeOutSeats, Seat i) :
    s.MayPlay := by
  have hlord := hs.lordSeat.seat_iff
  by_cases h0 : s.level = 0
  · exact Or.inl h0
  · by_cases hor : s.aiPosition ≠ .lord ∨ s.level ≠ 1
    · have hset := hlord.mp (hall _ (s.lordSeat_mem (Or.inr ⟨h0, hor⟩)))
      refine Or.inr (Or.inr ⟨hset, ?_⟩)
      by_cases h1 : s.level = 1
      · exact Or.inl h1
      · by_cases hp : s.aiPosition = .lord
        · obtain ⟨hdown, hup⟩ := s.sides_mem h0 h1 hp
          exact Or.inr (Or.inr ⟨hs.downSeat.seat_iff.mp (hall _ hdown),
            hs.upSeat.seat_iff.mp (hall _ hup)⟩)
        · exact Or.inr (Or.inl hp)
    · obtain ⟨hp, h1⟩ := not_or.mp hor
      exact Or.inr (Or.inl ⟨not_not.mp h1, not_not.mp hp⟩)

/-- The other way round, for a robot that has a seat: the levels and roles one
by one. -/
theorem seats_of_mayPlay (hs : SeatsKnown s) (hai : Seat s.aiSeat) (hmay : s.MayPlay) :
    ∀ i ∈ s.takeOutSeats, Seat i := by
  have hlord := hs.lordSeat.seat_iff
  intro i hi
  rcases List.mem_append.mp hi with hi | hi
  · cases hi with
    | head => exact hai
    | tail _ hi => exact mem_table.mp hi
  · split at hi
    next => exact hs.sortSeats i hi
    next h0 =>
      split at hi
      next h1 =>
        rcases List.mem_append.mp hi with hi | hi
        · exact hs.sortSeats i hi
        · split at hi
          next => exact hs.followSeats i hi
          next hp =>
            rw [List.mem_singleton.mp hi]
            rcases hmay with h | ⟨-, h⟩ | ⟨hset, -⟩
            · exact absurd h h0
            · exact absurd h hp
            · exact hlord.mpr hset
      next h1 =>
        have hset : s.lordSeat ≠ -1 ∧ (s.level = 1 ∨ s.aiPosition ≠ .lord
            ∨ s.downSeat ≠ -1 ∧ s.upSeat ≠ -1) := by
          rcases hmay with h | ⟨h, -⟩ | h
          · exact absurd h h0
          · exact absurd h h1
          · exact h
        cases hi with
        | head => exact hlord.mpr hset.1
        | tail _ hi =>
          split at hi
          next hp =>
            obtain ⟨hdown, hup⟩ := (hset.2.resolve_left h1).resolve_left (not_not.mpr hp)
            cases hi with
            | head => exact hs.downSeat.seat_iff.mpr hdown
            | tail _ hi =>
              cases hi with
              | head => exact hs.upSeat.seat_iff.mpr hup
              | tail _ hi => exact hs.followSeats i hi
          next => exact absurd hi List.not_mem_nil

/-- The seats of a decision are all of the table just when the robot may play. -/
theorem takeOutSeats_iff (hs : SeatsKnown s) (hai : Seat s.aiSeat) :
    (∀ i ∈ s.takeOutSeats, Seat i) ↔ s.MayPlay :=
  ⟨hs.mayPlay_of_seats, hs.seats_of_mayPlay hai⟩

/-! ## What the calls do to the seats -/

/-- A reset unsets both seats. -/
theorem rbtResetData (s : AI) : SeatsKnown s.rbtResetData :=
  ⟨Or.inl rfl, Or.inl rfl, Or.inl rfl, Or.inl rfl, Or.inl rfl⟩

/-- A deal unsets the lord and takes the robot's seat as it is. -/
theorem rbtInInitCard (u : Undef) (hs : SeatsKnown s) (cards : List Int) :
    SeatsKnown (s.rbtInInitCard u s.aiSeat cards) := by
  have hseats : (s.rbtInInitCard u s.aiSeat cards).aiSeat = s.aiSeat
      ∧ (s.rbtInInitCard u s.aiSeat cards).lordSeat = -1
      ∧ (s.rbtInInitCard u s.aiSeat cards).downSeat = s.downSeat
      ∧ (s.rbtInInitCard u s.aiSeat cards).upSeat = s.upSeat
      ∧ (s.rbtInInitCard u s.aiSeat cards).curHandSeat = -1 := by
    unfold AI.rbtInInitCard AI.sortHandMap AI.countOpponents
    dsimp only
    split <;> exact ⟨rfl, rfl, rfl, rfl, rfl⟩
  obtain ⟨hai, hlord, hdown, hup, hcur⟩ := hseats
  exact ⟨hai ▸ hs.aiSeat, Or.inl hlord, hdown ▸ hs.downSeat, hup ▸ hs.upSeat, Or.inl hcur⟩

/-- Setting the lord sets the seats next to his. -/
theorem rbtInSetLord (hs : SeatsKnown s) {seat : Int} (hseat : SeatOrNone seat)
    (cards : List Int) : SeatsKnown (s.rbtInSetLord seat cards) := by
  obtain ⟨info, vec, heq⟩ := s.rbtInSetLord_eq seat cards
  rw [heq]
  exact ⟨hs.aiSeat, hseat, Or.inr (seat_emod _), Or.inr (seat_emod _), hs.curHandSeat⟩

/-- A play sets the seat of the hand to beat, which the message gives. -/
theorem recvGetTakeOutCardNotify (hs : SeatsKnown s) {seat : Int} (hseat : Seat seat)
    (cards : List Int) : SeatsKnown (recvGetTakeOutCardNotify s seat cards) := by
  obtain ⟨_, _, _, _, curHandSeat, _, heq, hcur⟩ := s.rbtInTakeOutCard_eq seat cards
  have hcur' : SeatOrNone curHandSeat := by
    rcases hcur with rfl | rfl
    · exact hs.curHandSeat
    · exact Or.inr hseat
  have hplayed : SeatsKnown (s.rbtInTakeOutCard seat cards) := by
    rw [heq]
    exact ⟨hs.aiSeat, hs.lordSeat, hs.downSeat, hs.upSeat, hcur'⟩
  unfold RobotDdz.recvGetTakeOutCardNotify
  dsimp only
  split
  · split
    · exact ⟨hplayed.aiSeat, hplayed.lordSeat, hplayed.downSeat, hplayed.upSeat,
        hplayed.curHandSeat⟩
    · exact hplayed
  · exact hplayed

/-- Deciding moves no seat. -/
theorem rbtOutGetTakeOutCard (u : Undef) (hs : SeatsKnown s) :
    SeatsKnown (s.rbtOutGetTakeOutCard u).1 := by
  have hshown := deciding_keeps_shown u s
  refine ⟨?_, ?_, ?_, ?_, ?_⟩
  · rw [eq_of_shown hshown AI.aiSeat]
    exact hs.aiSeat
  · rw [eq_of_shown hshown AI.lordSeat]
    exact hs.lordSeat
  · rw [eq_of_shown hshown AI.downSeat]
    exact hs.downSeat
  · rw [eq_of_shown hshown AI.upSeat]
    exact hs.upSeat
  · rw [eq_of_shown hshown AI.curHandSeat]
    exact hs.curHandSeat

/-- Taking cards back moves no seat. -/
theorem recoveryHandCards (hs : SeatsKnown s) : SeatsKnown s.recoveryHandCards :=
  ⟨hs.aiSeat, hs.lordSeat, hs.downSeat, hs.upSeat, hs.curHandSeat⟩

end SeatsKnown

/-! ## A robot in a game -/

/-- In a game, with its seats set or not. -/
structure InPlay (t : RobotTask) : Prop where
  status : t.status = .gamming
  seats : SeatsKnown t.robot

/-- An outcome that fails, ends the connection or leaves the robot in the game. -/
def Outcome.Stays (r : Outcome) : Prop :=
  r.ok = true → r.node.request ≠ none ∨ r.node.gameIsOver = false → InPlay r.task

section Handlers

variable {t : RobotTask} {o : Outside}

/-- A handler that fails ends the game. -/
theorem stays_failed (t : RobotTask) : t.failed.Stays := fun h => absurd h Bool.false_ne_true

/-- So does one that has the game over. -/
theorem stays_finished (t : RobotTask) : t.finished.Stays := by
  intro _ h
  rcases h with h | h
  · exact absurd rfl h
  · exact absurd h.symm Bool.false_ne_true

/-- An outcome that leaves the robot in the game. -/
theorem stays {r : Outcome} (h : InPlay r.task) : r.Stays := fun _ _ => h

/-- A handler of the game. -/
theorem InPlay.inGame {β : Type} (ht : InPlay t) (outside : Bool) (body : Option β)
    {k : β → Outcome} (hk : ∀ b, body = some b → (k b).Stays) :
    (t.inGame outside body k).Stays := by
  unfold RobotTask.inGame
  rw [if_neg (not_not.mpr ht.status)]
  cases body with
  | none => exact stays_failed t
  | some b => exact hk b rfl

/-- Another robot at the same point of the game. -/
theorem InPlay.set {t' : RobotTask} (ht : InPlay t) (hstatus : t'.status = t.status)
    (hs : SeatsKnown t'.robot) : InPlay t' := ⟨hstatus.trans ht.status, hs⟩

/-- Asking for a play leaves the robot in the game. -/
theorem InPlay.sendTakeOutCardReq (ht : InPlay t) (bottom : Bool) :
    (t.sendTakeOutCardReq o bottom).Stays :=
  stays (ht.set rfl (ht.seats.rbtOutGetTakeOutCard o.undef))

/-- The players' names: the robot's index among them is a seat of the table, as
there are three. -/
theorem InPlay.recvGameStartNotify (ht : InPlay t) {userinfo : Option (List Int)}
    (hm : (Msg.startGame userinfo).WellFormed) : (t.recvGameStartNotify userinfo).Stays := by
  apply ht.inGame
  intro users hu
  subst hu
  split
  next index hindex =>
    have hlt : index < users.length := (List.findIdx?_eq_some_iff_findIdx_eq.mp hindex).1
    have hthree : users.length ≤ 3 := hm
    have hseat : Seat index := ⟨by omega, by omega⟩
    have hs := ht.seats
    exact stays (ht.set rfl ⟨Or.inr hseat, hs.lordSeat, hs.downSeat, hs.upSeat, hs.curHandSeat⟩)
  next => exact stays ht

/-- A deal fails where the robot has no seat, and unsets the lord otherwise. -/
theorem InPlay.recvInitHardCardNotify (ht : InPlay t) (ntf : Option (Int × List (List Int))) :
    (t.recvInitHardCardNotify o ntf).Stays := by
  apply ht.inGame
  intro p _
  have hs := ht.seats.rbtInInitCard o.undef (p.2.getD t.robot.aiSeat.toNat [])
  dsimp only
  split
  next => exact stays_failed t
  next =>
    split
    · exact stays (ht.set rfl hs)
    · exact stays (ht.set rfl hs)

/-- A bid changes no seat, whether the robot answers it or not. -/
theorem InPlay.recvUserCallScoreNotify (ht : InPlay t) (ntf : Option UserCallScoreNtf) :
    (t.recvUserCallScoreNotify o ntf).Stays := by
  apply ht.inGame
  intro ntf _
  have hs := ht.seats
  split
  · exact stays ht
  · split
    · refine stays (ht.set rfl ?_)
      show SeatsKnown (t.robot.rbtInCallScore ntf.seatno ntf.score)
      unfold rbtInCallScore
      dsimp only
      split <;> exact ⟨hs.aiSeat, hs.lordSeat, hs.downSeat, hs.upSeat, hs.curHandSeat⟩
    · exact stays (ht.set rfl hs)

/-- The lord's seat comes from the message, so it is one of the table. -/
theorem InPlay.recvGetLordNotify (ht : InPlay t) {seatlord : Option Int}
    (hm : (Msg.setLord seatlord).WellFormed) : (t.recvGetLordNotify seatlord).Stays := by
  apply ht.inGame
  intro seat hseat
  subst hseat
  have hs := ht.seats
  exact stays (ht.set rfl ⟨hs.aiSeat, Or.inr hm, hs.downSeat, hs.upSeat, hs.curHandSeat⟩)

/-- The bottom cards go to the lord as he is known. -/
theorem InPlay.recvGetBaseCardNotify (ht : InPlay t) (basecards : Option (List Int)) :
    (t.recvGetBaseCardNotify o basecards).Stays := by
  apply ht.inGame
  intro cards _
  have hset : InPlay { t with robot := t.robot.rbtInSetLord t.robot.lordSeat cards } :=
    ht.set rfl (ht.seats.rbtInSetLord ht.seats.lordSeat cards)
  dsimp only
  split
  · exact hset.sendTakeOutCardReq true
  · exact stays hset

/-- A play, and the robot's own where the turn comes to it. -/
theorem InPlay.recvTakeOutNotify (ht : InPlay t) {ntf : Option TakeoutCardNtf}
    (hm : (Msg.takeOut ntf).WellFormed) : (t.recvTakeOutNotify o ntf).Stays := by
  apply ht.inGame
  intro ntf hntf
  subst hntf
  have hplayed : InPlay { t with
      robot := recvGetTakeOutCardNotify t.robot ntf.seatno ntf.cards } :=
    ht.set rfl (ht.seats.recvGetTakeOutCardNotify hm.1 ntf.cards)
  dsimp only
  split
  · exact hplayed.sendTakeOutCardReq false
  · exact stays hplayed

/-- Under trust the last cards come back to the hand, and the seats stay. -/
theorem InPlay.recvTrustNotify (ht : InPlay t) (seatno : Option Int) :
    (t.recvTrustNotify seatno).Stays := by
  apply ht.inGame
  intro seat _
  have hback : SeatsKnown (recvGetTrustNotify t.robot seat) := by
    unfold recvGetTrustNotify
    split
    · exact ht.seats.recoveryHandCards
    · exact ht.seats
  dsimp only
  split
  · exact stays (ht.set rfl hback)
  · exact stays (ht.set rfl hback)

/-- A play that is refused gives the cards back. -/
theorem InPlay.recvTakeOutAck (ht : InPlay t) (result : Option Int) :
    (t.recvTakeOutAck result).Stays := by
  apply ht.inGame
  intro result _
  have hback : SeatsKnown (recvTakeOutCardAck t.robot result) := by
    unfold recvTakeOutCardAck
    split
    · exact ht.seats.recoveryHandCards
    · exact ht.seats
  exact stays (ht.set rfl hback)

/-- An ack that is waited for in another status. -/
theorem InPlay.status_ne (ht : InPlay t) (status : RobotStatus) (h : status ≠ .gamming) :
    t.status ≠ status := by
  rw [ht.status]
  exact h.symm

/-- The answers that in a game are refused or only logged. -/
def Msg.Idle : Msg → Prop
  | .verifyAck _ | .initGameAck _ | .signUpConditionAck _ | .signUpAck _ | .quickStartAck _
  | .keepAck _ | .readyAck _ | .callScoreAck _ | .trustCancelAck _ | .cancelSignUpAck _ => True
  | _ => False

/-- The answers that are not waited for in a game leave everything as it is:
the handler fails or does nothing, by the status or by the body. -/
theorem InPlay.handle_idle (ht : InPlay t) {msg : Msg} (hmsg : msg.Idle) :
    t.handle o msg = some t.failed ∨ t.handle o msg = some t.handled := by
  have hgame : ∀ (outside : Bool) (body : Option Int), t.inGame outside body (fun _ => t.handled)
      = t.failed ∨ t.inGame outside body (fun _ => t.handled) = t.handled := by
    intro outside body
    unfold RobotTask.inGame
    rw [if_neg (not_not.mpr ht.status)]
    cases body with
    | none => exact Or.inl rfl
    | some _ => exact Or.inr rfl
  cases msg with
  | verifyAck ack => exact Or.inl (congrArg some (if_pos (ht.status_ne .init nofun)))
  | initGameAck result => exact Or.inl (congrArg some (if_pos (ht.status_ne .verified nofun)))
  | signUpConditionAck ack => exact Or.inl (congrArg some (if_pos (ht.status_ne .initGame nofun)))
  | keepAck ack => exact Or.inl (congrArg some (if_pos (ht.status_ne .keepPlay nofun)))
  | signUpAck result =>
    exact Or.inr (congrArg some ((if_pos (ht.status_ne .canSignUp nofun)).trans (if_pos ht.status)))
  | quickStartAck result =>
    exact Or.inr (congrArg some ((if_pos (ht.status_ne .initGame nofun)).trans (if_pos ht.status)))
  | readyAck result => exact (hgame true result).imp (congrArg some) (congrArg some)
  | callScoreAck result => exact (hgame false result).imp (congrArg some) (congrArg some)
  | trustCancelAck result => exact (hgame false result).imp (congrArg some) (congrArg some)
  | cancelSignUpAck result =>
    cases result with
    | none => exact Or.inl rfl
    | some result =>
      by_cases h : result ≠ 0
      · exact Or.inl (congrArg some (if_pos h))
      · exact Or.inr (congrArg some (if_neg h))
  | _ => exact absurd hmsg id

/-- A game goes on until it is over or a handler fails, message by message; the
seats the handlers write are seats of the table or none. -/
theorem InPlay.handle_stays (ht : InPlay t) {msg : Msg} (hm : msg.WellFormed) {r : Outcome}
    (hr : t.handle o msg = some r) : r.Stays := by
  by_cases hmsg : msg.Idle
  · rcases ht.handle_idle (o := o) hmsg with h | h
    · exact Option.some.inj (h.symm.trans hr) ▸ stays_failed t
    · exact Option.some.inj (h.symm.trans hr) ▸ stays ht
  · have hreset : SeatsKnown t.robot.rbtResetData := SeatsKnown.rbtResetData t.robot
    cases msg with
    | switchScene ntf =>
      obtain rfl := Option.some.inj hr
      unfold RobotTask.recvEnterGameSceneNotify
      cases ntf with
      | none => exact stays_failed t
      | some _ =>
        dsimp only
        split
        · exact stays ⟨rfl, hreset⟩
        · exact stays_failed t
    | startGame userinfo => exact Option.some.inj hr ▸ ht.recvGameStartNotify hm
    | dealCard ntf => exact Option.some.inj hr ▸ ht.recvInitHardCardNotify ntf
    | callScore ntf => exact Option.some.inj hr ▸ ht.recvUserCallScoreNotify ntf
    | setLord seatlord => exact Option.some.inj hr ▸ ht.recvGetLordNotify hm
    | baseCard basecards => exact Option.some.inj hr ▸ ht.recvGetBaseCardNotify basecards
    | takeOut ntf => exact Option.some.inj hr ▸ ht.recvTakeOutNotify hm
    | trust seatno => exact Option.some.inj hr ▸ ht.recvTrustNotify seatno
    | gameOver ntf =>
      obtain rfl := Option.some.inj hr
      cases ntf with
      | none => exact stays ht
      | some _ => exact stays_finished t
    | gameResult =>
      obtain rfl := Option.some.inj hr
      unfold RobotTask.recvGetGameResultNotify
      split
      · exact stays ⟨rfl, hreset⟩
      · exact stays_finished t
    | matchOver => exact Option.some.inj hr ▸ stays_finished t
    | takeOutAck result => exact Option.some.inj hr ▸ ht.recvTakeOutAck result
    | unhandled => exact absurd hr nofun
    | _ => exact absurd trivial hmsg

end Handlers

/-! ## A connection in a game -/

/-- Closed, or with a robot in a game. -/
def Link.InPlay (l : Link) : Prop := l.closed = true ∨ RobotDdz.InPlay l.task

/-- An outcome leaves the connection in the game or closes it. -/
theorem Link.inPlay_analysis {l : Link} {r : Outcome} (hok : r.ok = true) (hr : r.Stays) :
    ({ l with task := r.task }.analysisAndDecision r.node).InPlay := by
  unfold Link.analysisAndDecision
  split
  · exact Or.inl rfl
  · split
    · exact Or.inl rfl
    · split
      next request hrequest =>
        have ht := hr hok (Or.inl (by rw [hrequest]; exact Option.some_ne_none request))
        split
        · exact Or.inr ht
        · split
          · exact Or.inr ht
          · exact Or.inr ht
      next =>
        split
        next => exact Or.inl rfl
        next hover => exact Or.inr (hr hok (Or.inr (Bool.not_eq_true _ ▸ hover)))

/-- One event on the connection: it closes, or the robot stays in the game. On
a closed connection nothing is received. -/
theorem Link.inPlay_step {l : Link} (hl : l.InPlay) {e : LinkEvent} (he : e.WellFormed) :
    (l.step e).InPlay := by
  by_cases hc : l.closed = true
  · rw [Link.step_closed hc]
    exact Or.inl hc
  · have ht := hl.resolve_left hc
    unfold Link.step
    rw [if_neg hc]
    cases e with
    | heartBeatTime => exact Or.inr ht
    | receive o msg =>
      show (l.robotProcess o msg).1.InPlay
      unfold Link.robotProcess
      split
      next => exact Or.inr ht
      next r hr =>
        have hstays := ht.handle_stays he hr
        split
        next => exact Or.inl rfl
        next hok =>
          have hok' : r.ok = true := by simpa using hok
          exact Link.inPlay_analysis hok' hstays

/-! ## A message in order -/

section Message

variable {t : RobotTask} {o : Outside} {msg : Msg}

/-- What `RbtInSetLord` makes of the seats, from any robot. -/
theorem rbtInSetLord_seats (s : AI) (seat : Int) (cards : List Int) :
    (s.rbtInSetLord seat cards).aiSeat = s.aiSeat ∧ (s.rbtInSetLord seat cards).lordSeat = seat
      ∧ Seat (s.rbtInSetLord seat cards).downSeat ∧ Seat (s.rbtInSetLord seat cards).upSeat := by
  obtain ⟨info, vec, heq⟩ := s.rbtInSetLord_eq seat cards
  rw [heq]
  exact ⟨rfl, rfl, seat_emod _, seat_emod _⟩

/-- A play changes neither the robot's seat nor what its turn looks up. -/
theorem recvGetTakeOutCardNotify_turn (s : AI) (seat : Int) (cards : List Int) :
    (recvGetTakeOutCardNotify s seat cards).aiSeat = s.aiSeat ∧
      ((recvGetTakeOutCardNotify s seat cards).MayPlay ↔ s.MayPlay) := by
  obtain ⟨_, _, _, _, _, _, heq, -⟩ := s.rbtInTakeOutCard_eq seat cards
  have hplayed : (s.rbtInTakeOutCard seat cards).aiSeat = s.aiSeat
      ∧ ((s.rbtInTakeOutCard seat cards).MayPlay ↔ s.MayPlay) := by
    rw [heq]
    exact ⟨rfl, Iff.rfl⟩
  unfold recvGetTakeOutCardNotify
  dsimp only
  split
  · split
    · exact hplayed
    · exact hplayed
  · exact hplayed

/-- Asking for a play does not move the robot. -/
theorem sendTakeOutCardReq_aiSeat (o : Outside) (t : RobotTask) (bottom : Bool) :
    (t.sendTakeOutCardReq o bottom).task.robot.aiSeat = t.robot.aiSeat :=
  eq_of_shown (deciding_keeps_shown o.undef t.robot) AI.aiSeat

/-- The bottom cards look up the lord's seat and the robot's, and those of its
turn if the robot is the lord. All of them are set when the first two are. -/
theorem seats_baseCard_iff (ht : InPlay t) (cards : List Int) :
    (∀ i ∈ t.seatsUsed (.baseCard (some cards)), Seat i) ↔ t.InOrder (.baseCard (some cards)) := by
  have hlord := ht.seats.lordSeat.seat_iff
  have hai := ht.seats.aiSeat.seat_iff
  have hused : t.seatsUsed (.baseCard (some cards))
      = t.robot.rbtInSetLordSeats t.robot.lordSeat ++
        if (t.robot.rbtInSetLord t.robot.lordSeat cards).lordSeat
          = (t.robot.rbtInSetLord t.robot.lordSeat cards).aiSeat
        then (t.robot.rbtInSetLord t.robot.lordSeat cards).takeOutSeats else [] :=
    if_neg (not_not.mpr ht.status)
  rw [hused]
  constructor
  · intro hall
    have hset := fun i hi => hall i (List.mem_append_left _ hi)
    exact ⟨hlord.mp (hset _ List.mem_cons_self),
      hai.mp (hset _ (List.mem_cons_of_mem _ List.mem_cons_self))⟩
  · intro ⟨hl, ha⟩ i hi
    obtain ⟨hsame, hset, hdown, hup⟩ := rbtInSetLord_seats t.robot t.robot.lordSeat cards
    rcases List.mem_append.mp hi with hi | hi
    · cases hi with
      | head => exact hlord.mpr hl
      | tail _ hi => exact List.mem_singleton.mp hi ▸ hai.mpr ha
    · split at hi
      next =>
        -- the lord's neighbours have just been set
        have hseats := ht.seats.rbtInSetLord ht.seats.lordSeat cards
        have hmay : (t.robot.rbtInSetLord t.robot.lordSeat cards).MayPlay :=
          Or.inr (Or.inr ⟨fun he => hl (hset.symm.trans he), Or.inr (Or.inr
            ⟨hseats.downSeat.seat_iff.mp hdown, hseats.upSeat.seat_iff.mp hup⟩)⟩)
        exact (hseats.takeOutSeats_iff (hsame ▸ hai.mpr ha)).mpr hmay i hi
      next => exact absurd hi List.not_mem_nil

/-- A play looks up its own seat, and if the robot is next the seats its level
looks up, which `MayPlay` asks to be set. -/
theorem seats_takeOut_iff (ht : InPlay t) {ntf : TakeoutCardNtf}
    (hm : (Msg.takeOut (some ntf)).WellFormed) :
    (∀ i ∈ t.seatsUsed (.takeOut (some ntf)), Seat i) ↔ t.InOrder (.takeOut (some ntf)) := by
  obtain ⟨hseat, hnext, -⟩ := hm
  obtain ⟨hsame, hmay⟩ := recvGetTakeOutCardNotify_turn t.robot ntf.seatno ntf.cards
  have hseats := ht.seats.recvGetTakeOutCardNotify hseat ntf.cards
  have hused : t.seatsUsed (.takeOut (some ntf)) = rbtInTakeOutCardSeats ntf.seatno ntf.cards ++
      if ntf.seatnext = t.robot.aiSeat
      then (recvGetTakeOutCardNotify t.robot ntf.seatno ntf.cards).takeOutSeats else [] :=
    if_neg (not_not.mpr ht.status)
  have hplayed : ∀ i ∈ rbtInTakeOutCardSeats ntf.seatno ntf.cards, Seat i := by
    intro i hi
    unfold rbtInTakeOutCardSeats at hi
    split at hi
    · exact absurd hi List.not_mem_nil
    · exact List.mem_singleton.mp hi ▸ hseat
  rw [hused]
  by_cases hturn : ntf.seatnext = t.robot.aiSeat
  · have hiff := hseats.takeOutSeats_iff (hsame ▸ hturn ▸ hnext)
    rw [if_pos hturn]
    constructor
    · intro hall _
      exact hmay.mp (hiff.mp fun i hi => hall i (List.mem_append_right _ hi))
    · intro horder i hi
      rcases List.mem_append.mp hi with hi | hi
      · exact hplayed i hi
      · exact hiff.mpr (hmay.mpr (horder hturn)) i hi
  · rw [if_neg hturn, List.append_nil]
    exact ⟨fun _ he => absurd he hturn, fun _ => hplayed⟩

/-- A deal, which looks whether the robot's seat is set. -/
theorem seats_dealCard (ht : InPlay t) (ntf : Int × List (List Int)) :
    ∀ i ∈ t.seatsUsed (.dealCard (some ntf)), Seat i := by
  intro i hi
  dsimp only [RobotTask.seatsUsed] at hi
  split at hi
  next => exact absurd hi List.not_mem_nil
  next hset =>
    have hseat := ht.seats.aiSeat.seat_iff.mpr fun he => hset (Or.inr he)
    rcases List.mem_append.mp hi with hi | hi
    · cases hi with
      | head => exact hseat
      | tail _ hi =>
        rcases List.mem_append.mp (show i ∈ [0, 1, 2] ++ [t.robot.aiSeat] from hi) with hi | hi
        · exact mem_table.mp hi
        · exact List.mem_singleton.mp hi ▸ hseat
    · split at hi
      · exact List.mem_singleton.mp hi ▸ hseat
      · exact absurd hi List.not_mem_nil

/-- A bid, which the robot answers when the server names its seat. -/
theorem seats_callScore (ht : InPlay t) {ntf : UserCallScoreNtf} :
    ∀ i ∈ t.seatsUsed (.callScore (some ntf)), Seat i := by
  intro i hi
  dsimp only [RobotTask.seatsUsed] at hi
  split at hi
  next => exact absurd hi List.not_mem_nil
  next hset =>
    obtain ⟨hnext, hturn⟩ := not_or.mp (not_or.mp hset).2
    have hseat := ht.seats.aiSeat.seat_iff.mpr fun he => hnext ((not_not.mp hturn).trans he)
    exact List.mem_singleton.mp hi ▸ hseat

/-- The other messages look up no seat that is not set: the deal and a bid look
up the robot's own seat only when it is set, and the rest look up none. -/
theorem seats_iff (ht : InPlay t) (hm : msg.WellFormed) :
    (∀ i ∈ t.seatsUsed msg, Seat i) ↔ t.InOrder msg := by
  have hnone : (∀ i ∈ ([] : List Int), Seat i) ↔ True :=
    ⟨fun _ => trivial, fun _ i hi => absurd hi List.not_mem_nil⟩
  cases msg with
  | keepAck ack =>
    cases ack with
    | none => exact hnone
    | some ack =>
      have hused : t.seatsUsed (.keepAck (some ack)) = [] :=
        if_pos (Or.inl (ht.status_ne .keepPlay nofun))
      rw [hused]
      exact hnone
  | dealCard ntf =>
    cases ntf with
    | none => exact hnone
    | some ntf => exact ⟨fun _ => trivial, fun _ => seats_dealCard ht ntf⟩
  | callScore ntf =>
    cases ntf with
    | none => exact hnone
    | some ntf => exact ⟨fun _ => trivial, fun _ => seats_callScore ht⟩
  | baseCard basecards =>
    cases basecards with
    | none => exact hnone
    | some cards => exact seats_baseCard_iff ht cards
  | takeOut ntf =>
    cases ntf with
    | none => exact hnone
    | some ntf => exact seats_takeOut_iff ht hm
  | _ => exact hnone

/-- A handler of the game that leaves a request has read its body. -/
theorem inGame_request {β : Type} {outside : Bool} {body : Option β} {k : β → Outcome}
    {request : Request} (h : (t.inGame outside body k).node.request = some request) :
    ∃ b, body = some b ∧ (k b).node.request = some request := by
  unfold RobotTask.inGame at h
  split at h
  · exact absurd h nofun
  · cases body with
    | none => exact absurd h nofun
    | some b => exact ⟨b, rfl, h⟩

/-- The bottom cards do not move the robot. -/
theorem recvGetBaseCardNotify_aiSeat (ht : InPlay t) (cards : List Int) :
    (t.recvGetBaseCardNotify o (some cards)).task.robot.aiSeat = t.robot.aiSeat := by
  obtain ⟨hsame, -⟩ := rbtInSetLord_seats t.robot t.robot.lordSeat cards
  unfold RobotTask.recvGetBaseCardNotify RobotTask.inGame
  rw [if_neg (not_not.mpr ht.status)]
  dsimp only
  split
  · exact (sendTakeOutCardReq_aiSeat o _ true).trans hsame
  · exact hsame

/-- A play asks the robot for the next when the turn is its own. -/
theorem recvTakeOutNotify_asks (ht : InPlay t) {ntf : TakeoutCardNtf} {request : Request}
    (hask : (t.recvTakeOutNotify o (some ntf)).node.request = some request) :
    (t.recvTakeOutNotify o (some ntf)).task.robot.aiSeat = t.robot.aiSeat ∧
      ntf.seatnext = t.robot.aiSeat := by
  obtain ⟨hsame, -⟩ := recvGetTakeOutCardNotify_turn t.robot ntf.seatno ntf.cards
  obtain ⟨_, hb, hk⟩ := inGame_request hask
  obtain rfl := Option.some.inj hb
  dsimp only at hk
  split at hk
  next hturn =>
    refine ⟨?_, hturn⟩
    unfold RobotTask.recvTakeOutNotify RobotTask.inGame
    rw [if_neg (not_not.mpr ht.status)]
    dsimp only
    rw [if_pos hturn]
    exact (sendTakeOutCardReq_aiSeat o _ false).trans hsame
  next => exact absurd hk nofun

/-- The messages after which the robot may be asked to play. -/
def Msg.AsksToPlay : Msg → Prop
  | .baseCard _ | .takeOut _ => True
  | _ => False

/-- A request for a play comes from a message that may bring one. -/
theorem asksToPlay_of_request {r : Outcome} {cards : List Int}
    (hr : t.handle o msg = some r) (hask : r.node.request = some (.takeOut cards)) :
    msg.AsksToPlay := by
  cases RobotTask.handle_ends hr with
  | send _ hbrings =>
    obtain rfl := Option.some.inj hask
    cases msg with
    | baseCard _ => trivial
    | takeOut _ => trivial
    | _ => exact hbrings
  | failed => exact absurd hask nofun
  | handled => exact absurd hask nofun
  | finished => exact absurd hask nofun
  | tested => exact absurd hask nofun
  | deleted => exact absurd hask nofun

/-- Only the bottom cards and the robot's turn ask it to play. -/
theorem asks_to_play (ht : InPlay t) {r : Outcome} {cards : List Int}
    (hr : t.handle o msg = some r) (hask : r.node.request = some (.takeOut cards)) :
    r.task.robot.aiSeat = t.robot.aiSeat ∧ ((∃ basecards, msg = .baseCard (some basecards)) ∨
      ∃ ntf, msg = .takeOut (some ntf) ∧ ntf.seatnext = t.robot.aiSeat) := by
  have hmsg := asksToPlay_of_request hr hask
  cases msg with
  | baseCard basecards =>
    obtain rfl := Option.some.inj hr
    obtain ⟨basecards, rfl, -⟩ := inGame_request hask
    exact ⟨recvGetBaseCardNotify_aiSeat ht basecards, Or.inl ⟨basecards, rfl⟩⟩
  | takeOut ntf =>
    obtain rfl := Option.some.inj hr
    obtain ⟨ntf, rfl, -⟩ := inGame_request hask
    obtain ⟨hsame, hturn⟩ := recvTakeOutNotify_asks ht hask
    exact ⟨hsame, Or.inr ⟨ntf, rfl, hturn⟩⟩
  | _ => exact absurd hmsg id

/-- A message of a game is handled safely exactly when it comes in order. -/
theorem safeHandling_iff (ht : InPlay t) (hm : msg.WellFormed) :
    t.SafeHandling o msg ↔ t.InOrder msg := by
  constructor
  · intro hsafe
    exact (seats_iff ht hm).mp hsafe.seats
  · intro horder
    refine ⟨(seats_iff ht hm).mpr horder, fun r cards hr hask => ?_⟩
    obtain ⟨hsame, hmsg⟩ := asks_to_play ht hr hask
    rw [hsame]
    rcases hmsg with ⟨basecards, rfl⟩ | ⟨ntf, rfl, hturn⟩
    · exact ht.seats.aiSeat.seat_iff.mpr horder.2
    · exact hturn ▸ hm.2.1

end Message

/-! ## Every order -/

/-- The scene brings the robot into a game, or closes the connection. -/
theorem Link.inPlay_scene (l : Link) (o : Outside) :
    (l.step (.receive o (.switchScene (some ())))).InPlay := by
  by_cases hc : l.closed = true
  · rw [Link.step_closed hc]
    exact Or.inl hc
  · have hopen : l.closed = false := Bool.not_eq_true _ ▸ hc
    by_cases hs : l.task.status ∈ sceneStatuses
    · rw [step_scene hopen hs]
      exact Or.inr ⟨rfl, SeatsKnown.rbtResetData l.task.robot⟩
    · exact Or.inl (closed_scene hopen hs o)

/-- In every sequence of well-formed messages after the scene, the handlers
stay at the table and only a seated robot plays, exactly when the messages come
in order. -/
theorem order_safe_iff (l : Link) (o : Outside) {es : List LinkEvent}
    (hes : ∀ e ∈ es, e.WellFormed) :
    Along Link.step Link.Safe (l.step (.receive o (.switchScene (some ())))) es ↔
      Along Link.step Link.InOrder (l.step (.receive o (.switchScene (some ())))) es := by
  have hstep : ∀ (l : Link) (e : LinkEvent), l.InPlay → e.WellFormed → (l.step e).InPlay :=
    fun _ _ hl he => Link.inPlay_step hl he
  apply along_congr Link.InPlay _ hstep hes (Link.inPlay_scene l o)
  intro l e hl he
  cases e with
  | heartBeatTime => exact Iff.rfl
  | receive o msg =>
    by_cases hc : l.closed = true
    · exact ⟨fun _ => Or.inl hc, fun _ => Or.inl hc⟩
    · exact or_congr Iff.rfl (safeHandling_iff (hl.resolve_left hc) he)

/-- A robot that has signed up. -/
def signedUp : Link := { task := { matchRobot with status := .signUped } }

/-- A seat, the lord and the bottom cards. -/
def seatLordBase : List LinkEvent :=
  [.receive ⟨.zero, 0⟩ (.startGame (some [7, 8, 9])), .receive ⟨.zero, 0⟩ (.setLord (some 1)),
    .receive ⟨.zero, 0⟩ (.baseCard (some [51, 52, 53]))]

theorem order_safe_iff_seatLordBase :
    Along Link.step Link.Safe (signedUp.step (.receive ⟨.zero, 0⟩ (.switchScene (some ()))))
        seatLordBase ↔
      Along Link.step Link.InOrder
        (signedUp.step (.receive ⟨.zero, 0⟩ (.switchScene (some ())))) seatLordBase := by
  apply order_safe_iff
  intro e he
  cases he with
  | head => exact Nat.le_refl 3
  | tail _ he =>
    cases he with
    | head => exact ⟨by decide, by decide⟩
    | tail _ he =>
      rw [List.mem_singleton.mp he]
      exact ⟨rfl, by decide, by decide⟩

/-- The bottom cards right after the scene: the handler goes to the entries at
`-1`. -/
theorem baseCard_before_seats :
    (Msg.baseCard (some [51, 52, 53])).WellFormed ∧
      ¬Along Link.step Link.Safe (signedUp.step (.receive ⟨.zero, 0⟩ (.switchScene (some ()))))
        [.receive ⟨.zero, 0⟩ (.baseCard (some [51, 52, 53]))] := by
  refine ⟨⟨rfl, by decide, by decide⟩, fun hsafe => ?_⟩
  have hseat : Seat (-1) := (hsafe.1.resolve_left Bool.false_ne_true).seats (-1)
    List.mem_cons_self
  exact absurd hseat.1 (by decide)

end RobotDdz
