import RobotDdz.Old.Dispatch
import RobotDdz.Old.Robot

/-!
# The old client as a whole

The old client connects all its robots at the start and keeps them connected.
One of those that wait is made the header robot by `query_room_state_time_cb`;
its answers say how many of the others are sent into a game. A connection that
ends with an error is made again under another descriptor, one that the server
closes is not.

`server_run`: in every run at most one robot is the header robot, no robot has
two connections, and no connected robot is missing from `taskQueue_`.
`header_good_iff`: the client has a header robot that works, or chooses one at
the next chance, exactly as long as no message takes the header robot out of
its status; after such a message `headerRobot_` still names it, and nobody asks
for the room any more. `queued_once_iff`: a connected robot is in the queue
once exactly as long as no connection is made again under a descriptor that is
still queued.

Mirroring notes:
- `headerRobot_` is the descriptor of the header robot, zero where there is
  none, and is only reset when that connection ends (`EventCb`). A `disConnect`
  of the robot, as at 506, takes its entry out of `mapConn_` and leaves
  `headerRobot_`. `query_room_state_time_cb` then does nothing here, where the
  source goes on with the null connection that `mapConn_[headerRobot_]`
  inserts. Such a message deposes the header robot in the sense of
  `header_good_iff`, so that this side of it is not concerned with what
  follows.
- `SendMsg` leaves the answers to four messages to a timer; they are in
  `delayed` until it fires.

How the proofs go: `Keeps` and `Ends` say once what an event can do to the
three members that the results are about, `headerRobot_`, `mapConn_` and
`taskQueue_`. Every event but the end of a connection and the choice of a
header robot is a `Keeps`; the end of a connection is an `Ends`, with the
descriptor of the connection made again, if one is. The invariant, the header
robot and the queue are then three short arguments over these cases, and runs
are by the rules of `Lib/Runs`.
-/

namespace RobotDdz.Old

open Runs

/-- What is written to a connection. -/
inductive Sent where
  | verify | roomStat | cancelSignUp
  | request (request : Request)
deriving DecidableEq, Repr

/-- `EventProcess` of the old client, with `mapConn_` of its `TcpEventServer`:
the robot of each connection by descriptor. `delayed` are the requests that
wait for their timer. -/
structure Server where
  conf : Conf
  robotIQLevel : Int := 0
  headerRobot : Int := 0
  taskQueue : List (Int × Int)
  mapConn : Int → Option Robot
  written : Int → List Sent := fun _ => []
  delayed : List (Int × Request) := []

namespace Server

/-- `AddToWriteBuffer`. -/
def write (s : Server) (fd : Int) (sent : List Sent) : Server :=
  { s with written := Function.update s.written fd (s.written fd ++ sent) }

/-- The part of the client that `ChangeStatusForRobot` works on. -/
def proc (s : Server) : EventProcess :=
  { isMatch := s.conf.isMatch, taskQueue := s.taskQueue
    mapConn := fun fd => (s.mapConn fd).map Robot.status }

/-- `ChangeStatusForRobot`. -/
def changeStatusForRobot (s : Server) (robotNum : Int) : Server :=
  let p := s.proc.changeStatusForRobot robotNum
  { s with
    taskQueue := p.taskQueue
    mapConn := fun fd => (s.mapConn fd).map fun r =>
      { r with status := (p.mapConn fd).getD r.status }
    written := fun fd =>
      s.written fd ++ (p.written.filter (·.1 = fd)).map fun q => .request q.2 }

/-- `SendQueryRoomStatusReq`. -/
def sendQueryRoomStatusReq (s : Server) (fd : Int) (isTimer : Bool) : Server :=
  match s.mapConn fd with
  | none => s
  | some r =>
    if r.status ≠ .header then s
    else if s.conf.isTimeTrial && isTimer then s.write fd [.request .signUpCondition]
    else s.write fd [.roomStat]

/-- Whether `SendMsg` leaves the answer to a message to a timer. -/
def delays : Msg → Bool
  | .dealCard _ | .baseCard _ | .callScore _ | .takeOut _ => true
  | _ => false

/-- `SendMsg`. -/
def sendMsg (s : Server) (fd : Int) (msg : Msg) : Reply → Server
  | .gameInit => s.write fd [.request .initGame]
  | .sendQueryRoomStatusReq => s.sendQueryRoomStatusReq fd false
  | .changeStatusForRobot robotNum => s.changeStatusForRobot robotNum
  | .disConnect => { s with mapConn := Function.update s.mapConn fd none }
  | .send request =>
    if delays msg then { s with delayed := s.delayed ++ [(fd, request)] }
    else s.write fd [.request request]

/-- `ReadEvent` for one message. -/
def readEvent (rbtOutGetTakeOutCard : Undef → AI → AI × List Int) (s : Server) (fd : Int)
    (o : Outside) (msg : Msg) : Server :=
  match s.mapConn fd with
  | none => s
  | some r =>
    let p := r.robotProcess rbtOutGetTakeOutCard s.conf o msg
    let s := { s with mapConn := Function.update s.mapConn fd (some p.1) }
    match p.2 with
    | none => s
    | some reply => s.sendMsg fd msg reply

/-- `Verify`, for a robot in `INIT`. -/
def verify (s : Server) (fd : Int) : Server :=
  { s.write fd [.verify] with taskQueue := s.taskQueue ++ [(fd, 1)] }

/-- `ReConnect` with `ReConnentEvent`, given the descriptor if a connection is
made. A descriptor that is in `mapConn_` gets the new robot there. -/
def reConnect (s : Server) (robotId : Int) : Option Int → Server
  | none => s
  | some fd =>
    let robot : Robot := { robotId, robot := { level := s.robotIQLevel } }
    verify { s with mapConn := Function.update s.mapConn fd (some robot) } fd

/-- `EventCb` for the end of a connection, with `Event`. The entry of
`mapConn_` goes last. -/
def eventCb (s : Server) (fd : Int) (isErrorOccurence : Bool) (newFd : Option Int) : Server :=
  match s.mapConn fd with
  | none => s
  | some r =>
    let s := if fd = s.headerRobot then { s with headerRobot := 0 } else s
    let s := if isErrorOccurence then s.reConnect r.robotId newFd else s
    { s with mapConn := Function.update s.mapConn fd none }

/-- `query_room_state_time_cb`, given the robot it finds when there is no
header robot. -/
def queryRoomStateTimeCb (s : Server) (found : Option Int) : Server :=
  if s.headerRobot = 0 then
    match found with
    | none => s
    | some fd =>
      let mapConn := Function.update s.mapConn fd
        ((s.mapConn fd).map fun r => { r with status := .header })
      sendQueryRoomStatusReq { s with headerRobot := fd, mapConn } fd true
  else s.sendQueryRoomStatusReq s.headerRobot true

/-- `signal_cb`, up to the end of the event loop. -/
def signalCb (s : Server) : Server :=
  let leaves (r : Robot) : Bool := r.status = .signUped
  { s with
    written := fun fd => if (s.mapConn fd).any leaves then s.written fd ++ [.cancelSignUp]
      else s.written fd
    mapConn := fun fd => (s.mapConn fd).map fun r =>
      if leaves r then { r with status := .exitting } else r }

/-- `heart_beat_time_cb`. -/
def heartBeatTimeCb (s : Server) : Server :=
  { s with
    written := fun fd => if (s.mapConn fd).isSome then s.written fd ++ [.request .heartbeat]
      else s.written fd }

/-- `delay_send_msg_time_cb`. Nothing is known of the connection any more. -/
def delaySendMsgTimeCb (s : Server) (i : Nat) : Server :=
  match s.delayed[i]? with
  | none => s
  | some (fd, request) => { s.write fd [.request request] with delayed := s.delayed.eraseIdx i }

end Server

/-- What happens to the client. -/
inductive ServerEvent where
  | readEvent (fd : Int) (o : Outside) (msg : Msg)
  | eventCb (fd : Int) (isErrorOccurence : Bool) (newFd : Option Int)
  | queryRoomStateTimeCb (found : Option Int)
  | signalCb
  | heartBeatTimeCb
  | delaySendMsgTimeCb (i : Nat)

namespace Server

/-- A robot that waits to be sent into a game. -/
def Waits (s : Server) (fd : Int) : Prop := (s.mapConn fd).map Robot.status = some .waitSignUp

section Step

variable (rbtOutGetTakeOutCard : Undef → AI → AI × List Int)

/-- One event. -/
def step (s : Server) : ServerEvent → Server
  | .readEvent fd o msg => s.readEvent rbtOutGetTakeOutCard fd o msg
  | .eventCb fd isErrorOccurence newFd => s.eventCb fd isErrorOccurence newFd
  | .queryRoomStateTimeCb found => s.queryRoomStateTimeCb found
  | .signalCb => s.signalCb
  | .heartBeatTimeCb => s.heartBeatTimeCb
  | .delaySendMsgTimeCb i => s.delaySendMsgTimeCb i

/-- What can happen: what is read comes from a connection, a new descriptor is
none of those in use, but for the one just freed, and
`query_room_state_time_cb` finds the first robot that waits, if there is one. -/
def Allowed (s : Server) : ServerEvent → Prop
  | .readEvent fd _ _ => s.mapConn fd ≠ none
  | .eventCb fd _ (some newFd) => newFd ≠ 0 ∧ (newFd ≠ fd → s.mapConn newFd = none)
  | .queryRoomStateTimeCb none => s.headerRobot = 0 → ∀ fd, ¬s.Waits fd
  | .queryRoomStateTimeCb (some found) =>
    s.headerRobot = 0 → s.Waits found ∧ ∀ fd, s.Waits fd → found ≤ fd
  | _ => True

/-- `InitConnection` and `InitRobot`: one robot for each descriptor, in order,
which is verified and queued. -/
def start (conf : Conf) (robotIQLevel robotIdStart : Int) (fds : List Int) : Server :=
  { conf, robotIQLevel
    taskQueue := fds.map fun fd => (fd, 1)
    mapConn := fun fd => (fds.idxOf? fd).map fun index : Nat =>
      { robotId := robotIdStart + index, robot := { level := robotIQLevel } }
    written := fun fd => if fd ∈ fds then [.verify] else [] }

/-- How often a descriptor is in the queue. -/
def queued (s : Server) (fd : Int) : Nat := s.proc.queued fd

/-- What holds in every run: one header robot at most, one connection for a
robot, and every robot in the queue. No descriptor is the 0 that stands for no
header robot. -/
structure Inv (s : Server) : Prop where
  one : ∀ fd r, s.mapConn fd = some r → r.status = .header → fd = s.headerRobot
  ids : ∀ fd fd' r r', s.mapConn fd = some r → s.mapConn fd' = some r' →
    r.robotId = r'.robotId → fd = fd'
  queued : ∀ fd r, s.mapConn fd = some r → 0 < s.queued fd
  zero : s.mapConn 0 = none

/-- If there is a header robot, its connection is open and it is in its status. -/
def Good (s : Server) : Prop :=
  s.headerRobot ≠ 0 → ∃ r, s.mapConn s.headerRobot = some r ∧ r.status = .header

/-- The header robot is sent a message that takes it out of its status. -/
def Deposed (s : Server) : ServerEvent → Prop
  | .readEvent fd _ msg => fd = s.headerRobot ∧ Robot.Deposes s.conf msg
  | _ => False

/-- Every connected robot is in the queue once. -/
def QueuedOnce (s : Server) : Prop := ∀ fd r, s.mapConn fd = some r → s.queued fd = 1

/-- A connection is made again under a descriptor that is still in the queue. -/
def Requeued (s : Server) : ServerEvent → Prop
  | .eventCb fd true (some newFd) => s.mapConn fd ≠ none ∧ newFd ≠ fd ∧ s.queued newFd ≠ 0
  | _ => False

/-! ## One event -/

variable {s s' : Server} {fd : Int}

/-- What only the end of a connection and the choice of a header robot change. -/
structure Keeps (s s' : Server) : Prop where
  header : s'.headerRobot = s.headerRobot
  robots : ∀ fd r', s'.mapConn fd = some r' → ∃ r, s.mapConn fd = some r ∧
    r'.robotId = r.robotId ∧ (r'.status = .header → r.status = .header)
  queued : ∀ fd r, s'.mapConn fd = some r → s'.queued fd = s.queued fd

/-- What leaves the three members alone keeps them. -/
theorem Keeps.same (hh : s'.headerRobot = s.headerRobot) (hm : s'.mapConn = s.mapConn)
    (hq : s'.taskQueue = s.taskQueue) : Keeps s s' := by
  refine ⟨hh, fun fd r' hr' => ⟨r', hm ▸ hr', rfl, id⟩, fun fd _ _ => ?_⟩
  show (s'.taskQueue.map Prod.fst).count fd = (s.taskQueue.map Prod.fst).count fd
  rw [hq]

/-- What holds through two steps of an event holds through the event. -/
theorem Keeps.trans {s'' : Server} (h : Keeps s s') (h' : Keeps s' s'') : Keeps s s'' := by
  refine ⟨h'.header.trans h.header, fun fd r'' hr'' => ?_, fun fd r'' hr'' => ?_⟩
  · obtain ⟨r', hr', hid', hs'⟩ := h'.robots fd r'' hr''
    obtain ⟨r, hr, hid, hs⟩ := h.robots fd r' hr'
    exact ⟨r, hr, hid'.trans hid, fun he => hs (hs' he)⟩
  · obtain ⟨r', hr', -⟩ := h'.robots fd r'' hr''
    exact (h'.queued fd r'' hr'').trans (h.queued fd r' hr')

/-- The invariant goes by the three members only, so a step that keeps them
keeps it. -/
theorem Inv.keeps (h : Inv s) (hk : Keeps s s') : Inv s' := by
  refine ⟨fun fd r' hr' hs' => ?_, fun fd fd' r r' hr hr' hi => ?_, fun fd r' hr' => ?_, ?_⟩
  · obtain ⟨r, hr, -, hs⟩ := hk.robots fd r' hr'
    rw [hk.header]
    exact h.one fd r hr (hs hs')
  · obtain ⟨q, hq, hiq, -⟩ := hk.robots fd r hr
    obtain ⟨q', hq', hiq', -⟩ := hk.robots fd' r' hr'
    exact h.ids fd fd' q q' hq hq' (hiq.symm.trans (hi.trans hiq'))
  · obtain ⟨r, hr, -⟩ := hk.robots fd r' hr'
    rw [hk.queued fd r' hr']
    exact h.queued fd r hr
  · cases hz : s'.mapConn 0 with
    | none => rfl
    | some r' =>
      obtain ⟨r, hr, -⟩ := hk.robots 0 r' hz
      rw [h.zero] at hr
      exact nomatch hr

/-- A connection goes. -/
theorem keeps_erase (s : Server) (fd : Int) :
    Keeps s { s with mapConn := Function.update s.mapConn fd none } := by
  refine ⟨rfl, fun fd' r' hr' => ?_, fun _ _ _ => rfl⟩
  by_cases he : fd' = fd
  · rw [he] at hr'
    replace hr' : Function.update s.mapConn fd none fd = some r' := hr'
    rw [Function.update_self] at hr'
    exact nomatch hr'
  · replace hr' : Function.update s.mapConn fd none fd' = some r' := hr'
    rw [Function.update_of_ne he] at hr'
    exact ⟨r', hr', rfl, id⟩

/-- What `ChangeStatusForRobot` does to a robot: it is asked if it waits, or
left alone. -/
theorem changeStatus_robot {n : Int} (hn : 0 ≤ n) {r : Robot} (hr : s.mapConn fd = some r) :
    r.status = .waitSignUp ∧
        (s.changeStatusForRobot n).mapConn fd = some { r with status := .initGame } ∨
      (s.changeStatusForRobot n).mapConn fd = some r := by
  have hd := EventProcess.chooseRobots_dispatched s.proc.taskQueue [] n.toNat s.proc
    (List.append_nil _).symm
  rw [Int.toNat_of_nonneg hn] at hd
  have hproc : s.proc.mapConn fd = some r.status := by
    show (s.mapConn fd).map Robot.status = _
    rw [hr]
    rfl
  have hstatus := hd.status fd
  have hmap : (s.changeStatusForRobot n).mapConn fd = some { r with
      status := ((EventProcess.chooseRobots s.proc.taskQueue.length n s.proc).mapConn fd).getD
        r.status } := by
    show (s.mapConn fd).map _ = _
    rw [hr]
    rfl
  rw [hmap, hstatus, hproc]
  split
  next hin =>
    have hwaits := (EventProcess.mem_waiting.mp (List.mem_of_mem_take hin)).2
    rw [hproc] at hwaits
    exact .inl ⟨Option.some.inj hwaits, rfl⟩
  next => exact .inr rfl

/-- `ChangeStatusForRobot` asks robots of the queue and queues them again.
Nobody becomes the header robot, and nobody leaves the queue. -/
theorem keeps_changeStatus {n : Int} (hn : 0 ≤ n) : Keeps s (s.changeStatusForRobot n) := by
  have hback : ∀ fd r', (s.changeStatusForRobot n).mapConn fd = some r' →
      ∃ r, s.mapConn fd = some r := by
    intro fd r' hr'
    replace hr' : (s.mapConn fd).map _ = some r' := hr'
    obtain ⟨r, hr, -⟩ := Option.map_eq_some_iff.mp hr'
    exact ⟨r, hr⟩
  refine ⟨rfl, fun fd r' hr' => ?_, fun fd r' hr' => ?_⟩
  · obtain ⟨r, hr⟩ := hback fd r' hr'
    refine ⟨r, hr, ?_⟩
    rcases changeStatus_robot hn hr with ⟨-, he⟩ | he
    · obtain rfl := Option.some.inj (he.symm.trans hr')
      exact ⟨rfl, fun hs => RobotStatus.noConfusion hs⟩
    · obtain rfl := Option.some.inj (he.symm.trans hr')
      exact ⟨rfl, id⟩
  · obtain ⟨r, hr⟩ := hback fd r' hr'
    have hd := EventProcess.chooseRobots_dispatched s.proc.taskQueue [] n.toNat s.proc
      (List.append_nil _).symm
    rw [Int.toNat_of_nonneg hn] at hd
    refine hd.live fd ?_
    show ((s.mapConn fd).map Robot.status).isSome = true
    rw [hr]
    rfl

/-- What `SendMsg` leaves alone. -/
theorem keeps_sendMsg (msg : Msg) {reply : Reply}
    (hpos : ∀ n, reply = .changeStatusForRobot n → 0 < n) : Keeps s (s.sendMsg fd msg reply) := by
  unfold sendMsg
  cases reply with
  | gameInit => exact .same rfl rfl rfl
  | sendQueryRoomStatusReq =>
    dsimp only
    unfold sendQueryRoomStatusReq
    split
    · exact .same rfl rfl rfl
    · split_ifs <;> exact .same rfl rfl rfl
  | changeStatusForRobot n => exact keeps_changeStatus (Int.le_of_lt (hpos n rfl))
  | disConnect => exact keeps_erase s fd
  | send request =>
    dsimp only
    split <;> exact .same rfl rfl rfl

/-- A robot after its operation. -/
theorem keeps_operation {r : Robot} (hr : s.mapConn fd = some r) {p : Robot × Option Reply}
    (hp : r.Moves p) : Keeps s { s with mapConn := Function.update s.mapConn fd (some p.1) } := by
  refine ⟨rfl, fun fd' r' hr' => ?_, fun _ _ _ => rfl⟩
  replace hr' : Function.update s.mapConn fd (some p.1) fd' = some r' := hr'
  by_cases he : fd' = fd
  · rw [he, Function.update_self] at hr'
    obtain rfl := Option.some.inj hr'
    exact ⟨r, he ▸ hr, hp.robotId, hp.header⟩
  · rw [Function.update_of_ne he] at hr'
    exact ⟨r', hr', rfl, id⟩

/-- A message: the operation, the answer, and what a `disConnect` of the robot
takes with it. -/
theorem keeps_readEvent (o : Outside) (msg : Msg) :
    Keeps s (s.readEvent rbtOutGetTakeOutCard fd o msg) := by
  unfold readEvent
  cases hr : s.mapConn fd with
  | none => exact .same rfl rfl rfl
  | some r =>
    have hmoves := Robot.robotProcess_moves (r := r) rbtOutGetTakeOutCard s.conf o msg
    have hop := keeps_operation hr hmoves
    dsimp only
    cases hreply : (r.robotProcess rbtOutGetTakeOutCard s.conf o msg).2 with
    | none => exact hop
    | some reply =>
      refine hop.trans (keeps_sendMsg msg fun n hn => hmoves.pos n ?_)
      rw [hreply, hn]

/-! ### The end of a connection -/

/-- The new robot of a connection that is made again. -/
def newRobot (s : Server) (robotId : Int) : Robot :=
  { robotId, robot := { level := s.robotIQLevel } }

/-- A connection ends: it is gone, or made again under another descriptor. -/
structure Ends (s s' : Server) (fd : Int) (r : Robot) (again : Option Int) : Prop where
  header : s'.headerRobot = if fd = s.headerRobot then 0 else s.headerRobot
  robots : s'.mapConn = match again with
    | none => Function.update s.mapConn fd none
    | some newFd => Function.update (Function.update s.mapConn fd none) newFd
        (some (s.newRobot r.robotId))
  queued : ∀ x, x ≠ fd → s'.queued x = s.queued x + if again = some x then 1 else 0

/-- A descriptor pushed to the end is in the queue once more. -/
theorem queued_append (s : Server) (newFd x : Int) :
    queued { s with taskQueue := s.taskQueue ++ [(newFd, 1)] } x
      = s.queued x + if newFd = x then 1 else 0 := by
  show ((s.taskQueue ++ [(newFd, 1)]).map Prod.fst).count x = (s.taskQueue.map Prod.fst).count x + _
  rw [List.map_append, List.count_append]
  show _ + [newFd].count x = _
  rw [List.count_singleton]
  simp only [beq_iff_eq]

/-- Whether a connection is made again. -/
def madeAgain (fd : Int) (isErrorOccurence : Bool) (newFd : Option Int) : Option Int :=
  if isErrorOccurence then newFd.filter (· ≠ fd) else none

/-- A descriptor without a robot is let go. -/
theorem eventCb_of_none (hr : s.mapConn fd = none) (isErrorOccurence : Bool)
    (newFd : Option Int) : s.eventCb fd isErrorOccurence newFd = s := by
  unfold Server.eventCb
  rw [hr]

/-- The end of a connection. The robot of a connection made again goes under
the new descriptor, and the entry of the old one is erased last, so that one
made again under its own descriptor is lost (`madeAgain`). -/
theorem ends_eventCb {r : Robot} (hr : s.mapConn fd = some r) (isErrorOccurence : Bool)
    (newFd : Option Int) :
    Ends s (s.eventCb fd isErrorOccurence newFd) fd r (madeAgain fd isErrorOccurence newFd) := by
  -- the flag for the header robot touches nothing else
  have hs₁ : ∀ s₁ : Server, s₁ = (if fd = s.headerRobot then { s with headerRobot := 0 } else s) →
      s₁.headerRobot = (if fd = s.headerRobot then 0 else s.headerRobot) ∧ s₁.mapConn = s.mapConn ∧
        s₁.taskQueue = s.taskQueue ∧ s₁.robotIQLevel = s.robotIQLevel := by
    intro s₁ he
    rw [he]
    split <;> exact ⟨rfl, rfl, rfl, rfl⟩
  unfold eventCb
  simp only [hr]
  generalize hgen : (if fd = s.headerRobot then { s with headerRobot := 0 } else s) = s₁
  obtain ⟨hheader, hmap, hqueue, hlevel⟩ := hs₁ s₁ hgen.symm
  have hcount : ∀ x, s₁.queued x = s.queued x := by
    intro x
    show (s₁.taskQueue.map Prod.fst).count x = (s.taskQueue.map Prod.fst).count x
    rw [hqueue]
  cases isErrorOccurence with
  | false =>
    refine ⟨hheader, ?_, fun x _ => hcount x⟩
    show Function.update s₁.mapConn fd none = _
    rw [hmap]
    rfl
  | true =>
    cases newFd with
    | none =>
      refine ⟨hheader, ?_, fun x _ => hcount x⟩
      show Function.update s₁.mapConn fd none = _
      rw [hmap]
      rfl
    | some newFd =>
      have hqueued : ∀ x, (({ s₁.reConnect r.robotId (some newFd) with
          mapConn := Function.update (s₁.reConnect r.robotId (some newFd)).mapConn fd none }) :
          Server).queued x = s.queued x + if newFd = x then 1 else 0 := fun x =>
        (queued_append s₁ newFd x).trans (by rw [hcount])
      have hnew : s₁.newRobot r.robotId = s.newRobot r.robotId := by
        unfold newRobot
        rw [hlevel]
      by_cases he : newFd = fd
      · have hagain : madeAgain fd true (some newFd) = none := by
          simp [madeAgain, he]
        rw [hagain]
        refine ⟨hheader, ?_, fun x hx => ?_⟩
        · show Function.update (Function.update s₁.mapConn newFd _) fd none = _
          rw [he, Function.update_idem, hmap]
        · have hne : newFd ≠ x := fun hx' => hx (hx'.symm.trans he)
          rw [if_pos rfl, hqueued x, if_neg hne]
          rfl
      · have hagain : madeAgain fd true (some newFd) = some newFd := by
          simp [madeAgain, he]
        rw [hagain]
        refine ⟨hheader, ?_, fun x hx => ?_⟩
        · show Function.update (Function.update s₁.mapConn newFd (some (s₁.newRobot _))) fd none = _
          rw [Function.update_comm he, hmap, hnew]
        · rw [if_pos rfl, hqueued x]
          simp only [Option.some.injEq]

/-- Who is connected after a connection has ended: those who were, but for the
one under its descriptor, and its robot anew if it was connected again. -/
theorem Ends.cases {r : Robot} {again : Option Int} (he : Ends s s' fd r again) {x : Int}
    {r' : Robot} (hx : s'.mapConn x = some r') :
    x ≠ fd ∧ again ≠ some x ∧ s.mapConn x = some r' ∨
      again = some x ∧ r' = s.newRobot r.robotId := by
  have hclosed : ∀ {y : Int} {q : Robot}, Function.update s.mapConn fd none y = some q →
      y ≠ fd ∧ s.mapConn y = some q := by
    intro y q hy
    by_cases hyf : y = fd
    · rw [hyf, Function.update_self] at hy
      exact nomatch hy
    · rw [Function.update_of_ne hyf] at hy
      exact ⟨hyf, hy⟩
  rw [he.robots] at hx
  cases again with
  | none =>
    obtain ⟨hne, hr'⟩ := hclosed hx
    exact .inl ⟨hne, fun h => (nomatch h), hr'⟩
  | some newFd =>
    dsimp only at hx
    by_cases hxn : x = newFd
    · rw [hxn, Function.update_self] at hx
      exact .inr ⟨congrArg some hxn.symm, (Option.some.inj hx).symm⟩
    · rw [Function.update_of_ne hxn] at hx
      obtain ⟨hne, hr'⟩ := hclosed hx
      exact .inl ⟨hne, fun h => hxn (Option.some.inj h).symm, hr'⟩

/-- The descriptor of a connection that is made again. -/
theorem of_madeAgain {isErrorOccurence : Bool} {newFd : Option Int} {x : Int}
    (h : madeAgain fd isErrorOccurence newFd = some x) :
    isErrorOccurence = true ∧ newFd = some x ∧ x ≠ fd := by
  unfold madeAgain at h
  cases isErrorOccurence with
  | false => exact nomatch h
  | true =>
    rw [if_pos rfl, Option.filter_eq_some_iff] at h
    exact ⟨rfl, h.1, of_decide_eq_true h.2⟩

/-- The invariant at the end of a connection. A new descriptor has no robot
yet, which is what keeps the robots apart. -/
theorem Inv.eventCb (h : Inv s) {isErrorOccurence : Bool} {newFd : Option Int}
    (ha : s.Allowed (.eventCb fd isErrorOccurence newFd)) :
    Inv (s.eventCb fd isErrorOccurence newFd) := by
  cases hr : s.mapConn fd with
  | none =>
    rw [eventCb_of_none hr]
    exact h
  | some r =>
    have hends := ends_eventCb hr isErrorOccurence newFd
    have hallowed : ∀ x, madeAgain fd isErrorOccurence newFd = some x →
        x ≠ 0 ∧ s.mapConn x = none := by
      intro x hx
      obtain ⟨-, hnew, hne⟩ := of_madeAgain hx
      rw [hnew] at ha
      exact ⟨ha.1, ha.2 hne⟩
    refine ⟨fun x r' hx hs => ?_, fun x x' q q' hx hx' hi => ?_, fun x r' hx => ?_, ?_⟩
    · rcases hends.cases hx with ⟨hne, -, hold⟩ | ⟨-, rfl⟩
      · have hxh := h.one x r' hold hs
        rw [hends.header, if_neg (fun hfd => hne (hxh.trans hfd.symm))]
        exact hxh
      · exact nomatch hs
    · -- the number of the robot that lost its connection is no other robot's
      have hlost : ∀ {y : Int} {p : Robot}, y ≠ fd → s.mapConn y = some p →
          p.robotId ≠ r.robotId := fun hne hy hid => hne (h.ids _ _ _ _ hy hr hid)
      rcases hends.cases hx with ⟨hne, -, hold⟩ | ⟨hagain, rfl⟩
      · rcases hends.cases hx' with ⟨-, -, hold'⟩ | ⟨-, rfl⟩
        · exact h.ids x x' q q' hold hold' hi
        · exact absurd hi (hlost hne hold)
      · rcases hends.cases hx' with ⟨hne', -, hold'⟩ | ⟨hagain', -⟩
        · exact absurd hi.symm (hlost hne' hold')
        · exact Option.some.inj (hagain.symm.trans hagain')
    · rcases hends.cases hx with ⟨hne, hnot, hold⟩ | ⟨hagain, -⟩
      · rw [hends.queued x hne, if_neg hnot]
        exact h.queued x r' hold
      · rw [hends.queued x (of_madeAgain hagain).2.2, if_pos hagain]
        exact Nat.succ_pos _
    · cases hz : (s.eventCb fd isErrorOccurence newFd).mapConn 0 with
      | none => rfl
      | some r' =>
        rcases hends.cases hz with ⟨-, -, hold⟩ | ⟨hagain, -⟩
        · rw [h.zero] at hold
          exact nomatch hold
        · exact absurd rfl (hallowed 0 hagain).1

/-! ### The other events -/

/-- The signal has every robot that signed up withdraw, and touches no
connection. -/
theorem keeps_signalCb (s : Server) : Keeps s s.signalCb := by
  refine ⟨rfl, fun fd r' hr' => ?_, fun _ _ _ => rfl⟩
  obtain ⟨r, hr, rfl⟩ := Option.map_eq_some_iff.mp hr'
  refine ⟨r, hr, ?_⟩
  split
  · exact ⟨rfl, fun h => RobotStatus.noConfusion h⟩
  · exact ⟨rfl, id⟩

/-- A request that goes out late changes what was sent and nothing else. -/
theorem keeps_delaySendMsgTimeCb (s : Server) (i : Nat) : Keeps s (s.delaySendMsgTimeCb i) := by
  unfold delaySendMsgTimeCb
  split <;> exact .same rfl rfl rfl

/-- Asking for the room changes what was sent and nothing else. -/
theorem keeps_sendQueryRoomStatusReq (s : Server) (fd : Int) (isTimer : Bool) :
    Keeps s (s.sendQueryRoomStatusReq fd isTimer) := by
  unfold sendQueryRoomStatusReq
  split
  · exact .same rfl rfl rfl
  · split_ifs <;> exact .same rfl rfl rfl

/-- A robot that waits is made the header robot. -/
def choose (s : Server) (fd : Int) : Server :=
  { s with
    headerRobot := fd
    mapConn := Function.update s.mapConn fd
      ((s.mapConn fd).map fun r => { r with status := .header }) }

/-- The timer either asks for the room, or chooses a header robot first; then
`headerRobot_` was free. -/
theorem queryRoomStateTimeCb_cases (s : Server) (found : Option Int) :
    Keeps s (s.queryRoomStateTimeCb found) ∨ s.headerRobot = 0 ∧
      ∃ fd, found = some fd ∧ Keeps (s.choose fd) (s.queryRoomStateTimeCb found) := by
  unfold queryRoomStateTimeCb
  split
  next hzero =>
    cases found with
    | none => exact .inl (.same rfl rfl rfl)
    | some fd => exact .inr ⟨hzero, fd, rfl, keeps_sendQueryRoomStatusReq (s.choose fd) fd true⟩
  next => exact .inl (keeps_sendQueryRoomStatusReq s s.headerRobot true)

/-- Who is connected after the choice. -/
theorem choose_cases {x : Int} {r' : Robot} (hx : (s.choose fd).mapConn x = some r') :
    ∃ r, s.mapConn x = some r ∧ r'.robotId = r.robotId ∧ (x ≠ fd → r' = r) := by
  replace hx : Function.update s.mapConn fd _ x = some r' := hx
  by_cases hxf : x = fd
  · rw [hxf, Function.update_self] at hx
    obtain ⟨r, hr, rfl⟩ := Option.map_eq_some_iff.mp hx
    exact ⟨r, hxf ▸ hr, rfl, fun hne => absurd hxf hne⟩
  · rw [Function.update_of_ne hxf] at hx
    exact ⟨r', hx, rfl, fun _ => rfl⟩

/-- The choice of a header robot where there was none: it is the only one, and
its id and its entry in the queue are what they were. -/
theorem Inv.choose (h : Inv s) (hzero : s.headerRobot = 0) (fd : Int) : Inv (s.choose fd) := by
  refine ⟨fun x r' hx hs => ?_, fun x x' q q' hx hx' hi => ?_, fun x r' hx => ?_, ?_⟩
  · obtain ⟨r, hr, -, hsame⟩ := choose_cases hx
    by_contra hne
    obtain rfl := hsame hne
    -- there was no header robot
    have hx0 := h.one x r' hr hs
    rw [hzero] at hx0
    rw [hx0, h.zero] at hr
    exact nomatch hr
  · obtain ⟨p, hp, hid, -⟩ := choose_cases hx
    obtain ⟨p', hp', hid', -⟩ := choose_cases hx'
    exact h.ids x x' p p' hp hp' (hid.symm.trans (hi.trans hid'))
  · obtain ⟨r, hr, -⟩ := choose_cases hx
    exact h.queued x r hr
  · cases hz : (s.choose fd).mapConn 0 with
    | none => rfl
    | some r' =>
      obtain ⟨r, hr, -⟩ := choose_cases hz
      rw [h.zero] at hr
      exact nomatch hr

/-- One event. -/
theorem Inv.step (h : Inv s) {e : ServerEvent} (ha : s.Allowed e) :
    Inv (s.step rbtOutGetTakeOutCard e) := by
  cases e with
  | readEvent fd o msg => exact h.keeps (keeps_readEvent rbtOutGetTakeOutCard o msg)
  | eventCb fd isErrorOccurence newFd => exact h.eventCb ha
  | queryRoomStateTimeCb found =>
    rcases queryRoomStateTimeCb_cases s found with hk | ⟨hzero, fd, -, hk⟩
    · exact h.keeps hk
    · exact (h.choose hzero fd).keeps hk
  | signalCb => exact h.keeps (keeps_signalCb s)
  | heartBeatTimeCb => exact h.keeps (.same rfl rfl rfl)
  | delaySendMsgTimeCb i => exact h.keeps (keeps_delaySendMsgTimeCb s i)

/-! ### The header robot -/

/-- A header robot is not asked, and only its own `disConnect` takes its
connection. -/
theorem header_sendMsg (msg : Msg) {reply : Reply} {x : Int} {r : Robot}
    (hpos : ∀ n, reply = .changeStatusForRobot n → 0 < n) (hr : s.mapConn x = some r)
    (hs : r.status = .header) (hclose : reply = .disConnect → x ≠ fd) :
    (s.sendMsg fd msg reply).mapConn x = some r := by
  unfold sendMsg
  cases reply with
  | gameInit => exact hr
  | sendQueryRoomStatusReq =>
    dsimp only
    unfold sendQueryRoomStatusReq
    split
    · exact hr
    · split_ifs <;> exact hr
  | changeStatusForRobot n =>
    rcases changeStatus_robot (Int.le_of_lt (hpos n rfl)) hr with ⟨hwaits, -⟩ | he
    · rw [hs] at hwaits
      exact nomatch hwaits
    · exact he
  | disConnect =>
    show Function.update s.mapConn fd none x = some r
    rw [Function.update_of_ne (hclose rfl)]
    exact hr
  | send request =>
    dsimp only
    split <;> exact hr

/-- A header robot stays one unless it is sent a message that deposes it. What
other robots are sent does not touch it, and the robots asked for are among
those that wait. -/
theorem header_readEvent {o : Outside} {msg : Msg} {x : Int} {q : Robot}
    (hq : s.mapConn x = some q) (hs : q.status = .header)
    (hd : fd = x → ¬Robot.Deposes s.conf msg) :
    ∃ q', (s.readEvent rbtOutGetTakeOutCard fd o msg).mapConn x = some q' ∧
      q'.status = .header := by
  unfold readEvent
  cases hr : s.mapConn fd with
  | none => exact ⟨q, hq, hs⟩
  | some r =>
    have hmoves := Robot.robotProcess_moves (r := r) rbtOutGetTakeOutCard s.conf o msg
    -- what the operation leaves of the header robot
    have hop : ∃ q', Function.update s.mapConn fd
        (some (r.robotProcess rbtOutGetTakeOutCard s.conf o msg).1) x = some q' ∧
        q'.status = .header ∧
        ((r.robotProcess rbtOutGetTakeOutCard s.conf o msg).2 = some .disConnect → x ≠ fd) := by
      by_cases hx : x = fd
      · have hsame : r = q := Option.some.inj (hr.symm.trans (hx ▸ hq))
        rw [← hsame] at hs
        obtain ⟨hstatus, hopen⟩ : (r.robotProcess rbtOutGetTakeOutCard s.conf o msg).1.status
              = .header ∧ (r.robotProcess rbtOutGetTakeOutCard s.conf o msg).2 ≠ some .disConnect :=
          Robot.robotProcess_header hs (hd hx.symm)
        exact ⟨_, by rw [hx, Function.update_self], hstatus, fun hc => absurd hc hopen⟩
      · exact ⟨q, by rw [Function.update_of_ne hx, hq], hs, fun _ => hx⟩
    obtain ⟨q', hq', hs', hclose⟩ := hop
    dsimp only
    cases hreply : (r.robotProcess rbtOutGetTakeOutCard s.conf o msg).2 with
    | none => exact ⟨q', hq', hs'⟩
    | some reply =>
      rw [hreply] at hclose
      refine ⟨q', header_sendMsg msg (fun n hn => hmoves.pos n ?_) hq' hs'
        fun hc => hclose (congrArg some hc), hs'⟩
      rw [hreply, hn]

/-- Asking for the room changes no robot. -/
theorem sendQueryRoomStatusReq_mapConn (s : Server) (fd : Int) (isTimer : Bool) :
    (s.sendQueryRoomStatusReq fd isTimer).mapConn = s.mapConn := by
  unfold sendQueryRoomStatusReq
  split
  · rfl
  · split_ifs <;> rfl

/-- A message to another robot, or one that does not depose the header robot,
leaves the header robot at work. -/
theorem Good.readEvent (hg : s.Good) {o : Outside} {msg : Msg}
    (hd : fd = s.headerRobot → ¬Robot.Deposes s.conf msg) :
    (s.readEvent rbtOutGetTakeOutCard fd o msg).Good := by
  intro hne
  have hkeeps : Keeps s (s.readEvent rbtOutGetTakeOutCard fd o msg) := keeps_readEvent ..
  rw [hkeeps.header] at hne ⊢
  obtain ⟨r, hr, hs⟩ := hg hne
  exact header_readEvent rbtOutGetTakeOutCard hr hs hd

/-- The end of a connection frees `headerRobot_` if it was the header robot's,
and does not concern it otherwise. -/
theorem Good.eventCb (hg : s.Good) {isErrorOccurence : Bool} {newFd : Option Int}
    (ha : s.Allowed (.eventCb fd isErrorOccurence newFd)) :
    (s.eventCb fd isErrorOccurence newFd).Good := by
  cases hfd : s.mapConn fd with
  | none =>
    rw [eventCb_of_none hfd]
    exact hg
  | some q =>
    intro hne
    have hends := ends_eventCb hfd isErrorOccurence newFd
    have hheader := hends.header
    by_cases hmine : fd = s.headerRobot
    · rw [hheader, if_pos hmine] at hne
      exact absurd rfl hne
    · rw [if_neg hmine] at hheader
      rw [hheader] at hne
      obtain ⟨r, hr, hs⟩ := hg hne
      refine ⟨r, ?_, hs⟩
      rw [hheader, hends.robots]
      cases hagain : madeAgain fd isErrorOccurence newFd with
      | none =>
        dsimp only
        rw [Function.update_of_ne (Ne.symm hmine)]
        exact hr
      | some again =>
        -- the header robot's own descriptor is in use
        obtain ⟨-, hnew, hnefd⟩ := of_madeAgain hagain
        have hnot : s.headerRobot ≠ again := by
          intro hx
          rw [hnew] at ha
          have hnone := ha.2 hnefd
          rw [← hx, hr] at hnone
          exact nomatch hnone
        dsimp only
        rw [Function.update_of_ne hnot, Function.update_of_ne (Ne.symm hmine)]
        exact hr

/-- Asking for the room leaves the header robot at work. -/
theorem Good.sendQueryRoomStatusReq (hg : s.Good) (fd : Int) (isTimer : Bool) :
    (s.sendQueryRoomStatusReq fd isTimer).Good := by
  intro hne
  rw [(keeps_sendQueryRoomStatusReq s fd isTimer).header] at hne ⊢
  rw [sendQueryRoomStatusReq_mapConn]
  exact hg hne

/-- A robot that waits is connected, so it is at work once it is chosen. -/
theorem good_choose (hwaits : s.Waits fd) : (s.choose fd).Good := by
  intro _
  obtain ⟨r, hr, -⟩ := Option.map_eq_some_iff.mp hwaits
  refine ⟨{ r with status := .header }, ?_, rfl⟩
  show Function.update s.mapConn fd _ fd = _
  rw [Function.update_self, hr]

/-- The timer leaves a header robot at work, or `headerRobot_` free when nobody
waits. -/
theorem Good.queryRoomStateTimeCb (hg : s.Good) {found : Option Int}
    (ha : s.Allowed (.queryRoomStateTimeCb found)) : (s.queryRoomStateTimeCb found).Good := by
  by_cases hzero : s.headerRobot = 0
  · cases found with
    | none =>
      have hsame : s.queryRoomStateTimeCb none = s := if_pos hzero
      rw [hsame]
      exact hg
    | some fd =>
      have hchoose : s.queryRoomStateTimeCb (some fd)
          = (s.choose fd).sendQueryRoomStatusReq fd true := if_pos hzero
      rw [hchoose]
      exact (good_choose (ha hzero).1).sendQueryRoomStatusReq fd true
  · have hquery : s.queryRoomStateTimeCb found
        = s.sendQueryRoomStatusReq s.headerRobot true := if_neg hzero
    rw [hquery]
    exact hg.sendQueryRoomStatusReq s.headerRobot true

/-- The signal does not concern the header robot. -/
theorem Good.signalCb (hg : s.Good) : s.signalCb.Good := by
  intro hne
  obtain ⟨r, hr, hs⟩ := hg hne
  refine ⟨r, ?_, hs⟩
  have hleaves : ¬decide (r.status = .signUped) = true := by
    rw [hs]
    exact Bool.false_ne_true
  show (s.mapConn s.headerRobot).map _ = some r
  rw [hr]
  exact congrArg some (if_neg hleaves)

/-- Nor does a request that goes out late. -/
theorem Good.delaySendMsgTimeCb (hg : s.Good) (i : Nat) : (s.delaySendMsgTimeCb i).Good := by
  unfold Server.delaySendMsgTimeCb
  split
  · exact hg
  · exact fun hne => hg hne

/-- Any event that does not depose the header robot leaves it at work. -/
theorem Good.step (hg : s.Good) {e : ServerEvent} (ha : s.Allowed e) (hd : ¬s.Deposed e) :
    (s.step rbtOutGetTakeOutCard e).Good := by
  cases e with
  | readEvent fd o msg =>
    exact hg.readEvent rbtOutGetTakeOutCard fun hfd hdep => hd ⟨hfd, hdep⟩
  | eventCb fd isErrorOccurence newFd => exact hg.eventCb ha
  | queryRoomStateTimeCb found => exact hg.queryRoomStateTimeCb ha
  | signalCb => exact hg.signalCb
  | heartBeatTimeCb => exact fun hne => hg hne
  | delaySendMsgTimeCb i => exact hg.delaySendMsgTimeCb i

/-- What a message leaves of its own robot, if its connection stays open, is
what its operation has made of it, unless it is the header robot asking for
others. -/
theorem readEvent_self {o : Outside} {msg : Msg} {r q : Robot} (hr : s.mapConn fd = some r)
    (hnum : ∀ n, (r.robotProcess rbtOutGetTakeOutCard s.conf o msg).2 ≠
      some (.changeStatusForRobot n))
    (hq : (s.readEvent rbtOutGetTakeOutCard fd o msg).mapConn fd = some q) :
    q = (r.robotProcess rbtOutGetTakeOutCard s.conf o msg).1 := by
  have hself : ∀ p : Robot, Function.update s.mapConn fd (some p) fd = some q → q = p :=
    fun p hp => (Option.some.inj (Function.update_self fd (some p) s.mapConn ▸ hp)).symm
  unfold Server.readEvent at hq
  rw [hr] at hq
  dsimp only at hq
  cases hreply : (r.robotProcess rbtOutGetTakeOutCard s.conf o msg).2 with
  | none =>
    rw [hreply] at hq
    exact hself _ hq
  | some reply =>
    rw [hreply] at hq hnum
    dsimp only at hq
    cases reply with
    | gameInit => exact hself _ hq
    | sendQueryRoomStatusReq =>
      unfold sendMsg at hq
      dsimp only at hq
      rw [sendQueryRoomStatusReq_mapConn] at hq
      exact hself _ hq
    | changeStatusForRobot n => exact absurd rfl (hnum n)
    | disConnect =>
      unfold sendMsg at hq
      dsimp only at hq
      rw [Function.update_self] at hq
      exact nomatch hq
    | send request =>
      unfold sendMsg at hq
      dsimp only at hq
      split at hq <;> exact hself _ hq

/-- A message that deposes the header robot leaves the client with none that
works. -/
theorem Inv.deposed (h : Inv s) {e : ServerEvent} (ha : s.Allowed e)
    (hg : (s.step rbtOutGetTakeOutCard e).Good) : ¬s.Deposed e := by
  intro hd
  match e, hd with
  | .readEvent fd o msg, ⟨hfd, hdep⟩ =>
    obtain ⟨r, hr⟩ := Option.ne_none_iff_exists'.mp ha
    have hkeeps : Keeps s (s.readEvent rbtOutGetTakeOutCard fd o msg) := keeps_readEvent ..
    have hne : s.headerRobot ≠ 0 := by
      intro hzero
      rw [hfd, hzero, h.zero] at hr
      exact nomatch hr
    replace hg : (s.readEvent rbtOutGetTakeOutCard fd o msg).Good := hg
    obtain ⟨q, hq, hs⟩ := hg (hkeeps.header ▸ hne)
    rw [hkeeps.header, ← hfd] at hq
    obtain ⟨hstatus, hnum⟩ : (r.robotProcess rbtOutGetTakeOutCard s.conf o msg).1.status
          ≠ .header ∧ ∀ n, (r.robotProcess rbtOutGetTakeOutCard s.conf o msg).2 ≠
            some (.changeStatusForRobot n) := Robot.robotProcess_deposes r hdep
    rw [readEvent_self rbtOutGetTakeOutCard hr hnum hq] at hs
    exact hstatus hs

/-! ### The queue -/

/-- The queue is a matter of the three members too. -/
theorem QueuedOnce.keeps (h : s.QueuedOnce) (hk : Keeps s s') : s'.QueuedOnce := by
  intro fd r' hr'
  obtain ⟨r, hr, -⟩ := hk.robots fd r' hr'
  rw [hk.queued fd r' hr']
  exact h fd r hr

/-- An event that makes no connection again under a queued descriptor leaves
every robot in the queue once. -/
theorem QueuedOnce.step (h : s.QueuedOnce) {e : ServerEvent} (hq : ¬s.Requeued e) :
    (s.step rbtOutGetTakeOutCard e).QueuedOnce := by
  cases e with
  | readEvent fd o msg => exact h.keeps (keeps_readEvent rbtOutGetTakeOutCard o msg)
  | eventCb fd isErrorOccurence newFd =>
    show (s.eventCb fd isErrorOccurence newFd).QueuedOnce
    cases hr : s.mapConn fd with
    | none =>
      rw [eventCb_of_none hr]
      exact h
    | some r =>
      have hends := ends_eventCb hr isErrorOccurence newFd
      intro x r' hx
      rcases hends.cases hx with ⟨hne, hnot, hold⟩ | ⟨hagain, -⟩
      · rw [hends.queued x hne, if_neg hnot]
        exact h x r' hold
      · obtain ⟨herror, hnew, hne⟩ := of_madeAgain hagain
        rw [hends.queued x hne, if_pos hagain]
        rw [herror, hnew] at hq
        have hzero : s.queued x = 0 := by
          by_contra hpos
          exact hq ⟨hr ▸ Option.some_ne_none r, hne, hpos⟩
        omega
  | queryRoomStateTimeCb found =>
    rcases queryRoomStateTimeCb_cases s found with hk | ⟨-, fd, -, hk⟩
    · exact h.keeps hk
    · refine QueuedOnce.keeps (fun x r' hx => ?_) hk
      obtain ⟨r, hr, -⟩ := choose_cases hx
      exact h x r hr
  | signalCb => exact h.keeps (keeps_signalCb s)
  | heartBeatTimeCb => exact h.keeps (.same rfl rfl rfl)
  | delaySendMsgTimeCb i => exact h.keeps (keeps_delaySendMsgTimeCb s i)

/-- A descriptor that is queued already is there twice when its connection is
made again. -/
theorem requeued_twice {e : ServerEvent} (h : (s.step rbtOutGetTakeOutCard e).QueuedOnce) :
    ¬s.Requeued e := by
  intro hq
  cases e with
  | eventCb fd isErrorOccurence newFd =>
    cases isErrorOccurence with
    | false => exact hq
    | true =>
      cases newFd with
      | none => exact hq
      | some newFd =>
        obtain ⟨hfd, hne, hpos⟩ := hq
        obtain ⟨r, hr⟩ := Option.ne_none_iff_exists'.mp hfd
        have hends := ends_eventCb hr true (some newFd)
        have hagain : madeAgain fd true (some newFd) = some newFd := by
          simp [madeAgain, hne]
        have hnew : (s.eventCb fd true (some newFd)).mapConn newFd
            = some (s.newRobot r.robotId) := by
          rw [hends.robots, hagain]
          exact Function.update_self ..
        have hcount := hends.queued newFd hne
        rw [if_pos hagain] at hcount
        have hone : (s.eventCb fd true (some newFd)).queued newFd = 1 := h newFd _ hnew
        omega
  | readEvent fd o msg => exact hq
  | queryRoomStateTimeCb found => exact hq
  | signalCb => exact hq
  | heartBeatTimeCb => exact hq
  | delaySendMsgTimeCb i => exact hq

end Step

/-! ## Runs -/

/-- The robots of the start: one for each descriptor, numbered from
`robotIdStart` on, in `INIT`. -/
theorem start_robot {conf : Conf} {robotIQLevel robotIdStart : Int} {fds : List Int} {fd : Int}
    {r : Robot} (hr : (start conf robotIQLevel robotIdStart fds).mapConn fd = some r) :
    ∃ index : Nat, fds.idxOf? fd = some index ∧ r.robotId = robotIdStart + index ∧
      r.status = .init := by
  obtain ⟨index, hindex, rfl⟩ := Option.map_eq_some_iff.mp hr
  exact ⟨index, hindex, rfl, rfl⟩

/-- Every descriptor of the start is queued as often as it is given. -/
theorem queued_start (conf : Conf) (robotIQLevel robotIdStart : Int) (fds : List Int) (fd : Int) :
    (start conf robotIQLevel robotIdStart fds).queued fd = fds.count fd := by
  show ((fds.map fun fd => (fd, (1 : Int))).map Prod.fst).count fd = _
  rw [List.map_map]
  exact congrArg (List.count fd) (List.map_id fds)

/-- The invariant at the start, for descriptors as the system gives them: none
of them is 0. -/
theorem inv_start (conf : Conf) (robotIQLevel robotIdStart : Int) {fds : List Int}
    (hzero : 0 ∉ fds) : Inv (start conf robotIQLevel robotIdStart fds) := by
  refine ⟨fun fd r hr hs => ?_, fun fd fd' r r' hr hr' hi => ?_, fun fd r hr => ?_, ?_⟩
  · obtain ⟨index, -, -, hinit⟩ := start_robot hr
    rw [hinit] at hs
    exact nomatch hs
  · obtain ⟨index, hindex, hid, -⟩ := start_robot hr
    obtain ⟨index', hindex', hid', -⟩ := start_robot hr'
    obtain rfl : index = index' := by omega
    obtain ⟨_, hfd, -⟩ := List.idxOf?_eq_some_iff.mp hindex
    obtain ⟨_, hfd', -⟩ := List.idxOf?_eq_some_iff.mp hindex'
    exact hfd.symm.trans hfd'
  · obtain ⟨index, hindex, -⟩ := start_robot hr
    rw [queued_start]
    refine List.count_pos_iff.mpr (List.isSome_idxOf?.mp ?_)
    rw [hindex]
    rfl
  · show (fds.idxOf? 0).map _ = none
    rw [List.idxOf?_eq_none_iff.mpr hzero]
    rfl

section Run

variable {rbtOutGetTakeOutCard : Undef → AI → AI × List Int} (conf : Conf)
  (robotIQLevel robotIdStart : Int) {fds : List Int} {es : List ServerEvent}

/-- In every run of the old client there is at most one header robot, each
robot has at most one connection, and every robot that is connected is in the
queue. -/
theorem server_run (hzero : 0 ∉ fds)
    (ha : Along (step rbtOutGetTakeOutCard) Allowed (start conf robotIQLevel robotIdStart fds) es) :
    let s := run (step rbtOutGetTakeOutCard) (start conf robotIQLevel robotIdStart fds) es
    (∀ fd fd' r r', s.mapConn fd = some r → s.mapConn fd' = some r' →
      r.status = .header ∧ r'.status = .header ∨ r.robotId = r'.robotId → fd = fd') ∧
    ∀ fd r, s.mapConn fd = some r → fd ∈ s.taskQueue.map Prod.fst := by
  have hend := ha.inv Inv (fun _ _ h ha => h.step rbtOutGetTakeOutCard ha)
    (inv_start conf robotIQLevel robotIdStart hzero)
  refine ⟨fun fd fd' r r' hr hr' h => ?_,
    fun fd r hr => List.count_pos_iff.mp (hend.queued fd r hr)⟩
  rcases h with ⟨hs, hs'⟩ | hid
  · exact (hend.one fd r hr hs).trans (hend.one fd' r' hr' hs').symm
  · exact hend.ids fd fd' r r' hr hr' hid

/-- Throughout a run the client has a header robot that works, or
`headerRobot_` is free for the next one, exactly when no message takes a header
robot out of its status. -/
theorem header_good_iff (hzero : 0 ∉ fds)
    (ha : Along (step rbtOutGetTakeOutCard) Allowed (start conf robotIQLevel robotIdStart fds) es) :
    (∀ pre, pre <+: es →
        (run (step rbtOutGetTakeOutCard) (start conf robotIQLevel robotIdStart fds) pre).Good) ↔
      Along (step rbtOutGetTakeOutCard) (fun s e => ¬s.Deposed e)
        (start conf robotIQLevel robotIdStart fds) es := by
  refine Along.good_iff (fun s => Inv s ∧ s.Good) Good (fun _ h => h.2)
    (fun _ _ h ha hd => ⟨h.1.step rbtOutGetTakeOutCard ha, h.2.step rbtOutGetTakeOutCard ha hd⟩)
    (fun _ _ h ha hg => h.1.deposed rbtOutGetTakeOutCard ha hg) ha
    ⟨inv_start conf robotIQLevel robotIdStart hzero, fun hne => absurd rfl hne⟩

/-- Throughout a run every connected robot is in the queue exactly once,
exactly when no connection is made again under a descriptor that is still in
it. -/
theorem queued_once_iff (hnodup : fds.Nodup)
    (ha : Along (step rbtOutGetTakeOutCard) Allowed (start conf robotIQLevel robotIdStart fds) es) :
    (∀ pre, pre <+: es →
        (run (step rbtOutGetTakeOutCard) (start conf robotIQLevel robotIdStart fds)
          pre).QueuedOnce) ↔
      Along (step rbtOutGetTakeOutCard) (fun s e => ¬s.Requeued e)
        (start conf robotIQLevel robotIdStart fds) es := by
  refine Along.good_iff QueuedOnce QueuedOnce (fun _ h => h)
    (fun s e h _ hq => h.step rbtOutGetTakeOutCard hq)
    (fun s e _ _ hg => requeued_twice rbtOutGetTakeOutCard hg) ha fun fd r hr => ?_
  obtain ⟨index, hindex, -⟩ := start_robot hr
  have hin : fd ∈ fds := List.isSome_idxOf?.mp (by rw [hindex]; rfl)
  rw [queued_start]
  exact List.count_eq_one_of_mem hnodup hin

end Run

/-- Two robots, of which the first becomes the header robot. The room then
needs the second, whose connection breaks and is made again. -/
def breaks : List ServerEvent :=
  [.readEvent 3 ⟨Undef.zero, 0⟩ (.verifyAck (some (0, false))),
    .readEvent 3 ⟨Undef.zero, 0⟩ (.initGameAck (some 0)), .queryRoomStateTimeCb (some 3),
    .readEvent 4 ⟨Undef.zero, 0⟩ (.verifyAck (some (0, false))),
    .readEvent 4 ⟨Undef.zero, 0⟩ (.initGameAck (some 0)),
    .readEvent 3 ⟨Undef.zero, 0⟩ (.roomStatAck (some ⟨0, 1, 2⟩)), .eventCb 4 true (some 5)]

/-- They connect. -/
def twoRobots : Server := start Both.matchConf 0 7 [3, 4]

/-- The events of this run can happen, one after the other. -/
theorem allowed_breaks :
    Along (step fun u s => s.rbtOutGetTakeOutCard u) Allowed twoRobots breaks := by
  refine ⟨Option.some_ne_none _, Option.some_ne_none _, fun _ => ⟨rfl, fun fd hfd => ?_⟩,
    Option.some_ne_none _, Option.some_ne_none _, Option.some_ne_none _,
    ⟨by decide, fun _ => rfl⟩, trivial⟩
  -- the second robot has not been verified yet
  by_contra hlt
  have hne : fd ≠ 3 := fun he => hlt (he ▸ Int.le_refl 3)
  replace hfd : ((Function.update (Function.update twoRobots.mapConn 3 _) 3 _) fd).map Robot.status
      = some .waitSignUp := hfd
  rw [Function.update_of_ne hne, Function.update_of_ne hne] at hfd
  obtain ⟨r, hr, hs⟩ := Option.map_eq_some_iff.mp hfd
  obtain ⟨-, -, -, hinit⟩ := start_robot hr
  exact nomatch hs.symm.trans hinit

theorem server_run_breaks :
    let s := run (step fun u s => s.rbtOutGetTakeOutCard u) twoRobots breaks
    (∀ fd fd' r r', s.mapConn fd = some r → s.mapConn fd' = some r' →
      r.status = .header ∧ r'.status = .header ∨ r.robotId = r'.robotId → fd = fd') ∧
    ∀ fd r, s.mapConn fd = some r → fd ∈ s.taskQueue.map Prod.fst :=
  server_run Both.matchConf 0 7 (by decide) allowed_breaks

theorem header_good_iff_breaks :
    (∀ pre, pre <+: breaks →
        (run (step fun u s => s.rbtOutGetTakeOutCard u) twoRobots pre).Good) ↔
      Along (step fun u s => s.rbtOutGetTakeOutCard u) (fun s e => ¬s.Deposed e) twoRobots
        breaks :=
  header_good_iff Both.matchConf 0 7 (by decide) allowed_breaks

theorem queued_once_iff_breaks :
    (∀ pre, pre <+: breaks →
        (run (step fun u s => s.rbtOutGetTakeOutCard u) twoRobots pre).QueuedOnce) ↔
      Along (step fun u s => s.rbtOutGetTakeOutCard u) (fun s e => ¬s.Requeued e) twoRobots
        breaks :=
  queued_once_iff Both.matchConf 0 7 (by decide) allowed_breaks

example : (run (step fun u s => s.rbtOutGetTakeOutCard u) twoRobots breaks).written 4
    = [.verify, .request .initGame, .request .signUpCondition] := rfl

end Server

end RobotDdz.Old
