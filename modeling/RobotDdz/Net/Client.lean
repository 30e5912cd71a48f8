import RobotDdz.Net.Delayed
import RobotDdz.Net.Header
import RobotDdz.Task.Stages

/-!
# The whole client

The header robot, the pool of task robots, and what every connection has sent,
in one system. A task robot's connection handles a message as in
`RobotDdz.Task.Handlers`, and what the handler asks for happens to the pool: a
rejected message or the end of a game gives the robot back, a robot without
coins for a game is dropped, and a request that is sent later is held by a
timer. The header robot's counts are what takes robots out of the pool.

`client_kept_iff` and `client_run` put the parts together. The handlers never
reach a connection that is closed; the timing wheel can. Exactly in the runs in
which no entry expires for a connection that the server has closed under a
delayed message (`Calm`), each robot is in one list and has at most one open
socket throughout (`Kept`); and then the header robot has its one connection or
try, and on every connection that was ever made the requests are in order.

`mapConn_` is not the place to count what is open. It is a map by descriptor,
and an entry that expires late erases whatever has the descriptor by then,
which may be a new connection of the same robot: its socket stays open while
the map and the lists say that the robot is idle. So the model follows the
sockets by themselves, by the object that owns each (`sockets`).

`VerifyReq`, the requests of a robot that is told to stop (`SIGINT`) and the
bytes of the messages are left out.

How the two results are proved: each event of the client does to the pool what
an event of the pool's own does, with something sent or delayed besides, so the
pool's invariant is reused as it is. Under `Calm` the open sockets are those of
the connections in `mapConn_` (`Inv`). An expiry that is not calm gives a robot
back that is idle or at work elsewhere already, which is the converse of
`client_kept_iff`.
-/

namespace RobotDdz.Net

open Runs

/-- The program. Robots are numbered in the pool, the requests sent and those
delayed are kept by connection object. `sockets` are the connection objects
whose sockets are open: an object closes its own once, whoever is in `mapConn_`
under its descriptor. -/
structure Client where
  header : Header
  pool : Pool
  task : Nat → RobotTask
  sockets : List Conn := []
  sent : Nat → List Request := fun _ => []
  delayed : Nat → List (Request × Option Int) := fun _ => []

/-- What happens to the program. -/
inductive ClientEvent where
  | header (e : HeaderEvent) (fds : List (Option Int))
  | robotKeepPlayTest (fds : List (Option Int))
  | connected (c : Conn)
  | receive (c : Conn) (o : Outside) (msg : Msg)
  | heartBeatTime
  | eventCb (fd : Int)
  | expire (c : Conn)
  | delaySendMsgTimer (c : Conn) (i : Nat)

namespace Client

/-- An open connection with its robot. -/
def link (x : Client) (c : Conn) : Link :=
  { task := x.task c.robot, sent := x.sent c.id, delayed := x.delayed c.id }

/-- `CreateConnection` and `MoveRobotFromTaskListToUntaskList` for the front
robot. -/
def connect (x : Client) (isTestKeepPlay : Bool) (fd : Int) (robot : Nat) (rest : List Nat) :
    Client :=
  { x with
    pool := x.pool.connect fd robot rest
    sockets := x.sockets ++ [⟨x.pool.created, fd, robot⟩]
    task := Function.update x.task robot
      (({ task := x.task robot } : Link).connect isTestKeepPlay).task }

/-- `AddRobot`, given what `CreateConnection` returns call by call. -/
def addRobot (isTestKeepPlay : Bool) : List (Option Int) → Int → Client → Client
  | [], _, x => x
  | fd :: fds, iRobotNum, x =>
    if iRobotNum ≠ 0 then
      match x.pool.taskRobotList with
      | [] => x
      | robot :: rest =>
        match fd with
        | none => x
        | some fd =>
          addRobot isTestKeepPlay fds (iRobotNum - 1) (x.connect isTestKeepPlay fd robot rest)
    else x

/-- `RobotProcess` of a task robot, with what its callbacks do to the pool. -/
def receive (x : Client) (c : Conn) (o : Outside) (msg : Msg) : Client :=
  let l := ((x.link c).robotProcess o msg).1
  { x with
    pool :=
      if l.deleted then x.pool.delRobotAndCloseConnection c
      else if l.closed then x.pool.delRobot c
      else if (x.delayed c.id).length < l.delayed.length then x.pool.step (.delaySend c)
      else x.pool
    sockets := if (l.deleted || l.closed) && x.pool.bev c.id then x.sockets.erase c else x.sockets
    task := Function.update x.task c.robot l.task
    sent := Function.update x.sent c.id l.sent
    delayed := Function.update x.delayed c.id l.delayed }

/-- `heartBeatTimeCb`. -/
def heartBeatTimeCb (x : Client) : Client :=
  { x with
    sent := fun i =>
      if i ∈ x.pool.mapConn.map Conn.id then x.sent i ++ [.heartbeat] else x.sent i }

/-- `DelaySendMsgTimer` for one of the delayed messages of a connection. -/
def delaySendMsgTimer (x : Client) (c : Conn) (i : Nat) : Client :=
  match (x.delayed c.id)[i]? with
  | none => x
  | some p =>
    { x with
      pool := x.pool.step (.delaySent c)
      sent := Function.update x.sent c.id
        (if x.pool.bev c.id then x.sent c.id ++ [p.1] else x.sent c.id)
      delayed := Function.update x.delayed c.id ((x.delayed c.id).eraseIdx i) }

/-- `EventCb` for a close or an error on a descriptor. -/
def eventCb (x : Client) (fd : Int) : Client :=
  { x with
    pool := x.pool.eventCb fd
    sockets := match x.pool.mapConn.find? (·.fd = fd) with
      | some c => x.sockets.erase c
      | none => x.sockets }

/-- `~Entry`. A buffer that is freed a second time closes nothing more. -/
def expire (x : Client) (c : Conn) : Client :=
  { x with
    pool := x.pool.expire c
    sockets := if x.pool.Alive c ∧ x.pool.bev c.id = true then x.sockets.erase c else x.sockets }

/-- One event. What the header robot adds to its counts is what `AddRobot` is
called with. -/
def step (x : Client) : ClientEvent → Client
  | .header e fds =>
    let x' := { x with header := x.header.step e }
    match x'.header.added.drop x.header.added.length with
    | [] => x'
    | iRobotNum :: _ => addRobot false fds iRobotNum x'
  | .robotKeepPlayTest fds => addRobot true fds x.pool.taskRobotList.length x
  | .connected c => { x with pool := x.pool.step (.connected c) }
  | .receive c o msg => x.receive c o msg
  | .heartBeatTime => x.heartBeatTimeCb
  | .eventCb fd => x.eventCb fd
  | .expire c => x.expire c
  | .delaySendMsgTimer c i => x.delaySendMsgTimer c i

/-- What can happen. Messages come in on connections that are open, and the
timers that fire are those of delayed messages. -/
def Allowed (x : Client) : ClientEvent → Prop
  | .header e fds => x.header.Allowed e ∧ x.pool.Allowed (.addRobot 0 fds)
  | .robotKeepPlayTest fds => x.pool.Allowed (.addRobot 0 fds)
  | .connected c => x.pool.Allowed (.connected c)
  | .receive c _ _ => c ∈ x.pool.mapConn
  | .heartBeatTime => True
  | .eventCb _ => True
  | .expire c => x.pool.Allowed (.expire c)
  | .delaySendMsgTimer c i => i < (x.delayed c.id).length

/-- No entry expires for a connection that `EventCb` has closed under a delayed
message. -/
def Calm (x : Client) : ClientEvent → Prop
  | .expire c => x.pool.Settled (.expire c)
  | _ => True

/-- What the lists of the pool are to be for its robots, by the sockets that
are open: every robot is idle, at work or dropped, and at work with one socket
just when it is listed so. -/
def Kept (robots : List Nat) (x : Client) : Prop :=
  Pool.Kept robots { x.pool with mapConn := x.sockets }

/-- The requests a connection has sent. -/
def requests (x : Client) (i : Nat) : List Request := (x.sent i).filter (· ≠ .heartbeat)

/-- The program at its start, with the robots of the pool and their members. -/
def start (header : Header) (robots : List Nat) (task : Nat → RobotTask) : Client :=
  { header, pool := { taskRobotList := robots }, task }

/-! ## The pool of the client -/

/-- A robot has at most one open connection. -/
theorem eq_of_robot {robots : List Nat} (hn : robots.Nodup) {p : Pool} (hp : Pool.Inv robots p)
    {c c' : Conn} (hc : c ∈ p.mapConn) (hc' : c' ∈ p.mapConn) (h : c.robot = c'.robot) :
    c = c' := by
  have hnodup : (p.mapConn.map Conn.robot).Nodup := by
    refine List.nodup_iff_count_le_one.mpr fun r => ?_
    rw [List.count_eq_countP, List.countP_map]
    have hone := (hp.kept hn).one r
    unfold Pool.assigned at hone
    exact hone
  exact List.inj_on_of_nodup_map hnodup hc hc' h

/-! ## The invariant -/

/-- The parts fit together: the pool keeps its lists, every open connection is
at a stage of its requests, every connection has sent them in order, the timers
of delayed messages are those that hold a connection object, and the wheel
knows connections that were made. -/
structure Inv (robots : List Nat) (isMatch : Bool) (x : Client) : Prop where
  pool : Pool.Inv robots x.pool
  header : x.header.conns.length + x.header.retries = 1
  mode : ∀ r, (x.task r).isMatch = isMatch
  stage : ∀ c ∈ x.pool.mapConn, Stage isMatch (x.requests c.id) (x.task c.robot).status
  talk : ∀ i, Talk isMatch (x.requests i)
  delayed : ∀ i, ∀ p ∈ x.delayed i, p.1.OfGame
  playing : ∀ c ∈ x.pool.mapConn, x.delayed c.id ≠ [] → (x.task c.robot).status = .gamming
  held : ∀ i, x.pool.msgNodes i = (x.delayed i).length
  fresh : ∀ i, x.pool.created ≤ i → x.sent i = [] ∧ x.delayed i = []
  entries : ∀ c ∈ x.pool.entries, c.robot ∈ robots
  sockets : x.sockets.Perm x.pool.mapConn

/-- What only a new connection changes. -/
structure OpensNone (p p' : Pool) : Prop where
  conns : ∀ c ∈ p'.mapConn, c ∈ p.mapConn
  entries : ∀ c ∈ p'.entries, c ∈ p.entries ∨ c ∈ p.mapConn
  msgNodes : p'.msgNodes = p.msgNodes
  created : p'.created = p.created

section Step

variable {robots : List Nat} {isMatch : Bool} {x : Client}

/-- The robot of an open connection is one of the robots. -/
theorem robot_mem {p : Pool} (hp : Pool.Inv robots p) {c : Conn} (hc : c ∈ p.mapConn) :
    c.robot ∈ robots := by
  have hpos : 0 < p.assigned c.robot := List.countP_pos_iff.mpr ⟨c, hc, decide_eq_true rfl⟩
  have hassigned := hp.assigned c.robot
  have hcount := hp.count c.robot
  exact List.count_pos_iff.mp (by omega)

/-- Connections go with their sockets, and the rest stays. -/
theorem Inv.withPool (h : Inv robots isMatch x) {p : Pool} (hp : Pool.Inv robots p)
    (hopens : OpensNone x.pool p) {sockets : List Conn} (hsockets : sockets.Perm p.mapConn) :
    Inv robots isMatch { x with pool := p, sockets } := by
  refine ⟨hp, h.header, h.mode, fun c hc => h.stage c (hopens.conns c hc), h.talk, h.delayed,
    fun c hc => h.playing c (hopens.conns c hc),
    fun i => (congrFun hopens.msgNodes i).trans (h.held i),
    fun i hi => h.fresh i (hopens.created ▸ hi), fun c hc => ?_, hsockets⟩
  rcases hopens.entries c hc with hin | hconn
  · exact h.entries c hin
  · exact robot_mem h.pool hconn

/-- The socket of a connection that is closed goes with it. -/
theorem Inv.sockets_closed (h : Inv robots isMatch x) {p' : Pool} {c : Conn}
    (hc : Pool.Closed x.pool p' c) : (x.sockets.erase c).Perm p'.mapConn := by
  have herase := (h.sockets.trans hc.conns.symm).erase c
  rwa [List.erase_cons_head] at herase

/-- With a socket for every connection the lists are right. -/
theorem Inv.kept (h : Inv robots isMatch x) (hn : robots.Nodup) : Kept robots x := by
  obtain ⟨honce, hopen, hone⟩ := h.pool.kept hn
  have hassigned : ∀ r, Pool.assigned { x.pool with mapConn := x.sockets } r = x.pool.assigned r :=
    fun r => h.sockets.countP_eq _
  refine ⟨honce, fun r => ?_, fun r => ?_⟩
  · rw [hassigned]
    exact hopen r
  · rw [hassigned]
    exact hone r

/-- A closed connection is no longer open, and everything else is as before. -/
theorem closed_mapConn {p p' : Pool} (hp : Pool.Inv robots p) {c : Conn}
    (hc : Pool.Closed p p' c) : ∀ c' ∈ p'.mapConn, c' ∈ p.mapConn ∧ c'.id ≠ c.id := by
  intro c' hc'
  have hids := (hc.conns.map Conn.id).nodup_iff.mpr hp.ids
  refine ⟨hc.conns.subset (List.mem_cons_of_mem _ hc'), fun he => ?_⟩
  exact (List.nodup_cons.mp hids).1 (List.mem_map.mpr ⟨c', hc', he⟩)

/-- A task robot gets a connection. An idle robot has none, because it is in
one list only and the robots with connections are in the other, so it is still
its only one. -/
theorem Inv.connect (h : Inv robots isMatch x) (hn : robots.Nodup) (isTestKeepPlay : Bool)
    {fd : Int} {robot : Nat} {rest : List Nat} (ht : x.pool.taskRobotList = robot :: rest)
    (hfd : ∀ c ∈ x.pool.mapConn, c.fd ≠ fd) :
    Inv robots isMatch (x.connect isTestKeepPlay fd robot rest) := by
  -- an idle robot has no connection
  have hidle : ∀ c ∈ x.pool.mapConn, c.robot ≠ robot := by
    intro c hc he
    have hcount := h.pool.count robot
    have hassigned := h.pool.assigned robot
    have hone := List.nodup_iff_count_le_one.mp hn robot
    rw [ht, List.count_cons_self] at hcount
    have hpos : 0 < x.pool.assigned robot := List.countP_pos_iff.mpr ⟨c, hc, decide_eq_true he⟩
    omega
  have hinit : ∀ t : RobotTask, (({ task := t } : Link).connect isTestKeepPlay).task.status = .init
      ∧ (({ task := t } : Link).connect isTestKeepPlay).task.isMatch = t.isMatch := by
    intro t
    unfold Link.connect
    dsimp only
    split <;> exact ⟨rfl, rfl⟩
  refine ⟨h.pool.connect ht hfd, h.header, fun r => ?_, fun c hc => ?_, h.talk, h.delayed,
    fun c hc hne => ?_, h.held, fun i hi => h.fresh i (Nat.le_of_succ_le hi), h.entries,
    h.sockets.append_right _⟩
  · show (Function.update x.task robot _ r).isMatch = isMatch
    rw [Function.update_apply]
    split
    · exact (hinit _).2.trans (h.mode robot)
    · exact h.mode r
  · show Stage isMatch (x.requests c.id) (Function.update x.task robot _ c.robot).status
    rcases List.mem_append.mp hc with hc | hc
    · rw [Function.update_of_ne (hidle c hc)]
      exact h.stage c hc
    · rw [List.mem_singleton.mp hc, Function.update_self, (hinit _).1]
      show (x.sent x.pool.created).filter _ = []
      rw [(h.fresh _ (Nat.le_refl _)).1]
      rfl
  · rcases List.mem_append.mp hc with hc | hc
    · show (Function.update x.task robot _ c.robot).status = .gamming
      rw [Function.update_of_ne (hidle c hc)]
      exact h.playing c hc hne
    · rw [List.mem_singleton.mp hc] at hne
      exact absurd (h.fresh _ (Nat.le_refl _)).2 hne

/-- `AddRobot`, call by call: a call of `CreateConnection` that fails takes no
robot, and one that succeeds is the step before, under a descriptor that is not
open. -/
theorem Inv.addRobot (hn : robots.Nodup) (isTestKeepPlay : Bool) :
    ∀ (fds : List (Option Int)) (n : Int) {x : Client}, Inv robots isMatch x →
      (fds.filterMap id).Nodup → (∀ c ∈ x.pool.mapConn, some c.fd ∉ fds) →
      Inv robots isMatch (Client.addRobot isTestKeepPlay fds n x) := by
  intro fds
  induction fds with
  | nil => intro n x h _ _; exact h
  | cons fd fds ih =>
    intro n x h hnodup hfresh
    unfold Client.addRobot
    split
    · cases ht : x.pool.taskRobotList with
      | nil => exact h
      | cons robot rest =>
        cases fd with
        | none => exact h
        | some fd =>
          replace hnodup : (fd :: fds.filterMap id).Nodup := hnodup
          rw [List.nodup_cons] at hnodup
          refine ih _ (h.connect hn isTestKeepPlay ht fun c hc he => ?_) hnodup.2 fun c hc => ?_
          · rw [← he] at hfresh
            exact hfresh c hc List.mem_cons_self
          · rcases List.mem_append.mp hc with hc | hc
            · exact fun hm => hfresh c hc (List.mem_cons_of_mem _ hm)
            · rw [List.mem_singleton.mp hc]
              exact fun hm => hnodup.1 (List.mem_filterMap.mpr ⟨some fd, hm, rfl⟩)
    · exact h

/-- An open connection is staged. -/
theorem Inv.staged (h : Inv robots isMatch x) {c : Conn} (hc : c ∈ x.pool.mapConn) :
    Link.Staged isMatch (x.link c) :=
  ⟨h.mode c.robot, fun _ => h.stage c hc, h.talk c.id, h.delayed c.id, fun _ => h.playing c hc⟩

/-- A message is delayed on a connection that goes on, or none is: where the
handler fails or asks for the connection to be closed, nothing is delayed. -/
theorem robotProcess_delayed (l : Link) (o : Outside) (msg : Msg) :
    (l.robotProcess o msg).1.delayed = l.delayed ∨
      (l.robotProcess o msg).1.closed = l.closed ∧ (l.robotProcess o msg).1.deleted = l.deleted ∧
        ∃ p, (l.robotProcess o msg).1.delayed = l.delayed ++ [p] := by
  unfold Link.robotProcess
  cases l.task.handle o msg with
  | none => exact .inl rfl
  | some r =>
    dsimp only
    split
    · exact .inl rfl
    · unfold Link.analysisAndDecision
      dsimp only
      split
      · exact .inl rfl
      split
      · exact .inl rfl
      cases r.node.request with
      | none =>
        dsimp only
        split <;> exact .inl rfl
      | some request =>
        dsimp only
        split
        · exact .inr ⟨rfl, rfl, _, rfl⟩
        · split <;> exact .inl rfl

/-- What a message does to the pool: the connection goes, or it stays and may
be held by one more timer. -/
theorem Inv.receive_pool (h : Inv robots isMatch x) {c : Conn} (hc : c ∈ x.pool.mapConn)
    (o : Outside) (msg : Msg) :
    let l := ((x.link c).robotProcess o msg).1
    let p := (x.receive c o msg).pool
    Pool.Inv robots p ∧ p.created = x.pool.created ∧ p.entries = x.pool.entries ∧
      (∀ c' ∈ p.mapConn, c' ∈ x.pool.mapConn ∧ (c' = c → l.closed = false)) ∧
      (∀ i, p.msgNodes i = (Function.update x.delayed c.id l.delayed i).length) ∧
      (x.receive c o msg).sockets.Perm p.mapConn := by
  intro l p
  have hbev := h.pool.bev c hc
  have hdelayed := robotProcess_delayed (x.link c) o msg
  have hnodes : l.delayed = x.delayed c.id → ∀ i, x.pool.msgNodes i
      = (Function.update x.delayed c.id l.delayed i).length := by
    intro he i
    rw [he, Function.update_eq_self]
    exact h.held i
  have hsockets : (x.receive c o msg).sockets
      = if l.deleted || l.closed then x.sockets.erase c else x.sockets := by
    show (if (l.deleted || l.closed) && x.pool.bev c.id then _ else _) = _
    rw [hbev, Bool.and_true]
  have hgone : (l.deleted || l.closed) = true → Pool.Closed x.pool p c →
      p.entries = x.pool.entries → p.msgNodes = x.pool.msgNodes → l.delayed = x.delayed c.id →
      Pool.Inv robots p ∧ p.created = x.pool.created ∧ p.entries = x.pool.entries ∧
        (∀ c' ∈ p.mapConn, c' ∈ x.pool.mapConn ∧ (c' = c → l.closed = false)) ∧
        (∀ i, p.msgNodes i = (Function.update x.delayed c.id l.delayed i).length) ∧
        (x.receive c o msg).sockets.Perm p.mapConn := by
    intro hends hclosed hentries hmsgs hstay
    refine ⟨h.pool.closed hclosed, hclosed.created, hentries, fun c' hc' => ?_, ?_, ?_⟩
    · obtain ⟨hin, hne⟩ := closed_mapConn h.pool hclosed c' hc'
      exact ⟨hin, fun he => absurd (congrArg Conn.id he) hne⟩
    · rw [hmsgs]
      exact hnodes hstay
    · rw [hsockets, if_pos hends]
      exact h.sockets_closed hclosed
  have hp : p = if l.deleted then x.pool.delRobotAndCloseConnection c
      else if l.closed then x.pool.delRobot c
      else if (x.delayed c.id).length < l.delayed.length then x.pool.step (.delaySend c)
      else x.pool := rfl
  by_cases hdel : l.deleted = true
  · rw [if_pos hdel] at hp
    have hstay : l.delayed = x.delayed c.id := by
      rcases hdelayed with he | ⟨-, hno, -⟩
      · exact he
      · exact absurd (hno.symm.trans hdel) Bool.false_ne_true
    have hclose : p = (x.pool.closeConnection c).moveRobotFromUntaskList c :=
      hp.trans (if_pos hbev)
    have hclosed := Pool.closed_delRobotAndCloseConnection h.pool.fds hc
    rw [← hclose] at hclosed
    exact hgone (by rw [hdel, Bool.true_or]) hclosed ((congrArg Pool.entries hclose).trans rfl)
      ((congrArg Pool.msgNodes hclose).trans rfl) hstay
  rw [if_neg hdel] at hp
  by_cases hclo : l.closed = true
  · rw [if_pos hclo] at hp
    have hstay : l.delayed = x.delayed c.id := by
      rcases hdelayed with he | ⟨hno, -⟩
      · exact he
      · exact absurd (hno.symm.trans hclo) Bool.false_ne_true
    have hclose : p = (x.pool.moveRobotFromUntaskListToTaskList c).closeConnection c :=
      hp.trans (if_pos hbev)
    have hclosed := Pool.closed_delRobot h.pool.fds hc
    rw [← hclose] at hclosed
    exact hgone (by rw [hclo, Bool.or_true]) hclosed ((congrArg Pool.entries hclose).trans rfl)
      ((congrArg Pool.msgNodes hclose).trans rfl) hstay
  rw [if_neg hclo] at hp
  have hopen : l.closed = false := Bool.eq_false_of_not_eq_true hclo
  have hkept : (x.receive c o msg).sockets = x.sockets := by
    rw [hsockets, hopen, Bool.eq_false_of_not_eq_true hdel]
    rfl
  by_cases hmore : (x.delayed c.id).length < l.delayed.length
  · rw [if_pos hmore] at hp
    have hone : l.delayed.length = (x.delayed c.id).length + 1 := by
      rcases hdelayed with he | ⟨-, -, q, he⟩
      · rw [show l.delayed = x.delayed c.id from he] at hmore
        exact absurd hmore (Nat.lt_irrefl _)
      · rw [show l.delayed = x.delayed c.id ++ [q] from he, List.length_append]
        rfl
    rw [hp]
    refine ⟨h.pool.step (e := .delaySend c) (.inl hc) trivial, rfl, rfl,
      fun c' hc' => ⟨hc', fun _ => hopen⟩, fun i => ?_, hkept ▸ h.sockets⟩
    show Function.update x.pool.msgNodes c.id (x.pool.msgNodes c.id + 1) i = _
    rw [Function.update_apply, Function.update_apply]
    split
    · rw [hone, h.held c.id]
    · exact h.held i
  · rw [if_neg hmore] at hp
    have hstay : l.delayed = x.delayed c.id := by
      rcases hdelayed with he | ⟨-, -, q, he⟩
      · exact he
      · rw [show l.delayed = x.delayed c.id ++ [q] from he, List.length_append] at hmore
        exact absurd (Nat.lt_succ_self _) hmore
    rw [hp]
    exact ⟨h.pool, rfl, rfl, fun c' hc' => ⟨hc', fun _ => hopen⟩, hnodes hstay,
      hkept ▸ h.sockets⟩

/-- A message. What it changes besides the pool is its own link, and a
connection apart from it has another robot; what the robot does on it is
`Staged.receive`. -/
theorem Inv.receive (h : Inv robots isMatch x) (hn : robots.Nodup) {c : Conn}
    (hc : c ∈ x.pool.mapConn) (o : Outside) (msg : Msg) :
    Inv robots isMatch (x.receive c o msg) := by
  obtain ⟨hpool, hcreated, hentries, hconns, hheld, hsockets⟩ := h.receive_pool hc o msg
  have hstaged := (h.staged hc).receive rfl o msg
  -- another connection has another robot
  have hother : ∀ c' ∈ x.pool.mapConn, c' ≠ c → c'.id ≠ c.id ∧ c'.robot ≠ c.robot :=
    fun c' hin he => ⟨fun hi => he (List.inj_on_of_nodup_map h.pool.ids hin hc hi),
      fun hr => he (eq_of_robot hn h.pool hin hc hr)⟩
  refine ⟨hpool, h.header, fun r => ?_, fun c' hc' => ?_, fun i => ?_, fun i p hp => ?_,
    fun c' hc' hne => ?_, hheld, fun i hi => ?_, fun c' hc' => ?_, hsockets⟩
  · show (Function.update x.task c.robot _ r).isMatch = isMatch
    rw [Function.update_apply]
    split
    · exact hstaged.mode
    · exact h.mode r
  · obtain ⟨hin, hopen⟩ := hconns c' hc'
    show Stage isMatch ((Function.update x.sent c.id _ c'.id).filter _)
      (Function.update x.task c.robot _ c'.robot).status
    by_cases he : c' = c
    · rw [he, Function.update_self, Function.update_self]
      exact hstaged.stage (hopen he)
    · rw [Function.update_of_ne (hother c' hin he).1, Function.update_of_ne (hother c' hin he).2]
      exact h.stage c' hin
  · show Talk isMatch ((Function.update x.sent c.id _ i).filter _)
    by_cases hi : i = c.id
    · rw [hi, Function.update_self]
      exact hstaged.talk
    · rw [Function.update_of_ne hi]
      exact h.talk i
  · replace hp : p ∈ Function.update x.delayed c.id _ i := hp
    by_cases hi : i = c.id
    · rw [hi, Function.update_self] at hp
      exact hstaged.delayed p hp
    · rw [Function.update_of_ne hi] at hp
      exact h.delayed i p hp
  · obtain ⟨hin, hopen⟩ := hconns c' hc'
    replace hne : Function.update x.delayed c.id _ c'.id ≠ [] := hne
    show (Function.update x.task c.robot _ c'.robot).status = .gamming
    by_cases he : c' = c
    · rw [he, Function.update_self] at hne
      rw [he, Function.update_self]
      exact hstaged.playing (hopen he) hne
    · rw [Function.update_of_ne (hother c' hin he).1] at hne
      rw [Function.update_of_ne (hother c' hin he).2]
      exact h.playing c' hin hne
  · rw [hcreated] at hi
    have hlt := h.pool.old c hc
    show Function.update x.sent c.id _ i = [] ∧ Function.update x.delayed c.id _ i = []
    rw [Function.update_of_ne (by omega), Function.update_of_ne (by omega)]
    exact h.fresh i hi
  · rw [hentries] at hc'
    exact h.entries c' hc'

/-- Heartbeats go out on the open connections. They are no requests, so no
connection's talk is longer for them. -/
theorem Inv.heartBeatTimeCb (h : Inv robots isMatch x) :
    Inv robots isMatch x.heartBeatTimeCb := by
  have hsame : ∀ i, x.heartBeatTimeCb.requests i = x.requests i := by
    intro i
    show (if i ∈ x.pool.mapConn.map Conn.id then x.sent i ++ [.heartbeat]
      else x.sent i).filter _ = _
    split
    · rw [List.filter_append]
      exact List.append_nil _
    · rfl
  refine ⟨h.pool, h.header, h.mode, fun c hc => ?_, fun i => ?_, h.delayed, h.playing, h.held,
    fun i hi => ?_, h.entries, h.sockets⟩
  · rw [hsame]
    exact h.stage c hc
  · rw [hsame]
    exact h.talk i
  · have hnot : i ∉ x.pool.mapConn.map Conn.id := by
      intro hin
      obtain ⟨c, hc, rfl⟩ := List.mem_map.mp hin
      exact absurd (h.pool.old c hc) (Nat.not_lt.mpr hi)
    show (if i ∈ x.pool.mapConn.map Conn.id then _ else x.sent i) = [] ∧ _
    rw [if_neg hnot]
    exact h.fresh i hi

/-- What the timer of a delayed message does: the message goes, and it is sent
or dropped. -/
theorem delaySendMsgTimer_eq (x : Client) {c : Conn} {i : Nat} (hi : i < (x.delayed c.id).length) :
    x.delaySendMsgTimer c i = { x with
      pool := x.pool.step (.delaySent c)
      sent := Function.update x.sent c.id
        (if x.pool.bev c.id then x.sent c.id ++ [(x.delayed c.id)[i].1] else x.sent c.id)
      delayed := Function.update x.delayed c.id ((x.delayed c.id).eraseIdx i) } := by
  unfold Client.delaySendMsgTimer
  rw [List.getElem?_eq_getElem hi]

/-- It adds requests of the game only: the message that was held, on its own
connection, and nothing on any other. -/
theorem Inv.requests_delaySendMsgTimer (h : Inv robots isMatch x) {c : Conn} {i : Nat}
    (hi : i < (x.delayed c.id).length) (j : Nat) :
    (x.delaySendMsgTimer c i).requests j = x.requests j ∨ j = c.id ∧
      ∃ q : Request, q.OfGame ∧ (x.delaySendMsgTimer c i).requests j = x.requests j ++ [q] := by
  have hgame := h.delayed c.id _ (List.getElem_mem hi)
  have hne : (x.delayed c.id)[i].1 ≠ .heartbeat := by
    intro he
    rw [he] at hgame
    exact hgame
  have hone : [(x.delayed c.id)[i].1].filter (fun q => decide (q ≠ .heartbeat))
      = [(x.delayed c.id)[i].1] := List.filter_cons_of_pos (decide_eq_true hne)
  rw [delaySendMsgTimer_eq x hi]
  show (Function.update x.sent c.id _ j).filter _ = _ ∨ _ ∧ ∃ q : Request, _ ∧
    (Function.update x.sent c.id _ j).filter _ = _
  by_cases hj : j = c.id
  · rw [hj, Function.update_self]
    split
    · refine .inr ⟨rfl, _, hgame, ?_⟩
      rw [List.filter_append, hone]
      rfl
    · exact .inl rfl
  · rw [Function.update_of_ne hj]
    exact .inl rfl

/-- A delayed message goes out, or finds its connection closed. If it goes out
the robot is in a game, since only there is anything delayed, and a request of
the game does not break the order. -/
theorem Inv.delaySendMsgTimer (h : Inv robots isMatch x) {c : Conn} {i : Nat}
    (hi : i < (x.delayed c.id).length) : Inv robots isMatch (x.delaySendMsgTimer c i) := by
  have hadds := h.requests_delaySendMsgTimer hi
  have hheld : 0 < x.pool.msgNodes c.id := by
    rw [h.held c.id]
    exact Nat.zero_lt_of_lt hi
  have hold : c.id < x.pool.created := by
    by_contra hno
    rw [(h.fresh c.id (Nat.le_of_not_lt hno)).2] at hi
    exact absurd hi (Nat.not_lt_zero i)
  have herase : ∀ j, ∀ p ∈ Function.update x.delayed c.id ((x.delayed c.id).eraseIdx i) j,
      p ∈ x.delayed j := by
    intro j p hp
    by_cases hj : j = c.id
    · rw [hj, Function.update_self] at hp
      rw [hj]
      exact List.mem_of_mem_eraseIdx hp
    · rw [Function.update_of_ne hj] at hp
      exact hp
  have hplaying : ∀ c' ∈ x.pool.mapConn,
      Function.update x.delayed c.id ((x.delayed c.id).eraseIdx i) c'.id ≠ [] →
      (x.task c'.robot).status = .gamming := by
    intro c' hc' hne
    obtain ⟨p, hp⟩ := List.exists_mem_of_ne_nil _ hne
    exact h.playing c' hc' (List.ne_nil_of_mem (herase c'.id p hp))
  have hfields := delaySendMsgTimer_eq x hi
  refine ⟨?_, ?_, ?_, fun c' hc' => ?_, fun j => ?_, ?_, ?_, fun j => ?_, fun j hj => ?_, ?_,
    ?_⟩
  · rw [hfields]
    exact h.pool.step (e := .delaySent c) hheld trivial
  · rw [hfields]
    exact h.header
  · rw [hfields]
    exact h.mode
  · have hin : c' ∈ x.pool.mapConn := by
      rw [hfields] at hc'
      exact hc'
    have htask : (x.delaySendMsgTimer c i).task = x.task := by rw [hfields]
    rw [htask]
    rcases hadds c'.id with hsame | ⟨hid, q, hq, hmore⟩
    · rw [hsame]
      exact h.stage c' hin
    · -- only in a game is there something delayed
      have hne : x.delayed c'.id ≠ [] := by
        rw [hid]
        exact List.ne_nil_of_length_pos (Nat.zero_lt_of_lt hi)
      rw [hmore, h.playing c' hin hne]
      exact (h.talk c'.id).ofGame hq
  · rcases hadds j with hsame | ⟨-, q, hq, hmore⟩
    · rw [hsame]
      exact h.talk j
    · rw [hmore]
      exact (h.talk j).ofGame hq
  · rw [hfields]
    exact fun j p hp => h.delayed j p (herase j p hp)
  · rw [hfields]
    exact hplaying
  · rw [hfields]
    show Function.update x.pool.msgNodes c.id _ j = (Function.update x.delayed c.id _ j).length
    by_cases hj : j = c.id
    · rw [hj, Function.update_self, Function.update_self, h.held c.id, List.length_eraseIdx,
        if_pos hi]
    · rw [Function.update_of_ne hj, Function.update_of_ne hj]
      exact h.held j
  · rw [hfields] at hj ⊢
    show Function.update x.sent c.id _ j = [] ∧ Function.update x.delayed c.id _ j = []
    replace hj : x.pool.created ≤ j := hj
    rw [Function.update_of_ne (by omega), Function.update_of_ne (by omega)]
    exact h.fresh j hj
  · rw [hfields]
    exact h.entries
  · rw [hfields]
    exact h.sockets

/-- The server's close opens no socket. -/
theorem opensNone_eventCb (p : Pool) (fd : Int) : OpensNone p (p.eventCb fd) := by
  unfold Pool.eventCb
  split
  next => exact ⟨fun _ hc => List.eraseP_subset hc, fun _ => .inl, rfl, rfl⟩
  next => exact ⟨fun _ hc => hc, fun _ => .inl, rfl, rfl⟩

/-- Nor does an expiry. -/
theorem opensNone_expire (p : Pool) (c : Conn) : OpensNone p (p.expire c) := by
  have herase : ∀ c' ∈ p.entries.erase c, c' ∈ p.entries ∨ c' ∈ p.mapConn :=
    fun _ hc' => .inl (List.mem_of_mem_erase hc')
  unfold Pool.expire Pool.delRobot
  dsimp only
  split
  next =>
    split
    next => exact ⟨fun _ hc => List.eraseP_subset hc, herase, rfl, rfl⟩
    next => exact ⟨fun _ hc => hc, herase, rfl, rfl⟩
  next => exact ⟨fun _ hc => hc, herase, rfl, rfl⟩

/-- What `~Entry` does when it finds its connection with `bev_` set. -/
theorem expire_eq {p : Pool} {c : Conn} (halive : p.Alive c) (hbev : p.bev c.id = true) :
    p.expire c = { (p.moveRobotFromUntaskListToTaskList c).closeConnection c with
      entries := p.entries.erase c } := by
  unfold Pool.expire
  rw [if_pos halive]
  exact if_pos hbev

/-- `EventCb` closes the socket of the connection it finds. -/
theorem Inv.eventCb (h : Inv robots isMatch x) (fd : Int) :
    Inv robots isMatch (x.eventCb fd) := by
  refine h.withPool (h.pool.eventCb fd) (opensNone_eventCb x.pool fd) ?_
  unfold Pool.eventCb
  cases hfind : x.pool.mapConn.find? (·.fd = fd) with
  | none => exact h.sockets
  | some c =>
    have hfd : c.fd = fd := by simpa using List.find?_some hfind
    have hclosed := Pool.closed_eventCb h.pool.fds (List.mem_of_find?_eq_some hfind)
    rw [hfd] at hclosed
    exact h.sockets_closed hclosed

/-- So does an entry that expires for a connection that is still open; for one
whose object is gone, or has been closed by the robot, it changes nothing. -/
theorem Inv.expire (h : Inv robots isMatch x) {c : Conn} (hin : c ∈ x.pool.entries)
    (hs : x.Calm (.expire c)) : Inv robots isMatch (x.expire c) := by
  refine h.withPool (h.pool.step (e := .expire c) hin hs) (opensNone_expire x.pool c) ?_
  split
  next hclosing =>
    obtain ⟨halive, hbev⟩ := hclosing
    have hclosed := Pool.closed_delRobot h.pool.fds (hs halive hbev)
    have hsockets := h.sockets_closed hclosed
    rw [show x.pool.step (.expire c) = _ from expire_eq halive hbev]
    exact hsockets
  next hclosing =>
    have hstays : (x.pool.expire c).mapConn = x.pool.mapConn := by
      unfold Pool.expire Pool.delRobot
      dsimp only
      split
      next halive => rw [if_neg fun hbev => hclosing ⟨halive, hbev⟩]
      next => rfl
    show x.sockets.Perm (x.pool.expire c).mapConn
    rw [hstays]
    exact h.sockets

/-- Any other expiry spoils the lists: the robot is given back once more, or is
taken off the list of those at work while it has a socket. -/
theorem Inv.calm_of_kept (h : Inv robots isMatch x) (hn : robots.Nodup) {c : Conn}
    (hin : c ∈ x.pool.entries) (hk : Kept robots (x.expire c)) : x.Calm (.expire c) := by
  intro halive hbev
  by_contra hno
  have hsockets : (x.expire c).sockets = x.sockets := by
    show (if x.pool.Alive c ∧ x.pool.bev c.id = true then x.sockets.erase c else x.sockets) = _
    rw [if_pos ⟨halive, hbev⟩]
    exact List.erase_of_not_mem fun hs => hno (h.sockets.subset hs)
  unfold Kept at hk
  rw [hsockets, show (x.expire c).pool = _ from expire_eq halive hbev] at hk
  have hrobot := h.entries c hin
  have hbefore := h.pool.count c.robot
  have hassigned := h.pool.assigned c.robot
  have hopen : x.sockets.countP (·.robot = c.robot) = x.pool.assigned c.robot :=
    h.sockets.countP_eq _
  have hone := List.nodup_iff_count_le_one.mp hn c.robot
  have hpos := List.count_pos_iff.mpr hrobot
  have honce : (x.pool.taskRobotList ++ [c.robot] ++ x.pool.untaskRobotList.erase c.robot).count
      c.robot = if c.robot ∈ x.pool.deleted then 0 else 1 := hk.once c.robot hrobot
  rw [List.count_append, List.count_append, List.count_singleton_self, List.count_erase_self]
    at honce
  by_cases hdeleted : c.robot ∈ x.pool.deleted
  · -- it had been dropped
    rw [if_pos hdeleted] at honce
    omega
  rw [if_neg hdeleted] at honce
  have hnone := List.count_eq_zero.mpr hdeleted
  -- so it had a connection, whose socket is still open
  have hlisted : c.robot ∈ x.pool.untaskRobotList.erase c.robot :=
    (hk.open_iff c.robot).mpr (by
      show x.sockets.countP (·.robot = c.robot) = 1
      omega)
  have hcount := List.count_pos_iff.mpr hlisted
  rw [List.count_erase_self] at hcount
  omega

/-- What the header robot does: its counts take robots out of the pool. -/
theorem Inv.headerStep (h : Inv robots isMatch x) (hn : robots.Nodup) {e : HeaderEvent}
    {fds : List (Option Int)} (ha : x.Allowed (.header e fds)) :
    Inv robots isMatch (x.step (.header e fds)) := by
  have hheader : Inv robots isMatch { x with header := x.header.step e } :=
    ⟨h.pool, (Header.step_balance ha.1).trans h.header, h.mode, h.stage, h.talk, h.delayed,
      h.playing, h.held, h.fresh, h.entries, h.sockets⟩
  unfold Client.step
  dsimp only
  split
  · exact hheader
  · exact hheader.addRobot hn false fds _ ha.2.1 ha.2.2

/-- One event. -/
theorem Inv.step (h : Inv robots isMatch x) (hn : robots.Nodup) {e : ClientEvent}
    (ha : x.Allowed e) (hs : x.Calm e) : Inv robots isMatch (x.step e) := by
  cases e with
  | header e fds => exact h.headerStep hn ha
  | robotKeepPlayTest fds => exact h.addRobot hn true fds _ ha.1 ha.2
  | connected c =>
    refine h.withPool (h.pool.step (e := .connected c) ha trivial)
      ⟨fun _ hc => hc, fun c' hc' => ?_, rfl, rfl⟩ h.sockets
    rcases List.mem_append.mp hc' with hin | hnew
    · exact .inl hin
    · rw [List.mem_singleton.mp hnew]
      exact .inr ha.1
  | receive c o msg => exact h.receive hn ha o msg
  | heartBeatTime => exact h.heartBeatTimeCb
  | eventCb fd => exact h.eventCb fd
  | expire c => exact h.expire ha hs
  | delaySendMsgTimer c i => exact h.delaySendMsgTimer ha

/-- The invariant at the start: the header robot's connection or try, and every
task robot idle. -/
theorem inv_start {header : Header} (hh : header.conns.length + header.retries = 1)
    {task : Nat → RobotTask} (ht : ∀ r, (task r).isMatch = isMatch) :
    Inv robots isMatch (start header robots task) :=
  ⟨⟨fun _ => rfl, fun _ => rfl, List.nodup_nil, List.nodup_nil,
      fun _ hc => absurd hc List.not_mem_nil, fun _ hc => absurd hc List.not_mem_nil⟩, hh, ht,
    fun _ hc => absurd hc List.not_mem_nil, fun _ => Entry.nothing.talk,
    fun _ _ hp => absurd hp List.not_mem_nil, fun _ hc => absurd hc List.not_mem_nil,
    fun _ => rfl, fun _ _ => ⟨rfl, rfl⟩, fun _ hc => absurd hc List.not_mem_nil, .nil⟩

end Step

/-! ## Runs -/

section Run

variable {robots : List Nat} (hn : robots.Nodup) (conf : RoomConf) (isTimeTrail ok : Bool)
  {isMatch : Bool} {task : Nat → RobotTask} (ht : ∀ r, (task r).isMatch = isMatch)
  {es : List ClientEvent}
  (ha : Along step Allowed (start (Header.start conf isTimeTrail ok) robots task) es)
include hn ht ha

/-- In every run of the client, every robot is in one list and has at most
one open socket throughout, exactly when no entry expires for a connection that the
server has closed under a delayed message. -/
theorem client_kept_iff :
    (∀ pre, pre <+: es → Kept robots
        (run step (start (Header.start conf isTimeTrail ok) robots task) pre)) ↔
      Along step Calm (start (Header.start conf isTimeTrail ok) robots task) es := by
  have hstart : Inv robots isMatch (start (Header.start conf isTimeTrail ok) robots task) :=
    inv_start (Header.kept_start conf isTimeTrail ok).one ht
  refine Along.good_iff (Inv robots isMatch) (Kept robots) (fun x h => h.kept hn)
    (fun x e h ha hs => h.step hn ha hs) (fun x e h ha hk => ?_) ha
    hstart
  cases e with
  | expire c => exact h.calm_of_kept hn ha hk
  | header e fds => trivial
  | robotKeepPlayTest fds => trivial
  | connected c => trivial
  | receive c o msg => trivial
  | heartBeatTime => trivial
  | eventCb fd => trivial
  | delaySendMsgTimer c i => trivial

/-- In every run in which no entry expires for a connection that the server has
closed under a delayed message, the header robot has its one connection or try,
and on every connection ever made the requests are in order and only requests
of the game are delayed. -/
theorem client_run
    (hs : Along step Calm (start (Header.start conf isTimeTrail ok) robots task) es) :
    let x := run step (start (Header.start conf isTimeTrail ok) robots task) es
    x.header.conns.length + x.header.retries = 1 ∧ (∀ i, Talk isMatch (x.requests i)) ∧
      ∀ i, ∀ p ∈ x.delayed i, p.1.OfGame := by
  have hstart : Inv robots isMatch (start (Header.start conf isTimeTrail ok) robots task) :=
    inv_start (Header.kept_start conf isTimeTrail ok).one ht
  have hend := (ha.and hs).inv (Inv robots isMatch) (fun _ _ h hp => h.step hn hp.1 hp.2) hstart
  exact ⟨hend.header, hend.talk, hend.delayed⟩

end Run

/-- The header robot asks for one robot, which enters a room, sends a heartbeat
and is given back when the server closes its connection; its entry expires
afterwards. -/
def entersRoom : List ClientEvent :=
  [.header (.connected 0) [], .header (.receive 0 0 (.verifyAck (some (0, false)))) [],
    .header (.receive 0 0 (.initGameAck (some 0))) [], .header (.queryTimer ⟨0, 0⟩) [],
    .header (.receive 0 0 (.needRobotAck (some ⟨0, none⟩))) [some 5], .connected ⟨0, 5, 7⟩,
    .receive ⟨0, 5, 7⟩ ⟨Undef.zero, 0⟩ (.verifyAck (some (0, false))),
    .receive ⟨0, 5, 7⟩ ⟨Undef.zero, 0⟩ (.initGameAck (some 0)), .heartBeatTime,
    .receive ⟨0, 5, 7⟩ ⟨Undef.zero, 0⟩ (.quickStartAck (some 0)), .eventCb 5,
    .expire ⟨0, 5, 7⟩]

/-- A pool of one robot. -/
def onePool : Client :=
  start (Header.start ⟨0, 1⟩ false true) [7] fun _ =>
    { robotId := 7, isMatch := false, delaySendActiveMsgTime := 3, delaySendPassiveMsgTime := 3,
      costId := 0 }

theorem mode_onePool (r : Nat) : (onePool.task r).isMatch = false := rfl

/-- The events of this run can happen, one after the other. -/
theorem allowed_entersRoom : Along step Allowed onePool entersRoom := by
  have hpool : ∀ {p : Pool}, p.Allowed (.addRobot 0 []) :=
    ⟨List.nodup_nil, fun _ _ => List.not_mem_nil⟩
  have hone : onePool.pool.Allowed (.addRobot 0 [some 5]) :=
    ⟨List.nodup_singleton _, fun _ hc => absurd hc List.not_mem_nil⟩
  exact ⟨⟨List.mem_cons_self, hpool⟩, ⟨List.mem_cons_self, hpool⟩, ⟨List.mem_cons_self, hpool⟩,
    ⟨List.mem_cons_self, hpool⟩, ⟨List.mem_cons_self, hone⟩,
    ⟨List.mem_cons_self, List.not_mem_nil⟩, List.mem_cons_self, List.mem_cons_self, trivial,
    List.mem_cons_self, trivial, List.mem_cons_self, trivial⟩

/-- No entry of this run expires on a connection that the server closed. -/
theorem calm_entersRoom : Along step Calm onePool entersRoom := by
  refine ⟨trivial, trivial, trivial, trivial, trivial, trivial, trivial, trivial, trivial, trivial,
    trivial, fun halive => ?_, trivial⟩
  -- nothing holds the connection any more
  rcases halive with hconn | hheld
  · exact absurd hconn List.not_mem_nil
  · exact absurd hheld (Nat.lt_irrefl 0)

theorem client_kept_iff_entersRoom :
    (∀ pre, pre <+: entersRoom → Kept [7] (run step onePool pre)) ↔
      Along step Calm onePool entersRoom :=
  client_kept_iff (List.nodup_singleton 7) ⟨0, 1⟩ false true mode_onePool allowed_entersRoom

theorem client_run_entersRoom :
    let x := run step onePool entersRoom
    x.header.conns.length + x.header.retries = 1 ∧ (∀ i, Talk false (x.requests i)) ∧
      ∀ i, ∀ p ∈ x.delayed i, p.1.OfGame :=
  client_run (List.nodup_singleton 7) ⟨0, 1⟩ false true mode_onePool allowed_entersRoom
    calm_entersRoom

example : (run step onePool entersRoom).sent 0 = [.initGame, .quickStart, .heartbeat] := rfl

end Client

end RobotDdz.Net
