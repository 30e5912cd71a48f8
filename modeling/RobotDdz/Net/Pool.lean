import RobotDdz.Lib.Runs
import Mathlib.Data.List.Nodup
import Mathlib.Data.List.Count
import Mathlib.Logic.Function.Basic

/-!
# The pool of task robots

`EventProcess` keeps the idle robots in `taskRobotList_` and those with a
connection in `untaskRobotList_`. A connection ends on one of four paths: the
server closes it (`EventCb`, `CloseEvent`), a handler asks for it (`DelRobot`,
`DelRobotAndCloseConnection`), or its entry falls off the timing wheel
(`~Entry`).

The connection object outlives `mapConn_` while a delayed `MsgNode` holds it,
and `BIsBufferExist` is all that stops a second return of its robot.
`CloseConnection` clears `bev_`; `EventCb` frees the buffer but leaves `bev_`
as it was. `Settled` is the condition that no path reaches a connection
`EventCb` has closed, and `poolKept_of_settled` the pool invariant for all runs
of such steps.

The header robot's connection never touches the lists and is left out.

How the invariant is kept: every event either connects robots from the front of
the task list (`Inv.connect`), or closes one open connection (`Closed`, in the
three ways the source does it), or finds its connection closed already and does
nothing. `Settled` is used in the last case only: there the closed connection's
`bev_` must be clear, or its robot would be given back a second time.

Mirroring notes vs `EventProcess.cpp` and `TcpEventServer.cpp`:
- The lists hold robot objects; here they hold the robots' numbers in the pool.
  Nothing compares two robots but by identity.
- `mapConn_` is by descriptor, and `DelRobot` erases the connection's
  descriptor from it whoever has it by then. `eraseFd` does the same, and under
  `Settled` it is the connection's own.
- `AddRobot` asks for connections until its count is used up, the task list is
  empty or `CreateConnection` fails, and a negative count is not used up at
  all.
-/

namespace RobotDdz.Net

open Runs

/-- `class Conn`: the object, its socket and its robot. -/
structure Conn where
  id : Nat
  fd : Int
  robot : Nat
deriving DecidableEq, Repr

/-- The lists of `EventProcess`, `mapConn_`, and of each connection object
whether `bev_` is set and how many delayed `MsgNode`s hold it. `entries` are
the connections with an entry in the timing wheel, `created` counts connection
objects, `deleted` are the robots `DelRobotAndCloseConnection` has dropped. -/
structure Pool where
  taskRobotList : List Nat
  untaskRobotList : List Nat := []
  mapConn : List Conn := []
  bev : Nat → Bool := fun _ => false
  msgNodes : Nat → Nat := fun _ => 0
  entries : List Conn := []
  created : Nat := 0
  deleted : List Nat := []

namespace Pool

/-- `CreateConnection` and `MoveRobotFromTaskListToUntaskList` for the front
robot. -/
def connect (p : Pool) (fd : Int) (robot : Nat) (rest : List Nat) : Pool :=
  { p with
    taskRobotList := rest
    untaskRobotList := p.untaskRobotList ++ [robot]
    mapConn := p.mapConn ++ [⟨p.created, fd, robot⟩]
    bev := Function.update p.bev p.created true
    created := p.created + 1 }

/-- `AddRobot`, given the descriptors `CreateConnection` returns call by call;
`none` is the `-1` of a failed one. -/
def addRobot : List (Option Int) → Int → Pool → Pool
  | [], _, p => p
  | fd :: fds, iRobotNum, p =>
    if iRobotNum ≠ 0 then
      match p.taskRobotList with
      | [] => p
      | robot :: rest =>
        match fd with
        | none => p
        | some fd => addRobot fds (iRobotNum - 1) (p.connect fd robot rest)
    else p

/-- `MoveRobotFromUntaskListToTaskList`. -/
def moveRobotFromUntaskListToTaskList (p : Pool) (c : Conn) : Pool :=
  { p with
    taskRobotList := p.taskRobotList ++ [c.robot]
    untaskRobotList := p.untaskRobotList.erase c.robot }

/-- `MoveRobotFromUntaskList`. -/
def moveRobotFromUntaskList (p : Pool) (c : Conn) : Pool :=
  { p with untaskRobotList := p.untaskRobotList.erase c.robot, deleted := c.robot :: p.deleted }

/-- `mapConn_.erase(fd)`. -/
def eraseFd (p : Pool) (fd : Int) : Pool := { p with mapConn := p.mapConn.eraseP (·.fd = fd) }

/-- `CloseConnection`. -/
def closeConnection (p : Pool) (c : Conn) : Pool :=
  { p with bev := Function.update p.bev c.id false }.eraseFd c.fd

/-- `DelRobot`. -/
def delRobot (p : Pool) (c : Conn) : Pool :=
  if p.bev c.id then (p.moveRobotFromUntaskListToTaskList c).closeConnection c else p

/-- `DelRobotAndCloseConnection`. -/
def delRobotAndCloseConnection (p : Pool) (c : Conn) : Pool :=
  if p.bev c.id then (p.closeConnection c).moveRobotFromUntaskList c else p

/-- `EventCb` for a close or an error on a descriptor, with `CloseEvent`. -/
def eventCb (p : Pool) (fd : Int) : Pool :=
  match p.mapConn.find? (·.fd = fd) with
  | some c => (p.moveRobotFromUntaskListToTaskList c).eraseFd fd
  | none => p

/-- A connection object exists while `mapConn_` or a `MsgNode` holds it. -/
def Alive (p : Pool) (c : Conn) : Prop := c ∈ p.mapConn ∨ 0 < p.msgNodes c.id

instance (p : Pool) (c : Conn) : Decidable (p.Alive c) := inferInstanceAs (Decidable (_ ∨ _))

/-- `~Entry`, when the last bucket with the entry is dropped. -/
def expire (p : Pool) (c : Conn) : Pool :=
  let p' := { p with entries := p.entries.erase c }
  if p.Alive c then p'.delRobot c else p'

end Pool

/-- What happens to the pool. -/
inductive PoolEvent where
  | addRobot (iRobotNum : Int) (fds : List (Option Int))
  | connected (c : Conn)
  | eventCb (fd : Int)
  | delRobot (c : Conn)
  | delRobotAndCloseConnection (c : Conn)
  | expire (c : Conn)
  | delaySend (c : Conn)
  | delaySent (c : Conn)

namespace Pool

/-- One event. -/
def step (p : Pool) : PoolEvent → Pool
  | .addRobot iRobotNum fds => addRobot fds iRobotNum p
  | .connected c => { p with entries := p.entries ++ [c] }
  | .eventCb fd => p.eventCb fd
  | .delRobot c => p.delRobot c
  | .delRobotAndCloseConnection c => p.delRobotAndCloseConnection c
  | .expire c => p.expire c
  | .delaySend c => { p with msgNodes := Function.update p.msgNodes c.id (p.msgNodes c.id + 1) }
  | .delaySent c => { p with msgNodes := Function.update p.msgNodes c.id (p.msgNodes c.id - 1) }

/-- What can happen: new descriptors are not in use, an entry expires once, and
a connection something is done to still exists. -/
def Allowed (p : Pool) : PoolEvent → Prop
  | .addRobot _ fds => (fds.filterMap id).Nodup ∧ ∀ c ∈ p.mapConn, some c.fd ∉ fds
  | .connected c => c ∈ p.mapConn ∧ c ∉ p.entries
  | .eventCb _ => True
  | .delRobot c => p.Alive c
  | .delRobotAndCloseConnection c => p.Alive c
  | .expire c => c ∈ p.entries
  | .delaySend c => p.Alive c
  | .delaySent c => 0 < p.msgNodes c.id

/-- No path reaches a connection that `EventCb` has closed: whenever a handler
or an expiry gets to a connection object, its `bev_` is clear or it is still in
`mapConn_`. -/
def Settled (p : Pool) : PoolEvent → Prop
  | .delRobot c => p.bev c.id = true → c ∈ p.mapConn
  | .delRobotAndCloseConnection c => p.bev c.id = true → c ∈ p.mapConn
  | .expire c => p.Alive c → p.bev c.id = true → c ∈ p.mapConn
  | _ => True

instance (p : Pool) (e : PoolEvent) : Decidable (p.Allowed e) :=
  match e with
  | .addRobot _ _ | .connected _ => inferInstanceAs (Decidable (_ ∧ _))
  | .eventCb _ => inferInstanceAs (Decidable True)
  | .delRobot c | .delRobotAndCloseConnection c | .delaySend c =>
    inferInstanceAs (Decidable (p.Alive c))
  | .expire _ => inferInstanceAs (Decidable (_ ∈ _))
  | .delaySent _ => inferInstanceAs (Decidable (_ < _))

instance (p : Pool) (e : PoolEvent) : Decidable (p.Settled e) :=
  match e with
  | .delRobot _ | .delRobotAndCloseConnection _ => inferInstanceAs (Decidable (_ = _ → _ ∈ _))
  | .expire c => inferInstanceAs (Decidable (p.Alive c → _ = _ → _ ∈ _))
  | .addRobot _ _ | .connected _ | .eventCb _ | .delaySend _ | .delaySent _ =>
    inferInstanceAs (Decidable True)

/-- How many open connections a robot is assigned to. -/
def assigned (p : Pool) (robot : Nat) : Nat := p.mapConn.countP (·.robot = robot)

/-- What the lists are to be for the robots of the pool. -/
structure Kept (robots : List Nat) (p : Pool) : Prop where
  once : ∀ r ∈ robots, (p.taskRobotList ++ p.untaskRobotList).count r
    = if r ∈ p.deleted then 0 else 1
  open_iff : ∀ r, r ∈ p.untaskRobotList ↔ p.assigned r = 1
  one : ∀ r, p.assigned r ≤ 1

/-- The invariant behind `Kept`. -/
structure Inv (robots : List Nat) (p : Pool) : Prop where
  count : ∀ r, p.taskRobotList.count r + p.untaskRobotList.count r + p.deleted.count r
    = robots.count r
  assigned : ∀ r, p.assigned r = p.untaskRobotList.count r
  fds : (p.mapConn.map Conn.fd).Nodup
  ids : (p.mapConn.map Conn.id).Nodup
  old : ∀ c ∈ p.mapConn, c.id < p.created
  bev : ∀ c ∈ p.mapConn, p.bev c.id = true

/-- The invariant gives what the lists are to be: a robot that is in the
program once is in one list or in neither, and the connections are counted by
the second. -/
theorem Inv.kept {robots : List Nat} (hn : robots.Nodup) {p : Pool} (h : Inv robots p) :
    Kept robots p := by
  have hone : ∀ r, robots.count r ≤ 1 := List.nodup_iff_count_le_one.mp hn
  refine ⟨fun r hr => ?_, fun r => ?_, fun r => ?_⟩
  · have h1 := h.count r
    have h2 := hone r
    have h3 := List.count_pos_iff.mpr hr
    rw [List.count_append]
    split
    next hd =>
      have := List.count_pos_iff.mpr hd
      omega
    next hd =>
      have := List.count_eq_zero.mpr hd
      omega
  · have h1 := h.count r
    have h2 := hone r
    have h3 := h.assigned r
    rw [← List.count_pos_iff]
    omega
  · have h1 := h.count r
    have h2 := hone r
    have h3 := h.assigned r
    omega

/-! ## One connection more, one connection less -/

/-- A list of connections stays free of repeats under `f` when the new one is
new. -/
theorem nodup_map_append_one {α : Type} {f : Conn → α} {l : List Conn} {x : Conn}
    (hl : (l.map f).Nodup) (hx : ∀ c ∈ l, f c ≠ f x) : ((l ++ [x]).map f).Nodup := by
  rw [List.map_append, List.nodup_append]
  refine ⟨hl, List.nodup_singleton _, ?_⟩
  intro a ha b hb
  obtain ⟨c, hc, rfl⟩ := List.mem_map.mp ha
  rw [List.map_singleton, List.mem_singleton] at hb
  rw [hb]
  exact hx c hc

/-- A robot put back at the end of the task list. -/
theorem count_putBack (task deleted : List Nat) (robot r : Nat) :
    (task ++ [robot]).count r + deleted.count r
      = task.count r + deleted.count r + if robot = r then 1 else 0 := by
  rw [List.count_append, List.count_singleton]
  simp only [beq_iff_eq]
  omega

/-- One connection made: the front robot changes lists, and the new object's
number and descriptor are new. -/
theorem Inv.connect {robots : List Nat} {p : Pool} (h : Inv robots p) {fd : Int} {robot : Nat}
    {rest : List Nat} (ht : p.taskRobotList = robot :: rest) (hfd : ∀ c ∈ p.mapConn, c.fd ≠ fd) :
    Inv robots (p.connect fd robot rest) := by
  have hnew : ∀ c ∈ p.mapConn, c.id ≠ p.created := fun c hc => Nat.ne_of_lt (h.old c hc)
  refine ⟨fun r => ?_, fun r => ?_, ?_, ?_, ?_, ?_⟩
  · have h1 := h.count r
    rw [ht, List.count_cons] at h1
    show rest.count r + (p.untaskRobotList ++ [robot]).count r + p.deleted.count r = _
    rw [List.count_append, List.count_singleton]
    omega
  · -- the new connection and the new entry of the untask list are one each
    have h1 := h.assigned r
    show (p.mapConn ++ [_]).countP _ = (p.untaskRobotList ++ [robot]).count r
    rw [List.countP_append, List.count_append, List.count_singleton]
    unfold Pool.assigned at h1
    rw [h1]
    by_cases hr : robot = r
    · simp [hr]
    · simp [hr]
  · show ((p.mapConn ++ [_]).map Conn.fd).Nodup
    exact nodup_map_append_one h.fds hfd
  · show ((p.mapConn ++ [_]).map Conn.id).Nodup
    exact nodup_map_append_one h.ids hnew
  · intro c hc
    rcases List.mem_append.mp hc with hc | hc
    · exact Nat.lt_succ_of_lt (h.old c hc)
    · rw [List.mem_singleton.mp hc]
      exact Nat.lt_succ_self _
  · intro c hc
    show Function.update p.bev p.created true c.id = true
    rcases List.mem_append.mp hc with hc | hc
    · rw [Function.update_of_ne (hnew c hc)]
      exact h.bev c hc
    · rw [List.mem_singleton.mp hc, Function.update_self]

/-- `AddRobot`, by induction on the calls of `CreateConnection`: each takes the
first idle robot, under a descriptor no open connection has. -/
theorem Inv.addRobot {robots : List Nat} : ∀ (fds : List (Option Int)) (n : Int) (p : Pool),
    Inv robots p → (fds.filterMap id).Nodup → (∀ c ∈ p.mapConn, some c.fd ∉ fds) →
    Inv robots (Pool.addRobot fds n p) := by
  intro fds
  induction fds with
  | nil => intro n p h _ _; exact h
  | cons fd fds ih =>
    intro n p h hnodup hfresh
    unfold Pool.addRobot
    split
    · split
      · exact h
      next robot rest ht =>
        cases fd with
        | none => exact h
        | some fd =>
          replace hnodup : (fd :: fds.filterMap id).Nodup := hnodup
          rw [List.nodup_cons] at hnodup
          refine ih _ _ (h.connect ht fun c hc he => ?_) hnodup.2 fun c hc => ?_
          · rw [← he] at hfresh
            exact hfresh c hc List.mem_cons_self
          · rcases List.mem_append.mp hc with hc | hc
            · exact fun hm => hfresh c hc (List.mem_cons_of_mem _ hm)
            · -- the descriptor just taken does not come again
              rw [List.mem_singleton.mp hc]
              intro hm
              exact hnodup.1 (List.mem_filterMap.mpr ⟨some fd, hm, rfl⟩)
    · exact h

/-- Erasing a descriptor removes its one connection. -/
theorem eraseFd_perm {p : Pool} (hfds : (p.mapConn.map Conn.fd).Nodup) {c : Conn}
    (hc : c ∈ p.mapConn) : (c :: (p.eraseFd c.fd).mapConn).Perm p.mapConn := by
  obtain ⟨a, l₁, l₂, -, ha, hl, herase⟩ :=
    List.exists_of_eraseP hc (p := fun x : Conn => decide (x.fd = c.fd)) (decide_eq_true rfl)
  have hac : a = c := List.inj_on_of_nodup_map hfds (hl ▸ by simp) hc (of_decide_eq_true ha)
  show (c :: p.mapConn.eraseP _).Perm _
  rw [herase, hl, hac]
  exact List.perm_middle.symm

/-- What a closed connection leaves behind, whether its robot goes back to the
task list or not: one connection less, and one entry of its robot less. -/
structure Closed (p p' : Pool) (c : Conn) : Prop where
  conns : (c :: p'.mapConn).Perm p.mapConn
  untask : p'.untaskRobotList = p.untaskRobotList.erase c.robot
  returned : ∀ r, p'.taskRobotList.count r + p'.deleted.count r
    = p.taskRobotList.count r + p.deleted.count r + if c.robot = r then 1 else 0
  bev : ∀ i, i ≠ c.id → p'.bev i = p.bev i
  created : p'.created = p.created

/-- A connection closed in any of the three ways keeps the invariant. It was
the only one of its robot, which is out of the second list now, and back in the
first unless it was dropped. -/
theorem Inv.closed {robots : List Nat} {p p' : Pool} {c : Conn} (h : Inv robots p)
    (hc : Closed p p' c) : Inv robots p' := by
  have hmem : c ∈ p.mapConn := hc.conns.subset List.mem_cons_self
  have hsub : ∀ x ∈ p'.mapConn, x ∈ p.mapConn := fun x hx =>
    hc.conns.subset (List.mem_cons_of_mem _ hx)
  -- the closed connection was the only one of its robot, and so was its entry
  have hassigned : ∀ r, p.assigned r = p'.assigned r + if c.robot = r then 1 else 0 := by
    intro r
    unfold Pool.assigned
    rw [← hc.conns.countP_eq, List.countP_cons]
    simp only [decide_eq_true_eq]
  have hids : (c.id :: p'.mapConn.map Conn.id).Nodup := (hc.conns.map Conn.id).nodup_iff.mpr h.ids
  have hfds : (c.fd :: p'.mapConn.map Conn.fd).Nodup := (hc.conns.map Conn.fd).nodup_iff.mpr h.fds
  have huntask : ∀ r, p'.untaskRobotList.count r + (if c.robot = r then 1 else 0)
      = p.untaskRobotList.count r := by
    intro r
    have h1 := h.assigned r
    have h2 := hassigned r
    rw [hc.untask, List.count_erase]
    by_cases hr : c.robot = r
    · rw [if_pos hr] at h2 ⊢
      simp only [hr, beq_self_eq_true, if_true]
      omega
    · rw [if_neg hr]
      simp [hr]
  refine ⟨fun r => ?_, fun r => ?_, (List.nodup_cons.mp hfds).2, (List.nodup_cons.mp hids).2,
    fun x hx => ?_, fun x hx => ?_⟩
  · have h1 := h.count r
    have h2 := huntask r
    have h3 := hc.returned r
    omega
  · have h1 := h.assigned r
    have h2 := hassigned r
    have h3 := huntask r
    omega
  · rw [hc.created]
    exact h.old x (hsub x hx)
  · rw [hc.bev x.id]
    · exact h.bev x (hsub x hx)
    · intro he
      exact (List.nodup_cons.mp hids).1 (List.mem_map.mpr ⟨x, hx, he⟩)

/-- The first way: back to the task list, with the buffer freed by
`CloseConnection`. -/
theorem closed_delRobot {p : Pool} (hfds : (p.mapConn.map Conn.fd).Nodup) {c : Conn}
    (hc : c ∈ p.mapConn) :
    Closed p ((p.moveRobotFromUntaskListToTaskList c).closeConnection c) c :=
  ⟨eraseFd_perm hfds hc, rfl, fun r => count_putBack p.taskRobotList p.deleted c.robot r,
    fun _ hi => Function.update_of_ne hi _ _, rfl⟩

/-- The second way: dropped, with the buffer freed by `CloseConnection`. -/
theorem closed_delRobotAndCloseConnection {p : Pool} (hfds : (p.mapConn.map Conn.fd).Nodup)
    {c : Conn} (hc : c ∈ p.mapConn) :
    Closed p ((p.closeConnection c).moveRobotFromUntaskList c) c := by
  refine ⟨eraseFd_perm hfds hc, rfl, fun r => ?_, fun _ hi => Function.update_of_ne hi _ _, rfl⟩
  show p.taskRobotList.count r + (c.robot :: p.deleted).count r = _
  rw [List.count_cons]
  simp only [beq_iff_eq]
  omega

/-- The third way: back to the task list by `EventCb`, which leaves `bev_` as
it was. -/
theorem closed_eventCb {p : Pool} (hfds : (p.mapConn.map Conn.fd).Nodup) {c : Conn}
    (hc : c ∈ p.mapConn) :
    Closed p ((p.moveRobotFromUntaskListToTaskList c).eraseFd c.fd) c :=
  ⟨eraseFd_perm hfds hc, rfl, fun r => count_putBack p.taskRobotList p.deleted c.robot r,
    fun _ _ => rfl, rfl⟩

/-- A handler's close or an expiry: it closes an open connection or does
nothing, by the condition. -/
theorem Inv.delRobot {robots : List Nat} {p : Pool} (h : Inv robots p) {c : Conn}
    (hs : p.bev c.id = true → c ∈ p.mapConn) : Inv robots (p.delRobot c) := by
  unfold Pool.delRobot
  split
  next hb => exact h.closed (closed_delRobot h.fds (hs hb))
  next => exact h

/-- The same for a robot that is dropped. -/
theorem Inv.delRobotAndCloseConnection {robots : List Nat} {p : Pool} (h : Inv robots p)
    {c : Conn} (hs : p.bev c.id = true → c ∈ p.mapConn) :
    Inv robots (p.delRobotAndCloseConnection c) := by
  unfold Pool.delRobotAndCloseConnection
  split
  next hb => exact h.closed (closed_delRobotAndCloseConnection h.fds (hs hb))
  next => exact h

/-- The server's close: a descriptor has one connection or none. -/
theorem Inv.eventCb {robots : List Nat} {p : Pool} (h : Inv robots p) (fd : Int) :
    Inv robots (p.eventCb fd) := by
  unfold Pool.eventCb
  split
  next c hf =>
    have hfd : c.fd = fd := by simpa using List.find?_some hf
    subst hfd
    exact h.closed (closed_eventCb h.fds (List.mem_of_find?_eq_some hf))
  next => exact h

/-! ## Steps and runs -/

/-- One event that is settled keeps the invariant. Neither the wheel nor the
delayed messages are part of it, so only opening and closing have anything to
show. -/
theorem Inv.step {robots : List Nat} {p : Pool} (h : Inv robots p) {e : PoolEvent}
    (ha : p.Allowed e) (hs : p.Settled e) : Inv robots (p.step e) := by
  -- neither the wheel nor the delayed messages are part of the invariant
  have hsame : ∀ p' : Pool, p'.taskRobotList = p.taskRobotList →
      p'.untaskRobotList = p.untaskRobotList → p'.deleted = p.deleted → p'.mapConn = p.mapConn →
      p'.bev = p.bev → p'.created = p.created → Inv robots p' := by
    intro p' h1 h2 h3 h4 h5 h6
    refine ⟨fun r => ?_, fun r => ?_, ?_, ?_, ?_, ?_⟩
    · rw [h1, h2, h3]; exact h.count r
    · unfold Pool.assigned; rw [h4, h2]; exact h.assigned r
    · rw [h4]; exact h.fds
    · rw [h4]; exact h.ids
    · rw [h4, h6]; exact h.old
    · rw [h4, h5]; exact h.bev
  cases e with
  | addRobot n fds => exact Inv.addRobot fds n p h ha.1 ha.2
  | connected c => exact hsame _ rfl rfl rfl rfl rfl rfl
  | eventCb fd => exact h.eventCb fd
  | delRobot c => exact h.delRobot hs
  | delRobotAndCloseConnection c => exact h.delRobotAndCloseConnection hs
  | expire c =>
    have hrest := hsame { p with entries := p.entries.erase c } rfl rfl rfl rfl rfl rfl
    show Inv robots (p.expire c)
    unfold Pool.expire
    dsimp only
    split
    next halive => exact hrest.delRobot (hs halive)
    next => exact hrest
  | delaySend c => exact hsame _ rfl rfl rfl rfl rfl rfl
  | delaySent c => exact hsame _ rfl rfl rfl rfl rfl rfl

end Pool

/-- The pool invariant in every run in which no path reaches a connection that
`EventCb` has closed. -/
theorem poolKept_of_settled {robots : List Nat} (hn : robots.Nodup) {es : List PoolEvent}
    (ha : Along Pool.step Pool.Allowed { taskRobotList := robots } es)
    (hs : Along Pool.step Pool.Settled { taskRobotList := robots } es) :
    Pool.Kept robots (run Pool.step { taskRobotList := robots } es) := by
  have hstart : Pool.Inv robots { taskRobotList := robots } :=
    ⟨fun _ => rfl, fun _ => rfl, List.nodup_nil, List.nodup_nil,
      fun _ hc => absurd hc List.not_mem_nil, fun _ hc => absurd hc List.not_mem_nil⟩
  exact ((ha.and hs).inv (Pool.Inv robots) (fun p e h hp => h.step hp.1 hp.2) hstart).kept hn

/-- Robot 7's connection is opened, closed by a handler, and its entry expires. -/
theorem poolKept_of_settled_handler :
    Pool.Kept [7] (run Pool.step { taskRobotList := [7] }
      [.addRobot 1 [some 5], .connected ⟨0, 5, 7⟩, .delRobot ⟨0, 5, 7⟩, .expire ⟨0, 5, 7⟩]) :=
  poolKept_of_settled (by decide) (by decide) (by decide)

/-- Robot 7 has a delayed message when the server closes its connection; when
the connection's entry expires before the message is sent, the robot is in the
task list twice. -/
theorem eventCb_expire_returns_twice :
    ¬∀ (robots : List Nat), robots.Nodup → ∀ es,
      Along Pool.step Pool.Allowed { taskRobotList := robots } es →
      Pool.Kept robots (run Pool.step { taskRobotList := robots } es) := by
  intro h
  have hkept := h [7] (by decide)
    [.addRobot 1 [some 5], .connected ⟨0, 5, 7⟩, .delaySend ⟨0, 5, 7⟩, .eventCb 5,
      .expire ⟨0, 5, 7⟩]
    (by decide)
  exact absurd (hkept.once 7 (by decide)) (by decide)

end RobotDdz.Net
