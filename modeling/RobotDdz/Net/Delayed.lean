import RobotDdz.Net.Pool
import Mathlib.Data.List.Infix

/-!
# Delayed messages and closed connections

`AnalysisAndDecision` leaves a message it sends later to a timer. The `MsgNode`
keeps the connection object alive, and `DelaySendMsgTimer` asks
`BIsBufferExist` whether there is still something to write to. Two functions
free the bufferevent: `CloseConnection` clears `bev_` after it, `EventCb` does
not.

`Sockets` puts next to the pool which connection objects there have been and
whose bufferevent has been freed. `dropped_iff_unheld`: in a run,
`BIsBufferExist` is false wherever the bufferevent is freed exactly when
`EventCb` never closes a connection that a delayed message holds.

Whether an object is alive and whether its buffer is freed are two things: the
object may be held by a message with its buffer gone. The invariant says that
no connection in `mapConn_` has its buffer freed, and that an object still
alive with `bev_` set is in `mapConn_`. The second part is what `EventCb`
breaks on a connection that a message holds.
-/

namespace RobotDdz.Net

open Runs

/-- The connection a step is about, if it is about one object. -/
def PoolEvent.target : PoolEvent → Option Conn
  | .addRobot _ _ | .eventCb _ => none
  | .connected c | .delRobot c | .delRobotAndCloseConnection c | .expire c | .delaySend c
  | .delaySent c => some c

namespace Pool

/-- `DelaySendMsgTimer`: the connection object whose bufferevent it writes to. -/
def delaySendMsgTimer (p : Pool) (c : Conn) : Option Nat := if p.bev c.id then some c.id else none

/-- The connection object whose bufferevent a step frees. -/
def frees (p : Pool) : PoolEvent → Option Nat
  | .eventCb fd => (p.mapConn.find? (·.fd = fd)).map Conn.id
  | .delRobot c | .delRobotAndCloseConnection c => if p.bev c.id then some c.id else none
  | .expire c => if p.Alive c ∧ p.bev c.id then some c.id else none
  | _ => none

end Pool

/-- The pool, every connection object so far, and those whose bufferevent has
been freed. -/
structure Sockets where
  pool : Pool
  objects : List Conn := []
  freed : List Nat := []

namespace Sockets

/-- The program before its first connection. -/
def start (robots : List Nat) : Sockets := { pool := { taskRobotList := robots } }

/-- One event. New connection objects have new numbers. -/
def step (s : Sockets) (e : PoolEvent) : Sockets :=
  { pool := s.pool.step e
    objects := s.objects ++ (s.pool.step e).mapConn.filter fun c => s.pool.created ≤ c.id
    freed := s.freed ++ (s.pool.frees e).toList }

/-- What can happen: to connection objects there are. -/
def Allowed (s : Sockets) (e : PoolEvent) : Prop :=
  s.pool.Allowed e ∧ ∀ c, e.target = some c → c ∈ s.objects

/-- `EventCb` does not close a connection that a delayed message holds. -/
def Unheld (s : Sockets) : PoolEvent → Prop
  | .eventCb fd => ∀ c ∈ s.pool.mapConn, c.fd = fd → s.pool.msgNodes c.id = 0
  | _ => True

instance (s : Sockets) (e : PoolEvent) : Decidable (s.Allowed e) :=
  have : Decidable (∀ c, e.target = some c → c ∈ s.objects) :=
    match e.target with
    | none => isTrue fun _ hc => nomatch hc
    | some c => decidable_of_iff (c ∈ s.objects)
        ⟨fun hm _ hc => Option.some.inj hc ▸ hm, fun hm => hm c rfl⟩
  inferInstanceAs (Decidable (_ ∧ _))

instance (s : Sockets) (e : PoolEvent) : Decidable (s.Unheld e) :=
  match e with
  | .eventCb _ => inferInstanceAs (Decidable (∀ c ∈ s.pool.mapConn, _ → _))
  | .addRobot _ _ | .connected _ | .delRobot _ | .delRobotAndCloseConnection _ | .expire _
  | .delaySend _ | .delaySent _ => inferInstanceAs (Decidable True)

/-- Where the bufferevent has been freed `BIsBufferExist` is false, and a
delayed message is written only where it has not. -/
structure Dropped (s : Sockets) : Prop where
  cleared : ∀ c ∈ s.objects, s.pool.Alive c → c.id ∈ s.freed → s.pool.bev c.id = false
  written : ∀ c ∈ s.objects, 0 < s.pool.msgNodes c.id →
    ∀ i, s.pool.delaySendMsgTimer c = some i → i ∉ s.freed

/-- The invariant behind `Dropped`: a connection object that still exists with
its `bev_` set is in `mapConn_`, and what is there has not been freed. -/
structure Inv (robots : List Nat) (s : Sockets) : Prop where
  pool : Pool.Inv robots s.pool
  conns : ∀ c ∈ s.pool.mapConn, c ∈ s.objects
  ids : (s.objects.map Conn.id).Nodup
  old : ∀ c ∈ s.objects, c.id < s.pool.created
  settled : ∀ c ∈ s.objects, s.pool.Alive c → s.pool.bev c.id = true → c ∈ s.pool.mapConn
  unfreed : ∀ c ∈ s.pool.mapConn, c.id ∉ s.freed
  freedOld : ∀ i ∈ s.freed, i < s.pool.created

/-- The invariant gives what `BIsBufferExist` is to say. -/
theorem Inv.dropped {robots : List Nat} {s : Sockets} (h : Inv robots s) : Dropped s := by
  have hcleared : ∀ c ∈ s.objects, s.pool.Alive c → c.id ∈ s.freed → s.pool.bev c.id = false := by
    intro c hc halive hfreed
    by_contra hbev
    rw [Bool.not_eq_false] at hbev
    exact h.unfreed c (h.settled c hc halive hbev) hfreed
  refine ⟨hcleared, fun c hc hheld i hi hfreed => ?_⟩
  unfold Pool.delaySendMsgTimer at hi
  split at hi
  next hbev =>
    cases hi
    rw [hcleared c hc (Or.inr hheld) hfreed] at hbev
    exact absurd hbev Bool.false_ne_true
  next => cases hi

/-- Objects with one number are one object. -/
theorem Inv.eq_of_id {robots : List Nat} {s : Sockets} (h : Inv robots s) {c d : Conn}
    (hc : c ∈ s.objects) (hd : d ∈ s.objects) (he : c.id = d.id) : c = d :=
  List.inj_on_of_nodup_map h.ids hc hd he

/-- No connection has a number that is still to come. -/
theorem Inv.filter_new {robots : List Nat} {s : Sockets} (h : Inv robots s) {conns : List Conn}
    (hsub : ∀ c ∈ conns, c ∈ s.pool.mapConn) :
    conns.filter (fun c => s.pool.created ≤ c.id) = [] := by
  rw [List.filter_eq_nil_iff]
  intro c hc
  have hlt := h.pool.old c (hsub c hc)
  simpa using hlt

/-! ## One event -/

/-- What `AddRobot` does to the connections: it appends new ones, whose objects
are new, and leaves the buffers, messages and entries of the old ones. -/
theorem addRobot_conns (fds : List (Option Int)) : ∀ (n : Int) (p : Pool), ∃ new,
    (Pool.addRobot fds n p).mapConn = p.mapConn ++ new ∧
    (∀ c ∈ new, p.created ≤ c.id) ∧ p.created ≤ (Pool.addRobot fds n p).created ∧
    (∀ i, i < p.created → (Pool.addRobot fds n p).bev i = p.bev i) ∧
    (Pool.addRobot fds n p).msgNodes = p.msgNodes ∧
    (Pool.addRobot fds n p).entries = p.entries := by
  induction fds with
  | nil => intro n p; exact ⟨[], by simp [Pool.addRobot]⟩
  | cons fd fds ih =>
    intro n p
    unfold Pool.addRobot
    split
    · split
      · exact ⟨[], by simp⟩
      next robot rest _ =>
        cases fd with
        | none => exact ⟨[], by simp⟩
        | some fd =>
          obtain ⟨new, hconns, hnew, hcreated, hbev, hkept⟩ := ih (n - 1) (p.connect fd robot rest)
          have hsucc : (p.connect fd robot rest).created = p.created + 1 := rfl
          refine ⟨⟨p.created, fd, robot⟩ :: new, ?_, fun c hc => ?_,
            Nat.le_trans (Nat.le_succ _) hcreated, fun i hi => ?_, hkept⟩
          · rw [hconns]
            exact List.append_assoc ..
          · rcases List.mem_cons.mp hc with rfl | hc
            · exact Nat.le_refl _
            · have := hnew c hc
              omega
          · rw [hbev i (by omega)]
            exact Function.update_of_ne (Nat.ne_of_lt hi) _ _
    · exact ⟨[], by simp⟩

/-- New connections: a new object has its buffer, and no message holds it yet.
The old objects are as they were, with their `bev_` and their delayed messages. -/
theorem Inv.addRobot {robots : List Nat} {s : Sockets} (h : Inv robots s)
    (fds : List (Option Int)) (n : Int) (hp : Pool.Inv robots (Pool.addRobot fds n s.pool)) :
    Inv robots (s.step (.addRobot n fds)) := by
  obtain ⟨new, hconns, hnew, hcreated, hbev, hmsg, -⟩ := addRobot_conns fds n s.pool
  have hfilter : (Pool.addRobot fds n s.pool).mapConn.filter (fun c => s.pool.created ≤ c.id)
      = new := by
    rw [hconns, List.filter_append, h.filter_new fun c hc => hc, List.nil_append,
      List.filter_eq_self]
    intro c hc
    simpa using hnew c hc
  have hobjects : (s.step (.addRobot n fds)).objects = s.objects ++ new := by
    show s.objects ++ (Pool.addRobot fds n s.pool).mapConn.filter _ = _
    rw [hfilter]
  have hfreed : (s.step (.addRobot n fds)).freed = s.freed := List.append_nil _
  have hmem : ∀ c ∈ new, c ∈ (Pool.addRobot fds n s.pool).mapConn := fun c hc => by
    rw [hconns]
    exact List.mem_append_right _ hc
  refine ⟨hp, fun c hc => ?_, ?_, fun c hc => ?_, fun c hc halive hset => ?_, fun c hc => ?_,
    fun i hi => ?_⟩
  · rw [hobjects, List.mem_append]
    rcases List.mem_append.mp (hconns ▸ hc) with hc | hc
    · exact Or.inl (h.conns c hc)
    · exact Or.inr hc
  · rw [hobjects, List.map_append, List.nodup_append]
    refine ⟨h.ids, ?_, fun i hi j hj => ?_⟩
    · have hids := hp.ids
      rw [hconns, List.map_append, List.nodup_append] at hids
      exact hids.2.1
    · obtain ⟨c, hc, rfl⟩ := List.mem_map.mp hi
      obtain ⟨d, hd, rfl⟩ := List.mem_map.mp hj
      have h1 := h.old c hc
      have h2 := hnew d hd
      omega
  · rw [hobjects, List.mem_append] at hc
    rcases hc with hc | hc
    · exact Nat.lt_of_lt_of_le (h.old c hc) hcreated
    · exact hp.old c (hmem c hc)
  · rw [hobjects, List.mem_append] at hc
    rcases hc with hc | hc
    · -- an old object: neither its `bev_` nor its delayed messages have changed
      have hlt := h.old c hc
      have hset' : s.pool.bev c.id = true := (hbev c.id hlt).symm.trans hset
      have halive' : s.pool.Alive c := by
        rcases halive with hconn | hheld
        · rcases List.mem_append.mp (hconns ▸ hconn) with hconn | hconn
          · exact Or.inl hconn
          · exact absurd (hnew c hconn) (Nat.not_le.mpr hlt)
        · exact Or.inr (by rw [← hmsg]; exact hheld)
      show c ∈ (Pool.addRobot fds n s.pool).mapConn
      rw [hconns]
      exact List.mem_append_left _ (h.settled c hc halive' hset')
    · exact hmem c hc
  · rw [hfreed]
    intro hi
    have hlt := h.freedOld _ hi
    rcases List.mem_append.mp (hconns ▸ hc) with hc | hc
    · exact h.unfreed c hc hi
    · exact absurd (hnew c hc) (Nat.not_le.mpr hlt)
  · rw [hfreed] at hi
    exact Nat.lt_of_lt_of_le (h.freedOld i hi) hcreated

/-- A connection closed: its bufferevent is freed, and either `bev_` is cleared
or no delayed message holds it. -/
theorem Inv.closed {robots : List Nat} {s s' : Sockets} (h : Inv robots s) {c : Conn}
    (hc : Pool.Closed s.pool s'.pool c) (hmsg : s'.pool.msgNodes = s.pool.msgNodes)
    (hend : s'.pool.bev c.id = false ∨ s.pool.msgNodes c.id = 0)
    (hobjects : s'.objects = s.objects) (hfreed : s'.freed = s.freed ++ [c.id]) :
    Inv robots s' := by
  have hmem : ∀ x, x ∈ s.pool.mapConn ↔ x = c ∨ x ∈ s'.pool.mapConn := fun x => by
    rw [← hc.conns.mem_iff, List.mem_cons]
  have hin : c ∈ s.pool.mapConn := (hmem c).mpr (Or.inl rfl)
  have hp := h.pool.closed hc
  -- what is left in the map is another object
  have hne : ∀ x ∈ s'.pool.mapConn, x.id ≠ c.id := by
    intro x hx he
    have hids := (hc.conns.map Conn.id).nodup_iff.mpr h.pool.ids
    exact (List.nodup_cons.mp hids).1 (List.mem_map.mpr ⟨x, hx, he⟩)
  refine ⟨hp, fun x hx => ?_, ?_, fun x hx => ?_, fun x hx halive hset => ?_, fun x hx => ?_,
    fun i hi => ?_⟩
  · rw [hobjects]
    exact h.conns x ((hmem x).mpr (Or.inr hx))
  · rw [hobjects]
    exact h.ids
  · rw [hobjects] at hx
    rw [hc.created]
    exact h.old x hx
  · rw [hobjects] at hx
    by_cases he : x.id = c.id
    · have hxc : x = c := h.eq_of_id hx (h.conns c hin) he
      rcases halive with hconn | hheld
      · exact hconn
      · rw [hmsg, he] at hheld
        rcases hend with hend | hend
        · rw [he, hend] at hset
          exact absurd hset Bool.false_ne_true
        · omega
    · rw [hc.bev x.id he] at hset
      have halive' : s.pool.Alive x := by
        rcases halive with hconn | hheld
        · exact Or.inl ((hmem x).mpr (Or.inr hconn))
        · exact Or.inr (by rw [← hmsg]; exact hheld)
      rcases (hmem x).mp (h.settled x hx halive' hset) with rfl | hconn
      · exact absurd rfl he
      · exact hconn
  · rw [hfreed, List.mem_append, List.mem_singleton]
    exact not_or.mpr ⟨h.unfreed x ((hmem x).mpr (Or.inr hx)), hne x hx⟩
  · rw [hfreed, List.mem_append, List.mem_singleton] at hi
    rw [hc.created]
    rcases hi with hi | rfl
    · exact h.freedOld i hi
    · exact h.pool.old c hin

/-- An event that opens and frees nothing, and keeps no further object alive.
Every part of the invariant is then about the same objects as before. -/
theorem Inv.same {robots : List Nat} {s s' : Sockets} (h : Inv robots s)
    (hp : Pool.Inv robots s'.pool) (hconn : s'.pool.mapConn = s.pool.mapConn)
    (hbev : s'.pool.bev = s.pool.bev) (hcreated : s'.pool.created = s.pool.created)
    (hmsg : ∀ c ∈ s.objects, 0 < s'.pool.msgNodes c.id → s.pool.Alive c)
    (hobjects : s'.objects = s.objects) (hfreed : s'.freed = s.freed) : Inv robots s' := by
  refine ⟨hp, ?_, ?_, ?_, fun c hc halive hset => ?_, ?_, ?_⟩
  · rw [hconn, hobjects]
    exact h.conns
  · rw [hobjects]
    exact h.ids
  · rw [hobjects, hcreated]
    exact h.old
  · rw [hobjects] at hc
    rw [hbev] at hset
    rw [hconn]
    rcases halive with halive | halive
    · rw [← hconn]
      exact halive
    · exact h.settled c hc (hmsg c hc halive) hset
  · rw [hconn, hfreed]
    exact h.unfreed
  · rw [hfreed, hcreated]
    exact h.freedOld

/-- An event that adds no connection makes no object. -/
theorem Inv.objects_step {robots : List Nat} {s : Sockets} (h : Inv robots s) {e : PoolEvent}
    (hsub : ∀ c ∈ (s.pool.step e).mapConn, c ∈ s.pool.mapConn) :
    (s.step e).objects = s.objects := by
  show s.objects ++ (s.pool.step e).mapConn.filter _ = _
  rw [h.filter_new hsub, List.append_nil]

theorem mapConn_eraseFd_subset (p : Pool) (fd : Int) :
    ∀ c ∈ (p.eraseFd fd).mapConn, c ∈ p.mapConn := fun _ hc => List.mem_of_mem_eraseP hc

/-- `DelRobot` takes connections out of the map only. -/
theorem mapConn_delRobot_subset (p : Pool) (c : Conn) :
    ∀ x ∈ (p.delRobot c).mapConn, x ∈ p.mapConn := by
  unfold Pool.delRobot
  split
  · exact mapConn_eraseFd_subset _ _
  · exact fun _ hx => hx

/-- `DelRobot` frees what it closes and clears its `bev_`; if the `bev_` is
cleared already it frees nothing and the pool is as it was. -/
theorem Inv.delRobot {robots : List Nat} {s s' : Sockets} (h : Inv robots s) {c : Conn}
    (hc : c ∈ s.objects) (halive : s.pool.Alive c) (hpool : s'.pool = s.pool.delRobot c)
    (hobjects : s'.objects = s.objects)
    (hfreed : s'.freed = s.freed ++ (if s.pool.bev c.id then some c.id else none).toList) :
    Inv robots s' := by
  unfold Pool.delRobot at hpool
  split at hpool
  next hb =>
    rw [if_pos hb] at hfreed
    refine h.closed (c := c) ?_ ?_ (Or.inl ?_) hobjects hfreed
    · rw [hpool]
      exact Pool.closed_delRobot h.pool.fds (h.settled c hc halive hb)
    · rw [hpool]
      rfl
    · rw [hpool]
      exact Function.update_self ..
  next hb =>
    rw [if_neg hb] at hfreed
    exact h.same (hpool ▸ h.pool) (by rw [hpool]) (by rw [hpool]) (by rw [hpool])
      (fun x _ hheld => Or.inr (by rw [← hpool]; exact hheld)) hobjects
      (hfreed.trans (List.append_nil _))

/-- A robot that is dropped: its connection is closed by `CloseConnection`,
which clears `bev_`. -/
theorem Inv.delRobotAndCloseConnection {robots : List Nat} {s : Sockets} (h : Inv robots s)
    {c : Conn} (hc : c ∈ s.objects) (halive : s.pool.Alive c) :
    Inv robots (s.step (.delRobotAndCloseConnection c)) := by
  by_cases hb : s.pool.bev c.id = true
  · have hpool : (s.step (.delRobotAndCloseConnection c)).pool
        = (s.pool.closeConnection c).moveRobotFromUntaskList c := if_pos hb
    have hmem := h.settled c hc halive hb
    refine h.closed (c := c) ?_ ?_ (Or.inl ?_) (h.objects_step fun x hx => ?_) ?_
    · rw [hpool]
      exact Pool.closed_delRobotAndCloseConnection h.pool.fds hmem
    · rw [hpool]
      rfl
    · rw [hpool]
      exact Function.update_self ..
    · have hx' : x ∈ (s.step (.delRobotAndCloseConnection c)).pool.mapConn := hx
      rw [hpool] at hx'
      exact mapConn_eraseFd_subset _ _ x hx'
    · show s.freed ++ (if s.pool.bev c.id then some c.id else none).toList = _
      rw [if_pos hb]
      rfl
  · have hpool : (s.step (.delRobotAndCloseConnection c)).pool = s.pool := if_neg hb
    refine h.same (hpool ▸ h.pool) (by rw [hpool]) (by rw [hpool]) (by rw [hpool])
      (fun x _ hheld => Or.inr (by rw [← hpool]; exact hheld)) (h.objects_step fun x hx => ?_) ?_
    · have hx' : x ∈ (s.step (.delRobotAndCloseConnection c)).pool.mapConn := hx
      rw [hpool] at hx'
      exact hx'
    · show s.freed ++ (if s.pool.bev c.id then some c.id else none).toList = _
      rw [if_neg hb]
      exact List.append_nil _

/-- An expiry: it closes an open connection, by `CloseConnection` too. Without
its entry the pool is as good as before, and what is left is `DelRobot` on an
object that is alive, or nothing. -/
theorem Inv.expire {robots : List Nat} {s : Sockets} (h : Inv robots s) {c : Conn}
    (hc : c ∈ s.objects) : Inv robots (s.step (.expire c)) := by
  -- without its entry the pool is as good as before
  have hentry : Inv robots { s with pool := { s.pool with entries := s.pool.entries.erase c } } :=
    h.same ⟨h.pool.count, h.pool.assigned, h.pool.fds, h.pool.ids, h.pool.old, h.pool.bev⟩
      rfl rfl rfl (fun x _ hheld => Or.inr hheld) rfl rfl
  by_cases halive : s.pool.Alive c
  · have hpool : (s.step (.expire c)).pool
        = Pool.delRobot { s.pool with entries := s.pool.entries.erase c } c := if_pos halive
    refine hentry.delRobot hc halive hpool (h.objects_step fun x hx => ?_) ?_
    · have hx' : x ∈ (s.step (.expire c)).pool.mapConn := hx
      rw [hpool] at hx'
      have hsub := mapConn_delRobot_subset { s.pool with entries := s.pool.entries.erase c } c x hx'
      exact hsub
    · show s.freed ++ (if s.pool.Alive c ∧ s.pool.bev c.id then some c.id else none).toList = _
      simp only [halive, true_and]
  · have hpool : (s.step (.expire c)).pool
        = { s.pool with entries := s.pool.entries.erase c } := if_neg halive
    refine hentry.same (hpool ▸ hentry.pool) (by rw [hpool]) (by rw [hpool]) (by rw [hpool])
      (fun x _ hheld => Or.inr ?_) (h.objects_step fun x hx => ?_) ?_
    · rw [hpool] at hheld
      exact hheld
    · have hx' : x ∈ (s.step (.expire c)).pool.mapConn := hx
      rw [hpool] at hx'
      exact hx'
    · show s.freed ++ (if s.pool.Alive c ∧ s.pool.bev c.id then some c.id else none).toList = _
      rw [if_neg fun hboth => halive hboth.1]
      exact List.append_nil _

/-- The server's close, of a connection that no delayed message holds: the
object goes with its entry in `mapConn_`, so nothing is left that could free it
again. -/
theorem Inv.eventCb {robots : List Nat} {s : Sockets} (h : Inv robots s) {fd : Int}
    (hu : s.Unheld (.eventCb fd)) : Inv robots (s.step (.eventCb fd)) := by
  have hsub : ∀ c ∈ (s.pool.eventCb fd).mapConn, c ∈ s.pool.mapConn := by
    unfold Pool.eventCb
    split
    · exact mapConn_eraseFd_subset _ _
    · exact fun c hc => hc
  cases hf : s.pool.mapConn.find? (·.fd = fd) with
  | none =>
    have hpool : s.pool.eventCb fd = s.pool := by
      unfold Pool.eventCb
      rw [hf]
    have hsame : (s.step (.eventCb fd)).pool = s.pool := hpool
    refine h.same (hsame ▸ h.pool) (by rw [hsame]) (by rw [hsame]) (by rw [hsame])
      (fun x _ hheld => Or.inr (by rw [← hsame]; exact hheld)) (h.objects_step hsub) ?_
    show s.freed ++ ((s.pool.mapConn.find? (·.fd = fd)).map Conn.id).toList = s.freed
    rw [hf]
    exact List.append_nil _
  | some c =>
    have hc := List.mem_of_find?_eq_some hf
    have hfd : c.fd = fd := by simpa using List.find?_some hf
    have hpool : (s.step (.eventCb fd)).pool
        = (s.pool.moveRobotFromUntaskListToTaskList c).eraseFd c.fd := by
      show s.pool.eventCb fd = _
      unfold Pool.eventCb
      rw [hf, hfd]
    refine h.closed (c := c) ?_ ?_ (Or.inr (hu c hc hfd)) (h.objects_step hsub) ?_
    · rw [hpool]
      exact Pool.closed_eventCb h.pool.fds hc
    · rw [hpool]
      rfl
    · show s.freed ++ ((s.pool.mapConn.find? (·.fd = fd)).map Conn.id).toList = _
      rw [hf]
      rfl

/-- One event, by its kind. A delayed message keeps its object alive, and one
that has been sent lets it go. -/
theorem Inv.step {robots : List Nat} {s : Sockets} (h : Inv robots s) {e : PoolEvent}
    (ha : s.Allowed e) (hu : s.Unheld e) : Inv robots (s.step e) := by
  obtain ⟨ha, htarget⟩ := ha
  cases e with
  | addRobot n fds => exact h.addRobot fds n (h.pool.step ha trivial)
  | connected c =>
    exact h.same (h.pool.step ha trivial) rfl rfl rfl (fun x _ hheld => Or.inr hheld)
      (h.objects_step fun _ hx => hx) (List.append_nil _)
  | eventCb fd => exact h.eventCb hu
  | delRobot c =>
    have hc := htarget c rfl
    exact h.delRobot hc ha rfl (h.objects_step (mapConn_delRobot_subset s.pool c)) rfl
  | delRobotAndCloseConnection c => exact h.delRobotAndCloseConnection (htarget c rfl) ha
  | expire c => exact h.expire (htarget c rfl)
  | delaySend c =>
    have hc := htarget c rfl
    refine h.same (h.pool.step ha trivial) rfl rfl rfl (fun x hx hheld => ?_)
      (h.objects_step fun _ hx => hx) (List.append_nil _)
    change 0 < Function.update s.pool.msgNodes c.id _ x.id at hheld
    by_cases he : x.id = c.id
    · rw [h.eq_of_id hx hc he]
      exact ha
    · rw [Function.update_of_ne he] at hheld
      exact Or.inr hheld
  | delaySent c =>
    refine h.same (h.pool.step ha trivial) rfl rfl rfl (fun x _ hheld => Or.inr ?_)
      (h.objects_step fun _ hx => hx) (List.append_nil _)
    change 0 < Function.update s.pool.msgNodes c.id _ x.id at hheld
    by_cases he : x.id = c.id
    · rw [he]
      exact ha
    · rw [Function.update_of_ne he] at hheld
      exact hheld

theorem inv_start (robots : List Nat) : Inv robots (start robots) :=
  ⟨⟨fun _ => rfl, fun _ => rfl, List.nodup_nil, List.nodup_nil,
      fun _ hc => absurd hc List.not_mem_nil, fun _ hc => absurd hc List.not_mem_nil⟩,
    fun _ hc => absurd hc List.not_mem_nil, List.nodup_nil,
    fun _ hc => absurd hc List.not_mem_nil, fun _ hc => absurd hc List.not_mem_nil,
    fun _ hc => absurd hc List.not_mem_nil, fun _ hi => absurd hi List.not_mem_nil⟩

/-- `EventCb` on a connection that a delayed message holds leaves a freed
bufferevent that `BIsBufferExist` takes for an existing one. -/
theorem Inv.unheld_of_dropped {robots : List Nat} {s : Sockets} (h : Inv robots s) {e : PoolEvent}
    (hd : Dropped (s.step e)) : s.Unheld e := by
  cases e with
  | eventCb fd =>
    intro c hc hfd
    by_contra hheld
    have hf : s.pool.mapConn.find? (·.fd = fd) = some c := by
      cases hf : s.pool.mapConn.find? (·.fd = fd) with
      | none =>
        have hno := List.find?_eq_none.mp hf c hc
        simp [hfd] at hno
      | some d =>
        have hd := List.mem_of_find?_eq_some hf
        have hdfd : d.fd = fd := by simpa using List.find?_some hf
        rw [List.inj_on_of_nodup_map h.pool.fds hd hc (hdfd.trans hfd.symm)]
    have hpool : (s.step (.eventCb fd)).pool
        = (s.pool.moveRobotFromUntaskListToTaskList c).eraseFd fd := by
      show s.pool.eventCb fd = _
      unfold Pool.eventCb
      rw [hf]
    have hfreed : c.id ∈ (s.step (.eventCb fd)).freed := by
      show c.id ∈ s.freed ++ ((s.pool.mapConn.find? (·.fd = fd)).map Conn.id).toList
      rw [hf]
      exact List.mem_append_right _ (List.mem_singleton.mpr rfl)
    have halive : (s.step (.eventCb fd)).pool.Alive c := by
      rw [hpool]
      exact Or.inr (Nat.pos_of_ne_zero hheld)
    have hcleared := hd.cleared c (List.mem_append_left _ (h.conns c hc)) halive hfreed
    rw [hpool] at hcleared
    exact absurd (h.pool.bev c hc) (by rw [show s.pool.bev c.id = false from hcleared]; decide)
  | _ => trivial

end Sockets

/-- Delayed messages of closed connections are dropped throughout a run exactly
when `EventCb` closes no connection that a delayed message holds. -/
theorem dropped_iff_unheld {robots : List Nat} {es : List PoolEvent}
    (ha : Along Sockets.step Sockets.Allowed (.start robots) es) :
    (∀ pre, pre <+: es → Sockets.Dropped (run Sockets.step (.start robots) pre)) ↔
      Along Sockets.step Sockets.Unheld (.start robots) es :=
  ha.good_iff (Sockets.Inv robots) Sockets.Dropped (fun _ h => h.dropped)
    (fun _ _ h hallowed hu => h.step hallowed hu) (fun _ _ h _ hd => h.unheld_of_dropped hd)
    (Sockets.inv_start robots)

/-- Robot 7 has a delayed message when a handler closes its connection. -/
theorem dropped_iff_unheld_handler :
    (∀ pre, pre <+: [.addRobot 1 [some 5], .delaySend ⟨0, 5, 7⟩, .delRobot ⟨0, 5, 7⟩] →
      Sockets.Dropped (run Sockets.step (.start [7]) pre)) ↔
    Along Sockets.step Sockets.Unheld (.start [7])
      [.addRobot 1 [some 5], .delaySend ⟨0, 5, 7⟩, .delRobot ⟨0, 5, 7⟩] :=
  dropped_iff_unheld (by decide)

/-- Robot 7 has a delayed message when the server closes its connection; the
timer writes to the freed bufferevent. -/
theorem eventCb_held_not_dropped :
    ¬∀ (robots : List Nat) (es : List PoolEvent),
      Along Sockets.step Sockets.Allowed (.start robots) es →
      Sockets.Dropped (run Sockets.step (.start robots) es) := by
  intro h
  have hd := h [7] [.addRobot 1 [some 5], .delaySend ⟨0, 5, 7⟩, .eventCb 5] (by decide)
  exact hd.written ⟨0, 5, 7⟩ (by decide) (by decide) 0 (by decide) (by decide)

end RobotDdz.Net
