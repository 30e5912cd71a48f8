import RobotDdz.Net.Pool
import Mathlib.Data.List.TakeWhile

/-!
# How many robots the header robot sends

The header robot asks for the status of the room. `RecvQueryRoomStatusAck` puts
a count into the `MsgNode`, `AnalysisAndDecision` passes it on when it is not
zero, and `AddRobot` counts it down while it is not zero and there are idle
robots. A negative count that gets that far takes all of them.

The handler turns a negative number of the server away. It checks `playerNum`
too, but goes on after the check. `dispatchCount_iff`: the header robot sends
as many robots as are needed and idle, whatever the connections do, unless
`playerNum` is the one that counts, is negative, and there is a robot to send.

The count passes through three functions. `recvQueryRoomStatusAck` makes it of
the answer and the configuration, `analysisAndDecision` passes it on if it is
not zero, and `AddRobot` counts it down. `taken` is what the third makes of a
count and a number of idle robots, and the condition falls out of comparing it
with the number that is needed.
-/

namespace RobotDdz.Net

/-- The configuration the header robot reads. -/
structure RoomConf where
  minPlayerNum : Int
  playerNum : Int
deriving DecidableEq, Repr

/-- `OrgRoomDdzNeedRobotAck`. -/
structure NeedRobotAck where
  result : Int
  robots : Option Int
deriving DecidableEq, Repr

/-- `RobotHeader::RecvQueryRoomStatusAck`: the count in the `MsgNode`, which
starts as 0; `none` where the handler fails. Without a limit a `playerNum` that
is not positive is logged and set to 0, and then set again. -/
def recvQueryRoomStatusAck (conf : RoomConf) (ack : Option NeedRobotAck) : Option Int :=
  if conf.minPlayerNum = 0 then some conf.playerNum
  else match ack with
    | none => none
    | some ack =>
      if ack.result ≠ 0 then none
      else match ack.robots with
        | none => some 0
        | some iNeedRobotNum => if iNeedRobotNum < 0 then some 0 else some iNeedRobotNum

/-- What the header robot is to send: `playerNum` without a limit, else the
number a successful ack has. -/
def needed (conf : RoomConf) (ack : Option NeedRobotAck) : Int :=
  if conf.minPlayerNum = 0 then conf.playerNum
  else match ack with
    | none => 0
    | some ack => if ack.result = 0 then ack.robots.getD 0 else 0

namespace Pool

/-- `RobotHeader::AnalysisAndDecision` for a node with nothing to send, given
what `CreateConnection` returns call by call. -/
def analysisAndDecision (p : Pool) (needRobotNum : Int) (fds : List (Option Int)) : Pool :=
  if needRobotNum ≠ 0 then addRobot fds needRobotNum p else p

/-- `RobotProcess` of the header robot for a room-status ack. A handler that
fails only changes the status of the header robot. -/
def headerProcess (p : Pool) (conf : RoomConf) (ack : Option NeedRobotAck)
    (fds : List (Option Int)) : Pool :=
  match recvQueryRoomStatusAck conf ack with
  | none => p
  | some needRobotNum => p.analysisAndDecision needRobotNum fds

/-- The first `k` idle robots have a connection, and the others are still idle. -/
structure Moved (k : Nat) (p p' : Pool) : Prop where
  task : p'.taskRobotList = p.taskRobotList.drop k
  untask : p'.untaskRobotList = p.untaskRobotList ++ p.taskRobotList.take k
  conns : p'.mapConn.map Conn.robot = p.mapConn.map Conn.robot ++ p.taskRobotList.take k

/-- Nobody is sent. -/
theorem Moved.none (p : Pool) : Moved 0 p p :=
  ⟨rfl, (List.append_nil _).symm, (List.append_nil _).symm⟩

/-- One connection, and then some more. -/
theorem Moved.connect {p p' : Pool} {k robot : Nat} {fd : Int} {rest : List Nat}
    (ht : p.taskRobotList = robot :: rest) (h : Moved k (p.connect fd robot rest) p') :
    Moved (k + 1) p p' := by
  refine ⟨?_, ?_, ?_⟩
  · rw [h.task, ht]
    rfl
  · rw [h.untask, ht, List.take_succ_cons]
    exact List.append_assoc _ [robot] _
  · rw [h.conns, ht, List.take_succ_cons]
    show (p.mapConn ++ [_]).map Conn.robot ++ rest.take k = _
    rw [List.map_append, List.append_assoc]
    rfl

/-- How many robots a count takes of so many idle ones, if all connections
succeed. -/
def taken (iRobotNum : Int) (idle : Nat) : Nat :=
  if iRobotNum < 0 then idle else min iRobotNum.toNat idle

/-- How many calls of `CreateConnection` succeed before one fails. -/
def connects (fds : List (Option Int)) : Nat := (fds.takeWhile Option.isSome).length

/-- A count that is not zero takes the front robot, and then goes on with one
less. -/
theorem taken_succ {n : Int} (hn : n ≠ 0) (idle : Nat) :
    taken n (idle + 1) = taken (n - 1) idle + 1 := by
  unfold taken
  by_cases h : n < 0
  · rw [if_pos h, if_pos (by omega)]
  · rw [if_neg h, if_neg (by omega)]
    omega

/-- `AddRobot` goes as far as the count, the idle robots and the connections
allow. -/
theorem addRobot_moved : ∀ (fds : List (Option Int)) (n : Int) (p : Pool),
    p.taskRobotList.length ≤ fds.length →
    Moved (min (connects fds) (taken n p.taskRobotList.length)) p (addRobot fds n p) := by
  intro fds
  induction fds with
  | nil =>
    intro n p hlen
    rw [show connects [] = 0 from rfl, Nat.zero_min]
    exact Moved.none p
  | cons fd fds ih =>
    intro n p hlen
    unfold addRobot
    by_cases hn : n ≠ 0
    · rw [if_pos hn]
      cases ht : p.taskRobotList with
      | nil =>
        have hz : taken n ([] : List Nat).length = 0 := by
          unfold taken
          split
          · rfl
          · exact Nat.min_zero _
        rw [hz, Nat.min_zero]
        exact Moved.none p
      | cons robot rest =>
        rw [ht, List.length_cons, List.length_cons] at hlen
        cases fd with
        | none =>
          rw [show connects (none :: fds) = 0 from rfl, Nat.zero_min]
          exact Moved.none p
        | some fd =>
          have hrest := ih (n - 1) (p.connect fd robot rest) (Nat.le_of_succ_le_succ hlen)
          rw [show connects (some fd :: fds) = connects fds + 1 from rfl, List.length_cons,
            taken_succ hn, Nat.succ_min_succ]
          exact hrest.connect ht
    · rw [if_neg hn, not_not.mp hn]
      have hz : taken 0 p.taskRobotList.length = 0 := by
        unfold taken
        rw [if_neg (by omega)]
        exact Nat.zero_min _
      rw [hz, Nat.min_zero]
      exact Moved.none p

/-! ## The count -/

/-- The header robot sends what is needed of what is idle when all connections
succeed; when one fails, those that were connected before it, and the rest stay
in their order. -/
structure DispatchCount (conf : RoomConf) (ack : Option NeedRobotAck) (p : Pool) : Prop where
  succeed : ∀ fds : List (Option Int), p.taskRobotList.length ≤ fds.length →
    (∀ fd ∈ fds, fd.isSome = true) →
    Moved (min (max (needed conf ack) 0).toNat p.taskRobotList.length) p
      (p.headerProcess conf ack fds)
  fail : ∀ (fds rest : List (Option Int)), (∀ fd ∈ fds, fd.isSome = true) →
    p.taskRobotList.length ≤ (fds ++ none :: rest).length →
    Moved (min fds.length (min (max (needed conf ack) 0).toNat p.taskRobotList.length)) p
      (p.headerProcess conf ack (fds ++ none :: rest))

/-- The count that reaches `AnalysisAndDecision`. -/
def asked (conf : RoomConf) (ack : Option NeedRobotAck) : Int :=
  (recvQueryRoomStatusAck conf ack).getD 0

/-- The three functions together: as many robots as the count takes, or as the
connections allow. -/
theorem headerProcess_moved (conf : RoomConf) (ack : Option NeedRobotAck) {p : Pool}
    {fds : List (Option Int)} (hlen : p.taskRobotList.length ≤ fds.length) :
    Moved (min (connects fds) (taken (asked conf ack) p.taskRobotList.length)) p
      (p.headerProcess conf ack fds) := by
  have hzero : Moved (min (connects fds) (taken 0 p.taskRobotList.length)) p p := by
    have h0 : taken 0 p.taskRobotList.length = 0 := by
      unfold taken
      rw [if_neg (by omega)]
      exact Nat.zero_min _
    rw [h0, Nat.min_zero]
    exact Moved.none p
  unfold headerProcess asked
  cases recvQueryRoomStatusAck conf ack with
  | none => exact hzero
  | some needRobotNum =>
    show Moved _ p (if needRobotNum ≠ 0 then addRobot fds needRobotNum p else p)
    by_cases h0 : needRobotNum ≠ 0
    · rw [if_pos h0]
      exact addRobot_moved fds needRobotNum p hlen
    · rw [if_neg h0, not_not.mp h0]
      exact hzero

/-- A negative number of the server does not get through, a negative
`playerNum` does. -/
theorem asked_eq (conf : RoomConf) (ack : Option NeedRobotAck) : asked conf ack
    = if conf.minPlayerNum = 0 then conf.playerNum else max (needed conf ack) 0 := by
  unfold asked recvQueryRoomStatusAck needed
  by_cases hmin : conf.minPlayerNum = 0
  · rw [if_pos hmin, if_pos hmin]
    rfl
  rw [if_neg hmin, if_neg hmin, if_neg hmin]
  rcases ack with _ | ⟨result, robots⟩
  · rfl
  dsimp only
  by_cases hr : result = 0
  · rw [if_neg (not_not.mpr hr), if_pos hr]
    rcases robots with _ | n
    · rfl
    · dsimp only [Option.getD_some]
      split
      · rw [Option.getD_some]
        omega
      · rw [Option.getD_some]
        omega
  · rw [if_pos hr, if_neg hr]
    rfl

/-- The count takes what is needed, unless it is a negative `playerNum` and
there are idle robots. -/
theorem taken_asked (conf : RoomConf) (ack : Option NeedRobotAck) (idle : Nat) :
    taken (asked conf ack) idle = min (max (needed conf ack) 0).toNat idle ↔
      ¬(conf.minPlayerNum = 0 ∧ conf.playerNum < 0 ∧ idle ≠ 0) := by
  rw [asked_eq]
  unfold taken
  by_cases hmin : conf.minPlayerNum = 0
  · have hneed : needed conf ack = conf.playerNum := if_pos hmin
    rw [if_pos hmin, hneed]
    split
    · omega
    · omega
  · rw [if_neg hmin, if_neg (by omega)]
    exact ⟨fun _ h => hmin h.1, fun _ => rfl⟩

/-- All calls of `CreateConnection` succeed. -/
theorem connects_of_succeed {fds : List (Option Int)} (h : ∀ fd ∈ fds, fd.isSome = true) :
    connects fds = fds.length := by
  rw [connects, List.takeWhile_eq_self_iff.mpr h]

/-- The first that fails ends the sending. -/
theorem connects_of_fail {fds : List (Option Int)} (h : ∀ fd ∈ fds, fd.isSome = true)
    (rest : List (Option Int)) : connects (fds ++ none :: rest) = fds.length := by
  rw [connects, List.takeWhile_append_of_pos h, List.takeWhile_cons_of_neg (by simp),
    List.append_nil]

/-- The header robot sends the robots that are needed, for every ack and
whatever the connections do, exactly when no negative `playerNum` meets idle
robots. -/
theorem dispatchCount_iff (conf : RoomConf) (ack : Option NeedRobotAck) (p : Pool) :
    DispatchCount conf ack p ↔
      ¬(conf.minPlayerNum = 0 ∧ conf.playerNum < 0 ∧ p.taskRobotList ≠ []) := by
  rw [ne_eq, ← List.length_eq_zero_iff, ← ne_eq, ← taken_asked conf ack]
  constructor
  · intro h
    -- descriptors for all the idle robots
    let fds := (List.range p.taskRobotList.length).map fun k : Nat => some (k : Int)
    have hlen : p.taskRobotList.length = fds.length := by
      rw [List.length_map, List.length_range]
    have hall : ∀ fd ∈ fds, fd.isSome = true := by
      intro fd hfd
      obtain ⟨k, -, rfl⟩ := List.mem_map.mp hfd
      rfl
    have htask := (headerProcess_moved conf ack (Nat.le_of_eq hlen)).task
    rw [connects_of_succeed hall, ← hlen, (h.succeed fds (Nat.le_of_eq hlen) hall).task] at htask
    have hcount := congrArg List.length htask
    rw [List.length_drop, List.length_drop] at hcount
    have hle : taken (asked conf ack) p.taskRobotList.length ≤ p.taskRobotList.length := by
      unfold taken
      split
      · exact Nat.le_refl _
      · exact Nat.min_le_right _ _
    omega
  · intro heq
    refine ⟨fun fds hlen hall => ?_, fun fds rest hall hlen => ?_⟩
    · have hmoved := headerProcess_moved conf ack hlen
      rw [connects_of_succeed hall, heq] at hmoved
      rwa [Nat.min_eq_right (Nat.le_trans (Nat.min_le_right _ _) hlen)] at hmoved
    · have hmoved := headerProcess_moved conf ack hlen
      rwa [connects_of_fail hall rest, heq] at hmoved

/-- With a `playerNum` of -1 and no limit, two idle robots are sent where none
is needed. -/
theorem dispatchCount_fails : ¬∀ (conf : RoomConf) (ack : Option NeedRobotAck) (p : Pool),
    DispatchCount conf ack p := by
  intro h
  have htask := ((h ⟨0, -1⟩ (some ⟨0, none⟩) { taskRobotList := [7, 8] }).succeed
    [some 5, some 6] (by simp) (by simp)).task
  have hnone : (headerProcess { taskRobotList := [7, 8] } ⟨0, -1⟩ (some ⟨0, none⟩)
      [some 5, some 6]).taskRobotList = [] := rfl
  rw [hnone] at htask
  exact absurd htask (by simp [needed])

/-- What the header robot does to the pool is an `addRobot` event or nothing,
so it keeps the invariant of the pool. -/
theorem Inv.headerProcess {robots : List Nat} {p : Pool} (h : Inv robots p) (conf : RoomConf)
    (ack : Option NeedRobotAck) {fds : List (Option Int)} (hnodup : (fds.filterMap id).Nodup)
    (hfresh : ∀ c ∈ p.mapConn, some c.fd ∉ fds) : Inv robots (p.headerProcess conf ack fds) := by
  unfold Pool.headerProcess
  cases recvQueryRoomStatusAck conf ack with
  | none => exact h
  | some needRobotNum =>
    show Inv robots (if needRobotNum ≠ 0 then _ else p)
    split
    · exact Inv.addRobot fds needRobotNum p h hnodup hfresh
    · exact h

end Pool

end RobotDdz.Net
