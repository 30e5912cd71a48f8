import RobotDdz.Net.Dispatch
import RobotDdz.Task.Handlers

/-!
# The header robot

The header robot keeps one connection for itself. `EventProcess` makes it at
the start and, when it fails or is lost, sets a timer for another try. Once the
robot has initialised its game, a persistent timer asks for the status of the
room, and the answer says how many task robots are to be sent.

`conns_add_retries`: in every run there is one connection or one pending try,
never both, never neither and never two. `timers_good_iff` is about the query
timer: it belongs to the open connection in all runs in which no connection
initialises a second game while it has a timer. A message that a handler of the
header robot rejects puts it back to `INIT` without a new connection, and that
is how a second time comes about: `QueryRoomStateTimer_` is overwritten, and
`DeleteTimer` never finds the first timer again.

Mirroring notes vs `RobotHeader.cpp` and `RobotBase.cpp`:
- A handler that fails has the robot's status set to `INIT` and
  `HeaderRobotDisconnect` called, which has an empty body. The connection
  stays, and no new verification is sent.
- `DeleteTimer` cancels the timer that `QueryRoomStateTimer_` names. A timer
  that is overwritten stays armed and holds its connection.
- For a game at fixed times the timer asks for the conditions, and the answer's
  times are compared with the clock (`IsTimeToQueryRoomStatus`) before the room
  is asked for; otherwise it asks for the room at once.
-/

namespace RobotDdz.Net

open Runs

/-- What the header robot sends. -/
inductive HeaderRequest where
  | verify | initGame | needRobot | signUpCondition
deriving DecidableEq, Repr

/-- `OrgRoomDdzSignUpConditionAck`, as far as the header robot reads it. -/
structure SignUpTimes where
  result : Int
  startSignUpTime : Int
  endSignUpTime : Int
  startTime : Int

/-- What the server sends to the header robot, with its body as parsed;
`unhandled` has no handler or no body. -/
inductive HeaderMsg where
  | verifyAck (ack : Option (Int × Bool))
  | initGameAck (result : Option Int)
  | needRobotAck (ack : Option NeedRobotAck)
  | signUpConditionAck (ack : Option SignUpTimes)
  | unhandled

/-- The timer of `BeginToQueryRoomStatus`: a `MsgNode` with the connection it
holds. -/
structure QueryTimer where
  id : Nat
  conn : Nat
deriving DecidableEq, Repr

/-- `class RobotHeader` and what is around it: its connections in `mapConn_`,
the tries that `RebuildConnection` has left to a timer, the persistent timers
that are armed, what `SendMsg` has written to which connection, and the counts
given to `AddRobot`. -/
structure Header where
  conf : RoomConf
  isTimeTrail : Bool := false
  status : RobotStatus := .init
  needKeepPlay : Bool := false
  queryRoomStateTimer : Option QueryTimer := none
  conns : List Nat := []
  created : Nat := 0
  retries : Nat := 0
  timers : List QueryTimer := []
  made : Nat := 0
  written : List (Nat × HeaderRequest) := []
  added : List Int := []

/-- `IsTimeToQueryRoomStatus`, at a time. The times are `int`s, and so is what
is left of them. -/
def isTimeToQueryRoomStatus (currentTime startSignUpTime endSignUpTime gameBeginTime : Int) :
    Bool :=
  let confleftTime := 300
  let curleftTime := RobotDdz.asInt (gameBeginTime - currentTime)
  if startSignUpTime ≤ currentTime ∧ currentTime < endSignUpTime then
    !decide (confleftTime < curleftTime)
  else false

namespace Header

/-- `RobotInit`. -/
def robotInit (h : Header) : Header :=
  { h with status := .init, queryRoomStateTimer := none, needKeepPlay := false }

/-- `RebuildConnection`. -/
def rebuildConnection (h : Header) : Header := { h with retries := h.retries + 1 }

/-- `InitHeaderRobotConnection`, given whether `CreateConnection` succeeds. -/
def initHeaderRobotConnection (h : Header) (ok : Bool) : Header :=
  if ok then
    robotInit { h with conns := h.conns ++ [h.created], created := h.created + 1 }
  else h.rebuildConnection

/-- `DeleteTimer`. -/
def deleteTimer (h : Header) : Header :=
  match h.queryRoomStateTimer with
  | none => h
  | some t => { h with timers := h.timers.erase t, queryRoomStateTimer := none }

/-- `BeginToQueryRoomStatus`, for a message on a connection. -/
def beginToQueryRoomStatus (h : Header) (conn : Nat) : Header :=
  { h with
    queryRoomStateTimer := some ⟨h.made, conn⟩
    timers := h.timers ++ [⟨h.made, conn⟩]
    made := h.made + 1 }

/-- `SendMsg`. Nothing clears the `bev_` of a connection of the header robot. -/
def sendMsg (h : Header) (conn : Nat) (request : HeaderRequest) : Header :=
  { h with written := h.written ++ [(conn, request)] }

/-- What a handler leaves: `none` if it failed, with the header robot as it
then is. -/
structure Handled where
  header : Header
  ok : Bool := true
  request : Option HeaderRequest := none
  needRobotNum : Int := 0

/-- `RecvVerifyAck`; the header robot is never tested for games to go on with. -/
def recvVerifyAck (h : Header) (ack : Option (Int × Bool)) : Handled :=
  if h.status ≠ .init then { header := h, ok := false }
  else match ack with
    | none => { header := h, ok := false }
    | some (result, hasGameName) =>
      if result ≠ 0 then { header := h, ok := false }
      else
        { header := { h with
            needKeepPlay := if hasGameName then true else h.needKeepPlay, status := .verified }
          request := some .initGame }

/-- `RecvInitGameAck`, with `NextActionProcess`. -/
def recvInitGameAck (h : Header) (conn : Nat) (result : Option Int) : Handled :=
  if h.status ≠ .verified then { header := h, ok := false }
  else match result with
    | none => { header := h, ok := false }
    | some result =>
      if result ≠ 0 then { header := h, ok := false }
      else
        { header := beginToQueryRoomStatus
            { h with status := if h.needKeepPlay then .keepPlay else .initGame } conn }

/-- `RecvQuerySignUpCondAck` at a time: it sends its request itself and leaves
it in the `MsgNode` as well. -/
def recvQuerySignUpCondAck (h : Header) (conn : Nat) (now : Int) (ack : Option SignUpTimes) :
    Handled :=
  match ack with
  | none => { header := h, ok := false }
  | some ack =>
    if ack.result ≠ 0 then { header := h }
    else if isTimeToQueryRoomStatus now ack.startSignUpTime ack.endSignUpTime ack.startTime then
      { header := h.sendMsg conn .needRobot, request := some .needRobot }
    else { header := h }

/-- `mapActionCallback_`; `none` where there is no handler. -/
def handle (h : Header) (conn : Nat) (now : Int) : HeaderMsg → Option Handled
  | .verifyAck ack => some (h.recvVerifyAck ack)
  | .initGameAck result => some (h.recvInitGameAck conn result)
  | .needRobotAck ack =>
    some (match recvQueryRoomStatusAck h.conf ack with
      | none => { header := h, ok := false }
      | some needRobotNum => { header := h, needRobotNum })
  | .signUpConditionAck ack => some (h.recvQuerySignUpCondAck conn now ack)
  | .unhandled => none

/-- `AnalysisAndDecision`. -/
def analysisAndDecision (r : Handled) (conn : Nat) : Header :=
  match r.request with
  | some request => r.header.sendMsg conn request
  | none =>
    if r.needRobotNum ≠ 0 then { r.header with added := r.header.added ++ [r.needRobotNum] }
    else r.header

/-- `RobotProcess`. `HeaderRobotDisconnect`, which a failed handler calls, does
nothing. -/
def robotProcess (h : Header) (conn : Nat) (now : Int) (msg : HeaderMsg) : Header :=
  match h.handle conn now msg with
  | none => h
  | some r => if !r.ok then { r.header with status := .init } else analysisAndDecision r conn

/-- `QueryRoomStatusTimer`, with `HeaderRobotAction`. -/
def queryRoomStatusTimer (h : Header) (t : QueryTimer) : Header :=
  h.sendMsg t.conn (if h.isTimeTrail then .signUpCondition else .needRobot)

/-- `EventCb` for the end of a connection, with `CloseEvent`. -/
def closeEvent (h : Header) (conn : Nat) : Header :=
  let h := h.deleteTimer.rebuildConnection
  { h with conns := h.conns.erase conn }

end Header

/-- What happens to the header robot: a pending try, with what
`CreateConnection` returns, an established connection, a message at a time,
the end of a connection, the query timer. -/
inductive HeaderEvent where
  | retry (ok : Bool)
  | connected (conn : Nat)
  | receive (conn : Nat) (now : Int) (msg : HeaderMsg)
  | closed (conn : Nat)
  | queryTimer (t : QueryTimer)

namespace Header

/-- One event. -/
def step (h : Header) : HeaderEvent → Header
  | .retry ok => initHeaderRobotConnection { h with retries := h.retries - 1 } ok
  | .connected conn => h.sendMsg conn .verify
  | .receive conn now msg => h.robotProcess conn now msg
  | .closed conn => h.closeEvent conn
  | .queryTimer t => h.queryRoomStatusTimer t

/-- What can happen: pending tries, open connections, armed timers. -/
def Allowed (h : Header) : HeaderEvent → Prop
  | .retry _ => 0 < h.retries
  | .connected conn => conn ∈ h.conns
  | .receive conn _ _ => conn ∈ h.conns
  | .closed conn => conn ∈ h.conns
  | .queryTimer t => t ∈ h.timers

/-- `Start`, given whether the first `CreateConnection` succeeds. -/
def start (conf : RoomConf) (isTimeTrail ok : Bool) : Header :=
  initHeaderRobotConnection { conf, isTimeTrail } ok

/-- A connection initialises a game while it has a query timer. -/
def Restarts (h : Header) : HeaderEvent → Prop
  | .receive _ _ (.initGameAck (some 0)) => h.status = .verified ∧ h.queryRoomStateTimer ≠ none
  | _ => False

/-- Every armed query timer is the one the robot knows, and its connection is
open. -/
def Good (h : Header) : Prop :=
  ∀ t ∈ h.timers, h.queryRoomStateTimer = some t ∧ t.conn ∈ h.conns

/-! ## One event -/

section Step

variable {h : Header}

/-- The fields that a message may leave alone: all but the status, what is sent
and the query timer. -/
structure SameConns (h h' : Header) : Prop where
  conns : h'.conns = h.conns
  retries : h'.retries = h.retries

/-- The query timer, too. -/
structure SameTimers (h h' : Header) : Prop extends SameConns h h' where
  timers : h'.timers = h.timers
  query : h'.queryRoomStateTimer = h.queryRoomStateTimer
  made : h'.made = h.made

/-- A message arms at most one timer, and only when it initialises a game,
which takes a robot that is verified. Everything else leaves the timers and the
known one alone. -/
theorem robotProcess_cases (h : Header) (conn : Nat) (now : Int) (msg : HeaderMsg) :
    SameTimers h (h.robotProcess conn now msg) ∨
      msg = .initGameAck (some 0) ∧ h.status = .verified ∧
        SameTimers (h.beginToQueryRoomStatus conn) (h.robotProcess conn now msg) := by
  unfold robotProcess
  cases msg with
  | unhandled => exact .inl ⟨⟨rfl, rfl⟩, rfl, rfl, rfl⟩
  | verifyAck ack =>
    left
    simp only [handle, recvVerifyAck]
    split
    · exact ⟨⟨rfl, rfl⟩, rfl, rfl, rfl⟩
    · rcases ack with _ | ⟨result, hasGameName⟩
      · exact ⟨⟨rfl, rfl⟩, rfl, rfl, rfl⟩
      · dsimp only
        split <;> exact ⟨⟨rfl, rfl⟩, rfl, rfl, rfl⟩
  | initGameAck result =>
    simp only [handle, recvInitGameAck]
    split
    next => exact .inl ⟨⟨rfl, rfl⟩, rfl, rfl, rfl⟩
    next hs =>
      rcases result with _ | result
      · exact .inl ⟨⟨rfl, rfl⟩, rfl, rfl, rfl⟩
      · dsimp only
        split
        next => exact .inl ⟨⟨rfl, rfl⟩, rfl, rfl, rfl⟩
        next hr =>
          obtain rfl : result = 0 := not_not.mp hr
          exact .inr ⟨rfl, not_not.mp hs, ⟨rfl, rfl⟩, rfl, rfl, rfl⟩
  | needRobotAck ack =>
    left
    simp only [handle]
    cases recvQueryRoomStatusAck h.conf ack with
    | none => exact ⟨⟨rfl, rfl⟩, rfl, rfl, rfl⟩
    | some needRobotNum =>
      show SameTimers h (if needRobotNum ≠ 0 then _ else _)
      split <;> exact ⟨⟨rfl, rfl⟩, rfl, rfl, rfl⟩
  | signUpConditionAck ack =>
    left
    simp only [handle, recvQuerySignUpCondAck]
    rcases ack with _ | ack
    · exact ⟨⟨rfl, rfl⟩, rfl, rfl, rfl⟩
    · dsimp only
      split
      · exact ⟨⟨rfl, rfl⟩, rfl, rfl, rfl⟩
      · split <;> exact ⟨⟨rfl, rfl⟩, rfl, rfl, rfl⟩

/-- Whatever the event, a connection and a pending try stand in for each other:
a try that succeeds is a connection, one that fails is the next try, and a
connection that is closed is tried again. -/
theorem step_balance {e : HeaderEvent} (ha : h.Allowed e) :
    (h.step e).conns.length + (h.step e).retries = h.conns.length + h.retries := by
  cases e with
  | retry ok =>
    have hpos : 0 < h.retries := ha
    cases ok with
    | true =>
      show (h.conns ++ [h.created]).length + (h.retries - 1) = _
      rw [List.length_append, List.length_singleton]
      omega
    | false =>
      show h.conns.length + (h.retries - 1 + 1) = _
      omega
  | connected conn => rfl
  | receive conn now msg =>
    rcases robotProcess_cases h conn now msg with hsame | ⟨-, -, hsame⟩
    · show (h.robotProcess conn now msg).conns.length + (h.robotProcess conn now msg).retries = _
      rw [hsame.conns, hsame.retries]
    · show (h.robotProcess conn now msg).conns.length + (h.robotProcess conn now msg).retries = _
      rw [hsame.conns, hsame.retries]
      rfl
  | closed conn =>
    have hmem : conn ∈ h.conns := ha
    have hpos := List.length_pos_of_mem hmem
    have hsame : h.deleteTimer.conns = h.conns ∧ h.deleteTimer.retries = h.retries := by
      unfold deleteTimer
      split <;> exact ⟨rfl, rfl⟩
    show (h.deleteTimer.conns.erase conn).length + (h.deleteTimer.retries + 1) = _
    rw [hsame.1, hsame.2, List.length_erase_of_mem hmem]
    omega
  | queryTimer t => rfl

/-- A robot of the client: one connection or one pending try, and the query
timer it knows is armed. -/
structure Kept (h : Header) : Prop where
  one : h.conns.length + h.retries = 1
  good : h.Good
  known : ∀ t, h.queryRoomStateTimer = some t → t ∈ h.timers
  made : ∀ t ∈ h.timers, t.id < h.made
  nodup : h.timers.Nodup

/-- Two connections of the header robot are the same. -/
theorem Kept.unique (hk : h.Kept) {c c' : Nat} (hc : c ∈ h.conns) (hc' : c' ∈ h.conns) :
    c = c' := by
  have hlen := hk.one
  match hconns : h.conns with
  | [] =>
    rw [hconns] at hc
    exact absurd hc List.not_mem_nil
  | [x] =>
    rw [hconns, List.mem_singleton] at hc hc'
    rw [hc, hc']
  | x :: y :: rest =>
    rw [hconns, List.length_cons, List.length_cons] at hlen
    omega

/-- With a good timer there is at most the one the robot knows. -/
theorem Kept.timers_eq (hk : h.Kept) : h.timers = h.queryRoomStateTimer.toList := by
  cases hq : h.queryRoomStateTimer with
  | none =>
    refine List.eq_nil_iff_forall_not_mem.mpr fun t ht => ?_
    have hknown := (hk.good t ht).1
    rw [hq] at hknown
    exact Option.some_ne_none t hknown.symm
  | some t =>
    have hall : ∀ t' ∈ h.timers, t' = t := by
      intro t' ht'
      have hknown := (hk.good t' ht').1
      rw [hq] at hknown
      exact (Option.some.inj hknown).symm
    exact (List.eq_replicate_of_mem hall).trans (by
      rw [(List.nodup_replicate.mp ((List.eq_replicate_of_mem hall) ▸ hk.nodup)).antisymm
        (List.length_pos_of_mem (hk.known t hq))]
      rfl)

/-- Nothing the invariant looks at has changed. -/
theorem Kept.same (hk : h.Kept) {h' : Header} (hs : SameTimers h h') : h'.Kept := by
  refine ⟨?_, fun t ht => ?_, fun t ht => ?_, fun t ht => ?_, ?_⟩
  · rw [hs.conns, hs.retries]
    exact hk.one
  · rw [hs.timers] at ht
    rw [hs.query, hs.conns]
    exact hk.good t ht
  · rw [hs.query] at ht
    rw [hs.timers]
    exact hk.known t ht
  · rw [hs.timers] at ht
    rw [hs.made]
    exact hk.made t ht
  · rw [hs.timers]
    exact hk.nodup

/-- The first query timer of a connection. There was none, so the new one is
the only one and the one the robot knows. -/
theorem Kept.begin (hk : h.Kept) {conn : Nat} (hc : conn ∈ h.conns)
    (hq : h.queryRoomStateTimer = none) : (h.beginToQueryRoomStatus conn).Kept := by
  have hnone : h.timers = [] := by
    rw [hk.timers_eq, hq]
    rfl
  have hone : (h.beginToQueryRoomStatus conn).timers = [⟨h.made, conn⟩] := by
    show h.timers ++ [_] = _
    rw [hnone]
    rfl
  refine ⟨hk.one, fun t ht => ?_, fun t ht => ?_, fun t ht => ?_, ?_⟩
  · rw [hone, List.mem_singleton] at ht
    rw [ht]
    exact ⟨rfl, hc⟩
  · rw [hone, ← Option.some.inj ht]
    exact List.mem_singleton.mpr rfl
  · rw [hone, List.mem_singleton] at ht
    rw [ht]
    exact Nat.lt_succ_self _
  · rw [hone]
    exact List.nodup_singleton _

/-- Without timers the invariant is the first part. -/
theorem kept_of_nil (hone : h.conns.length + h.retries = 1) (hq : h.queryRoomStateTimer = none)
    (ht : h.timers = []) : h.Kept := by
  refine ⟨hone, fun t ht' => ?_, fun t hq' => ?_, fun t ht' => ?_, ?_⟩
  · rw [ht] at ht'
    exact absurd ht' List.not_mem_nil
  · rw [hq] at hq'
    exact absurd hq'.symm (Option.some_ne_none t)
  · rw [ht] at ht'
    exact absurd ht' List.not_mem_nil
  · rw [ht]
    exact List.nodup_nil

/-- The timer goes with the connection. -/
theorem Kept.deleteTimer (hk : h.Kept) :
    h.deleteTimer.queryRoomStateTimer = none ∧ h.deleteTimer.timers = [] := by
  have htimers := hk.timers_eq
  unfold Header.deleteTimer
  cases hq : h.queryRoomStateTimer with
  | none =>
    rw [hq] at htimers
    exact ⟨hq, htimers⟩
  | some t =>
    rw [hq] at htimers
    refine ⟨rfl, ?_⟩
    show h.timers.erase t = []
    rw [htimers]
    exact List.erase_cons_head t []

/-- An event that restarts nothing keeps the invariant. While a try is pending
there is no connection and so no timer; a close deletes the known timer, which
was the only one. -/
theorem Kept.step (hk : h.Kept) {e : HeaderEvent} (ha : h.Allowed e) (hr : ¬h.Restarts e) :
    (h.step e).Kept := by
  have hbalance := (step_balance ha).trans hk.one
  cases e with
  | retry ok =>
    -- while a try is pending there is no connection, and so no timer
    have hpos : 0 < h.retries := ha
    have hnil : h.timers = [] := by
      refine List.eq_nil_iff_forall_not_mem.mpr fun t ht => ?_
      have hlen := List.length_pos_of_mem (hk.good t ht).2
      have hone := hk.one
      omega
    have hnone : h.queryRoomStateTimer = none := by
      have htimers := hk.timers_eq
      rw [hnil] at htimers
      exact Option.toList_eq_nil_iff.mp htimers.symm
    cases ok with
    | true => exact kept_of_nil hbalance rfl hnil
    | false => exact kept_of_nil hbalance hnone hnil
  | connected conn => exact hk.same ⟨⟨rfl, rfl⟩, rfl, rfl, rfl⟩
  | receive conn now msg =>
    rcases robotProcess_cases h conn now msg with hsame | ⟨rfl, hs, hsame⟩
    · exact hk.same hsame
    · have hq : h.queryRoomStateTimer = none := by
        by_contra hne
        exact hr ⟨hs, hne⟩
      exact (hk.begin ha hq).same hsame
  | closed conn =>
    obtain ⟨hnone, hnil⟩ := hk.deleteTimer
    exact kept_of_nil hbalance hnone hnil
  | queryTimer t => exact hk.same ⟨⟨rfl, rfl⟩, rfl, rfl, rfl⟩

/-- A restart leaves a timer behind that the robot does not know: the old one
is armed still, and what is known is the new one. -/
theorem Kept.restarted (hk : h.Kept) {e : HeaderEvent} (hgood : (h.step e).Good) :
    ¬h.Restarts e := by
  intro hr
  match e, hr with
  | .receive conn now (.initGameAck (some 0)), ⟨hs, hne⟩ =>
    obtain ⟨t, ht⟩ := Option.ne_none_iff_exists'.mp hne
    rcases robotProcess_cases h conn now (.initGameAck (some 0)) with hsame | ⟨-, -, hsame⟩
    · -- the message does arm a timer
      have hmade := hsame.made
      have hproc : (h.robotProcess conn now (.initGameAck (some 0))).made = h.made + 1 := by
        simp only [robotProcess, handle, recvInitGameAck, hs]
        rfl
      omega
    · have hin := hk.known t ht
      have hold : t ∈ (h.step (.receive conn now (.initGameAck (some 0)))).timers := by
        show t ∈ (h.robotProcess conn now (.initGameAck (some 0))).timers
        rw [hsame.timers]
        exact List.mem_append_left _ hin
      have hknown := (hgood t hold).1
      have hquery : (h.step (.receive conn now (.initGameAck (some 0)))).queryRoomStateTimer
          = some ⟨h.made, conn⟩ := hsame.query
      rw [hquery] at hknown
      have hid : h.made = t.id := congrArg QueryTimer.id (Option.some.inj hknown)
      have hlt := hk.made t hin
      omega

end Step

/-! ## Runs -/

section Run

variable (conf : RoomConf) (isTimeTrail ok : Bool)

/-- After `Start` there is a connection or a try, and no timer. -/
theorem kept_start : (start conf isTimeTrail ok).Kept := by
  cases ok with
  | true => exact kept_of_nil rfl rfl rfl
  | false => exact kept_of_nil rfl rfl rfl

/-- In every run of the header robot there is either one connection or one try
pending. -/
theorem conns_add_retries {es : List HeaderEvent}
    (ha : Along step Allowed (start conf isTimeTrail ok) es) :
    (run step (start conf isTimeTrail ok) es).conns.length
      + (run step (start conf isTimeTrail ok) es).retries = 1 :=
  ha.inv (fun h => h.conns.length + h.retries = 1) (fun _ _ hone ha => (step_balance ha).trans hone)
    (kept_start conf isTimeTrail ok).one

/-- Throughout a run every armed query timer is the one the robot knows and
holds the open connection, exactly when no connection initialises a game while
it has a timer. -/
theorem timers_good_iff {es : List HeaderEvent}
    (ha : Along step Allowed (start conf isTimeTrail ok) es) :
    (∀ pre, pre <+: es → (run step (start conf isTimeTrail ok) pre).Good) ↔
      Along step (fun h e => ¬h.Restarts e) (start conf isTimeTrail ok) es :=
  Along.good_iff Kept Good (fun _ hk => hk.good) (fun _ _ hk ha hr => hk.step ha hr)
    (fun _ _ hk _ hgood => hk.restarted hgood) ha (kept_start conf isTimeTrail ok)

end Run

/-- The robot enters, asks once, loses its connection and gets another one at
the second try. -/
def lostOnce : List HeaderEvent :=
  [.connected 0, .receive 0 0 (.verifyAck (some (0, false))), .receive 0 0 (.initGameAck (some 0)),
    .queryTimer ⟨0, 0⟩, .closed 0, .retry false, .retry true, .connected 1]

theorem allowed_lostOnce : Along step Allowed (start ⟨0, 3⟩ false true) lostOnce :=
  ⟨List.mem_cons_self, List.mem_cons_self, List.mem_cons_self, List.mem_cons_self,
    List.mem_cons_self, Nat.one_pos, Nat.one_pos, List.mem_cons_self, trivial⟩

theorem conns_add_retries_lostOnce :
    (run step (start ⟨0, 3⟩ false true) lostOnce).conns.length
      + (run step (start ⟨0, 3⟩ false true) lostOnce).retries = 1 :=
  conns_add_retries ⟨0, 3⟩ false true allowed_lostOnce

theorem timers_good_iff_lostOnce :
    (∀ pre, pre <+: lostOnce → (run step (start ⟨0, 3⟩ false true) pre).Good) ↔
      Along step (fun h e => ¬h.Restarts e) (start ⟨0, 3⟩ false true) lostOnce :=
  timers_good_iff ⟨0, 3⟩ false true allowed_lostOnce

/-- A message out of turn, a second verification and a second game: when the
connection is lost, its first timer goes on asking. -/
example : (run step (start ⟨0, 3⟩ false true)
    [.connected 0, .receive 0 0 (.verifyAck (some (0, false))),
      .receive 0 0 (.initGameAck (some 0)), .receive 0 0 (.initGameAck none),
      .receive 0 0 (.verifyAck (some (0, false))), .receive 0 0 (.initGameAck (some 0)),
      .closed 0]).timers = [⟨0, 0⟩] := rfl

end Header

end RobotDdz.Net
