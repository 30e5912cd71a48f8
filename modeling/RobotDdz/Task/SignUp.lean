import RobotDdz.Task.Outcomes
import RobotDdz.Lib.Runs

/-!
# What a robot signs up with

`SendSignUpReq` takes the costid from the member `costId_`.
`RecvQuerySignUpCondAck` sets the member when the ack has a limit and leaves it
alone when it has none, and `RobotInit` does not touch it, so a robot of the
pool takes it along from one connection to the next. The old client's
`GetSignUpCondAckInfo` has a local variable there that starts as 0.

`costId_run`: after any history the member is the id the robot has picked last.
`signUps_iff`: a history goes as with the old client exactly when the member is
0 wherever an ack has no limit, and two robots answer the same ack alike
exactly when it has a limit or they have picked the same id last.

The proof goes through the picks of a history. `RobotTask.Ends.costId` is what
one handler does to the member, and `costId_run` is the induction over the
events: the member is the last pick, or what it was. The rest compares two
members.

Mirroring notes vs `RobotTask.cpp`:
- The cost picked is the first of the list that is enabled; a robot that has
  signed up with it already sends no request and is in `SIGNUPED`.
- A limit that is not enabled, or a list without an enabled cost, ends the
  connection.
- Without a limit the list is not read at all.
-/

namespace RobotDdz

open Runs

/-- `GetSignUpCondAckInfo::operation` of the old client, for a robot in
`INITGAME` and an ack that parses: the costid of the request it writes, from
a variable of its own that starts as 0. -/
def getSignUpCondAckInfo (ack : SignUpConditionAck) : Option Int :=
  if ack.result ≠ 0 then none
  else
    let costId : Int := 0
    match ack.limit with
    | none => some costId
    | some false => none
    | some true =>
      match ack.costList.find? (·.enable) with
      | none => none
      | some cost => if cost.signed then none else some cost.id

/-- What an ack says the costid is: 0 without a limit, else the id of the first
enabled entry. -/
def SignUpConditionAck.costid (ack : SignUpConditionAck) : Int :=
  if ack.limit.isNone then 0 else ((ack.costList.find? (·.enable)).map Cost.id).getD 0

theorem getSignUpCondAckInfo_costid {ack : SignUpConditionAck} {c : Int}
    (h : getSignUpCondAckInfo ack = some c) : c = ack.costid := by
  obtain ⟨result, limit, costList⟩ := ack
  unfold getSignUpCondAckInfo at h
  unfold SignUpConditionAck.costid
  dsimp only at h ⊢
  split at h
  · cases h
  rcases limit with _ | _ | _
  · exact (Option.some.inj h).symm
  · cases h
  · dsimp only at h
    cases hfind : costList.find? (·.enable) with
    | none =>
      rw [hfind] at h
      cases h
    | some cost =>
      rw [hfind] at h
      dsimp only at h
      split at h
      · cases h
      · exact (Option.some.inj h).symm

/-- A handler leaves the id that the message picks. -/
theorem RobotTask.Ends.costId {t : RobotTask} {msg : Msg} {r : Outcome} (h : t.Ends msg r) :
    r.task.costId = (t.picked msg).getD t.costId := by
  cases h with
  | failed h => exact congrArg RobotTask.costId h
  | handled h => exact congrArg RobotTask.costId h
  | send h => exact congrArg RobotTask.costId h
  | finished h => exact congrArg RobotTask.costId h
  | tested h => exact congrArg RobotTask.costId h
  | deleted h => exact congrArg RobotTask.costId h

/-! ## Histories of a pooled robot -/

/-- What happens to a robot of the pool: `AddRobot` gives it a connection, or
something happens on the connection it has. -/
inductive PooledEvent where
  | addRobot (isTestKeepPlay : Bool)
  | onLink (e : LinkEvent)

namespace Link

/-- `MoveRobotFromTaskListToUntaskList` on a new connection, with
`SetNeedTestKeepPlay`. A robot that was deleted is in neither list. -/
def connect (l : Link) (isTestKeepPlay : Bool) : Link :=
  { task := if isTestKeepPlay then { l.task.robotInit with isTestNeedKeepPlay := true }
      else l.task.robotInit }

/-- One event of a history. -/
def pooledStep (l : Link) : PooledEvent → Link
  | .addRobot isTestKeepPlay => if l.deleted then l else l.connect isTestKeepPlay
  | .onLink e => l.step e

/-- The id that an event makes the robot keep. -/
def pickedAt (l : Link) : PooledEvent → Option Int
  | .onLink (.receive _ msg) => if l.closed then none else l.task.picked msg
  | _ => none

/-- The ids that a history makes the robot keep, in order. -/
def picks : Link → List PooledEvent → List Int
  | _, [] => []
  | l, e :: es => (l.pickedAt e).toList ++ picks (l.pooledStep e) es

/-- The id that a robot has picked last, or the one its member started with. -/
def lastPicked (l : Link) (es : List PooledEvent) : Int := (l.picks es).getLast?.getD l.task.costId

theorem analysisAndDecision_task (l : Link) (node : MsgNode) :
    (l.analysisAndDecision node).task = l.task := by
  unfold analysisAndDecision
  split
  · rfl
  split
  · rfl
  cases node.request with
  | none =>
    dsimp only
    split
    · rfl
    · rfl
  | some request =>
    dsimp only
    split_ifs
    · rfl
    · rfl
    · rfl

theorem robotProcess_costId (l : Link) (o : Outside) (msg : Msg) :
    (l.robotProcess o msg).1.task.costId = (l.task.picked msg).getD l.task.costId := by
  unfold robotProcess
  cases hr : l.task.handle o msg with
  | none =>
    -- a message without a handler is no ack
    cases msg with
    | unhandled => rfl
    | _ => cases hr
  | some r =>
    dsimp only
    split
    · exact (RobotTask.handle_ends hr).costId
    · show (analysisAndDecision _ _).task.costId = _
      rw [analysisAndDecision_task]
      exact (RobotTask.handle_ends hr).costId

theorem connect_costId (l : Link) (isTestKeepPlay : Bool) :
    (l.connect isTestKeepPlay).task.costId = l.task.costId := by
  cases isTestKeepPlay with
  | false => rfl
  | true => rfl

/-- What one event does to `costId_`: a new connection leaves it alone, and a
message sets it if an id is picked from an ack. -/
theorem pooledStep_costId (l : Link) (e : PooledEvent) :
    (l.pooledStep e).task.costId = (l.pickedAt e).getD l.task.costId := by
  cases e with
  | addRobot isTestKeepPlay =>
    show (if _ then _ else _ : Link).task.costId = l.task.costId
    split
    · rfl
    · exact connect_costId l isTestKeepPlay
  | onLink e =>
    show (l.step e).task.costId = _
    unfold step
    cases e with
    | heartBeatTime =>
      split
      · rfl
      · rfl
    | receive o msg =>
      show _ = (if _ then _ else _ : Option Int).getD _
      split
      · rfl
      · exact robotProcess_costId l o msg

/-- After any history `costId_` is the id picked last. -/
theorem costId_run (es : List PooledEvent) : ∀ l : Link,
    (run pooledStep l es).task.costId = l.lastPicked es := by
  induction es with
  | nil => exact fun l => rfl
  | cons e es ih =>
    intro l
    have hstep := pooledStep_costId l e
    rw [run_cons, ih, lastPicked, lastPicked, picks, hstep]
    cases l.pickedAt e with
    | none => rfl
    | some id =>
      show _ = (id :: picks _ es).getLast?.getD _
      rw [List.getLast?_cons]
      rfl

/-! ## The request -/

/-- A robot whose ack is read: connected and in `INITGAME`. -/
structure Asked (l : Link) : Prop where
  connected : l.closed = false
  status : l.task.status = .initGame

/-- What an ack makes the robot send at once. -/
def signUps (l : Link) (o : Outside) (ack : SignUpConditionAck) : List Request :=
  (l.step (.receive o (.signUpConditionAck (some ack)))).sent.drop l.sent.length

/-- A successful ack is answered as by the old client, but without a limit the
costid is the member's. -/
theorem signUps_eq {l : Link} (h : l.Asked) (o : Outside) {ack : SignUpConditionAck}
    (hr : ack.result = 0) : l.signUps o ack
      = (if ack.limit.isNone then some l.task.costId else getSignUpCondAckInfo ack).toList.map
          Request.signUp := by
  have hhandle : l.task.handle o (.signUpConditionAck (some ack))
      = some (l.task.recvQuerySignUpCondAck (some ack)) := rfl
  have hr' : ¬ack.result ≠ 0 := not_not.mpr hr
  unfold RobotTask.recvQuerySignUpCondAck at hhandle
  rw [if_neg (not_not.mpr h.status)] at hhandle
  dsimp only at hhandle
  rw [if_neg hr'] at hhandle
  unfold signUps getSignUpCondAckInfo
  rw [if_neg hr']
  cases hl : ack.limit with
  | none =>
    rw [hl] at hhandle
    rw [step_send h.connected hhandle, List.drop_left' rfl]
    rfl
  | some enable =>
    rw [hl] at hhandle
    rw [if_neg (by simp)]
    cases enable with
    | false =>
      rw [step_failed h.connected hhandle rfl, List.drop_length]
      rfl
    | true =>
      dsimp only at hhandle ⊢
      cases hfind : ack.costList.find? (·.enable) with
      | none =>
        rw [hfind] at hhandle
        rw [step_failed h.connected hhandle rfl, List.drop_length]
        rfl
      | some cost =>
        rw [hfind] at hhandle
        dsimp only at hhandle ⊢
        by_cases hsigned : cost.signed = true
        · rw [if_pos hsigned] at hhandle
          rw [if_pos hsigned, step_handled h.connected hhandle, List.drop_length]
          rfl
        · rw [if_neg hsigned] at hhandle
          rw [if_neg hsigned, step_send h.connected hhandle, List.drop_left' rfl]
          rfl

/-- An event is an ack that the robot reads and that says success. -/
structure Reads (l : Link) (e : PooledEvent) (o : Outside) (ack : SignUpConditionAck) : Prop where
  event : e = .onLink (.receive o (.signUpConditionAck (some ack)))
  asked : l.Asked
  success : ack.result = 0

/-- The robot answers an ack with nothing but the ack, and as the old client
does. -/
def AnswersAck (l : Link) (e : PooledEvent) : Prop :=
  ∀ o ack, Reads l e o ack → (∀ c, Request.signUp c ∈ l.signUps o ack → c = ack.costid) ∧
    l.signUps o ack = (getSignUpCondAckInfo ack).toList.map Request.signUp

/-- An ack without a limit meets a robot whose `costId_` is 0. -/
def FreeOfCost (l : Link) (e : PooledEvent) : Prop :=
  ∀ o ack, Reads l e o ack → ack.limit = none → l.task.costId = 0

theorem answersAck_iff (l : Link) (e : PooledEvent) : l.AnswersAck e ↔ l.FreeOfCost e := by
  constructor
  · intro h o ack hread hl
    have hmem : Request.signUp l.task.costId ∈ l.signUps o ack := by
      rw [signUps_eq hread.asked o hread.success, if_pos (by rw [hl]; rfl)]
      exact List.mem_singleton_self _
    rw [(h o ack hread).1 _ hmem, SignUpConditionAck.costid, if_pos (by rw [hl]; rfl)]
  · intro h o ack hread
    have hold : l.signUps o ack = (getSignUpCondAckInfo ack).toList.map Request.signUp := by
      rw [signUps_eq hread.asked o hread.success]
      split
      next hl =>
        rw [h o ack hread (Option.isNone_iff_eq_none.mp hl), getSignUpCondAckInfo,
          if_neg (not_not.mpr hread.success), Option.isNone_iff_eq_none.mp hl]
      next => rfl
    refine ⟨fun c hc => ?_, hold⟩
    rw [hold] at hc
    obtain ⟨d, hd, heq⟩ := List.mem_map.mp hc
    cases heq
    exact getSignUpCondAckInfo_costid (Option.mem_toList.mp hd)

/-- Two robots answer an ack alike when it has a limit or their members agree. -/
theorem signUps_eq_iff {l l' : Link} (h : l.Asked) (h' : l'.Asked) (o o' : Outside)
    {ack : SignUpConditionAck} (hr : ack.result = 0) :
    l.signUps o ack = l'.signUps o' ack ↔
      ack.limit.isSome = true ∨ l.task.costId = l'.task.costId := by
  rw [signUps_eq h o hr, signUps_eq h' o' hr]
  cases ack.limit with
  | none =>
    show [Request.signUp l.task.costId] = [Request.signUp l'.task.costId] ↔ _
    rw [List.singleton_inj, Request.signUp.injEq]
    exact ⟨Or.inr, fun h => h.resolve_left Bool.false_ne_true⟩
  | some enable => exact ⟨fun _ => Or.inl rfl, fun _ => rfl⟩

/-- Over a history the robot answers every ack with the ack alone exactly when
`costId_` is 0 wherever an ack has no limit. After any two histories two robots
answer the same ack alike exactly when it has a limit or they have picked the
same id last. -/
theorem signUps_iff (l l' : Link) (es es' : List PooledEvent) :
    (Along pooledStep AnswersAck l es ↔ Along pooledStep FreeOfCost l es) ∧
      ∀ (o o' : Outside) (ack : SignUpConditionAck), (run pooledStep l es).Asked →
        (run pooledStep l' es').Asked → ack.result = 0 →
          ((run pooledStep l es).signUps o ack = (run pooledStep l' es').signUps o' ack ↔
            ack.limit.isSome = true ∨ l.lastPicked es = l'.lastPicked es') := by
  constructor
  · exact along_congr (W := fun _ => True) (fun _ => True) (fun s e _ _ => answersAck_iff s e)
      (fun _ _ _ _ => trivial) (fun _ _ => trivial) trivial
  · intro o o' ack h h' hr
    rw [signUps_eq_iff h h' o o' hr, costId_run, costId_run]

/-- A robot as it comes to the pool, its member at 0. -/
def fromPool : Link where
  task :=
    { robotId := 7, isMatch := true, delaySendActiveMsgTime := 5, delaySendPassiveMsgTime := 4
      costId := 0 }

/-- What follows a new connection, up to the query for the conditions. -/
def entering (o : Outside) : List PooledEvent :=
  [.addRobot false, .onLink (.receive o (.verifyAck (some (0, false)))),
    .onLink (.receive o (.initGameAck (some 0)))]

/-- An ack with a limit and a cost entry of id 7. -/
def costAck : SignUpConditionAck :=
  { result := 0, limit := some true, costList := [{ id := 7, enable := true, signed := false }] }

/-- An ack without a limit. -/
def freeAck : SignUpConditionAck := { result := 0, limit := none, costList := [] }

/-- What meets no undefined read. -/
def calm : Outside := ⟨Undef.zero, 0⟩

/-- One connection with a cost entry and the start of the next. -/
def secondQuery : List PooledEvent :=
  entering calm ++ [.onLink (.receive calm (.signUpConditionAck (some costAck)))] ++ entering calm

/-- The robot signs up for 7 on one connection, and for 7 again on the
next, where it would be free. -/
theorem signUps_fails :
    ¬∀ (l : Link) (es : List PooledEvent), Along pooledStep AnswersAck l es := by
  intro h
  have hall := h fromPool
    (secondQuery ++ [.onLink (.receive calm (.signUpConditionAck (some freeAck)))])
  have hlast := (along_append.mp hall).2.1
  have hasked : (run pooledStep fromPool secondQuery).Asked :=
    ⟨by decide +kernel, by decide +kernel⟩
  have hfree := (answersAck_iff _ _).mp hlast calm freeAck ⟨rfl, hasked, rfl⟩ rfl
  rw [costId_run] at hfree
  exact absurd hfree (by decide +kernel)

end Link

end RobotDdz
