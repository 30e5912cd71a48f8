import RobotDdz.AI.Reset
import RobotDdz.AI.Turn
import RobotDdz.Task.Reconcile

/-!
# The handlers of a task robot

`RobotTask` answers what the server sends with one handler for each message id.
A handler looks at the status, parses the body, tells `OGLordRobotAI`, and may
leave a request in the `MsgNode`. `RobotProcess` closes the connection when a
handler fails; `AnalysisAndDecision` sends or delays the request, or closes the
connection when the handler asks for it.

A message is given with its body as parsed, `none` where the parsing fails.
User names are given as the numbers `atoi` reads from them. The log is left
out.

The outcome of a handler (`Outcome`) is the robot after it, what it returns and
the message node with the request, the delay and the flags that
`AnalysisAndDecision` reads. `Msg` has one constructor for each message that
has a handler, so `handle` is the map that `AddMessageProcessFunc` fills.

Mirroring notes vs `RobotTask.cpp` and `RobotBase.cpp`:
- Every handler keeps its own status test, in the source's place: some test
  before they parse and some after, some fail and some only log.
- The request of a handler goes into the node. It is sent at once when the
  delay is 0.
- What the world supplies during a call (`rand()`, memory that was never set)
  is an `Outside`.
-/

namespace RobotDdz

/-- `enum RobotStatus`. -/
inductive RobotStatus where
  | init | verified | initGame | waitSignUp | canSignUp | signUped | quickGame | gamming
  | exitting | keepPlay | other | header
deriving DecidableEq, Repr

/-- The requests a task robot sends, with what they carry of it. -/
inductive Request where
  | initGame | signUpCondition | quickStart | keepPlay | ready | trustCancel | heartbeat
  | signUp (costid : Int)
  | callScore (score : Int)
  | takeOut (cards : List Int)
deriving DecidableEq, Repr

/-- An entry of `costList` in `OrgRoomDdzSignUpConditionAck`. -/
structure Cost where
  id : Int
  enable : Bool
  signed : Bool

/-- `OrgRoomDdzSignUpConditionAck`; of `limit` its `enable`. -/
structure SignUpConditionAck where
  result : Int
  limit : Option Bool
  costList : List Cost

/-- `KeepPlayingAck`; of the players the user names and the cards. -/
structure KeepPlayingAck where
  result : Int
  playerinfo : List (Int × List Int)
  seatlord : Int
  basecards : List Int

/-- `UserCallScoreNtf`. -/
structure UserCallScoreNtf where
  seatno : Int
  seatnext : Int
  score : Int

/-- `TakeoutCardNtf`. -/
structure TakeoutCardNtf where
  seatno : Int
  seatnext : Int
  cards : List Int

/-- What the server sends, by message id. `unhandled` is an id without a
handler, such as a heartbeat, or a message without a body. -/
inductive Msg where
  | verifyAck (ack : Option (Int × Bool))
  | initGameAck (result : Option Int)
  | signUpConditionAck (ack : Option SignUpConditionAck)
  | signUpAck (result : Option Int)
  | quickStartAck (result : Option Int)
  | keepAck (ack : Option KeepPlayingAck)
  | switchScene (ntf : Option Unit)
  | startGame (userinfo : Option (List Int))
  | dealCard (ntf : Option (Int × List (List Int)))
  | callScore (ntf : Option UserCallScoreNtf)
  | setLord (seatlord : Option Int)
  | baseCard (basecards : Option (List Int))
  | takeOut (ntf : Option TakeoutCardNtf)
  | trust (seatno : Option Int)
  | gameOver (ntf : Option Unit)
  | gameResult
  | matchOver
  | readyAck (result : Option Int)
  | callScoreAck (result : Option Int)
  | takeOutAck (result : Option Int)
  | trustCancelAck (result : Option Int)
  | cancelSignUpAck (result : Option Int)
  | unhandled

/-- `class RobotTask`. `costId_` starts undefined. -/
structure RobotTask where
  robotId : Int
  isMatch : Bool
  delaySendActiveMsgTime : Int
  delaySendPassiveMsgTime : Int
  costId : Int
  myScore : Int := 0
  status : RobotStatus := .init
  needKeepPlay : Bool := false
  isTestNeedKeepPlay : Bool := false
  robot : AI := {}

/-- What a handler leaves in the `MsgNode`. A delay is `none` where it comes
out of a division by zero. -/
structure MsgNode where
  request : Option Request := none
  delaySecond : Option Int := some 0
  gameIsOver : Bool := false
  needKeepPlay : Bool := true
  needDelRobot : Bool := false

/-- The result of a handler. -/
structure Outcome where
  ok : Bool
  task : RobotTask
  node : MsgNode := {}

/-- What a call meets from outside: undefined reads and `rand()`. -/
structure Outside where
  undef : Undef
  rand : Int

/-- `rand() % d`. -/
def randBelow (rand d : Int) : Option Int := if d = 0 then none else some (rand.tmod d)

namespace RobotTask

/-- `RobotInit`. -/
def robotInit (t : RobotTask) : RobotTask :=
  { t with
    status := .init, myScore := 0, needKeepPlay := false, isTestNeedKeepPlay := false
    robot := t.robot.rbtResetData }

/-- A handler that fails. -/
def failed (t : RobotTask) : Outcome := { ok := false, task := t }

/-- A handler that succeeds with nothing to send. -/
def handled (t : RobotTask) : Outcome := { ok := true, task := t }

/-- A handler that succeeds with a request. -/
def send (t : RobotTask) (request : Request) (delaySecond : Option Int) : Outcome :=
  { ok := true, task := t, node := { request := some request, delaySecond } }

/-- The start that the handlers of the game share: outside a game they do
nothing and return `outside`, and they fail when the body does not parse. -/
def inGame {β : Type} (t : RobotTask) (outside : Bool) (body : Option β) (k : β → Outcome) :
    Outcome :=
  if t.status ≠ .gamming then { ok := outside, task := t }
  else match body with
    | none => t.failed
    | some b => k b

/-! ## Entering a game -/

/-- `NextActionProcess`. -/
def nextActionProcess (t : RobotTask) : Outcome :=
  if t.status = .keepPlay then send { t with needKeepPlay := false } .keepPlay (some 0)
  else if t.isMatch then t.send .signUpCondition (some 0)
  else t.send .quickStart (some 0)

/-- `RecvVerifyAck`; the flag of the ack is whether it has a `gameName`. -/
def recvVerifyAck (t : RobotTask) (ack : Option (Int × Bool)) : Outcome :=
  if t.status ≠ .init then t.failed
  else match ack with
    | none => t.failed
    | some (result, hasGameName) =>
      if result ≠ 0 then t.failed
      else if hasGameName then
        send { t with needKeepPlay := true, status := .verified } .initGame (some 0)
      else if t.isTestNeedKeepPlay then
        { ok := true, task := t, node := { needKeepPlay := false } }
      else send { t with status := .verified } .initGame (some 0)

/-- `RecvInitGameAck`. -/
def recvInitGameAck (t : RobotTask) (result : Option Int) : Outcome :=
  if t.status ≠ .verified then t.failed
  else match result with
    | none => t.failed
    | some result =>
      if result ≠ 0 then t.failed
      else nextActionProcess { t with status := if t.needKeepPlay then .keepPlay else .initGame }

/-- `RecvQuickBeginGameAck`. -/
def recvQuickBeginGameAck (t : RobotTask) (result : Option Int) : Outcome :=
  if t.status ≠ .initGame then
    if t.status = .gamming then t.handled else t.failed
  else match result with
    | none => t.failed
    | some result =>
      if result = 0 then handled { t with status := .quickGame }
      else if result = 506 then { ok := true, task := t, node := { needDelRobot := true } }
      else t.failed

/-- `RecvQuerySignUpCondAck`. -/
def recvQuerySignUpCondAck (t : RobotTask) (ack : Option SignUpConditionAck) : Outcome :=
  if t.status ≠ .initGame then t.failed
  else match ack with
    | none => t.failed
    | some ack =>
      if ack.result ≠ 0 then t.failed
      else match ack.limit with
        | none => send { t with status := .canSignUp } (.signUp t.costId) (some 0)
        | some false => t.failed
        | some true =>
          match ack.costList.find? (·.enable) with
          | none => t.failed
          | some cost =>
            if cost.signed then handled { t with costId := cost.id, status := .signUped }
            else
              send { t with costId := cost.id, status := .canSignUp } (.signUp cost.id) (some 0)

/-- `RecvSignUpAck`; 508 says that the robot has signed up already. -/
def recvSignUpAck (t : RobotTask) (result : Option Int) : Outcome :=
  if t.status ≠ .canSignUp then
    if t.status = .gamming then t.handled else t.failed
  else match result with
    | none => t.failed
    | some result =>
      if result ≠ 0 ∧ result ≠ 508 then t.failed else handled { t with status := .signUped }

/-- `RecvCancelSignUpAck`. -/
def recvCancelSignUpAck (t : RobotTask) (result : Option Int) : Outcome :=
  match result with
  | none => t.failed
  | some result => if result ≠ 0 then t.failed else t.handled

/-- `RecvKeepPlayAck`. -/
def recvKeepPlayAck (o : Outside) (t : RobotTask) (ack : Option KeepPlayingAck) : Outcome :=
  if t.status ≠ .keepPlay then t.failed
  else match ack with
    | none => t.failed
    | some ack =>
      if ack.result ≠ 0 then failed { t with status := .init }
      else match ack.playerinfo.findIdx? (·.1 = t.robotId) with
        | none => t.failed
        | some index =>
          let vecHandCards := ((ack.playerinfo[index]?).map Prod.snd).getD []
          let robot := { t.robot with aiSeat := index }.rbtResetData.rbtInSetSeat index ack.seatlord
          let robot := robot.rbtInSetCard o.undef vecHandCards ack.basecards
          send { t with robot, status := .gamming } .trustCancel (some 0)

/-- `RecvEnterGameSceneNotify`. -/
def recvEnterGameSceneNotify (t : RobotTask) (ntf : Option Unit) : Outcome :=
  match ntf with
  | none => t.failed
  | some () =>
    if t.status ∈ [.signUped, .quickGame, .gamming, .keepPlay, .initGame] then
      send { t with status := .gamming, robot := t.robot.rbtResetData } .ready (some 0)
    else t.failed

/-! ## The game -/

/-- `RecvGameStartNotify`. -/
def recvGameStartNotify (t : RobotTask) (userinfo : Option (List Int)) : Outcome :=
  t.inGame false userinfo fun userinfo =>
    match userinfo.findIdx? (· = t.robotId) with
    | some index => handled { t with robot := { t.robot with aiSeat := index } }
    | none => t.handled

/-- `SendCallScoreReq`, after a deal or another's bid. -/
def sendCallScoreReq (o : Outside) (t : RobotTask) (dealt : Bool) : Outcome :=
  t.send (.callScore t.myScore) <|
    if dealt then some t.delaySendActiveMsgTime
    else (randBelow o.rand (t.delaySendPassiveMsgTime - 1)).map (· + 1)

/-- `SendTakeOutCardReq`, after the bottom cards or a play. -/
def sendTakeOutCardReq (o : Outside) (t : RobotTask) (bottom : Bool) : Outcome :=
  let r := t.robot.rbtOutGetTakeOutCard o.undef
  let iDelayTime :=
    if bottom then some t.delaySendActiveMsgTime
    else if 0 < t.delaySendPassiveMsgTime then
      (randBelow o.rand t.delaySendPassiveMsgTime).map (· + 1)
    else some 0
  send { t with robot := r.1 } (.takeOut r.2) (iDelayTime.map (max · 0))

/-- `RecvInitHardCardNotify`, with a list of cards for each seat. -/
def recvInitHardCardNotify (o : Outside) (t : RobotTask) (ntf : Option (Int × List (List Int))) :
    Outcome :=
  t.inGame true ntf fun (headerseat, cards) =>
    let aiSeat := t.robot.aiSeat
    if aiSeat = -1 then t.failed
    else
      let robot := t.robot.rbtInInitCard o.undef aiSeat (cards.getD aiSeat.toNat [])
      if headerseat = aiSeat then
        sendCallScoreReq o { t with robot, myScore := robot.rbtOutGetCallScore } true
      else handled { t with robot }

/-- `RecvUserCallScoreNotify`. The robot does not bid what is no more than the
bid before, or, after a pass, than the highest. -/
def recvUserCallScoreNotify (o : Outside) (t : RobotTask) (ntf : Option UserCallScoreNtf) :
    Outcome :=
  t.inGame true ntf fun ntf =>
    if ntf.seatnext = -1 then t.handled
    else if ntf.seatnext ≠ t.robot.aiSeat then
      handled { t with robot := t.robot.rbtInCallScore ntf.seatno ntf.score }
    else
      let myScore := t.robot.rbtOutGetCallScore
      let outbid := myScore ≤ ntf.score ∨ ntf.score = 0 ∧ myScore ≤ t.robot.curScore
      sendCallScoreReq o { t with myScore := if outbid then 0 else myScore } false

/-- `RecvGetLordNotify`. -/
def recvGetLordNotify (t : RobotTask) (seatlord : Option Int) : Outcome :=
  t.inGame true seatlord fun seatlord =>
    handled { t with robot := { t.robot with lordSeat := seatlord } }

/-- `RecvGetBaseCardNotify`. -/
def recvGetBaseCardNotify (o : Outside) (t : RobotTask) (basecards : Option (List Int)) : Outcome :=
  t.inGame true basecards fun basecards =>
    let t := { t with robot := t.robot.rbtInSetLord t.robot.lordSeat basecards }
    if t.robot.lordSeat = t.robot.aiSeat then sendTakeOutCardReq o t true else t.handled

/-- `RecvGetTakeOutCardNotify`. -/
def recvTakeOutNotify (o : Outside) (t : RobotTask) (ntf : Option TakeoutCardNtf) : Outcome :=
  t.inGame true ntf fun ntf =>
    let aiSeat := t.robot.aiSeat
    let t := { t with robot := recvGetTakeOutCardNotify t.robot ntf.seatno ntf.cards }
    if ntf.seatnext = aiSeat then sendTakeOutCardReq o t false else t.handled

/-- `RecvGetTrustNotify`. -/
def recvTrustNotify (t : RobotTask) (seatno : Option Int) : Outcome :=
  t.inGame true seatno fun seatno =>
    let t' := { t with robot := recvGetTrustNotify t.robot seatno }
    if t.robot.aiSeat = seatno then t'.send .trustCancel (some 0) else t'.handled

/-- `RecvTakeOutCardAck`. -/
def recvTakeOutAck (t : RobotTask) (result : Option Int) : Outcome :=
  t.inGame false result fun result =>
    handled { t with robot := recvTakeOutCardAck t.robot result }

/-- `RecvReadyForGameAck`, which only logs. -/
def recvReadyForGameAck (t : RobotTask) (result : Option Int) : Outcome :=
  t.inGame true result fun _ => t.handled

/-- `RecvCallScoreAck`, which only logs. -/
def recvCallScoreAck (t : RobotTask) (result : Option Int) : Outcome :=
  t.inGame false result fun _ => t.handled

/-- `RecvTrustCancelAck`, which only logs. -/
def recvTrustCancelAck (t : RobotTask) (result : Option Int) : Outcome :=
  t.inGame false result fun _ => t.handled

/-- The end of the game: the robot is reset and the connection is to be closed. -/
def finished (t : RobotTask) : Outcome :=
  { ok := true
    task := { t with robot := t.robot.rbtResetData, status := .init }
    node := { gameIsOver := true } }

/-- `RecvGetGameOverNotify`; a body that does not parse is no error. -/
def recvGetGameOverNotify (t : RobotTask) (ntf : Option Unit) : Outcome :=
  match ntf with
  | none => t.handled
  | some () => t.finished

/-- `RecvGetGameResultNotify`: in a match the next game follows. -/
def recvGetGameResultNotify (t : RobotTask) : Outcome :=
  if t.isMatch then handled { t with robot := t.robot.rbtResetData, status := .gamming }
  else t.finished

/-- `RecvGetCompetitionOverNotify`. -/
def recvGetCompetitionOverNotify (t : RobotTask) : Outcome := t.finished

/-- `mapActionCallback_`; `none` where there is no handler. -/
def handle (o : Outside) (t : RobotTask) : Msg → Option Outcome
  | .verifyAck ack => some (t.recvVerifyAck ack)
  | .initGameAck result => some (t.recvInitGameAck result)
  | .signUpConditionAck ack => some (t.recvQuerySignUpCondAck ack)
  | .signUpAck result => some (t.recvSignUpAck result)
  | .quickStartAck result => some (t.recvQuickBeginGameAck result)
  | .keepAck ack => some (t.recvKeepPlayAck o ack)
  | .switchScene ntf => some (t.recvEnterGameSceneNotify ntf)
  | .startGame userinfo => some (t.recvGameStartNotify userinfo)
  | .dealCard ntf => some (t.recvInitHardCardNotify o ntf)
  | .callScore ntf => some (t.recvUserCallScoreNotify o ntf)
  | .setLord seatlord => some (t.recvGetLordNotify seatlord)
  | .baseCard basecards => some (t.recvGetBaseCardNotify o basecards)
  | .takeOut ntf => some (t.recvTakeOutNotify o ntf)
  | .trust seatno => some (t.recvTrustNotify seatno)
  | .gameOver ntf => some (t.recvGetGameOverNotify ntf)
  | .gameResult => some t.recvGetGameResultNotify
  | .matchOver => some t.recvGetCompetitionOverNotify
  | .readyAck result => some (t.recvReadyForGameAck result)
  | .callScoreAck result => some (t.recvCallScoreAck result)
  | .takeOutAck result => some (t.recvTakeOutAck result)
  | .trustCancelAck result => some (t.recvTrustCancelAck result)
  | .cancelSignUpAck result => some (t.recvCancelSignUpAck result)
  | .unhandled => none

end RobotTask

/-- What `RobotProcess` returns; `done` is the `true` it returns as an `int`. -/
inductive ReturnStatus where
  | fail | done | closeConnection
deriving DecidableEq, Repr

/-- A task robot and its connection: what was sent, what is to be sent later,
whether the connection has been closed, and whether the robot was dropped with
it. -/
structure Link where
  task : RobotTask
  sent : List Request := []
  delayed : List (Request × Option Int) := []
  closed : Bool := false
  deleted : Bool := false

namespace Link

/-- `AnalysisAndDecision`. -/
def analysisAndDecision (l : Link) (node : MsgNode) : Link :=
  if !node.needKeepPlay then { l with closed := true }
  else if node.needDelRobot then { l with closed := true, deleted := true }
  else match node.request with
    | some request =>
      if node.delaySecond ≠ some 0 then
        { l with delayed := l.delayed ++ [(request, node.delaySecond)] }
      else if l.closed then l
      else { l with sent := l.sent ++ [request] }
    | none => if node.gameIsOver then { l with closed := true } else l

/-- `RobotProcess`. -/
def robotProcess (o : Outside) (l : Link) (msg : Msg) : Link × ReturnStatus :=
  match l.task.handle o msg with
  | none => (l, .fail)
  | some r =>
    if !r.ok then
      ({ l with task := { r.task with status := .init }, closed := true }, .closeConnection)
    else
      ({ l with task := r.task }.analysisAndDecision r.node,
        if r.node.gameIsOver || r.node.needDelRobot then .closeConnection else .done)

end Link

/-- What happens on a connection: a message with what its handling meets, or
the timer that sends a heartbeat. -/
inductive LinkEvent where
  | receive (o : Outside) (msg : Msg)
  | heartBeatTime

namespace Link

/-- One event. A closed connection delivers nothing more, and heartbeats go
to open ones. -/
def step (l : Link) (e : LinkEvent) : Link :=
  if l.closed then l
  else match e with
    | .receive o msg => (l.robotProcess o msg).1
    | .heartBeatTime => { l with sent := l.sent ++ [.heartbeat] }

variable {l : Link} {o : Outside} {msg : Msg}

/-- A message whose handler fails closes the connection. -/
theorem step_failed (hc : l.closed = false) {r : Outcome} (hr : l.task.handle o msg = some r)
    (hok : r.ok = false) : l.step (.receive o msg)
      = { l with task := { r.task with status := .init }, closed := true } := by
  unfold step robotProcess
  rw [if_neg (by rw [hc]; exact Bool.false_ne_true)]
  simp only [hr, hok]
  rfl

/-- A message that is handled without an answer. -/
theorem step_handled (hc : l.closed = false) {t : RobotTask}
    (hr : l.task.handle o msg = some t.handled) :
    l.step (.receive o msg) = { l with task := t } := by
  unfold step robotProcess
  rw [if_neg (by rw [hc]; exact Bool.false_ne_true)]
  simp only [hr]
  rfl

/-- A message that is answered at once. -/
theorem step_send (hc : l.closed = false) {t : RobotTask} {request : Request}
    (hr : l.task.handle o msg = some (t.send request (some 0))) :
    l.step (.receive o msg) = { l with task := t, sent := l.sent ++ [request] } := by
  unfold step robotProcess
  rw [if_neg (by rw [hc]; exact Bool.false_ne_true)]
  simp only [hr]
  show (if l.closed = true then _ else _) = _
  rw [if_neg (by rw [hc]; exact Bool.false_ne_true)]
  rfl

/-- A closed connection stays as it is. -/
theorem step_closed (hc : l.closed = true) (e : LinkEvent) : l.step e = l := if_pos hc

end Link

end RobotDdz
