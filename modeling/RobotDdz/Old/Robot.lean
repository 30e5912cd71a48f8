import RobotDdz.Task.Stages

/-!
# The robot of the old client

The old client has one class of robots and one `operation` for each message id.
An operation changes the robot and says whether something is to be sent;
`SendMsg` picks by the message id what that is. Nothing closes a connection
when an operation fails, and the robot stays connected between two games, in
`WAITSIGNUP`.

In a game the new client was to behave as before. `game_same_iff`: as long as
the new client keeps its connection, the two robots hold the same cards and
have asked for the same things throughout, exactly when no late `SIGN_UP_ACK`
or `QUICK_START_ACK` comes in, which takes the old robot out of its game.

`RbtOutGetTakeOutCard` is a parameter of the old robot: the sources of
`OGLordRobotAI` are the same but for one test the old one lacks, before
`soloHands.back()` in `farmerTakeOutLordOnly1Card`. The log is left out.

`Goes` is the domain of that result: the new client keeps its connection, the
body of a game's result parses, which the old client looks at and the new one
does not, and where a message makes the robots play, the old decision and the
new one are the same.

Mirroring notes vs the `Get*Info` operations of `AbstractProduct.cpp`:
- `SendMsg` is only called where an operation returns true; `quiet` and `reply`
  are the two ways to return.
- `GetKeepPlayInfo` goes on with a body that does not parse, with the defaults
  of the message; so does one other operation. Their messages carry the body as
  it then is.
- `GetEnterGameSceneInfo` looks at no status: a robot is taken into a game from
  anywhere.
- The ids without a product in `SimpleFactory` are one message here,
  `unhandled`.
-/

namespace RobotDdz.Old

open Runs

/-- `OrgRoomDdzSignUpConditionAck`, with the times. -/
structure SignUpCondition extends SignUpConditionAck where
  startTime : Int
  startSignUpTime : Int
  endSignUpTime : Int

/-- `OrgRoomDdzRoomStatAck`; of the rooms the first. -/
structure RoomStat where
  result : Int
  roomId : Int
  userCount : Int

/-- What the server sends, with its body as parsed. Two operations go on when
the body does not parse, with what the message then holds. -/
inductive Msg where
  | verifyAck (ack : Option (Int × Bool))
  | initGameAck (result : Option Int)
  | signUpConditionAck (ack : Option SignUpCondition)
  | signUpAck (result : Option Int)
  | roomStatAck (ack : Option RoomStat)
  | quickStartAck (result : Option Int)
  | keepAck (parses : Bool) (ack : KeepPlayingAck)
  | switchScene (ntf : Option Unit)
  | startGame (userinfo : Option (List Int))
  | dealCard (ntf : Option (Int × List (List Int)))
  | callScore (ntf : Option UserCallScoreNtf)
  | setLord (seatlord : Option Int)
  | baseCard (basecards : Option (List Int))
  | takeOut (ntf : Option TakeoutCardNtf)
  | trust (seatno : Option Int)
  | gameOver (ntf : Option Unit)
  | gameResult (ntf : Option Unit)
  | matchOver
  | readyAck (result : Option Int)
  | callScoreAck (result : Option Int)
  | takeOutAck (result : Option Int)
  | trustCancelAck (result : Option Int)
  | cancelSignUpAck (parses : Bool) (result : Int)
  | unhandled

/-- What the operations read from `CConfAccess`. `share need percentage` is
`int(need * (percentage / 100.00) + 0.5)`. -/
structure Conf where
  matchId : Int
  isMatch : Bool
  isTimeTrial : Bool
  minPlayerNum : Int
  maxPlayerNum : Int
  percentage : Int
  leftTimeForTimeTrial : Int
  share : Int → Int → Int

/-- What `SendMsg` does with the string an operation returns. -/
inductive Reply where
  | gameInit
  | send (request : Request)
  | sendQueryRoomStatusReq
  | changeStatusForRobot (robotNum : Int)
  | disConnect
deriving DecidableEq, Repr

/-- `class Robot`. -/
structure Robot where
  robotId : Int
  status : RobotStatus := .init
  needKeepPlay : Bool := false
  robot : AI := {}

/-- What a call meets from outside: undefined reads and the time. -/
structure Outside where
  undef : Undef
  now : Int

namespace Robot

/-- An operation that returns false. -/
def quiet (r : Robot) : Robot × Option Reply := (r, none)

/-- An operation that returns true. -/
def reply (r : Robot) (reply : Reply) : Robot × Option Reply := (r, some reply)

/-- Back to `WAITSIGNUP`. -/
def waits (r : Robot) : Robot := { r with status := .waitSignUp }

/-- The start that the operations of the game share. -/
def inGame {β : Type} (r : Robot) (body : Option β) (k : β → Robot × Option Reply) :
    Robot × Option Reply :=
  if r.status ≠ .gamming then r.quiet
  else match body with
    | none => r.quiet
    | some b => k b

/-! ## Before a game -/

/-- `GetVerifyAckInfo`; the flag of the ack is whether it has a `gameName`. -/
def getVerifyAckInfo (r : Robot) (ack : Option (Int × Bool)) : Robot × Option Reply :=
  if r.status ≠ .init then r.quiet
  else match ack with
    | none => r.quiet
    | some (result, hasGameName) =>
      if result = 0 then
        reply { r with
          needKeepPlay := if hasGameName then true else r.needKeepPlay, status := .verified }
          .gameInit
      else r.quiet

/-- `GetInitGameAckInfo`. The request to go on with a game is commented out. -/
def getInitGameAckInfo (r : Robot) (result : Option Int) : Robot × Option Reply :=
  if r.status ≠ .verified then r.quiet
  else match result with
    | none => r.quiet
    | some result =>
      if result = 0 then
        if r.needKeepPlay then quiet { r with needKeepPlay := false, status := .keepPlay }
        else r.waits.quiet
      else r.quiet

/-- `GetSignUpCondAckInfo`, for a robot that is to sign up and for the header
robot, which asks for the status of the room when the time has come. -/
def getSignUpCondAckInfo (conf : Conf) (o : Outside) (r : Robot) (ack : Option SignUpCondition) :
    Robot × Option Reply :=
  let back := if r.status ≠ .header then r.waits else r
  let canSignUp (startTime startSignUpTime endSignUpTime costId : Int) : Robot × Option Reply :=
    if r.status ≠ .header then reply { r with status := .canSignUp } (.send (.signUp costId))
    else if startSignUpTime ≤ o.now ∧ o.now < endSignUpTime then
      if conf.leftTimeForTimeTrial < startTime - o.now then r.quiet
      else r.reply .sendQueryRoomStatusReq
    else r.quiet
  if r.status ≠ .initGame ∧ r.status ≠ .header then back.quiet
  else match ack with
    | none => back.quiet
    | some ack =>
      if ack.result ≠ 0 then back.quiet
      else match ack.limit with
        | none => canSignUp ack.startTime ack.startSignUpTime ack.endSignUpTime 0
        | some false => back.quiet
        | some true =>
          match ack.costList.find? (·.enable) with
          | none => back.quiet
          | some cost =>
            if cost.signed ∧ r.status ≠ .header then quiet { r with status := .signUped }
            else canSignUp ack.startTime ack.startSignUpTime ack.endSignUpTime cost.id

/-- `GetSignUpAckInfo`; 508 says that the robot has signed up already, 514 that
it is in a game. -/
def getSignUpAckInfo (r : Robot) (result : Option Int) : Robot × Option Reply :=
  if r.status ≠ .canSignUp then r.waits.quiet
  else match result with
    | none => r.waits.quiet
    | some result =>
      if result ≠ 0 ∧ result ≠ 508 then
        if result = 514 then quiet { r with status := .keepPlay } else r.waits.quiet
      else quiet { r with status := .signUped }

/-- `GetRoomStateAckInfo`. -/
def getRoomStateAckInfo (conf : Conf) (r : Robot) (ack : Option RoomStat) : Robot × Option Reply :=
  match ack with
  | none => r.quiet
  | some ack =>
    if ack.result ≠ 0 then r.quiet
    else if ack.roomId ≠ conf.matchId then r.quiet
    else if ack.userCount < conf.minPlayerNum then r.quiet
    else if conf.isTimeTrial then
      if conf.maxPlayerNum ≤ ack.userCount then r.quiet
      else r.reply (.changeStatusForRobot (conf.maxPlayerNum - ack.userCount))
    else if conf.isMatch then
      let need := conf.maxPlayerNum - ack.userCount
      let needRobotNum := conf.share need conf.percentage
      let needRobotNum := if need = 1 ∧ needRobotNum = 0 then 1 else needRobotNum
      if 0 < needRobotNum then r.reply (.changeStatusForRobot needRobotNum) else r.quiet
    else if conf.minPlayerNum = 0 then r.reply (.changeStatusForRobot 3)
    else match ack.userCount.tmod 3 with
      | 1 => r.reply (.changeStatusForRobot 2)
      | 2 => r.reply (.changeStatusForRobot 1)
      | _ => r.quiet

/-- `GetQuickGameAckInfo`; at 506 the robot has no coins left. -/
def getQuickGameAckInfo (r : Robot) (result : Option Int) : Robot × Option Reply :=
  match result with
  | none => r.quiet
  | some result =>
    if result ≠ 0 then
      if result = 506 then reply { r with status := .other } .disConnect else r.waits.quiet
    else quiet { r with status := .quickGame }

/-- `GetKeepPlayInfo`. A body that does not parse is used as it is. -/
def getKeepPlayInfo (o : Outside) (r : Robot) (ack : KeepPlayingAck) : Robot × Option Reply :=
  if r.status ≠ .keepPlay then r.quiet
  else
    let r := { r with needKeepPlay := false }
    if ack.result ≠ 0 then r.waits.quiet
    else match ack.playerinfo.findIdx? (·.1 = r.robotId) with
      | none => r.quiet
      | some index =>
        let vecHandCards := ((ack.playerinfo[index]?).map Prod.snd).getD []
        let robot := { r.robot with aiSeat := index }.rbtResetData.rbtInSetSeat index ack.seatlord
        let robot := robot.rbtInSetCard o.undef vecHandCards ack.basecards
        reply { r with robot, status := .gamming } (.send .trustCancel)

/-- `GetEnterGameSceneInfo`, in any status. -/
def getEnterGameSceneInfo (r : Robot) (ntf : Option Unit) : Robot × Option Reply :=
  match ntf with
  | none => r.quiet
  | some () => reply { r with status := .gamming, robot := r.robot.rbtResetData } (.send .ready)

/-! ## The game -/

/-- `GetGameStartInfo`. -/
def getGameStartInfo (r : Robot) (userinfo : Option (List Int)) : Robot × Option Reply :=
  r.inGame userinfo fun userinfo =>
    match userinfo.findIdx? (· = r.robotId) with
    | some index => quiet { r with robot := { r.robot with aiSeat := index } }
    | none => r.quiet

/-- `InitHardCard`, with a list of cards for each seat. -/
def initHardCard (o : Outside) (r : Robot) (ntf : Option (Int × List (List Int))) :
    Robot × Option Reply :=
  r.inGame ntf fun (headerseat, cards) =>
    let aiSeat := r.robot.aiSeat
    if aiSeat = -1 then r.quiet
    else
      let robot := r.robot.rbtInInitCard o.undef aiSeat (cards.getD aiSeat.toNat [])
      if headerseat = aiSeat then
        reply { r with robot } (.send (.callScore robot.rbtOutGetCallScore))
      else quiet { r with robot }

/-- `GetCallScoreInfo`. -/
def getCallScoreInfo (r : Robot) (ntf : Option UserCallScoreNtf) : Robot × Option Reply :=
  r.inGame ntf fun ntf =>
    if ntf.seatnext = -1 then r.quiet
    else if ntf.seatnext ≠ r.robot.aiSeat then
      quiet { r with robot := r.robot.rbtInCallScore ntf.seatno ntf.score }
    else
      let myScore := r.robot.rbtOutGetCallScore
      if myScore ≤ ntf.score then r.reply (.send (.callScore 0))
      else if ntf.score = 0 ∧ myScore ≤ r.robot.curScore then r.reply (.send (.callScore 0))
      else r.reply (.send (.callScore myScore))

/-- `GetLordInfo`. -/
def getLordInfo (r : Robot) (seatlord : Option Int) : Robot × Option Reply :=
  r.inGame seatlord fun seatlord => quiet { r with robot := { r.robot with lordSeat := seatlord } }

section TakeOut

variable (rbtOutGetTakeOutCard : Undef → AI → AI × List Int)

/-- The request for a play. -/
def takeOutCardReq (o : Outside) (r : Robot) : Robot × Option Reply :=
  let taken := rbtOutGetTakeOutCard o.undef r.robot
  reply { r with robot := taken.1 } (.send (.takeOut taken.2))

/-- `GetBaseCardInfo`. -/
def getBaseCardInfo (o : Outside) (r : Robot) (basecards : Option (List Int)) :
    Robot × Option Reply :=
  r.inGame basecards fun basecards =>
    let r := { r with robot := r.robot.rbtInSetLord r.robot.lordSeat basecards }
    if r.robot.lordSeat = r.robot.aiSeat then r.takeOutCardReq rbtOutGetTakeOutCard o else r.quiet

/-- `GetTakeOutCardInfo`. -/
def getTakeOutCardInfo (o : Outside) (r : Robot) (ntf : Option TakeoutCardNtf) :
    Robot × Option Reply :=
  r.inGame ntf fun ntf =>
    let aiSeat := r.robot.aiSeat
    let robot := r.robot.rbtInTakeOutCard ntf.seatno ntf.cards
    let robot := if ntf.seatno = aiSeat then
        if !robot.isLastTakeOutCards ntf.cards then robot.removeExtraCards ntf.cards else robot
      else robot
    if ntf.seatnext = aiSeat then
      takeOutCardReq rbtOutGetTakeOutCard o { r with robot }
    else quiet { r with robot }

end TakeOut

/-- `GetTrustInfo`. -/
def getTrustInfo (r : Robot) (seatno : Option Int) : Robot × Option Reply :=
  r.inGame seatno fun seatno =>
    if r.robot.aiSeat = seatno then
      reply { r with robot := r.robot.recoveryHandCards } (.send .trustCancel)
    else r.quiet

/-- `GetGameOverInfo`. -/
def getGameOverInfo (r : Robot) (ntf : Option Unit) : Robot × Option Reply :=
  match ntf with
  | none => r.quiet
  | some () => quiet { r with robot := r.robot.rbtResetData, status := .waitSignUp }

/-- `GetGameResultInfo`. -/
def getGameResultInfo (conf : Conf) (r : Robot) (ntf : Option Unit) : Robot × Option Reply :=
  match ntf with
  | none => r.quiet
  | some () =>
    let r := { r with robot := r.robot.rbtResetData }
    if !conf.isMatch then r.waits.quiet else r.quiet

/-- `GetCompetitionOverInfo`; the body is not parsed. -/
def getCompetitionOverInfo (r : Robot) : Robot × Option Reply :=
  quiet { r with robot := r.robot.rbtResetData, status := .waitSignUp }

/-- `GetTakeOutCardResultInfo`. -/
def getTakeOutCardResultInfo (r : Robot) (result : Option Int) : Robot × Option Reply :=
  r.inGame result fun result =>
    if result ≠ 0 then quiet { r with robot := r.robot.recoveryHandCards } else r.quiet

/-- `GetReadyResultInfo`, `GetCallScoreResultInfo` and `GetTrustResultInfo`,
which only log. -/
def getResultInfo (r : Robot) (result : Option Int) : Robot × Option Reply :=
  r.inGame result fun _ => r.quiet

/-- `RobotProcess`, with the operation that `SimpleFactory` creates for the
message, and what `SendMsg` then does. `GetCancleSignUpResultInfo` only logs. -/
def robotProcess (rbtOutGetTakeOutCard : Undef → AI → AI × List Int) (conf : Conf) (o : Outside)
    (r : Robot) : Msg → Robot × Option Reply
  | .verifyAck ack => r.getVerifyAckInfo ack
  | .initGameAck result => r.getInitGameAckInfo result
  | .signUpConditionAck ack => r.getSignUpCondAckInfo conf o ack
  | .signUpAck result => r.getSignUpAckInfo result
  | .roomStatAck ack => r.getRoomStateAckInfo conf ack
  | .quickStartAck result => r.getQuickGameAckInfo result
  | .keepAck _ ack => r.getKeepPlayInfo o ack
  | .switchScene ntf => r.getEnterGameSceneInfo ntf
  | .startGame userinfo => r.getGameStartInfo userinfo
  | .dealCard ntf => r.initHardCard o ntf
  | .callScore ntf => r.getCallScoreInfo ntf
  | .setLord seatlord => r.getLordInfo seatlord
  | .baseCard basecards => r.getBaseCardInfo rbtOutGetTakeOutCard o basecards
  | .takeOut ntf => r.getTakeOutCardInfo rbtOutGetTakeOutCard o ntf
  | .trust seatno => r.getTrustInfo seatno
  | .gameOver ntf => r.getGameOverInfo ntf
  | .gameResult ntf => r.getGameResultInfo conf ntf
  | .matchOver => r.getCompetitionOverInfo
  | .readyAck result | .callScoreAck result | .trustCancelAck result => r.getResultInfo result
  | .takeOutAck result => r.getTakeOutCardResultInfo result
  | .cancelSignUpAck _ _ => r.quiet
  | .unhandled => r.quiet

/-! ## What an operation can do -/

/-- No operation changes the number of a robot or makes it the header robot,
and none asks for robots without a number. -/
structure Moves (r : Robot) (p : Robot × Option Reply) : Prop where
  robotId : p.1.robotId = r.robotId
  header : p.1.status = .header → r.status = .header
  pos : ∀ n, p.2 = some (.changeStatusForRobot n) → 0 < n

section Moves

variable {r r' : Robot}

/-- An operation that returns false. -/
theorem Moves.stays (r : Robot) : Moves r r.quiet := ⟨rfl, id, fun _ hn => nomatch hn⟩

/-- Back to waiting is no way into the header robot's status. -/
theorem Moves.waits (r : Robot) : Moves r r.waits.quiet :=
  ⟨rfl, fun h => RobotStatus.noConfusion h, fun _ hn => nomatch hn⟩

/-- The common start of the operations of a game. -/
theorem inGame_moves {β : Type} {body : Option β} {k : β → Robot × Option Reply}
    (hk : ∀ b, Moves r (k b)) : Moves r (r.inGame body k) := by
  unfold inGame
  split
  · exact .stays r
  · cases body with
    | none => exact .stays r
    | some b => exact hk b

/-- After the verification the robot asks for the game to be set up. -/
theorem getVerifyAckInfo_moves (ack : Option (Int × Bool)) : Moves r (r.getVerifyAckInfo ack) := by
  unfold getVerifyAckInfo
  split
  · exact .stays r
  rcases ack with _ | ⟨result, hasGameName⟩
  · exact .stays r
  · dsimp only
    split
    · exact ⟨rfl, fun h => RobotStatus.noConfusion h, fun _ hn => nomatch hn⟩
    · exact .stays r

theorem getInitGameAckInfo_moves (result : Option Int) : Moves r (r.getInitGameAckInfo result) := by
  unfold getInitGameAckInfo
  split
  · exact .stays r
  rcases result with _ | result
  · exact .stays r
  · dsimp only
    split
    · split
      · exact ⟨rfl, fun h => RobotStatus.noConfusion h, fun _ hn => nomatch hn⟩
      · exact .waits r
    · exact .stays r

/-- The answer to both kinds of question, for a robot that signs up and for the
header robot. -/
theorem getSignUpCondAckInfo_moves (conf : Conf) (o : Outside) (ack : Option SignUpCondition) :
    Moves r (r.getSignUpCondAckInfo conf o ack) := by
  have hback : Moves r (if r.status ≠ .header then r.waits else r).quiet := by
    split
    · exact .waits r
    · exact .stays r
  have hsign : ∀ startTime startSignUpTime endSignUpTime costId : Int, Moves r
      (if r.status ≠ .header then
        Robot.reply { r with status := .canSignUp } (.send (.signUp costId))
      else if startSignUpTime ≤ o.now ∧ o.now < endSignUpTime then
        if conf.leftTimeForTimeTrial < startTime - o.now then r.quiet
        else r.reply .sendQueryRoomStatusReq
      else r.quiet) := by
    intro startTime startSignUpTime endSignUpTime costId
    split_ifs
    · exact ⟨rfl, fun h => RobotStatus.noConfusion h, fun _ hn => nomatch hn⟩
    · exact .stays r
    · exact ⟨rfl, id, fun _ hn => nomatch hn⟩
    · exact .stays r
  unfold getSignUpCondAckInfo
  dsimp only
  split
  · exact hback
  rcases ack with _ | ack
  · exact hback
  dsimp only
  split
  · exact hback
  rcases ack.limit with _ | _ | _
  · exact hsign ..
  · exact hback
  dsimp only
  split
  · exact hback
  · split
    · exact ⟨rfl, fun h => RobotStatus.noConfusion h, fun _ hn => nomatch hn⟩
    · exact hsign ..

theorem getSignUpAckInfo_moves (result : Option Int) : Moves r (r.getSignUpAckInfo result) := by
  unfold getSignUpAckInfo
  split
  · exact .waits r
  rcases result with _ | result
  · exact .waits r
  · dsimp only
    split_ifs
    · exact ⟨rfl, fun h => RobotStatus.noConfusion h, fun _ hn => nomatch hn⟩
    · exact .waits r
    · exact ⟨rfl, fun h => RobotStatus.noConfusion h, fun _ hn => nomatch hn⟩

/-- The one operation that asks for robots. It asks for a number of them that
is greater than zero, or for none. -/
theorem getRoomStateAckInfo_moves (conf : Conf) (ack : Option RoomStat) :
    Moves r (r.getRoomStateAckInfo conf ack) := by
  have hnum : ∀ {n : Int}, 0 < n → Moves r (r.reply (.changeStatusForRobot n)) :=
    fun hn => ⟨rfl, id, fun _ he => Reply.changeStatusForRobot.inj (Option.some.inj he) ▸ hn⟩
  unfold getRoomStateAckInfo
  rcases ack with _ | ack
  · exact .stays r
  dsimp only
  split_ifs with hresult hroom hmin htime hfull hmatch hnone hneed
  · exact .stays r
  · exact .stays r
  · exact .stays r
  · exact .stays r
  · exact hnum (by omega)
  all_goals first | exact .stays r | exact hnum (by assumption) | exact hnum (by decide) | skip
  split
  · exact hnum (by decide)
  · exact hnum (by decide)
  · exact .stays r

theorem getQuickGameAckInfo_moves (result : Option Int) :
    Moves r (r.getQuickGameAckInfo result) := by
  unfold getQuickGameAckInfo
  rcases result with _ | result
  · exact .stays r
  · dsimp only
    split_ifs
    · exact ⟨rfl, fun h => RobotStatus.noConfusion h, fun _ hn => nomatch hn⟩
    · exact .waits r
    · exact ⟨rfl, fun h => RobotStatus.noConfusion h, fun _ hn => nomatch hn⟩

/-- The robot takes its place in a game again. -/
theorem getKeepPlayInfo_moves (o : Outside) (ack : KeepPlayingAck) :
    Moves r (r.getKeepPlayInfo o ack) := by
  unfold getKeepPlayInfo
  split
  · exact .stays r
  dsimp only
  split
  · exact ⟨rfl, fun h => RobotStatus.noConfusion h, fun _ hn => nomatch hn⟩
  split
  · exact ⟨rfl, id, fun _ hn => nomatch hn⟩
  · exact ⟨rfl, fun h => RobotStatus.noConfusion h, fun _ hn => nomatch hn⟩

/-- No message makes a robot the header robot, renumbers it, or asks for robots
without a number. -/
theorem robotProcess_moves (rbtOutGetTakeOutCard : Undef → AI → AI × List Int) (conf : Conf)
    (o : Outside) (msg : Msg) : Moves r (r.robotProcess rbtOutGetTakeOutCard conf o msg) := by
  cases msg with
  | verifyAck ack => exact getVerifyAckInfo_moves ack
  | initGameAck result => exact getInitGameAckInfo_moves result
  | signUpConditionAck ack => exact getSignUpCondAckInfo_moves conf o ack
  | signUpAck result => exact getSignUpAckInfo_moves result
  | roomStatAck ack => exact getRoomStateAckInfo_moves conf ack
  | quickStartAck result => exact getQuickGameAckInfo_moves result
  | keepAck parses ack => exact getKeepPlayInfo_moves o ack
  | switchScene ntf =>
    rcases ntf with _ | ⟨⟩
    · exact .stays r
    · exact ⟨rfl, fun h => RobotStatus.noConfusion h, fun _ hn => nomatch hn⟩
  | startGame userinfo =>
    refine inGame_moves fun userinfo => ?_
    split
    · exact ⟨rfl, id, fun _ hn => nomatch hn⟩
    · exact .stays r
  | dealCard ntf =>
    refine inGame_moves fun (headerseat, cards) => ?_
    dsimp only
    split_ifs
    · exact .stays r
    · exact ⟨rfl, id, fun _ hn => nomatch hn⟩
    · exact ⟨rfl, id, fun _ hn => nomatch hn⟩
  | callScore ntf =>
    refine inGame_moves fun ntf => ?_
    dsimp only
    split_ifs
    · exact .stays r
    · exact ⟨rfl, id, fun _ hn => nomatch hn⟩
    · exact ⟨rfl, id, fun _ hn => nomatch hn⟩
    · exact ⟨rfl, id, fun _ hn => nomatch hn⟩
    · exact ⟨rfl, id, fun _ hn => nomatch hn⟩
  | setLord seatlord => exact inGame_moves fun _ => ⟨rfl, id, fun _ hn => nomatch hn⟩
  | baseCard basecards =>
    refine inGame_moves fun basecards => ?_
    dsimp only
    split_ifs
    · exact ⟨rfl, id, fun _ hn => nomatch hn⟩
    · exact ⟨rfl, id, fun _ hn => nomatch hn⟩
  | takeOut ntf =>
    refine inGame_moves fun ntf => ?_
    dsimp only
    by_cases hnext : ntf.seatnext = r.robot.aiSeat
    · rw [if_pos hnext]
      exact ⟨rfl, id, fun _ hn => nomatch hn⟩
    · rw [if_neg hnext]
      exact ⟨rfl, id, fun _ hn => nomatch hn⟩
  | trust seatno =>
    refine inGame_moves fun seatno => ?_
    split_ifs
    · exact ⟨rfl, id, fun _ hn => nomatch hn⟩
    · exact .stays r
  | gameOver ntf =>
    rcases ntf with _ | ⟨⟩
    · exact .stays r
    · exact ⟨rfl, fun h => RobotStatus.noConfusion h, fun _ hn => nomatch hn⟩
  | gameResult ntf =>
    rcases ntf with _ | ⟨⟩
    · exact .stays r
    · simp only [robotProcess, getGameResultInfo]
      split
      · exact ⟨rfl, fun h => RobotStatus.noConfusion h, fun _ hn => nomatch hn⟩
      · exact ⟨rfl, id, fun _ hn => nomatch hn⟩
  | matchOver => exact ⟨rfl, fun h => RobotStatus.noConfusion h, fun _ hn => nomatch hn⟩
  | readyAck result => exact inGame_moves fun _ => .stays r
  | callScoreAck result => exact inGame_moves fun _ => .stays r
  | takeOutAck result =>
    refine inGame_moves fun result => ?_
    split
    · exact ⟨rfl, id, fun _ hn => nomatch hn⟩
    · exact .stays r
  | trustCancelAck result => exact inGame_moves fun _ => .stays r
  | cancelSignUpAck parses result => exact .stays r
  | unhandled => exact .stays r

end Moves

/-- The messages that take the header robot out of its status. -/
def Deposes (conf : Conf) : Msg → Prop
  | .signUpAck _ | .quickStartAck (some _) | .switchScene (some _) | .gameOver (some _)
  | .matchOver => True
  | .gameResult (some _) => conf.isMatch = false
  | _ => False

/-- They do, and at most send what a game begins with or close the connection;
none of them asks for robots. -/
theorem robotProcess_deposes {rbtOutGetTakeOutCard : Undef → AI → AI × List Int} {conf : Conf}
    {o : Outside} {msg : Msg} (r : Robot) (hd : Deposes conf msg) :
    (r.robotProcess rbtOutGetTakeOutCard conf o msg).1.status ≠ .header ∧
      ∀ n, (r.robotProcess rbtOutGetTakeOutCard conf o msg).2
        ≠ some (.changeStatusForRobot n) := by
  match msg, hd with
  | .signUpAck result, _ =>
    simp only [robotProcess, getSignUpAckInfo]
    split
    · exact ⟨RobotStatus.noConfusion, fun _ hn => nomatch hn⟩
    rcases result with _ | result
    · exact ⟨RobotStatus.noConfusion, fun _ hn => nomatch hn⟩
    · dsimp only
      split_ifs
      · exact ⟨RobotStatus.noConfusion, fun _ hn => nomatch hn⟩
      · exact ⟨RobotStatus.noConfusion, fun _ hn => nomatch hn⟩
      · exact ⟨RobotStatus.noConfusion, fun _ hn => nomatch hn⟩
  | .quickStartAck (some result), _ =>
    simp only [robotProcess, getQuickGameAckInfo]
    split_ifs
    · exact ⟨RobotStatus.noConfusion, fun _ hn => nomatch hn⟩
    · exact ⟨RobotStatus.noConfusion, fun _ hn => nomatch hn⟩
    · exact ⟨RobotStatus.noConfusion, fun _ hn => nomatch hn⟩
  | .switchScene (some ()), _ => exact ⟨RobotStatus.noConfusion, fun _ hn => nomatch hn⟩
  | .gameOver (some ()), _ => exact ⟨RobotStatus.noConfusion, fun _ hn => nomatch hn⟩
  | .matchOver, _ => exact ⟨RobotStatus.noConfusion, fun _ hn => nomatch hn⟩
  | .gameResult (some ()), hm =>
    simp only [robotProcess, getGameResultInfo, show conf.isMatch = false from hm]
    exact ⟨RobotStatus.noConfusion, fun _ hn => nomatch hn⟩

/-- Any other message leaves the header robot in its status and its connection
open. -/
theorem robotProcess_header {rbtOutGetTakeOutCard : Undef → AI → AI × List Int} {conf : Conf}
    {o : Outside} {msg : Msg} {r : Robot} (hr : r.status = .header) (hd : ¬Deposes conf msg) :
    (r.robotProcess rbtOutGetTakeOutCard conf o msg).1.status = .header ∧
      (r.robotProcess rbtOutGetTakeOutCard conf o msg).2 ≠ some .disConnect := by
  have hne : ∀ {s : RobotStatus}, s ≠ .header → r.status ≠ s := fun h he => h (he.symm.trans hr)
  have hquiet : ∀ {p : Robot × Option Reply}, p = r.quiet →
      p.1.status = .header ∧ p.2 ≠ some .disConnect := by
    intro p hp
    rw [hp]
    exact ⟨hr, fun hn => nomatch hn⟩
  have hgame : ∀ {β : Type} {body : Option β} {k : β → Robot × Option Reply},
      r.inGame body k = r.quiet := if_pos (hne RobotStatus.noConfusion)
  cases msg with
  | verifyAck ack => exact hquiet (if_pos (hne RobotStatus.noConfusion))
  | initGameAck result => exact hquiet (if_pos (hne RobotStatus.noConfusion))
  | signUpConditionAck ack =>
    simp only [robotProcess, getSignUpCondAckInfo, hr, ne_eq, not_true_eq_false, if_false,
      and_false]
    split
    · exact hquiet rfl
    split
    · exact hquiet rfl
    split
    · split_ifs
      · exact hquiet rfl
      · exact ⟨hr, fun hn => nomatch hn⟩
      · exact hquiet rfl
    · exact hquiet rfl
    · split
      · exact hquiet rfl
      · split_ifs
        · exact hquiet rfl
        · exact ⟨hr, fun hn => nomatch hn⟩
        · exact hquiet rfl
  | signUpAck result => exact absurd trivial hd
  | roomStatAck ack =>
    simp only [robotProcess, getRoomStateAckInfo]
    split
    · exact hquiet rfl
    split_ifs
    all_goals first | exact hquiet rfl | exact ⟨hr, fun hn => nomatch hn⟩ | skip
    split
    · exact ⟨hr, fun hn => nomatch hn⟩
    · exact ⟨hr, fun hn => nomatch hn⟩
    · exact hquiet rfl
  | quickStartAck result =>
    cases result with
    | none => exact hquiet rfl
    | some result => exact absurd trivial hd
  | keepAck parses ack => exact hquiet (if_pos (hne RobotStatus.noConfusion))
  | switchScene ntf =>
    cases ntf with
    | none => exact hquiet rfl
    | some ntf => exact absurd trivial hd
  | startGame userinfo => exact hquiet hgame
  | dealCard ntf => exact hquiet hgame
  | callScore ntf => exact hquiet hgame
  | setLord seatlord => exact hquiet hgame
  | baseCard basecards => exact hquiet hgame
  | takeOut ntf => exact hquiet hgame
  | trust seatno => exact hquiet hgame
  | gameOver ntf =>
    cases ntf with
    | none => exact hquiet rfl
    | some ntf => exact absurd trivial hd
  | gameResult ntf =>
    rcases ntf with _ | ⟨⟩
    · exact hquiet rfl
    · have hm : conf.isMatch = true := Bool.eq_true_of_not_eq_false hd
      simp only [robotProcess, getGameResultInfo, hm]
      exact ⟨hr, fun hn => nomatch hn⟩
  | matchOver => exact absurd trivial hd
  | readyAck result => exact hquiet hgame
  | callScoreAck result => exact hquiet hgame
  | takeOutAck result => exact hquiet hgame
  | trustCancelAck result => exact hquiet hgame
  | cancelSignUpAck parses result => exact hquiet rfl
  | unhandled => exact hquiet rfl

end Robot

/-! ## The same message to both clients -/

/-- A message as the new client reads it. It has no handler for the status of a
room. -/
def Msg.toTask : Msg → RobotDdz.Msg
  | .verifyAck ack => .verifyAck ack
  | .initGameAck result => .initGameAck result
  | .signUpConditionAck ack => .signUpConditionAck (ack.map SignUpCondition.toSignUpConditionAck)
  | .signUpAck result => .signUpAck result
  | .roomStatAck _ => .unhandled
  | .quickStartAck result => .quickStartAck result
  | .keepAck parses ack => .keepAck (if parses then some ack else none)
  | .switchScene ntf => .switchScene ntf
  | .startGame userinfo => .startGame userinfo
  | .dealCard ntf => .dealCard ntf
  | .callScore ntf => .callScore ntf
  | .setLord seatlord => .setLord seatlord
  | .baseCard basecards => .baseCard basecards
  | .takeOut ntf => .takeOut ntf
  | .trust seatno => .trust seatno
  | .gameOver ntf => .gameOver ntf
  | .gameResult _ => .gameResult
  | .matchOver => .matchOver
  | .readyAck result => .readyAck result
  | .callScoreAck result => .callScoreAck result
  | .takeOutAck result => .takeOutAck result
  | .trustCancelAck result => .trustCancelAck result
  | .cancelSignUpAck parses result => .cancelSignUpAck (if parses then some result else none)
  | .unhandled => .unhandled

/-- What the old robot asks the server for. -/
def Reply.request : Reply → Option Request
  | .send request => some request
  | _ => none

/-- A message, with what its handling meets from outside. -/
structure Arrival where
  undef : Undef
  now : Int
  rand : Int
  msg : Msg

/-- A robot of each client, each with what it has asked for since. -/
structure Both where
  old : Robot
  oldAsked : List Request := []
  link : Link
  asked : List Request := []

namespace Both

variable (rbtOutGetTakeOutCard : Undef → AI → AI × List Int) (conf : Conf)

/-- A message to both. -/
def step (b : Both) (e : Arrival) : Both :=
  let r := b.old.robotProcess rbtOutGetTakeOutCard conf ⟨e.undef, e.now⟩ e.msg
  let o : RobotDdz.Outside := ⟨e.undef, e.rand⟩
  let handled := if b.link.closed then none else b.link.task.handle o e.msg.toTask
  { old := r.1
    oldAsked := b.oldAsked ++ (r.2.bind Reply.request).toList
    link := b.link.step (.receive o e.msg.toTask)
    asked := b.asked ++ (handled.bind (·.node.request)).toList }

/-- The two robots are in one game. -/
structure Same (b : Both) : Prop where
  gamming : b.old.status = .gamming ∧ b.link.task.status = .gamming
  robot : b.old.robot = b.link.task.robot
  robotId : b.old.robotId = b.link.task.robotId
  asked : b.oldAsked = b.asked

/-- The state in which a message makes a robot play, if it does. -/
def playing (robot : AI) : Msg → Option AI
  | .baseCard (some basecards) =>
    let robot := robot.rbtInSetLord robot.lordSeat basecards
    if robot.lordSeat = robot.aiSeat then some robot else none
  | .takeOut (some ntf) =>
    if ntf.seatnext = robot.aiSeat then some (recvGetTakeOutCardNotify robot ntf.seatno ntf.cards)
    else none
  | _ => none

/-- The new client keeps its connection, the result of a game parses, which the
new client does not look at, and the decisions of the two AIs agree. -/
structure Goes (b : Both) (e : Arrival) : Prop where
  stays : (b.step rbtOutGetTakeOutCard conf e).link.closed = false
  parses : e.msg ≠ .gameResult none
  alike : ∀ robot, playing b.old.robot e.msg = some robot →
    rbtOutGetTakeOutCard e.undef robot = robot.rbtOutGetTakeOutCard e.undef

/-- The acks that come too late in a game. -/
def Late : Msg → Prop
  | .signUpAck _ | .quickStartAck (some _) => True
  | _ => False

/-! ### One message -/

section Message

variable {t : RobotTask} {needKeepPlay : Bool}

/-- The robot of the old client in the game of a task robot. -/
def inGameOf (t : RobotTask) (needKeepPlay : Bool) : Robot :=
  { robotId := t.robotId, status := .gamming, needKeepPlay, robot := t.robot }

/-- An operation does what a handler does. -/
structure Agrees (p : Robot × Option Reply) (r : Outcome) : Prop where
  status : p.1.status = .gamming
  robot : p.1.robot = r.task.robot
  robotId : p.1.robotId = r.task.robotId
  request : p.2.bind Reply.request = r.node.request

/-- The operations of the game do what the handlers do, if they do so with the
body. -/
theorem inGame_agrees {β : Type} {outside : Bool} {body : Option β} {f : β → Robot × Option Reply}
    {k : β → Outcome} (ht : t.status = .gamming)
    (hk : ∀ b, body = some b → (k b).Open → Agrees (f b) (k b))
    (hopen : (t.inGame outside body k).Open) :
    Agrees ((inGameOf t needKeepPlay).inGame body f) (t.inGame outside body k) := by
  unfold RobotTask.inGame at hopen ⊢
  rw [if_neg (not_not.mpr ht)] at hopen ⊢
  have hs : ¬(inGameOf t needKeepPlay).status ≠ .gamming := not_not.mpr rfl
  unfold Robot.inGame
  rw [if_neg hs]
  cases body with
  | none => exact absurd hopen t.not_open_failed
  | some b => exact hk b rfl hopen

/-- Both clients look for the robot's name among the players and take its seat. -/
theorem getGameStartInfo_agrees (ht : t.status = .gamming) {userinfo : Option (List Int)}
    (hopen : (t.recvGameStartNotify userinfo).Open) :
    Agrees ((inGameOf t needKeepPlay).getGameStartInfo userinfo)
      (t.recvGameStartNotify userinfo) := by
  refine inGame_agrees ht (fun userinfo _ _ => ?_) hopen
  have hid : (inGameOf t needKeepPlay).robotId = t.robotId := rfl
  rw [hid]
  cases userinfo.findIdx? (· = t.robotId) with
  | none => exact ⟨rfl, rfl, rfl, rfl⟩
  | some index => exact ⟨rfl, rfl, rfl, rfl⟩

/-- A deal: the same analysis, and the same bid where the bidding begins with
the robot. -/
theorem initHardCard_agrees (ht : t.status = .gamming) (o : Outside) (rand : Int)
    {ntf : Option (Int × List (List Int))}
    (hopen : (t.recvInitHardCardNotify ⟨o.undef, rand⟩ ntf).Open) :
    Agrees ((inGameOf t needKeepPlay).initHardCard o ntf)
      (t.recvInitHardCardNotify ⟨o.undef, rand⟩ ntf) := by
  refine inGame_agrees ht (fun (headerseat, cards) _ hopen => ?_) hopen
  have hrobot : (inGameOf t needKeepPlay).robot = t.robot := rfl
  dsimp only at hopen ⊢
  rw [hrobot]
  split_ifs at hopen ⊢
  · exact absurd hopen t.not_open_failed
  · exact ⟨rfl, rfl, rfl, rfl⟩
  · exact ⟨rfl, rfl, rfl, rfl⟩

/-- A bid. The old client and the new have the same rule for when not to bid,
asked as two questions and as one. -/
theorem getCallScoreInfo_agrees (ht : t.status = .gamming) (o : RobotDdz.Outside)
    {ntf : Option UserCallScoreNtf} (hopen : (t.recvUserCallScoreNotify o ntf).Open) :
    Agrees ((inGameOf t needKeepPlay).getCallScoreInfo ntf) (t.recvUserCallScoreNotify o ntf) := by
  refine inGame_agrees ht (fun ntf _ hopen => ?_) hopen
  have hrobot : (inGameOf t needKeepPlay).robot = t.robot := rfl
  dsimp only at hopen ⊢
  rw [hrobot]
  by_cases hend : ntf.seatnext = -1
  · rw [if_pos hend, if_pos hend]
    exact ⟨rfl, rfl, rfl, rfl⟩
  rw [if_neg hend, if_neg hend]
  by_cases hnext : ntf.seatnext ≠ t.robot.aiSeat
  · rw [if_pos hnext, if_pos hnext]
    exact ⟨rfl, rfl, rfl, rfl⟩
  rw [if_neg hnext, if_neg hnext]
  -- the new client asks the two questions at once
  by_cases hlow : t.robot.rbtOutGetCallScore ≤ ntf.score
  · rw [if_pos hlow, if_pos (.inl hlow)]
    exact ⟨rfl, rfl, rfl, rfl⟩
  rw [if_neg hlow]
  by_cases hpass : ntf.score = 0 ∧ t.robot.rbtOutGetCallScore ≤ t.robot.curScore
  · rw [if_pos hpass, if_pos (.inr hpass)]
    exact ⟨rfl, rfl, rfl, rfl⟩
  · rw [if_neg hpass, if_neg (not_or.mpr ⟨hlow, hpass⟩)]
    exact ⟨rfl, rfl, rfl, rfl⟩

/-- A play, when the decisions agree. -/
theorem takeOutCardReq_agrees (t' : RobotTask) {o : Outside} {rand : Int}
    (halike : rbtOutGetTakeOutCard o.undef t'.robot = t'.robot.rbtOutGetTakeOutCard o.undef)
    (bottom : Bool) :
    Agrees ((inGameOf t' needKeepPlay).takeOutCardReq rbtOutGetTakeOutCard o)
      (t'.sendTakeOutCardReq ⟨o.undef, rand⟩ bottom) := by
  have hrobot : (inGameOf t' needKeepPlay).robot = t'.robot := rfl
  unfold Robot.takeOutCardReq RobotTask.sendTakeOutCardReq
  rw [hrobot, halike]
  exact ⟨rfl, rfl, rfl, rfl⟩

/-- The bottom cards: the lord plays, and the two decisions are assumed alike
for the state this is decided in. -/
theorem getBaseCardInfo_agrees (ht : t.status = .gamming) {o : Outside} {rand : Int}
    {basecards : Option (List Int)}
    (halike : ∀ robot, playing t.robot (.baseCard basecards) = some robot →
      rbtOutGetTakeOutCard o.undef robot = robot.rbtOutGetTakeOutCard o.undef)
    (hopen : (t.recvGetBaseCardNotify ⟨o.undef, rand⟩ basecards).Open) :
    Agrees ((inGameOf t needKeepPlay).getBaseCardInfo rbtOutGetTakeOutCard o basecards)
      (t.recvGetBaseCardNotify ⟨o.undef, rand⟩ basecards) := by
  refine inGame_agrees ht (fun basecards hb hopen => ?_) hopen
  rw [hb] at halike
  unfold playing at halike
  have hrobot : (inGameOf t needKeepPlay).robot = t.robot := rfl
  dsimp only at halike ⊢
  rw [hrobot]
  by_cases hlord : (t.robot.rbtInSetLord t.robot.lordSeat basecards).lordSeat
      = (t.robot.rbtInSetLord t.robot.lordSeat basecards).aiSeat
  · have hplay := halike _ (if_pos hlord)
    rw [if_pos hlord, if_pos hlord]
    exact takeOutCardReq_agrees _
      { t with robot := t.robot.rbtInSetLord t.robot.lordSeat basecards } hplay true
  · rw [if_neg hlord, if_neg hlord]
    exact ⟨rfl, rfl, rfl, rfl⟩

/-- A play of another seat, with the same assumption where the turn comes to
the robot. -/
theorem getTakeOutCardInfo_agrees (ht : t.status = .gamming) {o : Outside} {rand : Int}
    {ntf : Option TakeoutCardNtf}
    (halike : ∀ robot, playing t.robot (.takeOut ntf) = some robot →
      rbtOutGetTakeOutCard o.undef robot = robot.rbtOutGetTakeOutCard o.undef)
    (hopen : (t.recvTakeOutNotify ⟨o.undef, rand⟩ ntf).Open) :
    Agrees ((inGameOf t needKeepPlay).getTakeOutCardInfo rbtOutGetTakeOutCard o ntf)
      (t.recvTakeOutNotify ⟨o.undef, rand⟩ ntf) := by
  refine inGame_agrees ht (fun ntf hb hopen => ?_) hopen
  rw [hb] at halike
  unfold playing at halike
  have hrobot : (inGameOf t needKeepPlay).robot = t.robot := rfl
  dsimp only at halike ⊢
  rw [hrobot]
  by_cases hnext : ntf.seatnext = t.robot.aiSeat
  · have hplay := halike _ (if_pos hnext)
    rw [if_pos hnext, if_pos hnext]
    exact takeOutCardReq_agrees _
      { t with robot := recvGetTakeOutCardNotify t.robot ntf.seatno ntf.cards } hplay false
  · rw [if_neg hnext, if_neg hnext]
    exact ⟨rfl, rfl, rfl, rfl⟩

/-- Under trust: if the robot is meant, both clients take the last cards back
and ask out of it. -/
theorem getTrustInfo_agrees (ht : t.status = .gamming) {seatno : Option Int}
    (hopen : (t.recvTrustNotify seatno).Open) :
    Agrees ((inGameOf t needKeepPlay).getTrustInfo seatno) (t.recvTrustNotify seatno) := by
  refine inGame_agrees ht (fun seatno _ hopen => ?_) hopen
  have hrobot : (inGameOf t needKeepPlay).robot = t.robot := rfl
  unfold recvGetTrustNotify
  dsimp only
  rw [hrobot]
  split_ifs
  · exact ⟨rfl, rfl, rfl, rfl⟩
  · exact ⟨rfl, rfl, rfl, rfl⟩

/-- The answer to a play. Where it was refused, both clients take the cards
back into the hand. -/
theorem getTakeOutCardResultInfo_agrees (ht : t.status = .gamming) {result : Option Int}
    (hopen : (t.recvTakeOutAck result).Open) :
    Agrees ((inGameOf t needKeepPlay).getTakeOutCardResultInfo result)
      (t.recvTakeOutAck result) := by
  refine inGame_agrees ht (fun result _ hopen => ?_) hopen
  unfold recvTakeOutCardAck
  split_ifs
  · exact ⟨rfl, rfl, rfl, rfl⟩
  · exact ⟨rfl, rfl, rfl, rfl⟩

/-- In a game, an operation does what a handler does that leaves the connection
open, unless it is for one of the late acks. -/
theorem robotProcess_agrees (ht : t.status = .gamming) (hmode : conf.isMatch = t.isMatch)
    {o : Outside} {rand : Int} {msg : Msg} (hparses : msg ≠ .gameResult none)
    (halike : ∀ robot, playing t.robot msg = some robot →
      rbtOutGetTakeOutCard o.undef robot = robot.rbtOutGetTakeOutCard o.undef)
    (hlate : ¬Late msg) {r : Outcome}
    (hr : t.handle ⟨o.undef, rand⟩ msg.toTask = some r) (hopen : r.Open) :
    Agrees ((inGameOf t needKeepPlay).robotProcess rbtOutGetTakeOutCard conf o msg) r := by
  have hne : ∀ {s : RobotStatus}, s ≠ .gamming → t.status ≠ s := fun h he => h (he.symm.trans ht)
  -- outside a game its handlers fail
  have hfails : ∀ {r' : Outcome} {p : Robot × Option Reply}, r' = t.failed → r'.Open →
      Agrees p r' := by
    intro r' p he ho
    rw [he] at ho
    exact absurd ho t.not_open_failed
  have hlogs : ∀ {outside : Bool} {result : Option Int},
      (t.inGame outside result fun _ => t.handled).Open →
      Agrees ((inGameOf t needKeepPlay).getResultInfo result)
        (t.inGame outside result fun _ => t.handled) :=
    fun ho => inGame_agrees ht (fun _ _ _ => ⟨rfl, rfl, rfl, rfl⟩) ho
  cases msg
  case unhandled => exact nomatch hr
  case roomStatAck ack => exact nomatch hr
  all_goals obtain rfl := Option.some.inj hr
  case verifyAck ack => exact hfails (if_pos (hne RobotStatus.noConfusion)) hopen
  case initGameAck result => exact hfails (if_pos (hne RobotStatus.noConfusion)) hopen
  case signUpConditionAck ack => exact hfails (if_pos (hne RobotStatus.noConfusion)) hopen
  case signUpAck result => exact absurd trivial hlate
  case quickStartAck result =>
    cases result with
    | none =>
      simp only [RobotTask.recvQuickBeginGameAck, ht]
      exact ⟨rfl, rfl, rfl, rfl⟩
    | some result => exact absurd trivial hlate
  case keepAck parses ack => exact hfails (if_pos (hne RobotStatus.noConfusion)) hopen
  case switchScene ntf =>
    rcases ntf with _ | ⟨⟩
    · exact absurd hopen t.not_open_failed
    · simp only [RobotTask.recvEnterGameSceneNotify, ht]
      exact ⟨rfl, rfl, rfl, rfl⟩
  case startGame userinfo => exact getGameStartInfo_agrees ht hopen
  case dealCard ntf => exact initHardCard_agrees ht o rand hopen
  case callScore ntf => exact getCallScoreInfo_agrees ht _ hopen
  case setLord seatlord => exact inGame_agrees ht (fun _ _ _ => ⟨rfl, rfl, rfl, rfl⟩) hopen
  case baseCard basecards => exact getBaseCardInfo_agrees _ ht halike hopen
  case takeOut ntf => exact getTakeOutCardInfo_agrees _ ht halike hopen
  case trust seatno => exact getTrustInfo_agrees ht hopen
  case gameOver ntf =>
    rcases ntf with _ | ⟨⟩
    · exact ⟨rfl, rfl, rfl, rfl⟩
    · exact absurd hopen t.not_open_finished
  case gameResult ntf =>
    rcases ntf with _ | ⟨⟩
    · exact absurd rfl hparses
    simp only [RobotTask.recvGetGameResultNotify] at hopen ⊢
    cases hm : t.isMatch with
    | false =>
      rw [hm] at hopen
      exact absurd hopen t.not_open_finished
    | true =>
      rw [hm] at hmode
      simp only [Robot.robotProcess, Robot.getGameResultInfo, hmode]
      exact ⟨rfl, rfl, rfl, rfl⟩
  case matchOver => exact absurd hopen t.not_open_finished
  case readyAck result => exact hlogs hopen
  case callScoreAck result => exact hlogs hopen
  case takeOutAck result => exact getTakeOutCardResultInfo_agrees ht hopen
  case trustCancelAck result => exact hlogs hopen
  case cancelSignUpAck parses result =>
    cases parses with
    | false => exact absurd hopen t.not_open_failed
    | true =>
      show Agrees _ (if result ≠ 0 then t.failed else t.handled)
      replace hopen : (if result ≠ 0 then t.failed else t.handled).Open := hopen
      split_ifs at hopen ⊢
      · exact absurd hopen t.not_open_failed
      · exact ⟨rfl, rfl, rfl, rfl⟩

/-- A message without a handler in the new client asks nothing and changes
nothing in the old robot. -/
theorem robotProcess_unhandled {o : Outside} {rand : Int} {msg : Msg}
    (hr : t.handle ⟨o.undef, rand⟩ msg.toTask = none) (r : Robot) :
    (r.robotProcess rbtOutGetTakeOutCard conf o msg).1 = r ∧
      (r.robotProcess rbtOutGetTakeOutCard conf o msg).2.bind Reply.request = none := by
  cases msg
  case unhandled => exact ⟨rfl, rfl⟩
  case roomStatAck ack =>
    simp only [Robot.robotProcess, Robot.getRoomStateAckInfo]
    cases ack with
    | none => exact ⟨rfl, rfl⟩
    | some ack =>
      dsimp only
      split_ifs
      all_goals first | exact ⟨rfl, rfl⟩ | skip
      split <;> exact ⟨rfl, rfl⟩
  all_goals exact nomatch hr

/-- The late acks take the old robot out of its game. -/
theorem robotProcess_late {o : Outside} {msg : Msg} (h : Late msg) :
    ((inGameOf t needKeepPlay).robotProcess rbtOutGetTakeOutCard conf o msg).1.status
      ≠ .gamming := by
  match msg, h with
  | .signUpAck result, _ => exact RobotStatus.noConfusion
  | .quickStartAck (some result), _ =>
    simp only [Robot.robotProcess, Robot.getQuickGameAckInfo]
    split_ifs <;> exact RobotStatus.noConfusion

end Message

/-! ### Runs -/

/-- A message that leaves the connection of the new client open: it has no
handler, or its handler leaves it open. -/
theorem handle_of_stays {l : Link} (hc : l.closed = false) {o : RobotDdz.Outside}
    {msg : RobotDdz.Msg} (hstays : (l.step (.receive o msg)).closed = false) :
    l.task.handle o msg = none ∧ (l.step (.receive o msg)).task = l.task ∨
      ∃ r, l.task.handle o msg = some r ∧ r.Open ∧ (l.step (.receive o msg)).task = r.task := by
  have hstep : l.step (.receive o msg) = (l.robotProcess o msg).1 :=
    if_neg (by rw [hc]; exact Bool.false_ne_true)
  rw [hstep] at hstays ⊢
  unfold Link.robotProcess at hstays ⊢
  cases hr : l.task.handle o msg with
  | none => exact .inl ⟨rfl, rfl⟩
  | some r =>
    simp only [hr] at hstays
    rcases (RobotTask.handle_ends hr).open_or with hok | ⟨hok, hclosing⟩ | hopen
    · rw [hok] at hstays
      exact Bool.noConfusion hstays
    · obtain ⟨deleted, heq⟩ := Link.analysisAndDecision_closing { l with task := r.task } hclosing
      rw [hok] at hstays
      replace hstays : ({ l with task := r.task }.analysisAndDecision r.node).closed = false :=
        hstays
      rw [heq] at hstays
      exact Bool.noConfusion hstays
    · refine .inr ⟨r, rfl, hopen, ?_⟩
      dsimp only
      rw [hopen.ok]
      exact Link.analysisAndDecision_task { l with task := r.task } r.node

section Run

variable {rbtOutGetTakeOutCard conf} {b : Both} {e : Arrival}

/-- What the run keeps: the game is the same, of the kind that the client is
for, and the new client's connection is open. -/
structure Kept (conf : Conf) (b : Both) : Prop where
  same : b.Same
  closed : b.link.closed = false
  mode : conf.isMatch = b.link.task.isMatch

/-- The old robot is that of the game. -/
theorem Same.old_eq (h : b.Same) : b.old = inGameOf b.link.task b.old.needKeepPlay := by
  have hfields : ∀ r : Robot, r.status = .gamming → r.robot = b.link.task.robot →
      r.robotId = b.link.task.robotId → r = inGameOf b.link.task r.needKeepPlay := by
    rintro ⟨robotId, status, needKeepPlay, robot⟩ rfl rfl rfl
    rfl
  exact hfields b.old h.gamming.1 h.robot h.robotId

/-- A message that does not come too late. Either nobody handles it, or both
clients do, and handler by handler they agree on the status, the AI and the
request. -/
theorem Kept.step (h : Kept conf b) (hgoes : b.Goes rbtOutGetTakeOutCard conf e)
    (hlate : ¬Late e.msg) : Kept conf (b.step rbtOutGetTakeOutCard conf e) := by
  have hstays : (b.link.step (.receive ⟨e.undef, e.rand⟩ e.msg.toTask)).closed = false :=
    hgoes.stays
  have hasked : (b.step rbtOutGetTakeOutCard conf e).asked = b.asked
      ++ ((b.link.task.handle ⟨e.undef, e.rand⟩ e.msg.toTask).bind (·.node.request)).toList := by
    show b.asked ++ ((if b.link.closed then none else _).bind _).toList = _
    rw [h.closed, if_neg Bool.false_ne_true]
  rcases handle_of_stays h.closed hstays with ⟨hnone, htask⟩ | ⟨r, hr, hopen, htask⟩
  · obtain ⟨hsame, hquiet⟩ := robotProcess_unhandled rbtOutGetTakeOutCard conf
      (o := ⟨e.undef, e.now⟩) hnone b.old
    have hold : (b.step rbtOutGetTakeOutCard conf e).old = b.old := hsame
    have hlink : (b.step rbtOutGetTakeOutCard conf e).link.task = b.link.task := htask
    refine ⟨⟨?_, ?_, ?_, ?_⟩, hstays, ?_⟩
    · rw [hold, hlink]
      exact h.same.gamming
    · rw [hold, hlink]
      exact h.same.robot
    · rw [hold, hlink]
      exact h.same.robotId
    · rw [hasked, hnone]
      show b.oldAsked ++ (Option.bind _ _).toList = _
      rw [hquiet, h.same.asked]
      rfl
    · rw [hlink]
      exact h.mode
  · have hlink : (b.step rbtOutGetTakeOutCard conf e).link.task = r.task := htask
    have hrobot : (inGameOf b.link.task b.old.needKeepPlay).robot = b.link.task.robot := rfl
    have halike := hgoes.alike
    rw [h.same.old_eq, hrobot] at halike
    have hagrees : Agrees ((inGameOf b.link.task b.old.needKeepPlay).robotProcess
        rbtOutGetTakeOutCard conf ⟨e.undef, e.now⟩ e.msg) r :=
      robotProcess_agrees _ _ h.same.gamming.2 h.mode hgoes.parses halike hlate hr hopen
    rw [← h.same.old_eq] at hagrees
    refine ⟨⟨⟨hagrees.status, ?_⟩, ?_, ?_, ?_⟩, hstays, ?_⟩
    · rw [hlink]
      exact RobotTask.handle_gamming h.same.gamming.2 hr hopen
    · rw [hlink]
      exact hagrees.robot
    · rw [hlink]
      exact hagrees.robotId
    · rw [hasked, hr]
      show b.oldAsked ++ (Option.bind _ _).toList = b.asked ++ r.node.request.toList
      rw [hagrees.request, h.same.asked]
    · rw [hlink, (RobotTask.handle_ends hr).isMatch_eq]
      exact h.mode

/-- In every run of messages that leaves the new client's connection open, a
robot of the old client and one of the new that start in the same game are in
it throughout, with the same cards and knowledge and with the same requests,
exactly when no ack comes in that is late. -/
theorem game_same_iff {es : List Arrival} (hsame : b.Same) (hclosed : b.link.closed = false)
    (hmode : conf.isMatch = b.link.task.isMatch)
    (hgoes : Along (step rbtOutGetTakeOutCard conf) (Goes rbtOutGetTakeOutCard conf) b es) :
    (∀ pre, pre <+: es → (run (step rbtOutGetTakeOutCard conf) b pre).Same) ↔
      Along (step rbtOutGetTakeOutCard conf) (fun _ e => ¬Late e.msg) b es := by
  refine Along.good_iff (Kept conf) Same (fun _ h => h.same) (fun _ _ h hgoes hl => h.step hgoes hl)
    (fun b e h _ hsame' hlate => ?_) hgoes ⟨hsame, hclosed, hmode⟩
  have hold : (b.step rbtOutGetTakeOutCard conf e).old = ((inGameOf b.link.task
      b.old.needKeepPlay).robotProcess rbtOutGetTakeOutCard conf ⟨e.undef, e.now⟩ e.msg).1 := by
    rw [← h.same.old_eq]
    rfl
  have hgamming := hsame'.gamming.1
  rw [hold] at hgamming
  exact robotProcess_late rbtOutGetTakeOutCard conf hlate hgamming

end Run

/-- Robot 7 of each client at the start of a game. -/
def started : Both :=
  let task : RobotTask :=
    { robotId := 7, isMatch := true, delaySendActiveMsgTime := 3, delaySendPassiveMsgTime := 3,
      costId := 0, status := .gamming }
  { old := inGameOf task false, link := { task } }

/-- A match, with the share in whole numbers. -/
def matchConf : Conf :=
  { matchId := 1, isMatch := true, isTimeTrial := false, minPlayerNum := 1, maxPlayerNum := 3,
    percentage := 50, leftTimeForTimeTrial := 60,
    share := fun need percentage => (2 * need * percentage + 100).tdiv 200 }

/-- The robot is seated second, hears who is lord and is taken out of trust. -/
def seated : List Arrival :=
  [⟨Undef.zero, 0, 0, .startGame (some [6, 7, 8])⟩, ⟨Undef.zero, 0, 0, .setLord (some 0)⟩,
    ⟨Undef.zero, 0, 0, .trust (some 1)⟩]

/-- The run stays in the domain of the result. -/
theorem goes_seated : Along (step (fun u s => s.rbtOutGetTakeOutCard u) matchConf)
    (Goes (fun u s => s.rbtOutGetTakeOutCard u) matchConf) started seated :=
  ⟨⟨rfl, Msg.noConfusion, fun _ h => nomatch h⟩, ⟨rfl, Msg.noConfusion, fun _ h => nomatch h⟩,
    ⟨rfl, Msg.noConfusion, fun _ h => nomatch h⟩, trivial⟩

theorem game_same_iff_seated :
    (∀ pre, pre <+: seated →
        (run (step (fun u s => s.rbtOutGetTakeOutCard u) matchConf) started pre).Same) ↔
      Along (step (fun u s => s.rbtOutGetTakeOutCard u) matchConf) (fun _ e => ¬Late e.msg)
        started seated :=
  game_same_iff ⟨⟨rfl, rfl⟩, rfl, rfl, rfl⟩ rfl rfl goes_seated

/-- A second ack for the sign-up, and the old robot waits for another game. -/
example : (run (step (fun u s => s.rbtOutGetTakeOutCard u) matchConf) started
    (seated ++ [⟨Undef.zero, 0, 0, .signUpAck (some 0)⟩])).old.status = .waitSignUp := rfl

end Both

end RobotDdz.Old
