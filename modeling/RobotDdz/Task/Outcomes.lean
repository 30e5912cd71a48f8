import RobotDdz.Task.Handlers

/-!
# What a handler can do

`handle_ends`: a handler fails, or succeeds with nothing to send, or leaves a
request that its message may bring, or ends the game, or has the connection
closed in one of two other ways. It sets the status, the score, `needKeepPlay_`
and the AI and leaves the other members alone, except that the one for the
sign-up conditions sets `costId_`. What holds of every handler is a case
analysis over these ends.

`Outcome` is what the model makes of a handler's `bool`, the members it leaves
and what it puts into the `MsgNode`. `Ends` says once, constructor by
constructor, which combinations occur. The modules on sign-up, on the order of
messages, on the closing of connections and on the stages of a talk rest on the
cases of `handle_ends`.

Mirroring notes vs `RobotTask.cpp`:
- Most handlers of a running game compare the status before they parse the body
  and return true outside a game, so that a late message does no harm;
  `RecvGameStartNotify` and three of the acks return false there. `inGame` is
  that start, and its `outside` is the value returned.
- `RecvGetGameOverNotify`, `RecvGetCompetitionOverNotify` and, outside a match,
  `RecvGetGameResultNotify` reset the AI and the status and set `gameIsOver`:
  this is `finished`.
- `RecvVerifyAck` alone clears `needKeepPlay` of the node, for a robot that was
  only tested (`tested`), and `RecvQuickBeginGameAck` alone sets `needDelRobot`
  (`deleted`).
-/

namespace RobotDdz

/-- The requests that may go out on a message. -/
def Msg.Brings : Msg → Request → Prop
  | .verifyAck _, .initGame
  | .initGameAck _, .keepPlay
  | .initGameAck _, .signUpCondition
  | .initGameAck _, .quickStart
  | .signUpConditionAck _, .signUp _
  | .keepAck _, .trustCancel
  | .switchScene _, .ready
  | .dealCard _, .callScore _
  | .callScore _, .callScore _
  | .baseCard _, .takeOut _
  | .takeOut _, .takeOut _
  | .trust _, .trustCancel => True
  | _, _ => False

namespace RobotTask

/-- The id that a message makes `RecvQuerySignUpCondAck` keep. -/
def picked (t : RobotTask) : Msg → Option Int
  | .signUpConditionAck (some ack) =>
    if t.status = .initGame ∧ ack.result = 0 ∧ ack.limit = some true then
      (ack.costList.find? (·.enable)).map Cost.id
    else none
  | _ => none

/-- The members that a message may change. -/
def Changes (t : RobotTask) (msg : Msg) (t' : RobotTask) : Prop :=
  t' = { t with
    costId := (t.picked msg).getD t.costId, status := t'.status, myScore := t'.myScore
    needKeepPlay := t'.needKeepPlay, robot := t'.robot }

/-- The ways a handler ends. -/
inductive Ends (t : RobotTask) (msg : Msg) : Outcome → Prop
  | failed {t' : RobotTask} (h : t.Changes msg t') : Ends t msg t'.failed
  | handled {t' : RobotTask} (h : t.Changes msg t') : Ends t msg t'.handled
  | send {t' : RobotTask} {request : Request} {delay : Option Int} (h : t.Changes msg t')
      (hbrings : msg.Brings request) : Ends t msg (t'.send request delay)
  | finished (h : t.Changes msg t) : Ends t msg t.finished
  -- a robot that was only tested has no game to go on with
  | tested (h : t.Changes msg t) (test : t.isTestNeedKeepPlay = true) (init : t.status = .init)
      (ack : msg = .verifyAck (some (0, false))) :
    Ends t msg { ok := true, task := t, node := { needKeepPlay := false } }
  | deleted (h : t.Changes msg t) :
    Ends t msg { ok := true, task := t, node := { needDelRobot := true } }

variable {t : RobotTask} {msg : Msg}

/-- Setting the status is a change that any message may make, as long as the
message does not have an entry fee picked. -/
theorem changes_status (h : t.picked msg = none) (status : RobotStatus) :
    t.Changes msg { t with status } := by
  unfold Changes
  rw [h]
  rfl

/-- The common start of the handlers for a running game: the status, then the
body, then the rest. The rest is asked about once, as `hk`. -/
theorem inGame_ends {β : Type} {outside : Bool} {body : Option β} {k : β → Outcome}
    (h : t.Changes msg t) (hk : ∀ b, t.Ends msg (k b)) : t.Ends msg (t.inGame outside body k) := by
  unfold inGame
  split
  · cases outside with
    | false => exact .failed h
    | true => exact .handled h
  · cases body with
    | none => exact .failed h
    | some b => exact hk b

/-! ## Entering a game -/

/-- The answer to the first request. It is the handler with the most ways out,
and the only one that lets a tested robot go. -/
theorem recvVerifyAck_ends (ack : Option (Int × Bool)) :
    t.Ends (.verifyAck ack) (t.recvVerifyAck ack) := by
  unfold recvVerifyAck
  split
  · exact .failed rfl
  rename_i hinit
  rcases ack with _ | ⟨result, hasGameName⟩
  · exact .failed rfl
  dsimp only
  split_ifs with hresult hname htest
  · exact .failed rfl
  · exact .send rfl trivial
  · obtain rfl : result = 0 := not_not.mp hresult
    obtain rfl : hasGameName = false := Bool.eq_false_of_not_eq_true hname
    exact .tested rfl htest (not_not.mp hinit) rfl
  · exact .send rfl trivial

/-- What follows a game that was initialised: the robot keeps on playing, signs
up or starts at once. -/
theorem nextActionProcess_ends {result : Option Int} {t' : RobotTask}
    (h : t.Changes (.initGameAck result) t') :
    t.Ends (.initGameAck result) t'.nextActionProcess := by
  unfold nextActionProcess
  split_ifs
  · have hset : t.Changes (.initGameAck result) { t' with needKeepPlay := false } := by
      unfold Changes at h ⊢
      rw [h]
    exact .send hset trivial
  · exact .send h trivial
  · exact .send h trivial

/-- The answer to the request for a game. -/
theorem recvInitGameAck_ends (result : Option Int) :
    t.Ends (.initGameAck result) (t.recvInitGameAck result) := by
  unfold recvInitGameAck
  split
  · exact .failed rfl
  rcases result with _ | result
  · exact .failed rfl
  dsimp only
  split
  · exact .failed rfl
  · exact nextActionProcess_ends rfl

/-- The answer to a quick start. One result code has the robot deleted. -/
theorem recvQuickBeginGameAck_ends (result : Option Int) :
    t.Ends (.quickStartAck result) (t.recvQuickBeginGameAck result) := by
  unfold recvQuickBeginGameAck
  split
  · split
    · exact .handled rfl
    · exact .failed rfl
  rcases result with _ | result
  · exact .failed rfl
  dsimp only
  split_ifs
  · exact .handled rfl
  · exact .deleted rfl
  · exact .failed rfl

/-- The one handler that sets `costId_`, by the first enabled entry of the list
of costs. The cases follow `picked`: either the list is read, and the fee set
is the one `picked` names, or it is not, and the status alone changes. -/
theorem recvQuerySignUpCondAck_ends (ack : Option SignUpConditionAck) :
    t.Ends (.signUpConditionAck ack) (t.recvQuerySignUpCondAck ack) := by
  unfold recvQuerySignUpCondAck
  rcases ack with _ | ack
  · split
    · exact .failed rfl
    · exact .failed rfl
  by_cases hread : t.status = .initGame ∧ ack.result = 0 ∧ ack.limit = some true
  · have hpicked : t.picked (.signUpConditionAck (some ack))
        = (ack.costList.find? (·.enable)).map Cost.id := if_pos hread
    obtain ⟨hs, hr, hl⟩ := hread
    rw [if_neg (not_not.mpr hs)]
    dsimp only
    rw [if_neg (not_not.mpr hr), hl]
    dsimp only
    cases hfind : ack.costList.find? (·.enable) with
    | none => exact .failed (changes_status (by rw [hpicked, hfind]; rfl) t.status)
    | some cost =>
      have hset : ∀ status, t.Changes (.signUpConditionAck (some ack))
          { t with costId := cost.id, status } := by
        intro status
        unfold Changes
        rw [hpicked, hfind]
        rfl
      dsimp only
      split
      · exact .handled (hset .signUped)
      · exact .send (hset .canSignUp) trivial
  · have hsame : ∀ status, t.Changes (.signUpConditionAck (some ack)) { t with status } :=
      changes_status (if_neg hread)
    by_cases hs : t.status ≠ .initGame
    · rw [if_pos hs]
      exact .failed (hsame t.status)
    rw [if_neg hs]
    dsimp only
    by_cases hr : ack.result ≠ 0
    · rw [if_pos hr]
      exact .failed (hsame t.status)
    rw [if_neg hr]
    cases hl : ack.limit with
    | none => exact .send (hsame .canSignUp) trivial
    | some enable =>
      cases enable with
      | false => exact .failed (hsame t.status)
      | true => exact absurd ⟨not_not.mp hs, not_not.mp hr, hl⟩ hread

/-- The answer to a sign-up: the robot waits for the scene to switch, or the
handler fails. -/
theorem recvSignUpAck_ends (result : Option Int) :
    t.Ends (.signUpAck result) (t.recvSignUpAck result) := by
  unfold recvSignUpAck
  split
  · split
    · exact .handled rfl
    · exact .failed rfl
  rcases result with _ | result
  · exact .failed rfl
  dsimp only
  split
  · exact .failed rfl
  · exact .handled rfl

/-- The answer to a sign-up withdrawn. -/
theorem recvCancelSignUpAck_ends (result : Option Int) :
    t.Ends (.cancelSignUpAck result) (t.recvCancelSignUpAck result) := by
  unfold recvCancelSignUpAck
  rcases result with _ | result
  · exact .failed rfl
  dsimp only
  split
  · exact .failed rfl
  · exact .handled rfl

/-- The answer to the request to keep on playing: the robot takes its place
again and asks for the trust to end. -/
theorem recvKeepPlayAck_ends (o : Outside) (ack : Option KeepPlayingAck) :
    t.Ends (.keepAck ack) (t.recvKeepPlayAck o ack) := by
  unfold recvKeepPlayAck
  split
  · exact .failed rfl
  rcases ack with _ | ack
  · exact .failed rfl
  dsimp only
  split
  · exact .failed rfl
  cases ack.playerinfo.findIdx? (·.1 = t.robotId) with
  | none => exact .failed rfl
  | some index => exact .send rfl trivial

/-- The scene switches to a game, and the robot says that it is ready. -/
theorem recvEnterGameSceneNotify_ends (ntf : Option Unit) :
    t.Ends (.switchScene ntf) (t.recvEnterGameSceneNotify ntf) := by
  unfold recvEnterGameSceneNotify
  cases ntf with
  | none => exact .failed rfl
  | some _ =>
    dsimp only
    split
    · exact .send rfl trivial
    · exact .failed rfl

/-! ## The game -/

/-- The names of the players: the robot looks itself up and takes its seat. -/
theorem recvGameStartNotify_ends (userinfo : Option (List Int)) :
    t.Ends (.startGame userinfo) (t.recvGameStartNotify userinfo) := by
  refine inGame_ends rfl fun userinfo => ?_
  cases userinfo.findIdx? (· = t.robotId) with
  | none => exact .handled rfl
  | some index => exact .handled rfl

/-- The deal. The robot whose turn it is to bid first leaves a bid, the others
nothing. -/
theorem recvInitHardCardNotify_ends (o : Outside) (ntf : Option (Int × List (List Int))) :
    t.Ends (.dealCard ntf) (t.recvInitHardCardNotify o ntf) := by
  refine inGame_ends rfl fun (headerseat, cards) => ?_
  dsimp only
  split_ifs
  · exact .failed rfl
  · exact .send rfl trivial
  · exact .handled rfl

/-- A bid of some player. The robot after it leaves its own bid, unless the
bidding is over. -/
theorem recvUserCallScoreNotify_ends (o : Outside) (ntf : Option UserCallScoreNtf) :
    t.Ends (.callScore ntf) (t.recvUserCallScoreNotify o ntf) := by
  refine inGame_ends rfl fun ntf => ?_
  split_ifs
  · exact .handled rfl
  · exact .handled rfl
  · exact .send rfl trivial

/-- The bottom cards. The lord leaves the request for its first hand. -/
theorem recvGetBaseCardNotify_ends (o : Outside) (basecards : Option (List Int)) :
    t.Ends (.baseCard basecards) (t.recvGetBaseCardNotify o basecards) := by
  refine inGame_ends rfl fun basecards => ?_
  dsimp only
  split
  · exact .send rfl trivial
  · exact .handled rfl

/-- A hand of some player. The robot after it leaves its own. -/
theorem recvTakeOutNotify_ends (o : Outside) (ntf : Option TakeoutCardNtf) :
    t.Ends (.takeOut ntf) (t.recvTakeOutNotify o ntf) := by
  refine inGame_ends rfl fun ntf => ?_
  dsimp only
  split
  · exact .send rfl trivial
  · exact .handled rfl

/-- A player is put under trust. If it is the robot, it asks for the trust to
end. -/
theorem recvTrustNotify_ends (seatno : Option Int) :
    t.Ends (.trust seatno) (t.recvTrustNotify seatno) := by
  refine inGame_ends rfl fun seatno => ?_
  dsimp only
  split
  · exact .send rfl trivial
  · exact .handled rfl

/-- The end of a game of a match that is not read gives no end at all: the
source returns true. -/
theorem recvGetGameOverNotify_ends (ntf : Option Unit) :
    t.Ends (.gameOver ntf) (t.recvGetGameOverNotify ntf) := by
  cases ntf with
  | none => exact .handled rfl
  | some _ => exact .finished rfl

/-- The result of a game ends it for a robot outside a match. -/
theorem recvGetGameResultNotify_ends : t.Ends .gameResult t.recvGetGameResultNotify := by
  unfold recvGetGameResultNotify
  split
  · exact .handled rfl
  · exact .finished rfl

/-- What a message with a handler can do: one case for each message, by
the lemma of its handler. -/
theorem handle_ends {o : Outside} {r : Outcome} (hr : t.handle o msg = some r) : t.Ends msg r := by
  cases msg
  case unhandled => exact nomatch hr
  all_goals obtain rfl := Option.some.inj hr
  case verifyAck ack => exact recvVerifyAck_ends ack
  case initGameAck result => exact recvInitGameAck_ends result
  case signUpConditionAck ack => exact recvQuerySignUpCondAck_ends ack
  case signUpAck result => exact recvSignUpAck_ends result
  case quickStartAck result => exact recvQuickBeginGameAck_ends result
  case keepAck ack => exact recvKeepPlayAck_ends o ack
  case switchScene ntf => exact recvEnterGameSceneNotify_ends ntf
  case startGame userinfo => exact recvGameStartNotify_ends userinfo
  case dealCard ntf => exact recvInitHardCardNotify_ends o ntf
  case callScore ntf => exact recvUserCallScoreNotify_ends o ntf
  case setLord seatlord => exact inGame_ends rfl fun _ => .handled rfl
  case baseCard basecards => exact recvGetBaseCardNotify_ends o basecards
  case takeOut ntf => exact recvTakeOutNotify_ends o ntf
  case trust seatno => exact recvTrustNotify_ends seatno
  case gameOver ntf => exact recvGetGameOverNotify_ends ntf
  case gameResult => exact recvGetGameResultNotify_ends
  case matchOver => exact .finished rfl
  case readyAck result => exact inGame_ends rfl fun _ => .handled rfl
  case callScoreAck result => exact inGame_ends rfl fun _ => .handled rfl
  case takeOutAck result => exact inGame_ends rfl fun _ => .handled rfl
  case trustCancelAck result => exact inGame_ends rfl fun _ => .handled rfl
  case cancelSignUpAck result => exact recvCancelSignUpAck_ends result

/-! ## What every handler keeps -/

/-- The members that no handler writes and that its answers go by: the id, the
kind of game and the configured delay after another player. -/
structure Same (t t' : RobotTask) : Prop where
  robotId : t'.robotId = t.robotId
  isMatch : t'.isMatch = t.isMatch
  delay : t'.delaySendPassiveMsgTime = t.delaySendPassiveMsgTime

/-- Nothing happened. -/
theorem same_refl (t : RobotTask) : t.Same t := ⟨rfl, rfl, rfl⟩

/-- Members that stay over each message stay over a run of them. -/
theorem Same.trans {t t' t'' : RobotTask} (h : t.Same t') (h' : t'.Same t'') : t.Same t'' :=
  ⟨h'.robotId.trans h.robotId, h'.isMatch.trans h.isMatch, h'.delay.trans h.delay⟩

/-- The members of `Same` are none of those that a message may change. -/
theorem same_of_changes {t t' : RobotTask} {msg : Msg} (h : t.Changes msg t') : t.Same t' := by
  unfold Changes at h
  rw [h]
  exact ⟨rfl, rfl, rfl⟩

/-- No message changes the id, the kind of game or the configured delay.
The end of the handler tells what it returned, and each end changes only what it
says. -/
theorem same_handle {t : RobotTask} (o : Outside) (msg : Msg) {r : Outcome}
    (h : t.handle o msg = some r) : t.Same r.task := by
  cases handle_ends h with
  | failed hc => exact same_of_changes hc
  | handled hc => exact same_of_changes hc
  | send hc => exact same_of_changes hc
  | finished => exact ⟨rfl, rfl, rfl⟩
  | tested hc => exact same_of_changes hc
  | deleted hc => exact same_of_changes hc

end RobotTask

end RobotDdz
