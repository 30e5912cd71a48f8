import RobotDdz.Task.SignUp

/-!
# What a connection may send

A task robot answers whatever it is sent, so the order of its requests is not
in one place: it comes out of the statuses the handlers test and set.
`talk_run` is that order. Whatever the server sends, in whatever order and with
whatever bodies, the requests of one connection are `INIT_GAME`, then
`KEEP_PLAY` or else the query for its kind of game and at most one sign-up,
then requests of the game only; and nothing is held back by a delay but
requests of the game.

`Stage` is the invariant that carries it: for each status, what has been sent
so far.

Two writes to the same connection are not requests of its robot and stand
outside: the `VERIFY_REQ` that opens the connection, before any of these, and
the cancelled sign-up that the client writes for a robot that waits when it is
told to stop.
-/

namespace RobotDdz

open Runs

/-- The requests of a game. -/
def Request.OfGame : Request → Prop
  | .ready | .trustCancel | .callScore _ | .takeOut _ => True
  | _ => False

/-- The query for a game that a robot starts with. -/
def firstQuery (isMatch : Bool) : Request := if isMatch then .signUpCondition else .quickStart

/-- The requests on the way into a game, complete or not. -/
inductive Entry (isMatch : Bool) : List Request → Prop
  | nothing : Entry isMatch []
  | initGame : Entry isMatch [.initGame]
  | keepPlay : Entry isMatch [.initGame, .keepPlay]
  | query : Entry isMatch [.initGame, firstQuery isMatch]
  | signUp (costid : Int) : Entry isMatch [.initGame, firstQuery isMatch, .signUp costid]

/-- The requests of a connection: the way into a game, then those of the game. -/
def Talk (isMatch : Bool) (requests : List Request) : Prop :=
  ∃ entry game, requests = entry ++ game ∧ Entry isMatch entry ∧ ∀ q ∈ game, q.OfGame

/-- What has been sent in each status; a robot of the client is in no other. -/
def Stage (isMatch : Bool) (requests : List Request) : RobotStatus → Prop
  | .init => requests = []
  | .verified => requests = [.initGame]
  | .keepPlay => requests = [.initGame, .keepPlay]
  | .initGame | .quickGame => requests = [.initGame, firstQuery isMatch]
  | .canSignUp => ∃ costid, requests = [.initGame, firstQuery isMatch, .signUp costid]
  | .signUped => requests = [.initGame, firstQuery isMatch] ∨
      ∃ costid, requests = [.initGame, firstQuery isMatch, .signUp costid]
  | .gamming => Talk isMatch requests
  | _ => False

section Stage

variable {isMatch : Bool} {requests : List Request}

/-- A way into a game is a way to talk. -/
theorem Entry.talk {entry : List Request} (h : Entry isMatch entry) : Talk isMatch entry :=
  ⟨entry, [], (List.append_nil entry).symm, h, fun _ hq => absurd hq List.not_mem_nil⟩

/-- Whatever the status, what has been sent is in order. Each status before the
game has one way in (`Entry`), and the requests of a game follow one of them. -/
theorem Stage.talk {status : RobotStatus} (h : Stage isMatch requests status) :
    Talk isMatch requests := by
  cases status with
  | init =>
    obtain rfl := h
    exact Entry.nothing.talk
  | verified =>
    obtain rfl := h
    exact Entry.initGame.talk
  | keepPlay =>
    obtain rfl := h
    exact Entry.keepPlay.talk
  | initGame =>
    obtain rfl := h
    exact Entry.query.talk
  | quickGame =>
    obtain rfl := h
    exact Entry.query.talk
  | canSignUp =>
    obtain ⟨costid, rfl⟩ := h
    exact (Entry.signUp costid).talk
  | signUped =>
    rcases h with rfl | ⟨costid, rfl⟩
    · exact Entry.query.talk
    · exact (Entry.signUp costid).talk
  | gamming => exact h
  | waitSignUp => exact absurd h id
  | exitting => exact absurd h id
  | other => exact absurd h id
  | header => exact absurd h id

/-- A request of the game may follow at any time. -/
theorem Talk.ofGame (h : Talk isMatch requests) {q : Request} (hq : q.OfGame) :
    Talk isMatch (requests ++ [q]) := by
  obtain ⟨entry, game, rfl, hentry, hgame⟩ := h
  refine ⟨entry, game ++ [q], List.append_assoc .., hentry, fun q' hq' => ?_⟩
  rcases List.mem_append.mp hq' with hin | hlast
  · exact hgame q' hin
  · rw [List.mem_singleton.mp hlast]
    exact hq

/-- Heartbeats are none of the requests. -/
theorem Talk.heartbeat (h : Talk isMatch requests) : .heartbeat ∉ requests := by
  obtain ⟨entry, game, rfl, hentry, hgame⟩ := h
  intro hin
  rcases List.mem_append.mp hin with he | hg
  · have hquery : Request.heartbeat ≠ firstQuery isMatch := by
      unfold firstQuery
      split <;> exact Request.noConfusion
    cases hentry <;> simp [hquery] at he
  · exact hgame _ hg

/-- Every stage but the last begins with `INIT_GAME`, or with nothing, so a
robot that has sent `READY` first is in the game. -/
theorem Stage.eq_gamming {status : RobotStatus} (h : Stage isMatch (.ready :: requests) status) :
    status = .gamming := by
  cases status with
  | gamming => rfl
  | init => exact absurd h (List.cons_ne_nil _ _)
  | verified => exact absurd (List.cons.inj h).1 Request.noConfusion
  | keepPlay => exact absurd (List.cons.inj h).1 Request.noConfusion
  | initGame => exact absurd (List.cons.inj h).1 Request.noConfusion
  | quickGame => exact absurd (List.cons.inj h).1 Request.noConfusion
  | canSignUp =>
    obtain ⟨costid, h⟩ := h
    exact absurd (List.cons.inj h).1 Request.noConfusion
  | signUped =>
    rcases h with h | ⟨costid, h⟩
    · exact absurd (List.cons.inj h).1 Request.noConfusion
    · exact absurd (List.cons.inj h).1 Request.noConfusion
  | waitSignUp => exact absurd h id
  | exitting => exact absurd h id
  | other => exact absurd h id
  | header => exact absurd h id

end Stage

/-! ## One message -/

/-- What a handler that leaves the connection open does: it sends nothing and
may move to another stage with the same requests, or sends the next request of
a stage at once, or one of the game at any delay. -/
def Follows (isMatch : Bool) (requests : List Request) (r : Outcome) : Prop :=
  match r.node.request with
  | none => Stage isMatch requests r.task.status
  | some q =>
    (q.OfGame ∧ r.task.status = .gamming ∨
      r.node.delaySecond = some 0 ∧ Stage isMatch (requests ++ [q]) r.task.status)

/-- The handler succeeded and the connection stays. -/
structure Outcome.Open (r : Outcome) : Prop where
  ok : r.ok = true
  goesOn : r.node.gameIsOver = false
  keep : r.node.needKeepPlay = true
  stays : r.node.needDelRobot = false

namespace RobotTask

variable {t : RobotTask} {requests : List Request}

theorem not_open_failed (t : RobotTask) : ¬t.failed.Open := fun h => Bool.false_ne_true h.ok

theorem not_open_finished (t : RobotTask) : ¬t.finished.Open :=
  fun h => Bool.false_ne_true h.goesOn.symm

/-- Nothing is sent and the status stays. -/
theorem follows_handled {t' : RobotTask} (h : Stage t.isMatch requests t.status)
    (hs : t'.status = t.status) : Follows t.isMatch requests t'.handled := by
  show Stage t.isMatch requests t'.status
  rw [hs]
  exact h

/-- A request of the game, in a game. -/
theorem follows_game {t' : RobotTask} {q : Request} (hq : q.OfGame) (hs : t'.status = .gamming)
    (delay : Option Int) : Follows t.isMatch requests (t'.send q delay) := .inl ⟨hq, hs⟩

/-- The handlers of the game send requests of the game only and stay in it. -/
theorem inGame_follows {β : Type} {outside : Bool} {body : Option β} {k : β → Outcome}
    (h : Stage t.isMatch requests t.status)
    (hk : ∀ b, t.status = .gamming → (k b).Open → Follows t.isMatch requests (k b))
    (hopen : (t.inGame outside body k).Open) :
    Follows t.isMatch requests (t.inGame outside body k) := by
  unfold inGame at hopen ⊢
  split at hopen
  next hs =>
    rw [if_pos hs]
    exact h
  next hs =>
    rw [if_neg hs]
    cases body with
    | none => exact absurd hopen t.not_open_failed
    | some b => exact hk b (not_not.mp hs) hopen

/-! ### The way into a game -/

theorem recvVerifyAck_follows (h : Stage t.isMatch requests t.status) (ack : Option (Int × Bool))
    (hopen : (t.recvVerifyAck ack).Open) : Follows t.isMatch requests (t.recvVerifyAck ack) := by
  unfold recvVerifyAck at hopen ⊢
  by_cases hs : t.status ≠ .init
  · rw [if_pos hs] at hopen
    exact absurd hopen t.not_open_failed
  rw [if_neg hs] at hopen ⊢
  rw [not_not.mp hs] at h
  obtain rfl : requests = [] := h
  rcases ack with _ | ⟨result, hasGameName⟩
  · exact absurd hopen t.not_open_failed
  dsimp only at hopen ⊢
  split_ifs at hopen ⊢ with hresult hname htest
  · exact absurd hopen t.not_open_failed
  · exact .inr ⟨rfl, rfl⟩
  · exact absurd hopen.keep Bool.false_ne_true
  · exact .inr ⟨rfl, rfl⟩

theorem recvInitGameAck_follows (h : Stage t.isMatch requests t.status) (result : Option Int)
    (hopen : (t.recvInitGameAck result).Open) :
    Follows t.isMatch requests (t.recvInitGameAck result) := by
  unfold recvInitGameAck at hopen ⊢
  by_cases hs : t.status ≠ .verified
  · rw [if_pos hs] at hopen
    exact absurd hopen t.not_open_failed
  rw [if_neg hs] at hopen ⊢
  rw [not_not.mp hs] at h
  obtain rfl : requests = [.initGame] := h
  rcases result with _ | result
  · exact absurd hopen t.not_open_failed
  dsimp only at hopen ⊢
  by_cases hr : result ≠ 0
  · rw [if_pos hr] at hopen
    exact absurd hopen t.not_open_failed
  rw [if_neg hr]
  unfold nextActionProcess
  cases hkeep : t.needKeepPlay with
  | true => exact .inr ⟨rfl, rfl⟩
  | false =>
    dsimp only
    rw [if_neg (by rw [if_neg Bool.false_ne_true]; exact RobotStatus.noConfusion)]
    have hquery : Stage t.isMatch [.initGame, firstQuery t.isMatch] .initGame := rfl
    by_cases hm : t.isMatch = true
    · rw [if_pos hm]
      unfold firstQuery at hquery
      rw [if_pos hm] at hquery
      exact .inr ⟨rfl, hquery⟩
    · rw [if_neg hm]
      unfold firstQuery at hquery
      rw [if_neg hm] at hquery
      exact .inr ⟨rfl, hquery⟩

theorem recvQuickBeginGameAck_follows (h : Stage t.isMatch requests t.status)
    (result : Option Int) (hopen : (t.recvQuickBeginGameAck result).Open) :
    Follows t.isMatch requests (t.recvQuickBeginGameAck result) := by
  unfold recvQuickBeginGameAck at hopen ⊢
  by_cases hs : t.status ≠ .initGame
  · rw [if_pos hs] at hopen ⊢
    split_ifs at hopen ⊢
    · exact follows_handled h rfl
    · exact absurd hopen t.not_open_failed
  rw [if_neg hs] at hopen ⊢
  rw [not_not.mp hs] at h
  rcases result with _ | result
  · exact absurd hopen t.not_open_failed
  dsimp only at hopen ⊢
  split_ifs at hopen ⊢
  · exact h
  · exact absurd hopen.stays.symm Bool.false_ne_true
  · exact absurd hopen t.not_open_failed

theorem recvQuerySignUpCondAck_follows (h : Stage t.isMatch requests t.status)
    (ack : Option SignUpConditionAck) (hopen : (t.recvQuerySignUpCondAck ack).Open) :
    Follows t.isMatch requests (t.recvQuerySignUpCondAck ack) := by
  unfold recvQuerySignUpCondAck at hopen ⊢
  by_cases hs : t.status ≠ .initGame
  · rw [if_pos hs] at hopen
    exact absurd hopen t.not_open_failed
  rw [if_neg hs] at hopen ⊢
  rw [not_not.mp hs] at h
  obtain rfl : requests = [.initGame, firstQuery t.isMatch] := h
  rcases ack with _ | ack
  · exact absurd hopen t.not_open_failed
  dsimp only at hopen ⊢
  by_cases hr : ack.result ≠ 0
  · rw [if_pos hr] at hopen
    exact absurd hopen t.not_open_failed
  rw [if_neg hr] at hopen ⊢
  rcases hlimit : ack.limit with _ | limit
  · exact .inr ⟨rfl, t.costId, rfl⟩
  · cases limit with
    | false =>
      simp only [hlimit] at hopen
      exact absurd hopen t.not_open_failed
    | true =>
      simp only [hlimit] at hopen ⊢
      rcases hcost : ack.costList.find? (·.enable) with _ | cost
      · rw [hcost] at hopen
        exact absurd hopen t.not_open_failed
      · simp only [hcost]
        split
        · exact .inl rfl
        · exact .inr ⟨rfl, cost.id, rfl⟩

theorem recvSignUpAck_follows (h : Stage t.isMatch requests t.status) (result : Option Int)
    (hopen : (t.recvSignUpAck result).Open) :
    Follows t.isMatch requests (t.recvSignUpAck result) := by
  unfold recvSignUpAck at hopen ⊢
  by_cases hs : t.status ≠ .canSignUp
  · rw [if_pos hs] at hopen ⊢
    split_ifs at hopen ⊢
    · exact follows_handled h rfl
    · exact absurd hopen t.not_open_failed
  rw [if_neg hs] at hopen ⊢
  rw [not_not.mp hs] at h
  rcases result with _ | result
  · exact absurd hopen t.not_open_failed
  dsimp only at hopen ⊢
  split_ifs at hopen ⊢
  · exact absurd hopen t.not_open_failed
  · exact .inr h

theorem recvKeepPlayAck_follows (o : Outside) (ack : Option KeepPlayingAck)
    (hopen : (t.recvKeepPlayAck o ack).Open) :
    Follows t.isMatch requests (t.recvKeepPlayAck o ack) := by
  unfold recvKeepPlayAck at hopen ⊢
  split_ifs at hopen ⊢
  · exact absurd hopen t.not_open_failed
  rcases ack with _ | ack
  · exact absurd hopen t.not_open_failed
  dsimp only at hopen ⊢
  split_ifs at hopen ⊢
  · exact absurd hopen (not_open_failed _)
  rcases hfind : ack.playerinfo.findIdx? (·.1 = t.robotId) with _ | index
  · rw [hfind] at hopen
    exact absurd hopen t.not_open_failed
  · rw [hfind]
    exact follows_game (q := .trustCancel) trivial rfl (some 0)

theorem recvEnterGameSceneNotify_follows (ntf : Option Unit)
    (hopen : (t.recvEnterGameSceneNotify ntf).Open) :
    Follows t.isMatch requests (t.recvEnterGameSceneNotify ntf) := by
  unfold recvEnterGameSceneNotify at hopen ⊢
  rcases ntf with _ | ⟨⟩
  · exact absurd hopen t.not_open_failed
  dsimp only at hopen ⊢
  split_ifs at hopen ⊢
  · exact follows_game (q := .ready) trivial rfl (some 0)
  · exact absurd hopen t.not_open_failed

/-! ### The game -/

theorem recvInitHardCardNotify_follows (h : Stage t.isMatch requests t.status) (o : Outside)
    (ntf : Option (Int × List (List Int))) (hopen : (t.recvInitHardCardNotify o ntf).Open) :
    Follows t.isMatch requests (t.recvInitHardCardNotify o ntf) := by
  refine inGame_follows h (fun (headerseat, cards) hs hopen => ?_) hopen
  dsimp only at hopen ⊢
  split_ifs at hopen ⊢
  · exact absurd hopen t.not_open_failed
  · exact follows_game (q := .callScore _) trivial hs _
  · exact follows_handled h rfl

theorem recvUserCallScoreNotify_follows (h : Stage t.isMatch requests t.status) (o : Outside)
    (ntf : Option UserCallScoreNtf) (hopen : (t.recvUserCallScoreNotify o ntf).Open) :
    Follows t.isMatch requests (t.recvUserCallScoreNotify o ntf) := by
  refine inGame_follows h (fun ntf hs hopen => ?_) hopen
  dsimp only at hopen ⊢
  split_ifs at hopen ⊢
  · exact follows_handled h rfl
  · exact follows_handled h rfl
  · exact follows_game (q := .callScore _) trivial hs _
  · exact follows_game (q := .callScore _) trivial hs _

theorem recvGetBaseCardNotify_follows (h : Stage t.isMatch requests t.status) (o : Outside)
    (basecards : Option (List Int)) (hopen : (t.recvGetBaseCardNotify o basecards).Open) :
    Follows t.isMatch requests (t.recvGetBaseCardNotify o basecards) := by
  refine inGame_follows h (fun basecards hs hopen => ?_) hopen
  dsimp only at hopen ⊢
  split_ifs at hopen ⊢
  · exact follows_game (q := .takeOut _) trivial hs _
  · exact follows_handled h rfl

theorem recvTakeOutNotify_follows (h : Stage t.isMatch requests t.status) (o : Outside)
    (ntf : Option TakeoutCardNtf) (hopen : (t.recvTakeOutNotify o ntf).Open) :
    Follows t.isMatch requests (t.recvTakeOutNotify o ntf) := by
  refine inGame_follows h (fun ntf hs hopen => ?_) hopen
  dsimp only at hopen ⊢
  split_ifs at hopen ⊢
  · exact follows_game (q := .takeOut _) trivial hs _
  · exact follows_handled h rfl

theorem recvTrustNotify_follows (h : Stage t.isMatch requests t.status) (seatno : Option Int)
    (hopen : (t.recvTrustNotify seatno).Open) :
    Follows t.isMatch requests (t.recvTrustNotify seatno) := by
  refine inGame_follows h (fun seatno hs hopen => ?_) hopen
  dsimp only at hopen ⊢
  split_ifs at hopen ⊢
  · exact follows_game (q := .trustCancel) trivial hs (some 0)
  · exact follows_handled h rfl

/-- Every handler that leaves the connection open follows on from what has been
sent. -/
theorem handle_follows {o : Outside} {msg : Msg} (h : Stage t.isMatch requests t.status)
    {r : Outcome} (hr : t.handle o msg = some r) (hopen : r.Open) :
    Follows t.isMatch requests r := by
  -- the handlers that send nothing in a game
  have hquiet : ∀ {β : Type} {outside : Bool} {body : Option β} {f : β → RobotTask},
      (∀ b, (f b).status = t.status) → (t.inGame outside body fun b => (f b).handled).Open →
      Follows t.isMatch requests (t.inGame outside body fun b => (f b).handled) := by
    intro β outside body f hf ho
    exact inGame_follows h (fun b _ _ => follows_handled h (hf b)) ho
  cases msg
  case unhandled => exact nomatch hr
  all_goals obtain rfl := Option.some.inj hr
  case verifyAck ack => exact recvVerifyAck_follows h ack hopen
  case initGameAck result => exact recvInitGameAck_follows h result hopen
  case signUpConditionAck ack => exact recvQuerySignUpCondAck_follows h ack hopen
  case signUpAck result => exact recvSignUpAck_follows h result hopen
  case quickStartAck result => exact recvQuickBeginGameAck_follows h result hopen
  case keepAck ack => exact recvKeepPlayAck_follows o ack hopen
  case switchScene ntf => exact recvEnterGameSceneNotify_follows ntf hopen
  case startGame userinfo =>
    refine inGame_follows h (fun userinfo _ hopen => ?_) hopen
    dsimp only at hopen ⊢
    split <;> exact follows_handled h rfl
  case dealCard ntf => exact recvInitHardCardNotify_follows h o ntf hopen
  case callScore ntf => exact recvUserCallScoreNotify_follows h o ntf hopen
  case setLord seatlord => exact hquiet (fun _ => rfl) hopen
  case baseCard basecards => exact recvGetBaseCardNotify_follows h o basecards hopen
  case takeOut ntf => exact recvTakeOutNotify_follows h o ntf hopen
  case trust seatno => exact recvTrustNotify_follows h seatno hopen
  case gameOver ntf =>
    rcases ntf with _ | ⟨⟩
    · exact follows_handled h rfl
    · exact absurd hopen t.not_open_finished
  case gameResult =>
    simp only [recvGetGameResultNotify] at hopen ⊢
    split_ifs at hopen ⊢
    · exact h.talk
    · exact absurd hopen t.not_open_finished
  case matchOver => exact absurd hopen t.not_open_finished
  case readyAck result => exact hquiet (fun _ => rfl) hopen
  case callScoreAck result => exact hquiet (fun _ => rfl) hopen
  case takeOutAck result => exact hquiet (fun _ => rfl) hopen
  case trustCancelAck result => exact hquiet (fun _ => rfl) hopen
  case cancelSignUpAck result =>
    simp only [recvCancelSignUpAck] at hopen ⊢
    rcases result with _ | result
    · exact absurd hopen t.not_open_failed
    · dsimp only at hopen ⊢
      split_ifs at hopen ⊢
      · exact absurd hopen t.not_open_failed
      · exact follows_handled h rfl

/-- A robot in a game stays in it as long as its connection is open. -/
theorem handle_gamming {o : Outside} {msg : Msg} (ht : t.status = .gamming) {r : Outcome}
    (hr : t.handle o msg = some r) (hopen : r.Open) : r.task.status = .gamming := by
  -- had it sent a request of the game only, no other stage would do
  have hready : Stage t.isMatch [.ready] t.status := by
    rw [ht]
    exact Entry.nothing.talk.ofGame (q := .ready) trivial
  have hfollows := handle_follows hready hr hopen
  unfold Follows at hfollows
  cases hq : r.node.request with
  | none =>
    rw [hq] at hfollows
    exact Stage.eq_gamming hfollows
  | some q =>
    rw [hq] at hfollows
    rcases hfollows with ⟨-, hs⟩ | ⟨-, hstage⟩
    · exact hs
    · exact Stage.eq_gamming hstage

end RobotTask

/-- A node that has the connection closed. -/
def MsgNode.Closing (node : MsgNode) : Prop :=
  node.needKeepPlay = false ∨ node.needDelRobot = true ∨
    node.request = none ∧ node.gameIsOver = true

theorem RobotTask.Changes.isMatch_eq {t t' : RobotTask} {msg : Msg} (h : t.Changes msg t') :
    t'.isMatch = t.isMatch := by
  unfold Changes at h
  rw [h]

namespace RobotTask.Ends

variable {t : RobotTask} {msg : Msg} {r : Outcome}

/-- No handler changes the kind of game a robot plays. -/
theorem isMatch_eq (h : t.Ends msg r) : r.task.isMatch = t.isMatch := by
  cases h with
  | failed h => exact h.isMatch_eq
  | handled h => exact h.isMatch_eq
  | send h => exact h.isMatch_eq
  | finished h => exact h.isMatch_eq
  | tested h => exact h.isMatch_eq
  | deleted h => exact h.isMatch_eq

/-- A handler fails, has the connection closed, or leaves it open. -/
theorem open_or (h : t.Ends msg r) : r.ok = false ∨ r.ok = true ∧ r.node.Closing ∨ r.Open := by
  cases h with
  | failed => exact .inl rfl
  | handled => exact .inr (.inr ⟨rfl, rfl, rfl, rfl⟩)
  | send => exact .inr (.inr ⟨rfl, rfl, rfl, rfl⟩)
  | finished => exact .inr (.inl ⟨rfl, .inr (.inr ⟨rfl, rfl⟩)⟩)
  | tested => exact .inr (.inl ⟨rfl, .inl rfl⟩)
  | deleted => exact .inr (.inl ⟨rfl, .inr (.inl rfl)⟩)

end RobotTask.Ends

/-! ## Runs -/

namespace Link

/-- What a connection has sent, heartbeats aside. -/
def requests (l : Link) : List Request := l.sent.filter (· ≠ .heartbeat)

/-- What is true of a connection all along. -/
structure Staged (isMatch : Bool) (l : Link) : Prop where
  mode : l.task.isMatch = isMatch
  stage : l.closed = false → Stage isMatch l.requests l.task.status
  talk : Talk isMatch l.requests
  delayed : ∀ p ∈ l.delayed, p.1.OfGame
  playing : l.closed = false → l.delayed ≠ [] → l.task.status = .gamming

theorem staged_connect (l : Link) (isTestKeepPlay : Bool) :
    Staged l.task.isMatch (l.connect isTestKeepPlay) := by
  refine ⟨?_, fun _ => ?_, Entry.nothing.talk, fun p hp => absurd hp List.not_mem_nil,
    fun _ hne => absurd rfl hne⟩
  · unfold connect
    split <;> rfl
  · have hstatus : (l.connect isTestKeepPlay).task.status = .init := by
      unfold connect
      split <;> rfl
    rw [hstatus]
    rfl

variable {isMatch : Bool} {l : Link}

/-- What has been sent when the connection closes. -/
theorem Staged.close (h : Staged isMatch l) {task : RobotTask} (ht : task.isMatch = isMatch)
    (deleted : Bool) :
    Staged isMatch { l with task := task, closed := true, deleted := deleted } :=
  ⟨ht, fun hc => Bool.noConfusion hc, h.talk, h.delayed, fun hc => Bool.noConfusion hc⟩

/-- A closing node closes the connection and sends nothing. -/
theorem analysisAndDecision_closing (l : Link) {node : MsgNode} (h : node.Closing) :
    ∃ deleted, l.analysisAndDecision node = { l with closed := true, deleted := deleted } := by
  unfold analysisAndDecision
  split
  · exact ⟨l.deleted, rfl⟩
  next hkeep =>
  split
  · exact ⟨true, rfl⟩
  next hdel =>
    rcases h with hno | hdel' | ⟨hnone, hover⟩
    · rw [hno] at hkeep
      exact absurd rfl hkeep
    · exact absurd hdel' hdel
    · rw [hnone]
      exact ⟨l.deleted, if_pos hover⟩

/-- A request goes out. -/
theorem requests_send (l : Link) {q : Request} (hq : q ≠ .heartbeat) (task : RobotTask) :
    ({ l with task := task, sent := l.sent ++ [q] } : Link).requests = l.requests ++ [q] := by
  have hone : [q].filter (fun q => decide (q ≠ .heartbeat)) = [q] :=
    List.filter_cons_of_pos (decide_eq_true hq)
  unfold requests
  rw [List.filter_append, hone]

/-- The connection stays open: the request of the handler goes out or is
delayed. -/
theorem Staged.analysis (h : Staged isMatch l) (hc : l.closed = false) {r : Outcome}
    (hmode : r.task.isMatch = isMatch) (hopen : r.Open)
    (hstays : l.task.status = .gamming → r.task.status = .gamming)
    (hfollows : Follows isMatch l.requests r) :
    Staged isMatch ({ l with task := r.task }.analysisAndDecision r.node) := by
  unfold analysisAndDecision
  rw [hopen.keep, hopen.stays, if_neg (show ¬(!true) = true from Bool.false_ne_true),
    if_neg Bool.false_ne_true]
  have hplaying : l.delayed ≠ [] → r.task.status = .gamming := fun hne => hstays (h.playing hc hne)
  unfold Follows at hfollows
  cases hq : r.node.request with
  | none =>
    rw [hq] at hfollows
    dsimp only
    rw [hopen.goesOn, if_neg Bool.false_ne_true]
    exact ⟨hmode, fun _ => hfollows, h.talk, h.delayed, fun _ => hplaying⟩
  | some q =>
    rw [hq] at hfollows
    dsimp only
    by_cases hdelay : r.node.delaySecond = some 0
    · -- it goes out now
      rw [if_neg (not_not.mpr hdelay), if_neg (by rw [hc]; exact Bool.false_ne_true)]
      have hnext : Stage isMatch (l.requests ++ [q]) r.task.status := by
        rcases hfollows with ⟨hgame, hs⟩ | ⟨-, hstage⟩
        · rw [hs]
          exact h.talk.ofGame hgame
        · exact hstage
      have hne : q ≠ .heartbeat := by
        rintro rfl
        exact hnext.talk.heartbeat (List.mem_append_right _ (List.mem_singleton.mpr rfl))
      have hsent := requests_send l hne r.task
      refine ⟨hmode, fun _ => ?_, ?_, h.delayed, fun _ => hplaying⟩
      · rw [hsent]
        exact hnext
      · rw [hsent]
        exact hnext.talk
    · -- only a request of the game is held back
      rw [if_pos hdelay]
      rcases hfollows with ⟨hgame, hs⟩ | ⟨h0, -⟩
      · refine ⟨hmode, fun _ => ?_, h.talk, fun p hp => ?_, fun _ _ => hs⟩
        · show Stage isMatch l.requests r.task.status
          rw [hs]
          exact h.talk
        · rcases List.mem_append.mp hp with hin | hlast
          · exact h.delayed p hin
          · rw [List.mem_singleton.mp hlast]
            exact hgame
      · exact absurd h0 hdelay

/-- A message on an open connection: its handler fails, closes, or leaves the
connection open in a stage that follows from the one before. -/
theorem Staged.receive (h : Staged isMatch l) (hc : l.closed = false) (o : Outside) (msg : Msg) :
    Staged isMatch (l.robotProcess o msg).1 := by
  unfold robotProcess
  cases hr : l.task.handle o msg with
  | none => exact h
  | some r =>
    have hends := RobotTask.handle_ends hr
    have hmode : r.task.isMatch = isMatch := hends.isMatch_eq.trans h.mode
    have hstage := h.stage hc
    rw [← h.mode] at hstage
    dsimp only
    rcases hends.open_or with hok | ⟨hok, hclosing⟩ | hopen
    · rw [hok]
      have hinit : { r.task with status := .init }.isMatch = isMatch := hmode
      exact h.close hinit l.deleted
    · rw [hok]
      obtain ⟨deleted, heq⟩ := analysisAndDecision_closing { l with task := r.task } hclosing
      show Staged isMatch ({ l with task := r.task }.analysisAndDecision r.node)
      rw [heq]
      exact h.close hmode deleted
    · rw [hopen.ok]
      refine h.analysis hc hmode hopen (fun ht => RobotTask.handle_gamming ht hr hopen) ?_
      rw [← h.mode]
      exact RobotTask.handle_follows hstage hr hopen

/-- One event. -/
theorem Staged.step (h : Staged isMatch l) (e : LinkEvent) : Staged isMatch (l.step e) := by
  unfold Link.step
  cases hc : l.closed with
  | true => exact h
  | false =>
    cases e with
    | receive o msg => exact h.receive hc o msg
    | heartBeatTime =>
      have hsame : ({ l with sent := l.sent ++ [.heartbeat] } : Link).requests = l.requests := by
        have hone : [Request.heartbeat].filter (fun q => decide (q ≠ .heartbeat)) = [] := rfl
        unfold requests
        rw [List.filter_append, hone, List.append_nil]
      refine ⟨h.mode, fun _ => ?_, ?_, h.delayed, fun _ => h.playing hc⟩
      · show Stage isMatch ({ l with sent := l.sent ++ [.heartbeat] } : Link).requests _
        rw [hsame]
        exact h.stage hc
      · show Talk isMatch ({ l with sent := l.sent ++ [.heartbeat] } : Link).requests
        rw [hsame]
        exact h.talk

/-- On every connection, whatever is received on it in whatever order: the
requests sent are `INIT_GAME`, then `KEEP_PLAY` or the query for the robot's
kind of game and at most one sign-up, then requests of the game, and only
requests of the game are delayed. A request that waits was made in a game,
after the way in (`Staged.playing`), so that it breaks no order when it is
sent. -/
theorem talk_run (l : Link) (isTestKeepPlay : Bool) (es : List LinkEvent) :
    Talk l.task.isMatch (run Link.step (l.connect isTestKeepPlay) es).requests ∧
      ∀ p ∈ (run Link.step (l.connect isTestKeepPlay) es).delayed, p.1.OfGame := by
  have hend : Staged l.task.isMatch (run Link.step (l.connect isTestKeepPlay) es) := by
    have hstart := staged_connect l isTestKeepPlay
    generalize l.connect isTestKeepPlay = l' at hstart
    induction es generalizing l' with
    | nil => exact hstart
    | cons e es ih => exact ih _ (hstart.step e)
  exact ⟨hend.talk, hend.delayed⟩

end Link

end RobotDdz
