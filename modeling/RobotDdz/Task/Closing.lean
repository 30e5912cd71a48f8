import RobotDdz.Task.Outcomes

/-!
# When a connection is closed

`RobotProcess` closes the connection through `DelRobot` or
`DelRobotAndCloseConnection` and tells `OnReadEvent` so by returning
`CLOSE_CONNECTION`. The closing follows three flags of the `MsgNode` and the
returned value two of them: a robot that was only connected to see whether it
has a game to go on with is disconnected behind the loop's back
(`closes_iff_returns`).

The two flags that decide the returned value are `gameIsOver` and
`needDelRobot`; the third, `needKeepPlay`, closes without a trace in it.
`Outcome.Agrees` states when the flags say the same to both functions,
`RobotTask.Ends.agrees` goes through the ends of a handler, and only one of
them does not agree. The loop of `OnReadEvent` is then a list of rounds, each
with the connection it finds, and what it reads from a closed connection can be
said of that list.

Mirroring notes vs `RobotBase.cpp` and `EventProcess.cpp`:
- `RobotProcess` returns `true` as an `int` where nothing is to be said about
  the connection; `OnReadEvent` compares with `CLOSE_CONNECTION` only.
- A round that finds fewer bytes than a header breaks off the loop. It still
  looks at the buffer of the connection, so it counts as a read.
-/

namespace RobotDdz

/-- The answer to `VerifyAck` that ends the test for games to go on with:
success without a `gameName`. -/
structure KeepPlayTestEnds (t : RobotTask) (msg : Msg) : Prop where
  test : t.isTestNeedKeepPlay = true
  init : t.status = .init
  ack : msg = .verifyAck (some (0, false))

/-- An outcome whose flags `RobotProcess` and `AnalysisAndDecision` read alike:
the robot is not told to leave through `needKeepPlay`, and a game that is over
leaves nothing to send. -/
def Outcome.Agrees (r : Outcome) : Prop :=
  r.ok = true → r.node.needKeepPlay = true ∧ (r.node.gameIsOver = true → r.node.request = none)

/-- Every end of a handler but that of the test, the one that tells the robot
to leave through `needKeepPlay`. -/
theorem RobotTask.Ends.agrees {t : RobotTask} {msg : Msg} {r : Outcome} (he : t.Ends msg r)
    (h : ¬KeepPlayTestEnds t msg) : r.Agrees := by
  cases he with
  | failed => exact fun hok => Bool.noConfusion hok
  | handled => exact fun _ => ⟨rfl, fun _ => rfl⟩
  | send => exact fun _ => ⟨rfl, fun hover => Bool.noConfusion hover⟩
  | finished => exact fun _ => ⟨rfl, fun _ => rfl⟩
  | tested _ test init ack => exact absurd ⟨test, init, ack⟩ h
  | deleted => exact fun _ => ⟨rfl, fun _ => rfl⟩

namespace Link

variable {l : Link} {o : Outside} {msg : Msg}

/-- The loop of `OnReadEvent`: the connection as each round finds it, and the
message the round reads off it; `none` is a round that breaks off in the
header. -/
def onReadEvent (l : Link) :
    List (Option (Outside × Msg)) → List (Link × Option (Outside × Msg))
  | [] => []
  | none :: _ => [(l, none)]
  | some (o, msg) :: buffer =>
    let r := l.robotProcess o msg
    (l, some (o, msg)) :: if r.2 = .closeConnection then [] else r.1.onReadEvent buffer

/-- What `AnalysisAndDecision` closes and what `RobotProcess` returns, for
flags that agree. -/
theorem analysisAndDecision_closed (hc : l.closed = false) {node : MsgNode}
    (hkeep : node.needKeepPlay = true) (hover : node.gameIsOver = true → node.request = none) :
    (l.analysisAndDecision node).closed = true ↔
      node.gameIsOver = true ∨ node.needDelRobot = true := by
  have hopen : ¬l.closed = true := by rw [hc]; exact Bool.false_ne_true
  unfold analysisAndDecision
  rw [if_neg (by rw [hkeep]; exact Bool.false_ne_true)]
  by_cases hdel : node.needDelRobot = true
  · rw [if_pos hdel]
    exact ⟨fun _ => Or.inr hdel, fun _ => rfl⟩
  rw [if_neg hdel]
  cases hrequest : node.request with
  | none =>
    dsimp only
    split
    · exact ⟨fun _ => Or.inl ‹_›, fun _ => rfl⟩
    · exact ⟨fun h => absurd h hopen, fun h => absurd h (not_or.mpr ⟨‹_›, hdel⟩)⟩
  | some request =>
    -- a request goes out or waits, and the game is not over
    have hrun : ¬(node.gameIsOver = true ∨ node.needDelRobot = true) := by
      rintro (h | h)
      · rw [hover h] at hrequest
        exact nomatch hrequest
      · exact hdel h
    dsimp only
    split_ifs
    · exact ⟨fun h => absurd h hopen, fun h => absurd h hrun⟩
    · exact ⟨fun h => absurd h hopen, fun h => absurd h hrun⟩

/-- The closing and the returned value agree, but at the end of the test for
games to go on with, where the connection is closed and the value says that it
is not. -/
theorem robotProcess_agrees (hc : l.closed = false) (h : ¬KeepPlayTestEnds l.task msg) :
    (l.robotProcess o msg).1.closed = true ↔ (l.robotProcess o msg).2 = .closeConnection := by
  unfold robotProcess
  cases hr : l.task.handle o msg with
  | none =>
    dsimp only
    rw [hc]
    exact ⟨fun h => Bool.noConfusion h, fun h => nomatch h⟩
  | some r =>
    dsimp only
    by_cases hok : r.ok = true
    · rw [if_neg (by rw [hok]; exact Bool.false_ne_true)]
      obtain ⟨hkeep, hover⟩ := (RobotTask.handle_ends hr).agrees h hok
      have hopen : ({ l with task := r.task } : Link).closed = false := hc
      refine (analysisAndDecision_closed hopen hkeep hover).trans ?_
      rw [← Bool.or_eq_true]
      dsimp only
      split
      · exact ⟨fun _ => rfl, fun _ => ‹_›⟩
      · exact ⟨fun h => absurd h ‹_›, fun h => nomatch h⟩
    · rw [if_pos (by rw [Bool.eq_false_of_not_eq_true hok]; rfl)]
      exact ⟨fun _ => rfl, fun _ => rfl⟩

/-- At the end of the test the connection is closed and the loop not told. -/
theorem robotProcess_test (h : KeepPlayTestEnds l.task msg) :
    l.robotProcess o msg = ({ l with closed := true }, .done) := by
  obtain ⟨htest, hinit, rfl⟩ := h
  have hr : l.task.handle o (.verifyAck (some (0, false)))
      = some { ok := true, task := l.task, node := { needKeepPlay := false } } := by
    show some (l.task.recvVerifyAck (some (0, false))) = _
    unfold RobotTask.recvVerifyAck
    rw [if_neg (not_not.mpr hinit)]
    dsimp only
    rw [if_neg (fun h => h rfl), if_neg Bool.false_ne_true, if_pos htest]
  unfold robotProcess
  rw [hr]
  rfl

/-- The two sides agree on a message exactly when it does not end the test. -/
theorem robotProcess_agrees_iff (hc : l.closed = false) :
    ((l.robotProcess o msg).1.closed = true ↔ (l.robotProcess o msg).2 = .closeConnection) ↔
      ¬KeepPlayTestEnds l.task msg := by
  refine ⟨fun h htest => ?_, robotProcess_agrees hc⟩
  rw [robotProcess_test htest] at h
  exact nomatch h.mp rfl

/-- A round reads from the connection as the round before it has left it. -/
theorem onReadEvent_head (l : Link) {buffer : List (Option (Outside × Msg))} (h : buffer ≠ []) :
    ∃ rest, l.onReadEvent buffer = (l, buffer.head h) :: rest := by
  rcases buffer with _ | ⟨_ | ⟨o, msg⟩, buffer⟩
  · exact absurd rfl h
  · exact ⟨_, rfl⟩
  · exact ⟨_, rfl⟩

/-- The loop reads from an open connection only, when no round but the last
ends the test. -/
theorem onReadEvent_open (buffer : List (Option (Outside × Msg))) :
    ∀ {l : Link}, l.closed = false →
      ((∀ r ∈ l.onReadEvent buffer, r.1.closed = false) ↔
        ∀ r ∈ (l.onReadEvent buffer).dropLast, ∀ o msg, r.2 = some (o, msg) →
          ¬KeepPlayTestEnds r.1.task msg) := by
  induction buffer with
  | nil => exact fun _ => ⟨fun _ r hr => (nomatch hr), fun _ r hr => (nomatch hr)⟩
  | cons round buffer ih =>
    intro l hc
    -- a last round leaves nothing to ask for
    have hlast : (∀ r ∈ [(l, round)], r.1.closed = false) ↔
        ∀ r ∈ [(l, round)].dropLast, ∀ o msg, r.2 = some (o, msg) →
          ¬KeepPlayTestEnds r.1.task msg := by
      refine ⟨fun _ r hr => (nomatch hr), fun _ r hr => ?_⟩
      rw [List.mem_singleton.mp hr]
      exact hc
    rcases round with _ | ⟨o, msg⟩
    · exact hlast
    by_cases hret : (l.robotProcess o msg).2 = .closeConnection
    · rw [onReadEvent, if_pos hret]
      exact hlast
    rw [onReadEvent, if_neg hret]
    rcases eq_or_ne buffer [] with rfl | hbuffer
    · exact hlast
    obtain ⟨rest, hrest⟩ := onReadEvent_head (l.robotProcess o msg).1 hbuffer
    have hne : (l.robotProcess o msg).1.onReadEvent buffer ≠ [] := by
      rw [hrest]
      exact List.cons_ne_nil _ _
    rw [List.dropLast_cons_of_ne_nil hne]
    by_cases htest : KeepPlayTestEnds l.task msg
    · refine ⟨fun h => ?_, fun h => absurd htest (h _ List.mem_cons_self o msg rfl)⟩
      have hopen := h ((l.robotProcess o msg).1, buffer.head hbuffer) (by
        rw [hrest]
        exact List.mem_cons_of_mem _ List.mem_cons_self)
      rw [robotProcess_test htest] at hopen
      exact nomatch hopen
    · have hopen : (l.robotProcess o msg).1.closed = false :=
        Bool.eq_false_of_not_eq_true fun h => hret ((robotProcess_agrees hc htest).mp h)
      rw [List.forall_mem_cons, List.forall_mem_cons, ih hopen]
      refine and_congr ⟨fun _ o' msg' h => ?_, fun _ => hc⟩ Iff.rfl
      obtain ⟨rfl, rfl⟩ := Prod.mk.inj (Option.some.inj h)
      exact htest

end Link

/-- For an open connection, the closing and the returned value agree on just
the messages that do not end the test for games to go on with, and
`OnReadEvent` leaves a closed connection alone just when no such message has
bytes behind it. -/
theorem closes_iff_returns {l : Link} (hc : l.closed = false) :
    (∀ o msg, ((l.robotProcess o msg).1.closed = true ↔
        (l.robotProcess o msg).2 = .closeConnection) ↔ ¬KeepPlayTestEnds l.task msg) ∧
      ∀ buffer, (∀ r ∈ l.onReadEvent buffer, r.1.closed = false) ↔
        ∀ r ∈ (l.onReadEvent buffer).dropLast, ∀ o msg, r.2 = some (o, msg) →
          ¬KeepPlayTestEnds r.1.task msg :=
  ⟨fun _ _ => Link.robotProcess_agrees_iff hc, fun buffer => Link.onReadEvent_open buffer hc⟩

/-- The connection of a robot that is only tested. -/
def testedLink : Link where
  task :=
    { robotId := 7, isMatch := true, delaySendActiveMsgTime := 5, delaySendPassiveMsgTime := 4
      costId := 0, isTestNeedKeepPlay := true }

theorem closes_iff_returns_tested :
    (∀ o msg, ((testedLink.robotProcess o msg).1.closed = true ↔
        (testedLink.robotProcess o msg).2 = .closeConnection) ↔
          ¬KeepPlayTestEnds testedLink.task msg) ∧
      ∀ buffer, (∀ r ∈ testedLink.onReadEvent buffer, r.1.closed = false) ↔
        ∀ r ∈ (testedLink.onReadEvent buffer).dropLast, ∀ o msg, r.2 = some (o, msg) →
          ¬KeepPlayTestEnds r.1.task msg :=
  closes_iff_returns rfl

/-- Success without a `gameName` and two bytes more: the connection is closed,
`true` is returned, and the loop reads from the closed connection. -/
theorem testedLink_read_after_closing :
    ¬∀ l : Link, l.closed = false →
      (∀ o msg, (l.robotProcess o msg).1.closed = true ↔
        (l.robotProcess o msg).2 = .closeConnection) ∧
      ∀ buffer, ∀ r ∈ l.onReadEvent buffer, r.1.closed = false := by
  intro h
  have hread := (h testedLink rfl).2 [some (⟨.zero, 0⟩, .verifyAck (some (0, false))), none]
    ({ testedLink with closed := true }, none) (List.mem_cons_of_mem _ List.mem_cons_self)
  exact nomatch hread

end RobotDdz
