import RobotDdz.Task.Handlers
import RobotDdz.Lib.Runs
import Mathlib.Data.List.Permutation

/-!
# Sign-up and scene

A robot that has asked for a game is told twice that it has one: by the ack of
its request and by `NOTIFY_SWITCH_SCENE`. `RecvEnterGameSceneNotify` has a
branch for a scene that comes before the ack, and it tests for `INITGAME`: that
is where a robot waits for the ack of a quick start, but one that has signed up
waits in `CANSINGUP`.

`enters_game_iff`: whatever heartbeats come between the two, the robot ends in
the game just when it plays a game room or the ack comes first.

The handler of the scene takes five statuses and closes the connection in the
others. So the scene that comes second is always taken, the ack that comes
second meets a robot in the game, and what decides is the status that a robot
waits for its ack in. Heartbeats change neither, which is `SameLink`.

Mirroring notes vs `RobotTask.cpp`:
- `RecvQuickBeginGameAck` waits in `INITGAME` and `RecvSignUpAck` in
  `CANSINGUP`.
- The message `RecvEnterGameSceneNotify` logs for `INITGAME` names both acks.
-/

namespace RobotDdz

open Runs

/-- The request by which a robot asks for a game. -/
def entryRequest (t : RobotTask) : Request :=
  if t.isMatch then .signUp t.costId else .quickStart

/-- The connection of a robot that has just sent it. -/
def asking (t : RobotTask) : Link :=
  { task := { t with status := if t.isMatch then .canSignUp else .initGame }
    sent := [entryRequest t] }

/-- The acks that say the request succeeded. -/
def SuccessAck (t : RobotTask) : Msg → Prop
  | .signUpAck (some result) => t.isMatch = true ∧ (result = 0 ∨ result = 508)
  | .quickStartAck (some result) => t.isMatch = false ∧ result = 0
  | _ => False

/-- Heartbeats, in either direction. -/
def LinkEvent.isHeartbeat : LinkEvent → Bool
  | .receive _ .unhandled | .heartBeatTime => true
  | .receive _ _ => false

/-- The events that are no heartbeats. -/
def arrivals (es : List LinkEvent) : List LinkEvent := es.filter fun e => !e.isHeartbeat

/-- The robot is in the game: in `GAMMING`, ready, and still connected. -/
structure InGame (l : Link) : Prop where
  status : l.task.status = .gamming
  ready : .ready ∈ l.sent
  connected : l.closed = false

/-- A heartbeat changes neither the robot nor the connection. -/
structure SameLink (l l' : Link) : Prop where
  task : l'.task = l.task
  closed : l'.closed = l.closed
  ready : Request.ready ∈ l'.sent ↔ Request.ready ∈ l.sent

namespace SameLink

theorem refl (l : Link) : SameLink l l := ⟨rfl, rfl, Iff.rfl⟩

theorem trans {l l' l'' : Link} (h : SameLink l l') (h' : SameLink l' l'') : SameLink l l'' :=
  ⟨h'.task.trans h.task, h'.closed.trans h.closed, h'.ready.trans h.ready⟩

theorem heartbeat (l : Link) {e : LinkEvent} (he : e.isHeartbeat = true) :
    SameLink l (l.step e) := by
  unfold Link.step
  split
  · exact refl l
  · cases e with
    | heartBeatTime => exact ⟨rfl, rfl, by simp⟩
    | receive o msg =>
      cases msg with
      | unhandled => exact refl l
      | _ => exact absurd he Bool.false_ne_true

theorem heartbeats {es : List LinkEvent} (hes : ∀ e ∈ es, e.isHeartbeat = true) :
    ∀ l : Link, SameLink l (run Link.step l es) := by
  induction es with
  | nil => exact refl
  | cons e es ih =>
    intro l
    have hrest : ∀ e' ∈ es, e'.isHeartbeat = true :=
      fun e' he' => hes e' (List.mem_cons_of_mem _ he')
    exact (heartbeat l (hes e List.mem_cons_self)).trans (ih hrest _)

theorem inGame {l l' : Link} (h : SameLink l l') : InGame l' ↔ InGame l := by
  constructor
  · intro hin
    exact ⟨h.task ▸ hin.status, h.ready.mp hin.ready, h.closed ▸ hin.connected⟩
  · intro hin
    exact ⟨h.task ▸ hin.status, h.ready.mpr hin.ready, h.closed ▸ hin.connected⟩

end SameLink

/-! ## The two messages -/

/-- The statuses in which a scene is taken. -/
def sceneStatuses : List RobotStatus := [.signUped, .quickGame, .gamming, .keepPlay, .initGame]

/-- A scene in one of these statuses. -/
theorem step_scene {l : Link} (hc : l.closed = false) (hs : l.task.status ∈ sceneStatuses)
    (o : Outside) : l.step (.receive o (.switchScene (some ()))) = { l with
      task := { l.task with status := .gamming, robot := l.task.robot.rbtResetData }
      sent := l.sent ++ [.ready] } := by
  have hhandle : l.task.handle o (.switchScene (some ()))
      = some (RobotTask.send { l.task with
        status := .gamming, robot := l.task.robot.rbtResetData } .ready (some 0)) :=
    congrArg some (if_pos hs)
  exact Link.step_send hc hhandle

theorem inGame_scene {l : Link} (hc : l.closed = false) (hs : l.task.status ∈ sceneStatuses)
    (o : Outside) : InGame (l.step (.receive o (.switchScene (some ())))) := by
  rw [step_scene hc hs]
  exact ⟨rfl, List.mem_append_right _ (List.mem_singleton.mpr rfl), hc⟩

/-- A scene in any other status closes the connection. -/
theorem closed_scene {l : Link} (hc : l.closed = false) (hs : l.task.status ∉ sceneStatuses)
    (o : Outside) : (l.step (.receive o (.switchScene (some ())))).closed = true := by
  have hhandle : l.task.handle o (.switchScene (some ())) = some l.task.failed :=
    congrArg some (if_neg hs)
  rw [Link.step_failed hc hhandle rfl]

/-- A closed connection stays closed. -/
theorem closed_run (es : List LinkEvent) : ∀ {l : Link}, l.closed = true →
    (run Link.step l es).closed = true := by
  induction es with
  | nil => intro l h; exact h
  | cons e es ih =>
    intro l h
    rw [run_cons, Link.step_closed h]
    exact ih h

/-- The ack while the robot waits for it: the robot is ready for the scene, as
`SIGNUPED` after a sign-up and `QUICKGAME` after a quick start. -/
theorem waiting_ack {t : RobotTask} {ack : Msg} (hack : SuccessAck t ack) {l : Link}
    (hl : SameLink (asking t) l) (o : Outside) :
    (l.step (.receive o ack)).closed = false ∧
      (l.step (.receive o ack)).task.status ∈ sceneStatuses := by
  have hc : l.closed = false := hl.closed
  cases ack with
  | signUpAck result =>
    cases result with
    | none => exact absurd hack id
    | some result =>
      obtain ⟨hm, hresult⟩ := hack
      have hs : l.task.status = .canSignUp := by
        rw [hl.task]
        exact if_pos hm
      have hhandle : l.task.handle o (.signUpAck (some result))
          = some (RobotTask.handled { l.task with status := .signUped }) := by
        show some (l.task.recvSignUpAck (some result)) = _
        unfold RobotTask.recvSignUpAck
        rw [if_neg (not_not.mpr hs)]
        exact congrArg some (if_neg (by omega))
      rw [Link.step_handled hc hhandle]
      exact ⟨hc, List.mem_cons_self⟩
  | quickStartAck result =>
    cases result with
    | none => exact absurd hack id
    | some result =>
      obtain ⟨hm, rfl⟩ := hack
      have hs : l.task.status = .initGame := by
        rw [hl.task]
        exact if_neg (by rw [hm]; exact Bool.false_ne_true)
      have hhandle : l.task.handle o (.quickStartAck (some 0))
          = some (RobotTask.handled { l.task with status := .quickGame }) := by
        show some (l.task.recvQuickBeginGameAck (some 0)) = _
        unfold RobotTask.recvQuickBeginGameAck
        rw [if_neg (not_not.mpr hs)]
        rfl
      rw [Link.step_handled hc hhandle]
      exact ⟨hc, List.mem_cons_of_mem _ List.mem_cons_self⟩
  | _ => exact absurd hack id

/-- The ack when the game has begun changes nothing. -/
theorem inGame_ack {t : RobotTask} {ack : Msg} (hack : SuccessAck t ack) {l : Link}
    (hl : InGame l) (o : Outside) : InGame (l.step (.receive o ack)) := by
  have hne : RobotStatus.gamming ≠ .canSignUp ∧ RobotStatus.gamming ≠ .initGame := by decide
  have hhandle : l.task.handle o ack = some l.task.handled := by
    cases ack with
    | signUpAck result =>
      show some (l.task.recvSignUpAck result) = _
      unfold RobotTask.recvSignUpAck
      rw [if_pos (by rw [hl.status]; exact hne.1), if_pos hl.status]
    | quickStartAck result =>
      show some (l.task.recvQuickBeginGameAck result) = _
      unfold RobotTask.recvQuickBeginGameAck
      rw [if_pos (by rw [hl.status]; exact hne.2), if_pos hl.status]
    | _ => exact absurd hack id
  rw [Link.step_handled hl.connected hhandle]
  exact hl

/-! ## Both -/

/-- Two events in an order, with heartbeats around them. -/
theorem split_arrivals {es : List LinkEvent} {a b : LinkEvent} (h : arrivals es = [a, b]) :
    ∃ h₁ h₂ h₃, es = h₁ ++ a :: (h₂ ++ b :: h₃) ∧ (∀ e ∈ h₁, e.isHeartbeat = true) ∧
      (∀ e ∈ h₂, e.isHeartbeat = true) ∧ ∀ e ∈ h₃, e.isHeartbeat = true := by
  obtain ⟨h₁, rest, rfl, hh₁, -, hrest⟩ := List.filter_eq_cons_iff.mp h
  obtain ⟨h₂, h₃, rfl, hh₂, -, hlast⟩ := List.filter_eq_cons_iff.mp hrest
  have hh₃ := List.filter_eq_nil_iff.mp hlast
  refine ⟨h₁, h₂, h₃, rfl, fun e he => ?_, fun e he => ?_, fun e he => ?_⟩
  · simpa using hh₁ e he
  · simpa using hh₂ e he
  · simpa using hh₃ e he

/-- The ack of the entry request and the scene, in whatever order and between
whatever heartbeats, bring the robot into the game exactly when it plays a game
room or the ack comes first. -/
theorem enters_game_iff {t : RobotTask} {ack : Msg} (hack : SuccessAck t ack) (o o' : Outside)
    {es : List LinkEvent}
    (hes : (arrivals es).Perm [.receive o ack, .receive o' (.switchScene (some ()))]) :
    InGame (run Link.step (asking t) es) ↔
      t.isMatch = false ∨ arrivals es = [.receive o ack, .receive o' (.switchScene (some ()))] := by
  have hne : LinkEvent.receive o' (.switchScene (some ())) ≠ .receive o ack := by
    intro he
    cases he
    exact hack
  rcases List.perm_pair.mp hes with hfirst | hlast
  · -- the ack comes first
    refine ⟨fun _ => Or.inr hfirst, fun _ => ?_⟩
    obtain ⟨h₁, h₂, h₃, rfl, hh₁, hh₂, hh₃⟩ := split_arrivals hfirst
    rw [run_append, run_cons, run_append, run_cons, (SameLink.heartbeats hh₃ _).inGame]
    obtain ⟨hc, hs⟩ := waiting_ack hack (SameLink.heartbeats hh₁ (asking t)) o
    have hwait := SameLink.heartbeats hh₂ ((run Link.step (asking t) h₁).step (.receive o ack))
    apply inGame_scene (hwait.closed.trans hc)
    rw [hwait.task]
    exact hs
  · -- the scene comes first
    obtain ⟨h₁, h₂, h₃, rfl, hh₁, hh₂, hh₃⟩ := split_arrivals hlast
    have hwait := SameLink.heartbeats hh₁ (asking t)
    have hc : (run Link.step (asking t) h₁).closed = false := hwait.closed
    rw [hlast, run_append, run_cons]
    constructor
    · intro hin
      by_contra hor
      have hm : t.isMatch = true := by
        by_contra hm
        exact hor (Or.inl (Bool.not_eq_true _ ▸ hm))
      have hs : (run Link.step (asking t) h₁).task.status ∉ sceneStatuses := by
        rw [hwait.task, show (asking t).task.status = .canSignUp from if_pos hm]
        decide
      have hclosed := closed_run (h₂ ++ .receive o ack :: h₃) (closed_scene hc hs o')
      rw [hin.connected] at hclosed
      exact Bool.false_ne_true hclosed
    · intro hor
      have hm : t.isMatch = false := by
        rcases hor with hm | heq
        · exact hm
        · exact absurd (List.cons.inj heq).1 hne
      have hs : (run Link.step (asking t) h₁).task.status ∈ sceneStatuses := by
        rw [hwait.task, show (asking t).task.status = .initGame from
          if_neg (by rw [hm]; exact Bool.false_ne_true)]
        decide
      rw [run_append, run_cons, (SameLink.heartbeats hh₃ _).inGame]
      apply inGame_ack hack
      rw [(SameLink.heartbeats hh₂ _).inGame]
      exact inGame_scene hc hs o'

/-- A robot of a match. -/
def matchRobot : RobotTask :=
  { robotId := 7, isMatch := true, delaySendActiveMsgTime := 5, delaySendPassiveMsgTime := 4
    costId := 0 }

/-- The scene, a heartbeat and the ack. -/
def sceneFirst : List LinkEvent :=
  [.receive ⟨.zero, 0⟩ (.switchScene (some ())), .heartBeatTime,
    .receive ⟨.zero, 0⟩ (.signUpAck (some 0))]

theorem enters_game_iff_sceneFirst :
    InGame (run Link.step (asking matchRobot) sceneFirst) ↔
      matchRobot.isMatch = false ∨ arrivals sceneFirst
        = [.receive ⟨.zero, 0⟩ (.signUpAck (some 0)),
          .receive ⟨.zero, 0⟩ (.switchScene (some ()))] :=
  have hack : SuccessAck matchRobot (.signUpAck (some 0)) := ⟨rfl, Or.inl rfl⟩
  enters_game_iff hack ⟨.zero, 0⟩ ⟨.zero, 0⟩ (List.Perm.swap ..)

/-- A robot of a match whose scene comes before its ack is disconnected. -/
theorem sceneFirst_disconnects :
    (run Link.step (asking matchRobot) sceneFirst).closed = true ∧
      ¬InGame (run Link.step (asking matchRobot) sceneFirst) := by
  have hclosed : (run Link.step (asking matchRobot) sceneFirst).closed = true := rfl
  exact ⟨hclosed, fun hin => Bool.false_ne_true (hin.connected.symm.trans hclosed)⟩

end RobotDdz
