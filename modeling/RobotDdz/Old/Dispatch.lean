import RobotDdz.Task.Handlers
import Mathlib.Logic.Function.Basic
import Mathlib.Data.List.Nodup

/-!
# How the old client sends robots into a game

The old client keeps all its robots connected and a queue of their descriptors.
`ChangeStatusForRobot` turns the queue once round: it takes an entry off the
front, sends the request of a robot that waits, and puts the entry back behind.
An entry whose connection is gone is not put back. The turn ends early when
enough robots are found.

A robot that was asked is in `INITGAME` from then on, so a second entry of its
descriptor is passed over (`waiting_update`).
`changeStatusForRobot_dispatched`: the robots asked are the first ones that
wait, each once, and no connected robot falls out of the queue.

The induction is over the entries still to be turned, with those turned already
behind them in the queue. An entry is dropped, passed over or asked, and each
of the three has its lemma (`Dispatched.drop`, `.pass`, `.ask`);
`Dispatched.stop` is the end of the turn when the robots are found.

Mirroring notes vs `EventProcess.cpp` of the old client:
- `while (queueSize-- && robotNum)` takes `robotNum` as an `int`, so a negative
  one asks every robot that waits. The result is for numbers from 0 on.
- The second member of an entry is a count that is set to 1 for a robot that is
  asked and otherwise only carried along; the code that would have used it is
  commented out in the source.
- `SendReqForRobot` sends the query for the client's kind of game.
-/

namespace RobotDdz.Old

/-- The part of `EventProcess` that sends robots into a game: `taskQueue_`, for
each descriptor in `mapConn_` the status of its robot, and the requests written
so far. -/
structure EventProcess where
  isMatch : Bool
  taskQueue : List (Int × Int)
  mapConn : Int → Option RobotStatus
  written : List (Int × Request) := []

namespace EventProcess

/-- The request for a match or for a game room. -/
def entryRequest (p : EventProcess) : Request :=
  if p.isMatch then .signUpCondition else .quickStart

/-- `SendReqForRobot` for the connection with this descriptor. -/
def sendReqForRobot (p : EventProcess) (fd : Int) : EventProcess :=
  { p with
    written := p.written ++ [(fd, p.entryRequest)]
    mapConn := Function.update p.mapConn fd (some .initGame) }

/-- The loop of `ChangeStatusForRobot`. -/
def chooseRobots : (queueSize : Nat) → (robotNum : Int) → EventProcess → EventProcess
  | 0, _, p => p
  | queueSize + 1, robotNum, p =>
    if robotNum = 0 then p
    else match p.taskQueue with
      | [] => p
      | robotFd :: rest =>
        let p := { p with taskQueue := rest }
        match p.mapConn robotFd.1 with
        | none => chooseRobots queueSize robotNum p
        | some status =>
          if status = .waitSignUp then
            let p := p.sendReqForRobot robotFd.1
            chooseRobots queueSize (robotNum - 1)
              { p with taskQueue := p.taskQueue ++ [(robotFd.1, 1)] }
          else
            chooseRobots queueSize robotNum { p with taskQueue := p.taskQueue ++ [robotFd] }

/-- `ChangeStatusForRobot`: one turn of the queue. -/
def changeStatusForRobot (p : EventProcess) (robotNum : Int) : EventProcess :=
  chooseRobots p.taskQueue.length robotNum p

/-! ## Who waits -/

/-- The descriptor has a connection whose robot waits. -/
def waits (mapConn : Int → Option RobotStatus) (fd : Int) : Bool :=
  mapConn fd = some .waitSignUp

/-- The connections whose robot waits, in the order in which the queue first
has them. -/
def waiting (mapConn : Int → Option RobotStatus) (queue : List (Int × Int)) : List Int :=
  ((queue.map Prod.fst).filter (waits mapConn)).eraseDups

/-- How often a descriptor is in the queue. -/
def queued (p : EventProcess) (fd : Int) : Nat := (p.taskQueue.map Prod.fst).count fd

theorem nodup_eraseDups (l : List Int) : l.eraseDups.Nodup := by
  induction hn : l.length using Nat.strongRecOn generalizing l with
  | ind n ih =>
    cases l with
    | nil => exact List.nodup_nil
    | cons a l =>
      rw [List.eraseDups_cons, List.nodup_cons]
      refine ⟨fun hmem => ?_, ih _ ?_ _ rfl⟩
      · have hne := (List.mem_filter.mp (List.mem_eraseDups.mp hmem)).2
        rw [beq_self_eq_true] at hne
        exact Bool.noConfusion hne
      · rw [← hn, List.length_cons]
        exact Nat.lt_succ_of_le (List.length_filter_le _ _)

theorem nodup_waiting (mapConn : Int → Option RobotStatus) (queue : List (Int × Int)) :
    (waiting mapConn queue).Nodup := nodup_eraseDups _

theorem mem_waiting {mapConn : Int → Option RobotStatus} {queue : List (Int × Int)} {fd : Int} :
    fd ∈ waiting mapConn queue ↔ fd ∈ queue.map Prod.fst ∧ mapConn fd = some .waitSignUp := by
  rw [waiting, List.mem_eraseDups, List.mem_filter, waits, decide_eq_true_eq]

theorem waiting_pass {mapConn : Int → Option RobotStatus} {fd : Int}
    (h : mapConn fd ≠ some .waitSignUp) (count : Int) (todo : List (Int × Int)) :
    waiting mapConn ((fd, count) :: todo) = waiting mapConn todo := by
  unfold waiting
  rw [List.map_cons, List.filter_cons_of_neg (by simpa [waits] using h)]

/-- The first entry that waits comes first, and once it is asked it waits no
more. -/
theorem waiting_update {mapConn : Int → Option RobotStatus} {fd : Int}
    (h : mapConn fd = some .waitSignUp) (count : Int) (todo : List (Int × Int)) :
    waiting mapConn ((fd, count) :: todo)
      = fd :: waiting (Function.update mapConn fd (some .initGame)) todo := by
  have hsame : ∀ x : Int, (!(x == fd) && waits mapConn x)
      = waits (Function.update mapConn fd (some .initGame)) x := by
    intro x
    unfold waits
    by_cases hx : x = fd
    · rw [hx, Function.update_self]
      simp
    · rw [Function.update_of_ne hx]
      simp [hx]
  unfold waiting
  rw [List.map_cons, List.filter_cons_of_pos (by simpa [waits] using h), List.eraseDups_cons,
    List.filter_filter]
  simp only [hsame]

/-! ## One turn -/

/-- The outcome of turning the entries `todo`: the first robots that wait are
asked, once each, and they alone are in `INITGAME` then; a connected robot
stays in the queue as often as it was, and no entry is added. -/
structure Dispatched (robotNum : Nat) (todo : List (Int × Int)) (p p' : EventProcess) : Prop where
  written : p'.written = p.written
    ++ ((waiting p.mapConn todo).take robotNum).map fun fd => (fd, p.entryRequest)
  status : ∀ fd, p'.mapConn fd
    = if fd ∈ (waiting p.mapConn todo).take robotNum then some .initGame else p.mapConn fd
  live : ∀ fd, (p.mapConn fd).isSome = true → p'.queued fd = p.queued fd
  dead : ∀ fd, p'.queued fd ≤ p.queued fd

namespace Dispatched

variable {robotNum : Nat} {todo : List (Int × Int)} {p p' : EventProcess}

/-- The turn ends: enough robots are found, or every entry has been looked at. -/
theorem stop (h : (waiting p.mapConn todo).take robotNum = []) : Dispatched robotNum todo p p := by
  refine ⟨?_, fun fd => ?_, fun fd _ => rfl, fun fd => Nat.le_refl _⟩
  · rw [h, List.map_nil, List.append_nil]
  · rw [h, if_neg List.not_mem_nil]

/-- An entry without a connection is dropped. It does not wait, so it changes
nothing about who is asked, and its descriptor is no connected robot's. -/
theorem drop {fd count : Int} {rest : List (Int × Int)} (hq : p.taskQueue = (fd, count) :: rest)
    (hfd : p.mapConn fd = none) (h : Dispatched robotNum todo { p with taskQueue := rest } p') :
    Dispatched robotNum ((fd, count) :: todo) p p' := by
  have hne : p.mapConn fd ≠ some .waitSignUp := by
    rw [hfd]
    exact nofun
  have hwait := waiting_pass hne count todo
  have hcount : ∀ x,
      p.queued x = queued { p with taskQueue := rest } x + if fd = x then 1 else 0 := by
    intro x
    unfold queued
    rw [hq, List.map_cons, List.count_cons]
    simp only [beq_iff_eq]
  refine ⟨?_, fun x => ?_, fun x hx => ?_, fun x => ?_⟩
  · rw [hwait]
    exact h.written
  · rw [hwait]
    exact h.status x
  · have hx' : fd ≠ x := by
      rintro rfl
      rw [hfd] at hx
      exact Bool.noConfusion hx
    rw [h.live x hx, hcount, if_neg hx', Nat.add_zero]
  · exact Nat.le_trans (h.dead x) (by rw [hcount]; exact Nat.le_add_right _ _)

/-- An entry put back behind is there as often as before. -/
theorem queued_behind {fd count count' : Int} {rest : List (Int × Int)}
    (hq : p.taskQueue = (fd, count) :: rest) {p₁ : EventProcess}
    (hq₁ : p₁.taskQueue = rest ++ [(fd, count')]) (x : Int) : p₁.queued x = p.queued x := by
  unfold queued
  rw [hq, hq₁, List.map_append, List.count_append]
  show _ + [fd].count x = (fd :: rest.map Prod.fst).count x
  rw [List.count_singleton, List.count_cons]

/-- An entry that does not wait is put back. -/
theorem pass {fd count : Int} {rest : List (Int × Int)} (hq : p.taskQueue = (fd, count) :: rest)
    (hfd : p.mapConn fd ≠ some .waitSignUp)
    (h : Dispatched robotNum todo { p with taskQueue := rest ++ [(fd, count)] } p') :
    Dispatched robotNum ((fd, count) :: todo) p p' := by
  have hwait := waiting_pass hfd count todo
  refine ⟨?_, fun x => ?_, fun x hx => ?_, fun x => ?_⟩
  · rw [hwait]
    exact h.written
  · rw [hwait]
    exact h.status x
  · rw [h.live x hx]
    exact queued_behind hq rfl x
  · exact Nat.le_trans (h.dead x) (Nat.le_of_eq (queued_behind hq rfl x))

/-- A robot that waits is asked, and its entry put back. From then on it does
not wait, so a second entry of its descriptor asks nobody. -/
theorem ask {fd count : Int} {rest : List (Int × Int)} (hq : p.taskQueue = (fd, count) :: rest)
    (hfd : p.mapConn fd = some .waitSignUp)
    (h : Dispatched robotNum todo
      { p.sendReqForRobot fd with taskQueue := rest ++ [(fd, 1)] } p') :
    Dispatched (robotNum + 1) ((fd, count) :: todo) p p' := by
  have hwait := waiting_update hfd count todo
  refine ⟨?_, fun x => ?_, fun x hx => ?_, fun x => ?_⟩
  · rw [hwait, List.take_succ_cons, h.written]
    show p.written ++ [(fd, p.entryRequest)] ++ _ = _
    rw [List.append_assoc]
    rfl
  · rw [hwait, List.take_succ_cons, h.status x]
    show (if _ then _ else Function.update p.mapConn fd (some .initGame) x) = _
    by_cases hx : x = fd
    · rw [hx, Function.update_self, if_pos List.mem_cons_self, ite_self]
    · rw [Function.update_of_ne hx]
      simp only [List.mem_cons, hx, false_or]
      rfl
  · rw [h.live x ?_]
    · exact queued_behind hq rfl x
    · show (Function.update p.mapConn fd (some .initGame) x).isSome = true
      by_cases hx' : x = fd
      · rw [hx', Function.update_self]
        rfl
      · rw [Function.update_of_ne hx']
        exact hx
  · exact Nat.le_trans (h.dead x) (Nat.le_of_eq (queued_behind hq rfl x))

end Dispatched

/-- The loop over the entries `todo`, with the entries put back so far behind
them. -/
theorem chooseRobots_dispatched : ∀ (todo done : List (Int × Int)) (robotNum : Nat)
    (p : EventProcess), p.taskQueue = todo ++ done →
    Dispatched robotNum todo p (chooseRobots todo.length robotNum p) := by
  intro todo
  induction todo with
  | nil => exact fun done robotNum p _ => Dispatched.stop List.take_nil
  | cons robotFd todo ih =>
    intro done robotNum p hq
    obtain ⟨fd, count⟩ := robotFd
    rw [List.length_cons, chooseRobots]
    cases robotNum with
    | zero =>
      rw [if_pos Int.natCast_zero]
      exact Dispatched.stop List.take_zero
    | succ robotNum =>
      rw [if_neg (by omega), hq]
      dsimp only [List.cons_append]
      cases hfd : p.mapConn fd with
      | none => exact Dispatched.drop hq hfd (ih done _ _ rfl)
      | some status =>
        dsimp only
        by_cases hs : status = .waitSignUp
        · rw [if_pos hs, Int.natCast_add, Int.natCast_one, Int.add_sub_cancel]
          exact Dispatched.ask hq (by rw [hfd, hs])
            (ih (done ++ [(fd, 1)]) _ _ (List.append_assoc _ _ _))
        · rw [if_neg hs]
          exact Dispatched.pass hq (by rw [hfd]; exact fun h => hs (Option.some.inj h))
            (ih (done ++ [(fd, count)]) _ _ (List.append_assoc _ _ _))

/-- `ChangeStatusForRobot` asks the first `robotNum` robots that wait, in the
order of the queue and each once, sets these and no others to `INITGAME`, and
loses no connected robot from the queue, whatever the queue holds. -/
theorem changeStatusForRobot_dispatched (p : EventProcess) (robotNum : Nat) :
    ((waiting p.mapConn p.taskQueue).take robotNum).Nodup ∧
      Dispatched robotNum p.taskQueue p (p.changeStatusForRobot robotNum) :=
  ⟨(nodup_waiting _ _).sublist (List.take_sublist _ _),
    chooseRobots_dispatched p.taskQueue [] robotNum p (List.append_nil _).symm⟩

end EventProcess

end RobotDdz.Old
