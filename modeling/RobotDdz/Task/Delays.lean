import RobotDdz.Task.Handlers

/-!
# The delays before a bid and a play

A robot waits before it bids or plays: a configured time after the deal or the
bottom cards, a random one after another player. `SendCallScoreReq` divides
`rand()` by the configured delay less one and `SendTakeOutCardReq` by the delay
itself, and only the second looks at its divisor. The old client's `SendMsg`
has the guard in one place for both.

`delaysKept_iff`: the delays come out of no division by zero, and in their
range, exactly when the configured delay is not one second.

Both handlers end in the same expression but for the divisor (`passiveDelay`,
`randBelow`), so the range is one fact about a remainder. `Outcome.Computed`
says that there is a delay at all; `none` stands for the division by zero.

Mirroring notes vs `RobotTask.cpp`:
- `delaySendPassiveMsgTime_` and `delaySendActiveMsgTime_` come from the
  configuration and are not checked.
- `SendTakeOutCardReq` leaves the delay at 0 when the configured one is not
  positive. `SendCallScoreReq` has no such test.
- `rand()` is an input, not negative, and `srand` is left out.
-/

namespace RobotDdz

/-- `rand() % d` in range. -/
theorem randBelow_range {rand d : Int} (hr : 0 ≤ rand) (hd : 0 < d) :
    ∃ v, randBelow rand d = some v ∧ 0 ≤ v ∧ v < d :=
  ⟨rand.tmod d, if_neg (by omega), Int.tmod_nonneg d hr, Int.tmod_lt_of_pos rand hd⟩

theorem randBelow_ne_none (rand : Int) {d : Int} (hd : d ≠ 0) : ∃ v, randBelow rand d = some v :=
  ⟨rand.tmod d, if_neg hd⟩

/-- The passive delay of the old client's `SendMsg`. -/
def passiveDelay (rand d : Int) : Option Int :=
  if d ≤ 1 then some 1 else (randBelow rand (d - 1)).map (· + 1)

/-- A delay that was computed, and in range when it is a passive one. -/
def DelayKept (d : Int) (passive : Bool) (delaySecond : Option Int) : Prop :=
  ∃ v, delaySecond = some v ∧ (passive = true → 1 ≤ d → 1 ≤ v ∧ v ≤ d)

/-- The old client keeps the passive delay for every configuration. -/
theorem passiveDelay_kept {rand : Int} (hr : 0 ≤ rand) (d : Int) :
    DelayKept d true (passiveDelay rand d) := by
  unfold passiveDelay
  by_cases hd : d ≤ 1
  · rw [if_pos hd]
    exact ⟨1, rfl, fun _ h => ⟨Int.le_refl 1, h⟩⟩
  · rw [if_neg hd]
    obtain ⟨v, hv, h0, hlt⟩ := randBelow_range hr (show 0 < d - 1 by omega)
    rw [hv]
    exact ⟨v + 1, rfl, fun _ _ => by omega⟩

/-- On `int`s the divisor of `SendCallScoreReq` is zero for one delay only: the
subtraction overflows at the lowest `int` alone, and not to zero. -/
theorem divisor_eq_zero (d : BitVec 32) : (d - 1).toInt = 0 ↔ d.toInt = 1 := by
  rw [← BitVec.toInt_zero (w := 32), BitVec.toInt_inj,
    show (1 : Int) = (1 : BitVec 32).toInt from rfl, BitVec.toInt_inj, BitVec.sub_eq_iff_eq_add]
  exact Iff.rfl

/-- The call came back: its delay was not divided by zero. -/
def Outcome.Computed (r : Outcome) : Prop := r.node.delaySecond ≠ none

namespace RobotTask

/-- The delays of `SendCallScoreReq` and `SendTakeOutCardReq`, active and
passive. -/
structure DelaysKept (o : Outside) (t : RobotTask) : Prop where
  callScore : ∀ dealt, DelayKept t.delaySendPassiveMsgTime (!dealt)
    (sendCallScoreReq o t dealt).node.delaySecond
  takeOut : ∀ bottom, DelayKept t.delaySendPassiveMsgTime (!bottom)
    (sendTakeOutCardReq o t bottom).node.delaySecond

variable {o : Outside} {t : RobotTask}

theorem sendTakeOutCardReq_kept (hr : 0 ≤ o.rand) (bottom : Bool) :
    DelayKept t.delaySendPassiveMsgTime (!bottom)
      (sendTakeOutCardReq o t bottom).node.delaySecond := by
  show DelayKept _ _ (Option.map (max · 0) (if bottom = true then _ else _))
  cases bottom with
  | true => exact ⟨_, rfl, fun h => Bool.noConfusion h⟩
  | false =>
    rw [if_neg Bool.false_ne_true]
    by_cases hd : 0 < t.delaySendPassiveMsgTime
    · rw [if_pos hd]
      obtain ⟨v, hv, h0, hlt⟩ := randBelow_range hr hd
      rw [hv]
      exact ⟨max (v + 1) 0, rfl, fun _ _ => by omega⟩
    · rw [if_neg hd]
      exact ⟨max 0 0, rfl, fun _ h => absurd h (by omega)⟩

theorem sendCallScoreReq_kept (hr : 0 ≤ o.rand) (hd : t.delaySendPassiveMsgTime ≠ 1)
    (dealt : Bool) : DelayKept t.delaySendPassiveMsgTime (!dealt)
      (sendCallScoreReq o t dealt).node.delaySecond := by
  show DelayKept _ _ (if dealt = true then _ else _)
  cases dealt with
  | true => exact ⟨_, rfl, fun h => Bool.noConfusion h⟩
  | false =>
    rw [if_neg Bool.false_ne_true]
    by_cases hpos : 0 < t.delaySendPassiveMsgTime - 1
    · obtain ⟨v, hv, h0, hlt⟩ := randBelow_range hr hpos
      rw [hv]
      exact ⟨v + 1, rfl, fun _ _ => by omega⟩
    · obtain ⟨v, hv⟩ := randBelow_ne_none o.rand
        (show t.delaySendPassiveMsgTime - 1 ≠ 0 by omega)
      rw [hv]
      exact ⟨v + 1, rfl, fun _ h => absurd h (by omega)⟩

/-- A play is requested with a delay whatever is configured: its divisor is
looked at. -/
theorem sendTakeOutCardReq_computed (o : Outside) (t : RobotTask) (bottom : Bool) :
    (sendTakeOutCardReq o t bottom).Computed := by
  show Option.map (max · 0) (if bottom = true then _ else _) ≠ none
  cases bottom with
  | true => exact Option.some_ne_none _
  | false =>
    rw [if_neg Bool.false_ne_true]
    split
    next hd =>
      obtain ⟨v, hv⟩ := randBelow_ne_none o.rand (Int.ne_of_gt hd)
      rw [hv]
      exact Option.some_ne_none _
    next => exact Option.some_ne_none _

/-- A bid that is announced is answered, if it is, with a delay, unless one
second is configured. -/
theorem recvUserCallScoreNotify_computed (hd : t.delaySendPassiveMsgTime ≠ 1) (o : Outside)
    (ntf : Option UserCallScoreNtf) : (t.recvUserCallScoreNotify o ntf).Computed := by
  unfold recvUserCallScoreNotify inGame
  split
  · exact Option.some_ne_none _
  · rcases ntf with _ | ntf
    · exact Option.some_ne_none _
    · dsimp only
      split_ifs
      · exact Option.some_ne_none _
      · exact Option.some_ne_none _
      all_goals
        obtain ⟨v, hv⟩ := randBelow_ne_none o.rand
          (show t.delaySendPassiveMsgTime - 1 ≠ 0 by omega)
        show Option.map (· + 1) (randBelow o.rand (t.delaySendPassiveMsgTime - 1)) ≠ none
        rw [hv]
        exact Option.some_ne_none _

/-- Whatever `rand()` returns, the delays of a robot are computed without a
division by zero, and the passive ones in their range, exactly when the
configured one is not 1. -/
theorem delaysKept_iff (undef : Undef) (rand : Nat) (t : RobotTask) :
    DelaysKept { undef, rand } t ↔ t.delaySendPassiveMsgTime ≠ 1 := by
  constructor
  · intro h hd
    obtain ⟨v, hv, -⟩ := h.callScore false
    have hnone : (sendCallScoreReq { undef, rand } t false).node.delaySecond = none := by
      show (randBelow (rand : Int) (t.delaySendPassiveMsgTime - 1)).map (· + 1) = none
      rw [hd]
      rfl
    rw [hnone] at hv
    cases hv
  · intro hd
    have hr : 0 ≤ ({ undef, rand } : Outside).rand := Int.natCast_nonneg rand
    exact ⟨sendCallScoreReq_kept hr hd, sendTakeOutCardReq_kept hr⟩

/-- With a passive delay of one second `SendCallScoreReq` divides by zero. -/
theorem delaysKept_fails : ¬∀ (undef : Undef) (rand : Nat) (t : RobotTask),
    DelaysKept { undef, rand } t := by
  intro h
  obtain ⟨v, hv, -⟩ := (h Undef.zero 41
    { robotId := 7, isMatch := true, delaySendActiveMsgTime := 5, delaySendPassiveMsgTime := 1
      costId := 0 }).callScore false
  cases hv

end RobotTask

end RobotDdz
