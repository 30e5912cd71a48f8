import RobotDdz.Task.Handlers
import RobotDdz.Lib.Runs

/-!
# The bidding record

A deal is followed by bid notifications. `RecvUserCallScoreNotify` tells
`OGLordRobotAI` a bid only when the turn goes to another seat: the bid that
gives the robot the turn is held against the robot's own and forgotten.
`recorded_run` is what the record holds after any notifications, and
`bidding_record_iff` that it is complete whenever the robot bids just when the
robot is never given the turn by one.

What the handler looks at besides the record is enough for one round
(`answer_outbids`).

Mirroring notes vs `RobotTask.cpp` and `OGLordRobotAI.cpp`:
- The end of the bidding, `seatnext == -1`, is not recorded either.
- The robot that bids first is asked by the deal, with nothing on record.
- `curScore` is the last bid on record that is no pass, `-1` after a reset and
  0 after the deal.
- An answer is 0 when the bid announced is as high as the robot's own, or when
  a pass is announced and `curScore` is.
-/

namespace RobotDdz

open Runs

/-- A bid notification with what its handling meets. -/
abbrev BidEvent := Outside × UserCallScoreNtf

/-- The seats and scores of the notifications. -/
def bids (es : List BidEvent) : List (Int × Int) := es.map fun e => (e.2.seatno, e.2.score)

/-- The last bid that is not a pass; the seat is `-1` and the score 0 before
there is one. -/
def lastBid (l : List (Int × Int)) : Int × Int :=
  ((l.filter fun b => b.2 ≠ 0).getLast?).getD (-1, 0)

namespace RobotTask

/-- The task after a deal. -/
def dealt (o : Outside) (t : RobotTask) (headerseat : Int) (cards : List (List Int)) : RobotTask :=
  (t.recvInitHardCardNotify o (some (headerseat, cards))).task

/-- The task after a bid notification. -/
def bidStep (t : RobotTask) (e : BidEvent) : RobotTask :=
  (t.recvUserCallScoreNotify e.1 (some e.2)).task

/-- What the record must hold when the robot bids: `bids` are the bids notified
so far, `out` is what the handler does. -/
structure RecordKnown (s : AI) (bids : List (Int × Int)) (out : Outcome) : Prop where
  history : s.callHistory = bids
  score : s.curScore = (lastBid bids).2
  caller : s.curCaller = (lastBid bids).1
  passed : (s.callHistory.length = 2 ∧ s.curScore = 0) ↔ bids.length = 2 ∧ ∀ b ∈ bids, b.2 = 0
  outbids : ∀ score, out.node.request = some (.callScore score) → score ≠ 0 →
    ∀ b ∈ bids, b.2 < score

/-- The record is complete whenever the robot bids, as the first of the deal or
when a notification gives it the turn. -/
def RecordComplete (o : Outside) (t : RobotTask) (headerseat : Int) (cards : List (List Int))
    (es : List BidEvent) : Prop :=
  (headerseat = t.robot.aiSeat →
    RecordKnown (t.dealt o headerseat cards).robot []
      (t.recvInitHardCardNotify o (some (headerseat, cards)))) ∧
  ∀ pre e post, es = pre ++ e :: post → e.2.seatnext = t.robot.aiSeat →
    RecordKnown (run bidStep (t.dealt o headerseat cards) pre).robot (bids (pre ++ [e]))
      ((run bidStep (t.dealt o headerseat cards) pre).recvUserCallScoreNotify e.1 (some e.2))

section Run

variable {t : RobotTask}

/-- A robot with a seat in a game. -/
structure Seated (seat : Int) (t : RobotTask) : Prop where
  gamming : t.status = .gamming
  seat : t.robot.aiSeat = seat

/-- What a deal leaves: the seat and an empty record. -/
theorem rbtInInitCard_record (u : Undef) (s : AI) (argSeat : Int) (argHandCard : List Int) :
    (s.rbtInInitCard u argSeat argHandCard).aiSeat = argSeat ∧
      (s.rbtInInitCard u argSeat argHandCard).callHistory = [] ∧
      (s.rbtInInitCard u argSeat argHandCard).curScore = 0 ∧
      (s.rbtInInitCard u argSeat argHandCard).curCaller = -1 := by
  unfold AI.rbtInInitCard AI.sortHandMap AI.countOpponents
  dsimp only
  refine ⟨?_, ?_, ?_, ?_⟩ <;> split <;> rfl

theorem dealt_record (o : Outside) (headerseat : Int) (cards : List (List Int))
    (hs : Seated t.robot.aiSeat t) (hseat : t.robot.aiSeat ≠ -1) :
    Seated t.robot.aiSeat (t.dealt o headerseat cards) ∧
      (t.dealt o headerseat cards).robot.callHistory = [] ∧
      (t.dealt o headerseat cards).robot.curScore = 0 ∧
      (t.dealt o headerseat cards).robot.curCaller = -1 := by
  obtain ⟨h1, h2, h3, h4⟩ := rbtInInitCard_record o.undef t.robot t.robot.aiSeat
    (cards.getD t.robot.aiSeat.toNat [])
  unfold dealt recvInitHardCardNotify inGame
  rw [if_neg (fun h => h hs.gamming)]
  dsimp only
  rw [if_neg hseat]
  split
  · exact ⟨⟨hs.gamming, h1⟩, h2, h3, h4⟩
  · exact ⟨⟨hs.gamming, h1⟩, h2, h3, h4⟩

/-- Whether the handler records a bid: the turn goes on, and not to the robot. -/
def recorded (seat : Int) (e : BidEvent) : Bool := e.2.seatnext ≠ -1 && e.2.seatnext ≠ seat

variable {seat : Int}

/-- One notification: it goes on the record or leaves the AI as it was, by the
seat that is next, and the robot stays seated in both cases. -/
theorem bidStep_record (hs : Seated seat t) (e : BidEvent) :
    Seated seat (t.bidStep e) ∧
      (recorded seat e = true →
        (t.bidStep e).robot = t.robot.rbtInCallScore e.2.seatno e.2.score) ∧
      (recorded seat e = false → (t.bidStep e).robot = t.robot) := by
  unfold bidStep recvUserCallScoreNotify inGame recorded
  rw [if_neg (fun h => h hs.gamming)]
  dsimp only
  rw [hs.seat]
  by_cases hend : e.2.seatnext = -1
  · rw [if_pos hend]
    exact ⟨hs, fun h => by simp [hend] at h, fun _ => rfl⟩
  · rw [if_neg hend]
    by_cases hmine : e.2.seatnext = seat
    · rw [if_neg (fun h => h hmine)]
      exact ⟨⟨hs.gamming, hs.seat⟩, fun h => by simp [hmine] at h, fun _ => rfl⟩
    · rw [if_pos hmine]
      refine ⟨⟨hs.gamming, ?_⟩, fun _ => rfl, fun h => by simp [hend, hmine] at h⟩
      show (t.robot.rbtInCallScore e.2.seatno e.2.score).aiSeat = seat
      rw [← hs.seat]
      unfold AI.rbtInCallScore
      dsimp only
      split <;> rfl

/-- What one recorded bid does to the record. -/
theorem rbtInCallScore_record (s : AI) (argSeat argCallScore : Int) :
    (s.rbtInCallScore argSeat argCallScore).callHistory
        = s.callHistory ++ [(argSeat, argCallScore)] ∧
      (s.rbtInCallScore argSeat argCallScore).curScore
        = if 0 < argCallScore then argCallScore else s.curScore := by
  unfold AI.rbtInCallScore
  dsimp only
  split <;> exact ⟨rfl, rfl⟩

/-- The record after any notifications: the bids that gave the turn to another
seat, in order. -/
theorem recorded_run (hs : Seated seat t) (es : List BidEvent) :
    Seated seat (run bidStep t es) ∧
      (run bidStep t es).robot.callHistory
        = t.robot.callHistory ++ bids (es.filter (recorded seat)) := by
  induction es generalizing t with
  | nil => exact ⟨hs, (List.append_nil _).symm⟩
  | cons e es ih =>
    obtain ⟨hs', hrec, hskip⟩ := bidStep_record hs e
    obtain ⟨hs'', hrest⟩ := ih hs'
    rw [run_cons]
    refine ⟨hs'', hrest.trans ?_⟩
    cases h : recorded seat e with
    | true =>
      rw [hrec h, (rbtInCallScore_record t.robot _ _).1, List.filter_cons_of_pos h,
        List.append_assoc]
      rfl
    | false =>
      rw [hskip h, List.filter_cons_of_neg (by rw [h]; exact Bool.false_ne_true)]

/-- The record is complete whenever the robot bids just when no notification
gives the robot the turn. -/
theorem bidding_record_iff (o : Outside) (t : RobotTask) (hgame : t.status = .gamming)
    (hseat : t.robot.aiSeat ≠ -1) (headerseat : Int) (cards : List (List Int))
    (es : List BidEvent) :
    RecordComplete o t headerseat cards es ↔ ∀ e ∈ es, e.2.seatnext ≠ t.robot.aiSeat := by
  obtain ⟨hs, hhist, hscore, hcaller⟩ :=
    dealt_record o headerseat cards ⟨hgame, rfl⟩ hseat
  constructor
  · intro hcomplete e he hturn
    obtain ⟨pre, post, hes⟩ := List.append_of_mem he
    have hknown := (hcomplete.2 pre e post hes hturn).history
    -- the record is at most as long as the notifications before this one
    have hlen := congrArg List.length hknown
    rw [(recorded_run hs pre).2, hhist, List.nil_append, bids, bids, List.length_map,
      List.length_map, List.length_append, List.length_singleton] at hlen
    have := List.length_filter_le (recorded t.robot.aiSeat) pre
    omega
  · intro hnever
    refine ⟨fun _ => ⟨hhist, hscore, hcaller, ?_, ?_⟩, fun pre e post hes hturn => ?_⟩
    · rw [hhist]
      exact ⟨fun h => absurd h.1 (by decide), fun h => absurd h.1 (by decide)⟩
    · exact fun _ _ _ b hb => absurd hb List.not_mem_nil
    · exact absurd hturn (hnever e (by rw [hes]; simp))

/-- A robot at seat 0 that bids first, and the two bids after its own. -/
theorem bidding_record_iff_first :
    RecordComplete ⟨.zero, 0⟩
        { robotId := 1, isMatch := false, delaySendActiveMsgTime := 3,
          delaySendPassiveMsgTime := 3, costId := 0, status := .gamming, robot := { aiSeat := 0 } }
        0 [] [(⟨.zero, 0⟩, ⟨0, 1, 0⟩), (⟨.zero, 0⟩, ⟨1, 2, 1⟩)] ↔
      ∀ e ∈ [((⟨.zero, 0⟩, ⟨0, 1, 0⟩) : BidEvent), (⟨.zero, 0⟩, ⟨1, 2, 1⟩)], e.2.seatnext ≠ 0 :=
  bidding_record_iff _ _ rfl (by decide) _ _ _

end Run

/-! ## The answer -/

section Answer

variable {t : RobotTask} {seat : Int} (hs : Seated seat t)

include hs

/-- As long as every bid is recorded and beats those before it, none is above
`curScore`. -/
theorem bids_le_curScore (h0 : t.robot.curScore = 0) (es : List BidEvent) :
    (∀ e ∈ es, recorded seat e = true) → (∀ b ∈ bids es, 0 ≤ b.2) →
      ((bids es).Pairwise fun b b' => b'.2 = 0 ∨ b.2 < b'.2) →
      0 ≤ (run bidStep t es).robot.curScore ∧
        ∀ b ∈ bids es, b.2 ≤ (run bidStep t es).robot.curScore := by
  induction es using List.reverseRecOn with
  | nil => exact fun _ _ _ => ⟨h0.ge, fun b hb => absurd hb List.not_mem_nil⟩
  | append_singleton es e ih =>
    intro hrec hscore hrise
    have hbids : bids (es ++ [e]) = bids es ++ [(e.2.seatno, e.2.score)] := List.map_append
    rw [hbids] at hscore hrise ⊢
    obtain ⟨hrise', -, hlast⟩ := List.pairwise_append.mp hrise
    obtain ⟨hpos, hle⟩ := ih (fun e' he' => hrec e' (List.mem_append_left _ he'))
      (fun b hb => hscore b (List.mem_append_left _ hb)) hrise'
    have he : 0 ≤ e.2.score :=
      hscore (e.2.seatno, e.2.score) (List.mem_append_right _ List.mem_cons_self)
    obtain ⟨-, hstep, -⟩ := bidStep_record (recorded_run hs es).1 e
    have hcur : (run bidStep t (es ++ [e])).robot.curScore
        = if 0 < e.2.score then e.2.score else (run bidStep t es).robot.curScore := by
      rw [run_append, run_cons, run_nil,
        hstep (hrec e (List.mem_append_right _ List.mem_cons_self)),
        (rbtInCallScore_record _ _ _).2]
    rw [hcur]
    split
    next hbid =>
      refine ⟨he, fun b hb => ?_⟩
      rw [List.mem_append, List.mem_singleton] at hb
      rcases hb with hold | rfl
      · rcases hlast b hold _ List.mem_cons_self with hz | hlt
        · exact absurd hz (ne_of_gt hbid)
        · exact Int.le_of_lt hlt
      · exact Int.le_refl _
    next hpass =>
      refine ⟨hpos, fun b hb => ?_⟩
      rw [List.mem_append, List.mem_singleton] at hb
      rcases hb with hold | rfl
      · exact hle b hold
      · exact Int.le_trans (not_lt.mp hpass) hpos

/-- The first time the bids come round to the robot, each higher than those
before it or a pass, a bid of the robot is higher than all of them. -/
theorem answer_outbids (hseat : seat ≠ -1) (h0 : t.robot.curScore = 0) {es : List BidEvent}
    {e : BidEvent} (hrec : ∀ e' ∈ es, recorded seat e' = true) (hturn : e.2.seatnext = seat)
    (hscore : ∀ b ∈ bids (es ++ [e]), 0 ≤ b.2)
    (hrise : (bids (es ++ [e])).Pairwise fun b b' => b'.2 = 0 ∨ b.2 < b'.2) {score : Int}
    (hanswer : ((run bidStep t es).recvUserCallScoreNotify e.1 (some e.2)).node.request
      = some (.callScore score)) (hbid : score ≠ 0) :
    ∀ b ∈ bids (es ++ [e]), b.2 < score := by
  have hbids : bids (es ++ [e]) = bids es ++ [(e.2.seatno, e.2.score)] := List.map_append
  rw [hbids] at hscore hrise ⊢
  obtain ⟨hrise', -, hlast⟩ := List.pairwise_append.mp hrise
  obtain ⟨-, hle⟩ := bids_le_curScore hs h0 es hrec
    (fun b hb => hscore b (List.mem_append_left _ hb)) hrise'
  obtain ⟨hgame, hme⟩ := (recorded_run hs es).1
  generalize run bidStep t es = t' at *
  unfold recvUserCallScoreNotify inGame at hanswer
  rw [if_neg (fun h => h hgame)] at hanswer
  dsimp only at hanswer
  rw [hme, hturn, if_neg hseat, if_neg (fun h => h rfl)] at hanswer
  -- the two comparisons the handler makes
  have heq := Request.callScore.inj (Option.some.inj hanswer)
  dsimp only at heq
  split at heq
  next => exact absurd heq.symm hbid
  next hout =>
    rw [heq] at hout
    obtain ⟨habove, hpassed⟩ := not_or.mp hout
    intro b hb
    rw [List.mem_append, List.mem_singleton] at hb
    rcases hb with hold | rfl
    · rcases hlast b hold _ List.mem_cons_self with hz | hlt
      · have hcur : t'.robot.curScore < score := not_le.mp fun h => hpassed ⟨hz, h⟩
        exact Int.lt_of_le_of_lt (hle b hold) hcur
      · exact Int.lt_trans hlt (not_le.mp habove)
    · exact not_le.mp habove

end Answer

/-! ## Two passes before the robot -/

/-- Seat 2, with three twos, no joker and no bomb. -/
def threeTwos : List (List Int) :=
  [[], [], [12, 25, 38, 0, 13, 1, 14, 3, 4, 16, 5, 18, 7, 20, 8, 22, 10]]

/-- A robot at seat 2 before the deal. -/
def atSeatTwo : RobotTask :=
  { robotId := 1
    isMatch := false
    delaySendActiveMsgTime := 3
    delaySendPassiveMsgTime := 3
    costId := 0
    status := .gamming
    robot := { level := 1, aiSeat := 2 } }

/-- Both others pass. -/
def twoPasses : List BidEvent := [(⟨.zero, 0⟩, ⟨0, 1, 0⟩), (⟨.zero, 0⟩, ⟨1, 2, 0⟩)]

/-- The record of the two passes has one, and the robot passes with a hand it
bids on after two. -/
theorem twoPasses_recorded_once :
    ¬RecordComplete ⟨.zero, 0⟩ atSeatTwo 0 threeTwos twoPasses ∧
      (run bidStep (atSeatTwo.dealt ⟨.zero, 0⟩ 0 threeTwos) twoPasses).myScore = 0 ∧
      ((run bidStep (atSeatTwo.dealt ⟨.zero, 0⟩ 0 threeTwos)
        twoPasses).robot.rbtInCallScore 1 0).rbtOutGetCallScore = 2 := by
  refine ⟨fun hcomplete => ?_, by decide +kernel, by decide +kernel⟩
  have hknown := hcomplete.2 [(⟨.zero, 0⟩, ⟨0, 1, 0⟩)] (⟨.zero, 0⟩, ⟨1, 2, 0⟩) [] rfl rfl
  have hhist := hknown.history
  revert hhist
  decide +kernel

end RobotTask

end RobotDdz
