import RobotDdz.AI.Deal
import RobotDdz.Task.Bidding
import RobotDdz.Task.Delays

/-!
# Three robots bid

After the deal the three task robots bid in turn: what the seat to bid requests
is announced to all three, with the next seat to bid or `-1` at the end. A
robot that is next answers, and does not put the bid it answers on its record;
the other two do.

`auction_bids`: a robot bids 2 or passes, and in one round at most one of them
bids. If the bidding goes on, only the seat after the first bidder can bid
again, since that bid alone is missing from its record.

The invariant distinguishes two states of a bidding that goes on: nobody has
bid (`Quiet`), or a seat has bid first and the others but the next have that on
their record (`Called`). `Quiet.next` and `Called.next` are the steps.

Mirroring notes vs `RobotTask.cpp` and `OGLordRobotAI.cpp`:
- `RbtOutGetCallScore` gives 2 or 0, by the cards and, in one branch, by the
  number of bids on record and the last one that is no pass (`curScore`).
- `RecvUserCallScoreNotify` records a bid only if the turn goes to a seat other
  than the robot's. It replaces the robot's own bid by a pass if that is not
  above the one announced, or not above `curScore` when a pass is announced.
- With a configured delay of one second the answer to a bid divides by zero and
  there is none.
-/

namespace RobotDdz

open Runs RobotTask

/-- The bid a handler sends. There is none where the delay comes out of a
division by zero. -/
def Outcome.bid (r : Outcome) : Option Int :=
  match r.node.request, r.node.delaySecond with
  | some (.callScore score), some _ => some score
  | _, _ => none

/-- The three robots, the seat to bid, what it has requested and the bids so
far. -/
structure Auction where
  task : Int → RobotTask
  turn : Int
  pending : Option Int
  bids : List (Int × Int) := []

namespace Auction

/-- What each robot does when the bid of the seat in turn is announced. -/
def announce (g : Auction) (o : Int → Outside) (seatnext score : Int) (i : Int) : Outcome :=
  (g.task i).recvUserCallScoreNotify (o i) (some { seatno := g.turn, seatnext, score })

/-- One bid, after which the bidding goes on or not. -/
def step (g : Auction) (e : (Int → Outside) × Bool) : Auction :=
  match g.pending with
  | none => g
  | some score =>
    let seatnext := if e.2 then (g.turn + 1) % 3 else -1
    { task := fun i => (g.announce e.1 seatnext score i).task
      turn := seatnext
      pending := if e.2 then (g.announce e.1 seatnext score seatnext).bid else none
      bids := g.bids ++ [(g.turn, score)] }

/-- The deal, with the seat that bids first. -/
def start (headerseat : Int) (cards : List (List Int)) (t : Int → RobotTask)
    (o : Int → Outside) : Auction :=
  let out i := (t i).recvInitHardCardNotify (o i) (some (headerseat, cards))
  { task := fun i => (out i).task, turn := headerseat, pending := (out headerseat).bid }

end Auction

/-! ## One robot -/

/-- A robot in its seat, whose delays can be computed. -/
structure Bids (seat : Int) (t : RobotTask) : Prop where
  seated : Seated seat t
  delay : t.delaySendPassiveMsgTime ≠ 1

theorem rbtOutGetCallScore_or (s : AI) : s.rbtOutGetCallScore = 0 ∨ s.rbtOutGetCallScore = 2 := by
  unfold AI.rbtOutGetCallScore
  split
  · exact .inr rfl
  · exact .inl rfl

section Robot

variable {seat : Int} {t : RobotTask}

/-- A bid is announced to a robot that is not next. -/
theorem Bids.hears (h : Bids seat t) (o : Outside) (ntf : UserCallScoreNtf)
    (hgo : ntf.seatnext ≠ -1) (hne : ntf.seatnext ≠ seat) :
    Bids seat (t.recvUserCallScoreNotify o (some ntf)).task ∧
      (t.recvUserCallScoreNotify o (some ntf)).task.robot.curScore
        = if 0 < ntf.score then ntf.score else t.robot.curScore := by
  obtain ⟨hseated, hrec, -⟩ := bidStep_record h.seated (o, ntf)
  have hrobot := hrec (by simp [recorded, hgo, hne])
  refine ⟨⟨hseated, ?_⟩, ?_⟩
  · have hdelay : (t.recvUserCallScoreNotify o (some ntf)).task.delaySendPassiveMsgTime
        = t.delaySendPassiveMsgTime := by
      unfold recvUserCallScoreNotify inGame
      rw [if_neg (not_not.mpr h.seated.gamming)]
      dsimp only
      rw [if_neg hgo, if_pos (h.seated.seat ▸ hne)]
      rfl
    exact hdelay ▸ h.delay
  · exact (congrArg AI.curScore hrobot).trans (rbtInCallScore_record t.robot _ _).2

/-- A bid is announced to the robot that is next: it answers with its own bid
or a pass, and its AI stays as it was, so the bid it answers is not on its
record. -/
theorem Bids.answers (h : Bids seat t) (o : Outside) (ntf : UserCallScoreNtf)
    (hgo : ntf.seatnext ≠ -1) (hturn : ntf.seatnext = seat) :
    let out := t.recvUserCallScoreNotify o (some ntf)
    Bids seat out.task ∧ out.task.robot = t.robot ∧
      out.bid = some (if t.robot.rbtOutGetCallScore ≤ ntf.score ∨
          ntf.score = 0 ∧ t.robot.rbtOutGetCallScore ≤ t.robot.curScore then 0
        else t.robot.rbtOutGetCallScore) := by
  have hmine : ¬ntf.seatnext ≠ t.robot.aiSeat := fun hne => hne (hturn.trans h.seated.seat.symm)
  have hdivisor : t.delaySendPassiveMsgTime - 1 ≠ 0 := fun he => h.delay (by omega)
  obtain ⟨v, hv⟩ := randBelow_ne_none o.rand hdivisor
  intro out
  have hout : out = sendCallScoreReq o { t with
      myScore := if t.robot.rbtOutGetCallScore ≤ ntf.score ∨
          ntf.score = 0 ∧ t.robot.rbtOutGetCallScore ≤ t.robot.curScore then 0
        else t.robot.rbtOutGetCallScore } false := by
    show t.recvUserCallScoreNotify o (some ntf) = _
    unfold recvUserCallScoreNotify inGame
    rw [if_neg (not_not.mpr h.seated.gamming)]
    dsimp only
    rw [if_neg hgo, if_neg hmine]
  rw [hout]
  refine ⟨⟨⟨h.seated.gamming, h.seated.seat⟩, h.delay⟩, rfl, ?_⟩
  unfold sendCallScoreReq Outcome.bid send
  simp only [Bool.false_eq_true, if_false, hv, Option.map_some]

/-- A robot answers with 2 or a pass. -/
theorem Bids.answer_or (h : Bids seat t) (o : Outside) (ntf : UserCallScoreNtf)
    (hgo : ntf.seatnext ≠ -1) (hturn : ntf.seatnext = seat) :
    ∃ score, (t.recvUserCallScoreNotify o (some ntf)).bid = some score ∧
      (score = 0 ∨ score = 2 ∧ ntf.score < 2 ∧ (ntf.score = 0 → t.robot.curScore < 2)) := by
  obtain ⟨-, -, hbid⟩ := h.answers o ntf hgo hturn
  refine ⟨_, hbid, ?_⟩
  split
  · exact .inl rfl
  next hout =>
    obtain ⟨habove, hpassed⟩ := not_or.mp hout
    rcases rbtOutGetCallScore_or t.robot with hscore | hscore
    · exact .inl hscore
    · rw [hscore] at habove hpassed ⊢
      exact .inr ⟨rfl, not_le.mp habove, fun hz => not_le.mp fun hle => hpassed ⟨hz, hle⟩⟩

end Robot

/-! ## The table -/

namespace Auction

/-- The seats bid in turn, and the one to bid has been asked. -/
structure Asked (g : Auction) (score : Int) : Prop where
  turn : Seat g.turn
  robots : ∀ i, Seat i → Bids i (g.task i)
  pending : g.pending = some score
  score : score = 0 ∨ score = 2

/-- Nobody has bid yet. -/
structure Quiet (g : Auction) : Prop where
  passes : ∀ b ∈ g.bids, b.2 = 0
  record : ∀ i, Seat i → (g.task i).robot.curScore = 0

/-- What follows the first bid, by seat `j`: passes, and from the fourth on
bids of the seat after it. -/
def Follows (j : Int) (post : List (Int × Int)) : Prop :=
  ∀ (k : Nat) (b : Int × Int), post[k]? = some b → b.2 = 0 ∨ b = ((j + 1) % 3, 2) ∧ 3 ≤ k

/-- Seat `j` has bid first; every other seat but the next has that on its
record, and the next has passed on it. -/
structure Called (j : Int) (g : Auction) (score : Int) : Prop where
  first : Seat j
  bids : ∃ pre post, g.bids = pre ++ (j, 2) :: post ∧ (∀ b ∈ pre, b.2 = 0) ∧ Follows j post ∧
    g.turn = (j + 1 + post.length) % 3 ∧ (score ≠ 0 → g.turn = (j + 1) % 3 ∧ 3 ≤ post.length)
  record : ∀ i, Seat i → i ≠ (j + 1) % 3 → 2 ≤ (g.task i).robot.curScore

/-- The bids of a table. -/
def Fair (bids : List (Int × Int)) : Prop :=
  (∀ b ∈ bids, b.2 = 0) ∨ ∃ pre j post, bids = pre ++ (j, 2) :: post ∧ (∀ b ∈ pre, b.2 = 0) ∧
    Follows j post

theorem Follows.snoc {j : Int} {post : List (Int × Int)} (h : Follows j post) {b : Int × Int}
    (hb : b.2 = 0 ∨ b = ((j + 1) % 3, 2) ∧ 3 ≤ post.length) : Follows j (post ++ [b]) := by
  intro k c hc
  rw [List.getElem?_append] at hc
  split at hc
  · exact h k c hc
  next hk =>
    obtain ⟨hlt, hget⟩ := List.getElem?_eq_some_iff.mp hc
    rw [List.length_singleton] at hlt
    obtain rfl : b = c := by
      rw [← hget]
      simp only [show k - post.length = 0 by omega, List.getElem_cons_zero]
    have hk' : k = post.length := by omega
    exact hk' ▸ hb

section Step

variable {g : Auction} {score : Int} (o : Int → Outside)

/-- A bid after which the bidding goes on. -/
theorem step_goes (h : Asked g score) :
    g.step (o, true) = {
      task := fun i => (g.announce o ((g.turn + 1) % 3) score i).task
      turn := (g.turn + 1) % 3
      pending := (g.announce o ((g.turn + 1) % 3) score ((g.turn + 1) % 3)).bid
      bids := g.bids ++ [(g.turn, score)] } := by
  unfold step
  rw [h.pending]
  rfl

/-- The last bid. -/
theorem step_ends (h : Asked g score) :
    (g.step (o, false)).turn = -1 ∧ (g.step (o, false)).pending = none ∧
      (g.step (o, false)).bids = g.bids ++ [(g.turn, score)] := by
  unfold step
  rw [h.pending]
  exact ⟨rfl, rfl, rfl⟩

/-- The next seat is asked; the others have the bid on their record. What it
answers is a bid only if the one announced is below 2, and after a pass only if
its record is. -/
theorem Asked.next (h : Asked g score) :
    ∃ score', Asked (g.step (o, true)) score' ∧
      (score' ≠ 0 → score < 2 ∧
        (score = 0 → (g.task (g.step (o, true)).turn).robot.curScore < 2)) ∧
      ∀ i, Seat i → ((g.step (o, true)).task i).robot.curScore
        = if 0 < score ∧ (g.step (o, true)).turn ≠ i then score
          else (g.task i).robot.curScore := by
  have hnext : Seat ((g.turn + 1) % 3) := seat_emod _
  have hgo : (g.turn + 1) % 3 ≠ -1 := fun he => absurd (he ▸ hnext.1) (by decide)
  obtain ⟨hbids, hsame, -⟩ := (h.robots _ hnext).answers (o _)
    ⟨g.turn, (g.turn + 1) % 3, score⟩ hgo rfl
  obtain ⟨score', hbid, hscore⟩ := (h.robots _ hnext).answer_or (o _)
    ⟨g.turn, (g.turn + 1) % 3, score⟩ hgo rfl
  rw [step_goes o h]
  refine ⟨score', ⟨hnext, fun i hi => ?_, hbid, ?_⟩, fun hne => ?_, fun i hi => ?_⟩
  · by_cases he : (g.turn + 1) % 3 = i
    · exact he ▸ hbids
    · exact ((h.robots i hi).hears (o i) ⟨g.turn, (g.turn + 1) % 3, score⟩ hgo he).1
  · exact hscore.imp_right And.left
  · exact (hscore.resolve_left hne).2
  · by_cases he : (g.turn + 1) % 3 = i
    · rw [if_neg (fun hc => hc.2 he), ← he]
      exact congrArg AI.curScore hsame
    · have hheard := ((h.robots i hi).hears (o i)
        ⟨g.turn, (g.turn + 1) % 3, score⟩ hgo he).2
      refine hheard.trans ?_
      dsimp only
      by_cases hpos : 0 < score
      · rw [if_pos hpos, if_pos ⟨hpos, he⟩]
      · rw [if_neg hpos, if_neg (fun hc => hpos hc.1)]

/-- A pass before the first bid, or the first bid. After a pass all is as it
was but for the seat to bid; a bid goes on the record of two seats, and the
next one passes on it. -/
theorem Quiet.next (hq : Quiet g) (h : Asked g score) :
    ∃ score', Asked (g.step (o, true)) score' ∧
      (Quiet (g.step (o, true)) ∨ ∃ j, Called j (g.step (o, true)) score') := by
  obtain ⟨score', hasked, hanswer, hrecord⟩ := h.next o
  refine ⟨score', hasked, ?_⟩
  have hbids : (g.step (o, true)).bids = g.bids ++ [(g.turn, score)] := by
    rw [step_goes o h]
  have hturn : (g.step (o, true)).turn = (g.turn + 1) % 3 := by
    rw [step_goes o h]
  rcases h.score with hpass | hbid
  · refine .inl ⟨fun b hb => ?_, fun i hi => ?_⟩
    · rw [hbids, List.mem_append, List.mem_singleton] at hb
      rcases hb with hold | rfl
      · exact hq.passes b hold
      · exact hpass
    · rw [hrecord i hi, if_neg (fun hc => absurd hc.1 (by omega))]
      exact hq.record i hi
  · refine .inr ⟨g.turn, h.turn, ⟨g.bids, [], ?_, hq.passes, ?_, ?_, fun hne => ?_⟩,
      fun i hi hne => ?_⟩
    · rw [hbids, hbid]
    · exact fun k b hb => nomatch hb
    · rw [hturn]
      exact congrArg (· % 3) (Int.add_zero _).symm
    · have hlt := (hanswer hne).1
      omega
    · rw [hrecord i hi, if_pos ⟨by omega, fun he => hne (he.symm.trans hturn)⟩]
      omega

/-- A bid after the first. It is a pass, or it is the bid of the seat after the
first bidder from the next round on, as the record of any other seat makes it
pass. -/
theorem Called.next {j : Int} (hc : Called j g score) (h : Asked g score) :
    ∃ score', Asked (g.step (o, true)) score' ∧ Called j (g.step (o, true)) score' := by
  obtain ⟨score', hasked, hanswer, hrecord⟩ := h.next o
  obtain ⟨pre, post, hbids, hpre, hpost, hturn, hpending⟩ := hc.bids
  have hturn' : (g.step (o, true)).turn = (g.turn + 1) % 3 := by
    rw [step_goes o h]
  have hbids' : (g.step (o, true)).bids = pre ++ (j, 2) :: (post ++ [(g.turn, score)]) := by
    rw [step_goes o h, hbids, List.append_assoc]
    rfl
  have hscore := h.score
  refine ⟨score', hasked, hc.first, ⟨pre, post ++ [(g.turn, score)], hbids', hpre,
    hpost.snoc ?_, ?_, fun hne => ?_⟩, fun i hi hne => ?_⟩
  · rcases hscore with hz | hb
    · exact .inl hz
    · obtain ⟨hmine, hlen⟩ := hpending (by omega)
      exact .inr ⟨by rw [hmine, hb], hlen⟩
  · rw [hturn', hturn, List.length_append, List.length_singleton]
    omega
  · -- the record of any other seat makes it pass
    obtain ⟨hlt, hcur⟩ := hanswer hne
    have hpass : score = 0 := by omega
    have hmine : (g.step (o, true)).turn = (j + 1) % 3 := by
      by_contra hother
      have hheard := hc.record _ hasked.turn hother
      have := hcur hpass
      omega
    refine ⟨hmine, ?_⟩
    rw [List.length_append, List.length_singleton]
    rw [hturn', hturn] at hmine
    have := hc.first
    omega
  · have hold := hc.record i hi hne
    rw [hrecord i hi]
    split <;> omega

end Step

theorem Quiet.fair {g : Auction} {score : Int} (hq : Quiet g) (h : Asked g score) :
    Fair (g.bids ++ [(g.turn, score)]) := by
  rcases h.score with hz | hb
  · refine .inl fun b hb => ?_
    rw [List.mem_append, List.mem_singleton] at hb
    rcases hb with hold | rfl
    · exact hq.passes b hold
    · exact hz
  · exact .inr ⟨g.bids, g.turn, [], by rw [hb], hq.passes, fun _ _ h => nomatch h⟩

theorem Called.fair {g : Auction} {score j : Int} (hc : Called j g score) (h : Asked g score) :
    Fair (g.bids ++ [(g.turn, score)]) := by
  obtain ⟨pre, post, hbids, hpre, hpost, -, hpending⟩ := hc.bids
  refine .inr ⟨pre, j, post ++ [(g.turn, score)], ?_, hpre, hpost.snoc ?_⟩
  · rw [hbids, List.append_assoc]
    rfl
  · rcases h.score with hz | hb
    · exact .inl hz
    · obtain ⟨hmine, hlen⟩ := hpending (by omega)
      exact .inr ⟨by rw [hmine, hb], hlen⟩

/-- A table where the bidding goes on. -/
def Open (g : Auction) : Prop :=
  ∃ score, Asked g score ∧ (Quiet g ∨ ∃ j, Called j g score)

/-- A table where it goes on, or is over. -/
def Sound (g : Auction) : Prop :=
  Open g ∨ g.turn = -1 ∧ g.pending = none ∧ Fair g.bids

theorem Sound.step {g : Auction} (h : Sound g) (e : (Int → Outside) × Bool) : Sound (g.step e) := by
  obtain ⟨o, goes⟩ := e
  rcases h with ⟨score, hasked, hbids⟩ | ⟨hturn, hnone, hfair⟩
  · cases goes with
    | true =>
      rcases hbids with hq | ⟨j, hc⟩
      · exact .inl (hq.next o hasked)
      · obtain ⟨score', hasked', hc'⟩ := hc.next o hasked
        exact .inl ⟨score', hasked', .inr ⟨j, hc'⟩⟩
    | false =>
      obtain ⟨hturn, hnone, hend⟩ := step_ends o hasked
      refine .inr ⟨hturn, hnone, hend ▸ ?_⟩
      rcases hbids with hq | ⟨j, hc⟩
      · exact hq.fair hasked
      · exact hc.fair hasked
  · have hstep : g.step (o, goes) = g := by
      unfold Auction.step
      rw [hnone]
    rw [hstep]
    exact .inr ⟨hturn, hnone, hfair⟩

/-- What a table shows. -/
theorem Sound.shows {g : Auction} (h : Sound g) :
    (g.turn = -1 ∨ g.pending ≠ none) ∧ Fair g.bids := by
  rcases h with ⟨score, hasked, hbids⟩ | ⟨hturn, -, hfair⟩
  · refine ⟨.inr (by rw [hasked.pending]; exact Option.some_ne_none score), ?_⟩
    rcases hbids with hq | ⟨j, hc⟩
    · exact .inl hq.passes
    · obtain ⟨pre, post, hbids, hpre, hpost, -⟩ := hc.bids
      exact .inr ⟨pre, j, post, hbids, hpre, hpost⟩
  · exact ⟨.inl hturn, hfair⟩

/-- The deal: every robot has no bid above 0 on its record, and the seat that
bids first has sent a bid of 0 or 2. -/
theorem open_start {headerseat : Int} (hh : Seat headerseat) (cards : List (List Int))
    {t : Int → RobotTask} (ht : ∀ i, Seat i → Bids i (t i)) (o : Int → Outside) :
    Open (start headerseat cards t o) := by
  have hdealt : ∀ i, Seat i → Seated i ((t i).dealt (o i) headerseat cards) ∧
      ((t i).dealt (o i) headerseat cards).robot.curScore = 0 := by
    intro i hi
    have hseat : (t i).robot.aiSeat ≠ -1 := by
      rw [(ht i hi).seated.seat]
      exact fun he => absurd (he ▸ hi.1) (by decide)
    obtain ⟨hs, -, hscore, -⟩ := dealt_record (o i) headerseat cards
      ⟨(ht i hi).seated.gamming, rfl⟩ hseat
    rw [(ht i hi).seated.seat] at hs
    exact ⟨hs, hscore⟩
  have hout : ∀ i, Seat i → ∃ robot score, (score = 0 ∨ score = 2) ∧
      ((t i).recvInitHardCardNotify (o i) (some (headerseat, cards)))
        = if headerseat = i then sendCallScoreReq (o i) { t i with robot, myScore := score } true
          else handled { t i with robot } := by
    intro i hi
    have hseat : (t i).robot.aiSeat ≠ -1 := by
      rw [(ht i hi).seated.seat]
      exact fun he => absurd (he ▸ hi.1) (by decide)
    unfold recvInitHardCardNotify inGame
    rw [if_neg (not_not.mpr (ht i hi).seated.gamming)]
    dsimp only
    rw [if_neg hseat, (ht i hi).seated.seat]
    exact ⟨_, _, rbtOutGetCallScore_or _, rfl⟩
  obtain ⟨robot, score, hscore, hmine⟩ := hout headerseat hh
  refine ⟨score, ⟨hh, fun i hi => ⟨(hdealt i hi).1, ?_⟩, ?_, hscore⟩,
    .inl ⟨fun b hb => absurd hb List.not_mem_nil, fun i hi => (hdealt i hi).2⟩⟩
  · obtain ⟨robot, score, -, hi'⟩ := hout i hi
    show ((t i).recvInitHardCardNotify (o i)
      (some (headerseat, cards))).task.delaySendPassiveMsgTime ≠ 1
    rw [hi']
    split <;> exact (ht i hi).delay
  · show ((t headerseat).recvInitHardCardNotify (o headerseat) (some (headerseat, cards))).bid = _
    rw [hmine, if_pos rfl]
    rfl

/-- Three robots whose delays can be computed bid on any deal, in any seats and
for any number of rounds: the seat to bid has always sent a bid, and the bids
are passes up to the first bid of 2, after which everybody passes but the seat
after that bidder, who may bid 2 again from the next round on. -/
theorem auction_bids {headerseat : Int} (hh : Seat headerseat) (cards : List (List Int))
    {t : Int → RobotTask}
    (ht : ∀ i, Seat i → Seated i (t i) ∧ (t i).delaySendPassiveMsgTime ≠ 1) (o : Int → Outside)
    (es : List ((Int → Outside) × Bool)) :
    let g := run step (start headerseat cards t o) es
    (g.turn = -1 ∨ g.pending ≠ none) ∧
      ((∀ b ∈ g.bids, b.2 = 0) ∨ ∃ pre j post, g.bids = pre ++ (j, 2) :: post ∧
        (∀ b ∈ pre, b.2 = 0) ∧ ∀ (k : Nat) (b : Int × Int), post[k]? = some b →
          b.2 = 0 ∨ b = ((j + 1) % 3, 2) ∧ 3 ≤ k) := by
  have hstart : Sound (start headerseat cards t o) :=
    .inl (open_start hh cards (fun i hi => ⟨(ht i hi).1, (ht i hi).2⟩) o)
  exact (along_of_inv (P := fun _ _ => True) (W := fun _ => True) Sound
    (fun g e h _ => ⟨h.step e, trivial⟩) (fun _ _ => trivial) hstart).1.shows

/-- The first seat has the jokers and three twos, the second the last two and
all threes. -/
def strongHands : List (List Int) :=
  [[52, 53, 12, 25, 38, 37, 50, 10, 23, 36, 9, 22, 35, 8, 21, 34, 7],
    [51, 0, 13, 26, 39, 1, 14, 27, 40, 2, 15, 28, 3, 16, 4, 17, 5],
    [11, 24, 49, 48, 47, 46, 45, 44, 43, 42, 41, 33, 32, 31, 30, 29, 20]]

theorem auction_bids_strong :
    let t (seat : Int) : RobotTask :=
      { robotId := seat, isMatch := false, delaySendActiveMsgTime := 5,
        delaySendPassiveMsgTime := 4, costId := 0, status := .gamming, robot := { aiSeat := seat } }
    let g := run step (start 0 strongHands t fun _ => ⟨.zero, 0⟩)
      (List.replicate 5 (fun _ => ⟨.zero, 0⟩, true))
    (g.turn = -1 ∨ g.pending ≠ none) ∧
      ((∀ b ∈ g.bids, b.2 = 0) ∨ ∃ pre j post, g.bids = pre ++ (j, 2) :: post ∧
        (∀ b ∈ pre, b.2 = 0) ∧ ∀ (k : Nat) (b : Int × Int), post[k]? = some b →
          b.2 = 0 ∨ b = ((j + 1) % 3, 2) ∧ 3 ≤ k) :=
  auction_bids ⟨by decide, by decide⟩ strongHands
    (fun _ _ => ⟨⟨rfl, rfl⟩, show (4 : Int) ≠ 1 by decide⟩) _ _

end Auction

end RobotDdz
