import RobotDdz.AI.Contract
import RobotDdz.AI.Deal
import RobotDdz.AI.Knowledge
import RobotDdz.Lib.Runs

/-!
# The robot's own turn and the server

`RobotTask` takes the cards of its request out of `aiCardsVec` when it sends
the request. The server answers with an ack, may put the seat in trust, and
announces every play; three handlers bring `aiCardsVec` back in line, and all
three read `vecLastTakeOutCards`, which none of them clears.

`Desk` puts the cards the robot really holds next to its state. A request is
outstanding until a failed ack, a trust of the seat or a play of the seat
settles it, and the robot is asked for the next one only after that.
`Desk.Reconciled` is what `aiCardsVec` has to be before and after.

The request itself can go wrong too: a robot that leads takes cards out a
second time when the first ones are no hand, and has forgotten these then. So
`Settles` asks of a request that the robot follows, or plays at level 0, or
that the strategies can cope with its cards (`TurnFits`); of an answer of the
server that it puts back, or leaves out, what the request has taken. For an
answer that is the exact condition (`answer_reconciled_iff`). `Dealt` is what
the deal has settled, and a run of settling steps stays reconciled
(`aiCardsVec_of_settles`).
-/

namespace RobotDdz

open AI Runs

/-- `RecvTakeOutCardAck`, in a game. -/
def recvTakeOutCardAck (robot : AI) (result : Int) : AI :=
  if result ≠ 0 then robot.recoveryHandCards else robot

/-- `RecvGetTrustNotify`, in a game. -/
def recvGetTrustNotify (robot : AI) (seatNo : Int) : AI :=
  if robot.aiSeat = seatNo then robot.recoveryHandCards else robot

/-- `RecvGetTakeOutCardNotify`, in a game, up to the request it may go on to
send. -/
def recvGetTakeOutCardNotify (robot : AI) (seatno : Int) (cards : List Int) : AI :=
  let robot' := robot.rbtInTakeOutCard seatno cards
  if seatno = robot.aiSeat then
    if !robot'.isLastTakeOutCards cards then robot'.removeExtraCards cards else robot'
  else robot'

/-- The robot's state, the cards it really holds, and whether the server has
yet to settle its last request. -/
structure Desk where
  robot : AI
  held : List Int
  outstanding : Bool

/-- What happens at the robot's seat. A request is `SendTakeOutCardReq`, which
asks the robot. -/
inductive TurnEvent where
  | request (u : Undef)
  | ack (result : Int)
  | trust (seatNo : Int)
  | takeOut (seatno : Int) (cards : List Int)

namespace Desk

/-- One event. -/
def step (d : Desk) : TurnEvent → Desk
  | .request u => { d with robot := (d.robot.rbtOutGetTakeOutCard u).1, outstanding := true }
  | .ack result =>
    { d with
      robot := recvTakeOutCardAck d.robot result
      outstanding := if result ≠ 0 then false else d.outstanding }
  | .trust seatNo =>
    { d with
      robot := recvGetTrustNotify d.robot seatNo
      outstanding := if d.robot.aiSeat = seatNo then false else d.outstanding }
  | .takeOut seatno cards =>
    { robot := recvGetTakeOutCardNotify d.robot seatno cards
      held := if seatno = d.robot.aiSeat then d.held.diff cards else d.held
      outstanding := if seatno = d.robot.aiSeat then false else d.outstanding }

/-- What can happen: the robot is asked once its last request is settled, and
its seat plays cards it holds. -/
def Allowed (d : Desk) : TurnEvent → Prop
  | .request _ => d.outstanding = false
  | .takeOut seatno cards => seatno = d.robot.aiSeat → cards.Subperm d.held
  | _ => True

/-- The steps after which `aiCardsVec` is right. A robot that is asked to lead
does so at level 0, or has cards its strategies can cope with. Cards are put
back only for an outstanding request, or when there are none to put back. A
play of the seat contains an outstanding request; with none outstanding it is
empty or differs from the last request. -/
def Settles (d : Desk) : TurnEvent → Prop
  | .request u =>
    d.robot.isFree = true → d.robot.level = 0 ∨ TurnState d.robot ∧
      (d.robot.Follows → PlayedHand d.robot.curHand) ∧ d.robot.TurnFits u
  | .ack result => result ≠ 0 → d.outstanding = true ∨ d.robot.vecLastTakeOutCards = []
  | .trust seatNo =>
    d.robot.aiSeat = seatNo → d.outstanding = true ∨ d.robot.vecLastTakeOutCards = []
  | .takeOut seatno cards =>
    seatno = d.robot.aiSeat →
      if d.outstanding then d.robot.vecLastTakeOutCards.Subperm cards
      else cards = [] ∨ ¬d.robot.vecLastTakeOutCards.Perm cards

/-- The robot has the cards it holds, less those of an outstanding request. -/
structure Reconciled (d : Desk) : Prop where
  distinct : d.held.Nodup
  cards :
    (d.robot.aiCardsVec ++ if d.outstanding then d.robot.vecLastTakeOutCards else []).Perm d.held

/-- What the deal has settled: the seat, at most twenty cards, and, as long as
no turn counts its bombs out, the robot's counts of its own cards. -/
structure Dealt (d : Desk) : Prop where
  valid : ∀ c ∈ d.held, ValidCard c
  size : d.held.length ≤ 20
  seat : 0 ≤ d.robot.aiSeat
  points : d.robot.level = 0 → d.robot.aiPoints = cardVecToPointArr d.held

end Desk

/-! ## What the handlers touch -/

theorem forUp_takeOutRank_cards (argSeat : Int) (points : Points) (lo n : Nat) (s : AI) :
    (Loops.forUp (takeOutRank argSeat points) lo n s).aiCardsVec = s.aiCardsVec ∧
    (Loops.forUp (takeOutRank argSeat points) lo n s).vecLastTakeOutCards
      = s.vecLastTakeOutCards := by
  apply Loops.forUp_inv (fun _ (s' : AI) => s'.aiCardsVec = s.aiCardsVec ∧
    s'.vecLastTakeOutCards = s.vecLastTakeOutCards) lo n
  · intro i s' _ _ h
    unfold takeOutRank
    dsimp only
    split <;> split <;> exact h
  · exact ⟨rfl, rfl⟩

/-- A play is counted; `aiCardsVec` and the last request are left to the
caller. -/
theorem rbtInTakeOutCard_cards (s : AI) (argSeat : Int) (argCards : List Int) :
    (s.rbtInTakeOutCard argSeat argCards).aiCardsVec = s.aiCardsVec ∧
    (s.rbtInTakeOutCard argSeat argCards).vecLastTakeOutCards = s.vecLastTakeOutCards := by
  have hend : ∀ (s : AI) (hand : Hand), (s.recordHand argSeat hand).aiCardsVec = s.aiCardsVec ∧
      (s.recordHand argSeat hand).vecLastTakeOutCards = s.vecLastTakeOutCards := by
    intro s hand
    unfold recordHand
    split <;> exact ⟨rfl, rfl⟩
  unfold rbtInTakeOutCard
  split
  · exact hend _ _
  · obtain ⟨h1, h2⟩ := hend (s.takeOutCount argSeat argCards) (getHand (cardVecToPointArr argCards))
    obtain ⟨h3, h4⟩ := forUp_takeOutRank_cards argSeat (cardVecToPointArr argCards) 0 cardPointNum
      (s.setInfo argSeat { s.playerInfo argSeat with
        total := (s.playerInfo argSeat).total - argCards.length })
    exact ⟨h1.trans h3, h2.trans h4⟩

/-- A play of the seat, for the cards. -/
theorem recvGetTakeOutCardNotify_own {robot : AI} {seatno : Int} (h : seatno = robot.aiSeat)
    (cards : List Int) :
    (recvGetTakeOutCardNotify robot seatno cards).aiCardsVec
      = if robot.vecLastTakeOutCards.Perm cards then robot.aiCardsVec
        else robot.aiCardsVec.diff cards := by
  obtain ⟨h1, h2⟩ := rbtInTakeOutCard_cards robot seatno cards
  unfold recvGetTakeOutCardNotify
  have hiff := isLastTakeOutCards_iff (robot.rbtInTakeOutCard seatno cards) cards
  rw [h2] at hiff
  dsimp only
  rw [if_pos h]
  by_cases hl : (robot.rbtInTakeOutCard seatno cards).isLastTakeOutCards cards = true
  · rw [hl, if_pos (hiff.mp hl)]
    exact h1
  · rw [if_neg (mt hiff.mpr hl), if_pos (by simpa using hl), removeExtraCards_cards, h1]

/-- The notification of a play is the play and, for the robot's own seat, a
look at the cards. -/
theorem recvGetTakeOutCardNotify_eq (s : AI) (seatno : Int) (cards : List Int) : ∃ vec,
    recvGetTakeOutCardNotify s seatno cards
      = { s.rbtInTakeOutCard seatno cards with aiCardsVec := vec } := by
  unfold recvGetTakeOutCardNotify removeExtraCards
  dsimp only
  split
  · split
    · exact ⟨_, rfl⟩
    · exact ⟨_, rfl⟩
  · exact ⟨_, rfl⟩

theorem recvGetTakeOutCardNotify_other {s : AI} {seatno : Int} (h : seatno ≠ s.aiSeat)
    (cards : List Int) :
    recvGetTakeOutCardNotify s seatno cards = s.rbtInTakeOutCard seatno cards := if_neg h

theorem level_announced (s : AI) (p : Int) (cards : List Int) :
    (recvGetTakeOutCardNotify s p cards).level = s.level := by
  obtain ⟨_, _, _, _, _, _, heq, -⟩ := s.rbtInTakeOutCard_eq p cards
  obtain ⟨vec, hvec⟩ := recvGetTakeOutCardNotify_eq s p cards
  rw [hvec, heq]

/-- A robot that has counted the cards it holds right has counted what is left
of them right after any play. -/
theorem aiPoints_recvGetTakeOutCardNotify {s : AI} {held : List Int} (hd : held.Nodup)
    (hv : ∀ c ∈ held, ValidCard c) (hpoints : s.aiPoints = cardVecToPointArr held) {p : Int}
    {cards : List Int} (hsub : p = s.aiSeat → cards.Subperm held) :
    (recvGetTakeOutCardNotify s p cards).aiPoints
      = cardVecToPointArr (if p = s.aiSeat then held.diff cards else held) := by
  obtain ⟨vec, hvec⟩ := recvGetTakeOutCardNotify_eq s p cards
  have hcount := rbtInTakeOutCard_counted s p cards
  have hsame : (recvGetTakeOutCardNotify s p cards).aiPoints
      = (s.rbtInTakeOutCard p cards).aiPoints := by
    rw [hvec]
    rfl
  rw [hsame]
  funext r
  rw [hcount.own, hpoints]
  by_cases hp : p = s.aiSeat
  · have hdiff := cardVecToPointArr_diff (hsub hp) r
    rw [if_pos hp]
    by_cases hr : r < cardPointNum
    · rw [if_pos ⟨hp, hr⟩, hdiff]
    · -- beyond the ranks there is nothing to count
      have hbeyond : redJoker < r := Nat.lt_of_not_le fun hle => hr (lt_cardPointNum hle)
      have htop : ∀ l : List Int, l.Sublist held → cardVecToPointArr l r = 0 := fun l hl =>
        (legalCounts_of_nodup (hd.sublist hl) fun c hc => hv c (hl.subset hc)).top r hbeyond
      rw [if_neg (fun hc => hr hc.2), htop _ (List.Sublist.refl _), htop _ (List.diff_sublist _ _),
        Int.sub_zero]
  · rw [if_neg (fun hc => hp hc.1), if_neg hp, Int.sub_zero]

/-- No event moves the seat or changes the level; the answers of the server
touch cards only. -/
theorem Desk.step_keeps (d : Desk) (e : TurnEvent) :
    (d.step e).robot.aiSeat = d.robot.aiSeat ∧ (d.step e).robot.level = d.robot.level := by
  cases e with
  | request u =>
    have hshown := deciding_keeps_shown u d.robot
    exact ⟨eq_of_shown hshown AI.aiSeat, eq_of_shown hshown AI.level⟩
  | ack result =>
    show (recvTakeOutCardAck d.robot result).aiSeat = _ ∧
      (recvTakeOutCardAck d.robot result).level = _
    unfold recvTakeOutCardAck
    split <;> exact ⟨rfl, rfl⟩
  | trust seatNo =>
    show (recvGetTrustNotify d.robot seatNo).aiSeat = _ ∧
      (recvGetTrustNotify d.robot seatNo).level = _
    unfold recvGetTrustNotify
    split <;> exact ⟨rfl, rfl⟩
  | takeOut seatno cards =>
    refine ⟨?_, level_announced d.robot seatno cards⟩
    obtain ⟨vec, hvec⟩ := recvGetTakeOutCardNotify_eq d.robot seatno cards
    show (recvGetTakeOutCardNotify d.robot seatno cards).aiSeat = _
    rw [hvec]
    exact (rbtInTakeOutCard_counted d.robot seatno cards).seat

/-! ## Bags of distinct cards -/

theorem append_perm_iff_nil {l l' held : List Int} (h : l.Perm held) :
    (l ++ l').Perm held ↔ l' = [] := by
  constructor
  · intro hp
    have h1 := hp.length_eq
    have h2 := h.length_eq
    rw [List.length_append] at h1
    exact List.length_eq_zero_iff.mp (by omega)
  · intro hn
    rw [hn, List.append_nil]
    exact h

/-- Cards of a hand that lacks some of the held ones: taking out a play leaves
what is held exactly when the play has all the missing ones. -/
theorem diff_perm_diff_iff {l missing cards held : List Int} (hd : held.Nodup)
    (hp : (l ++ missing).Perm held) :
    (l.diff cards).Perm (held.diff cards) ↔ missing.Subperm cards := by
  have hcount : ∀ a, l.count a + missing.count a = held.count a := fun a => by
    rw [← List.count_append, hp.count_eq]
  have hone : ∀ a, held.count a ≤ 1 := fun a => List.nodup_iff_count_le_one.mp hd a
  rw [List.perm_iff_count, List.subperm_ext_iff]
  constructor
  · intro h a ha
    have h1 := h a
    have h2 := List.count_pos_iff.mpr ha
    have h3 := hcount a
    have h4 := hone a
    rw [List.count_diff, List.count_diff] at h1
    omega
  · intro h a
    have h1 := hcount a
    have h2 := hone a
    rw [List.count_diff, List.count_diff]
    by_cases ha : a ∈ missing
    · have := h a ha
      have := List.count_pos_iff.mpr ha
      omega
    · have := List.count_eq_zero.mpr ha
      omega

/-- Leaving out the removal is right only for an empty play. -/
theorem perm_diff_iff_nil {l cards held : List Int} (hp : l.Perm held) (hc : cards.Subperm held) :
    l.Perm (held.diff cards) ↔ cards = [] := by
  constructor
  · intro h
    have hsplit := List.subperm_append_diff_self_of_count_le fun x _ => hc.count_le x
    have h1 := hsplit.length_eq
    have h2 := h.length_eq
    have h3 := hp.length_eq
    rw [List.length_append] at h1
    exact List.length_eq_zero_iff.mp (by omega)
  · intro hn
    rw [hn, List.diff_nil]
    exact hp

/-! ## Steps and runs -/

namespace Desk

/-- A play of the seat. With a request out it has to contain the request's
cards; without one it must not be the same cards as the last request, unless it
is a pass. -/
theorem takeOut_reconciled_iff {d : Desk} (hr : d.Reconciled) {cards : List Int}
    (hc : cards.Subperm d.held) :
    (if d.robot.vecLastTakeOutCards.Perm cards then d.robot.aiCardsVec
      else d.robot.aiCardsVec.diff cards).Perm (d.held.diff cards) ↔
    if d.outstanding then d.robot.vecLastTakeOutCards.Subperm cards
    else cards = [] ∨ ¬d.robot.vecLastTakeOutCards.Perm cards := by
  have hcards := hr.cards
  cases ho : d.outstanding with
  | true =>
    rw [ho, if_pos rfl] at hcards
    rw [if_pos rfl]
    by_cases hl : d.robot.vecLastTakeOutCards.Perm cards
    · -- the play is the request, whose cards have left `aiCardsVec` already
      rw [if_pos hl]
      refine iff_of_true ?_ hl.subperm
      rw [List.perm_iff_count]
      intro a
      have h1 := hcards.count_eq a
      have h2 := hl.count_eq a
      rw [List.count_append] at h1
      rw [List.count_diff]
      omega
    · rw [if_neg hl]
      exact diff_perm_diff_iff hr.distinct hcards
  | false =>
    rw [ho, if_neg Bool.false_ne_true, List.append_nil] at hcards
    rw [if_neg Bool.false_ne_true]
    by_cases hl : d.robot.vecLastTakeOutCards.Perm cards
    · -- the play equals a request long settled: its cards stay in `aiCardsVec`
      rw [if_pos hl, perm_diff_iff_nil hcards hc]
      exact ⟨Or.inl, fun h => h.resolve_right (fun hn => hn hl)⟩
    · rw [if_neg hl]
      refine iff_of_true ?_ (Or.inr hl)
      exact hcards.diff_right cards

/-- Putting cards back: right for an outstanding request, and for no cards. -/
theorem recovery_reconciled_iff {d : Desk} (hr : d.Reconciled) :
    (d.robot.aiCardsVec ++ d.robot.vecLastTakeOutCards).Perm d.held ↔
      (d.outstanding = true ∨ d.robot.vecLastTakeOutCards = []) := by
  have hcards := hr.cards
  cases ho : d.outstanding with
  | true =>
    rw [ho, if_pos rfl] at hcards
    exact iff_of_true hcards (Or.inl rfl)
  | false =>
    rw [ho, if_neg Bool.false_ne_true, List.append_nil] at hcards
    rw [append_perm_iff_nil hcards]
    exact ⟨Or.inr, fun h => h.resolve_left (by decide)⟩

/-- What the deal has settled stays so: cards are only played, and at level 0
the counts are those of the cards because deciding takes nothing out of them. -/
theorem Dealt.step {d : Desk} (h : d.Dealt) (hr : d.Reconciled) {e : TurnEvent}
    (ha : d.Allowed e) : (d.step e).Dealt := by
  obtain ⟨hseat, hlevel⟩ := d.step_keeps e
  obtain ⟨hvalid, hsize, hpos, hpoints⟩ := h
  rw [← hseat] at hpos
  rw [← hlevel] at hpoints
  cases e with
  | request u =>
    refine ⟨hvalid, hsize, hpos, fun hl => ?_⟩
    rw [hlevel] at hl
    exact (aiPoints_of_known (known_answer_levelZero u hl)).trans (hpoints (hlevel.trans hl))
  | ack result =>
    refine ⟨hvalid, hsize, hpos, fun hl => ?_⟩
    refine Eq.trans ?_ (hpoints hl)
    show (recvTakeOutCardAck d.robot result).aiPoints = _
    unfold recvTakeOutCardAck
    split <;> rfl
  | trust seatNo =>
    refine ⟨hvalid, hsize, hpos, fun hl => ?_⟩
    refine Eq.trans ?_ (hpoints hl)
    show (recvGetTrustNotify d.robot seatNo).aiPoints = _
    unfold recvGetTrustNotify
    split <;> rfl
  | takeOut seatno cards =>
    have hsub : (if seatno = d.robot.aiSeat then d.held.diff cards else d.held).Sublist d.held := by
      split
      · exact List.diff_sublist _ _
      · exact List.Sublist.refl _
    exact ⟨fun c hc => hvalid c (hsub.subset hc), hsub.length_le.trans hsize, hpos,
      fun hl => aiPoints_recvGetTakeOutCardNotify hr.distinct hvalid (hpoints hl) ha⟩

/-- A robot that is asked to lead, with its cards right, is in the domain of a
turn. -/
theorem Dealt.turnState {d : Desk} (h : d.Dealt) (hr : d.Reconciled)
    (hquiet : d.outstanding = false) (hfree : d.robot.isFree = true) (hl : d.robot.level = 0) :
    TurnState d.robot := by
  have hcards := hr.cards
  rw [hquiet, if_neg Bool.false_ne_true, List.append_nil] at hcards
  refine ⟨hcards.nodup_iff.mpr hr.distinct, fun c hc => h.valid c (hcards.subset hc), ?_, ?_, ?_,
    fun hf => ?_⟩
  · rw [hcards.length_eq]
    exact h.size
  · rw [h.points hl]
    exact (cardVecToPointArr_perm hcards).symm
  · have hseat := h.seat
    unfold AI.isFree at hfree
    rw [Bool.or_eq_true, Bool.and_eq_true, decide_eq_true_iff, decide_eq_true_iff,
      decide_eq_true_iff] at hfree
    omega
  · rw [hfree] at hf
    exact Bool.noConfusion hf

/-- A request that settles takes the cards it asks for out, and no others: as a
follower's always does, and a leader's at level 0 or where the strategies can
cope with its cards. -/
theorem request_reconciled {d : Desk} (h : d.Dealt) (hr : d.Reconciled) {u : Undef}
    (ha : d.Allowed (.request u)) (hs : d.Settles (.request u)) :
    (d.step (.request u)).Reconciled := by
  have hquiet : d.outstanding = false := ha
  have hcards := hr.cards
  rw [hquiet, if_neg Bool.false_ne_true, List.append_nil] at hcards
  have hkept : ((d.robot.rbtOutGetTakeOutCard u).2
      ++ (d.robot.rbtOutGetTakeOutCard u).1.aiCardsVec).Perm d.robot.aiCardsVec := by
    by_cases hfree : d.robot.isFree = true
    · by_cases hl : d.robot.level = 0
      · have hpick := pickPlayable_turn_levelZero u (h.turnState hr hquiet hfree hl) hl
        exact (turnContract_of_pick u hpick).conserved
      · obtain ⟨hstate, hcur, hfit⟩ := (hs hfree).resolve_left hl
        exact (turnContract_of_pick u (pickPlayable_of_fits u hstate hl hcur hfit)).conserved
    · exact answer_follow_perm u (Bool.eq_false_iff.mpr hfree)
  refine ⟨hr.distinct, ?_⟩
  show ((d.robot.rbtOutGetTakeOutCard u).1.aiCardsVec
    ++ (d.robot.rbtOutGetTakeOutCard u).1.vecLastTakeOutCards).Perm d.held
  rw [lastTakeOutCards_answer]
  exact (List.perm_append_comm.trans hkept).trans hcards

/-- From a reconciled state an answer of the server leads to a reconciled state
exactly when it settles. -/
theorem answer_reconciled_iff {d : Desk} (hr : d.Reconciled) {e : TurnEvent} (ha : d.Allowed e)
    (he : ∀ u, e ≠ .request u) : (d.step e).Reconciled ↔ d.Settles e := by
  have hsame : ∀ d' : Desk, d'.held = d.held →
      (d'.Reconciled ↔ (d'.robot.aiCardsVec
        ++ if d'.outstanding then d'.robot.vecLastTakeOutCards else []).Perm d.held) := by
    intro d' hh
    exact ⟨fun h => hh ▸ h.cards, fun h => ⟨hh ▸ hr.distinct, hh ▸ h⟩⟩
  cases e with
  | request u => exact absurd rfl (he u)
  | ack result =>
    rw [hsame (d.step (.ack result)) rfl]
    by_cases h0 : result ≠ 0
    · simp only [step, recvTakeOutCardAck, if_pos h0, Settles, recoveryHandCards]
      rw [if_neg Bool.false_ne_true, List.append_nil, recovery_reconciled_iff hr]
      exact ⟨fun h _ => h, fun h => h h0⟩
    · simp only [step, recvTakeOutCardAck, if_neg h0, Settles]
      exact iff_of_true hr.cards (fun h => absurd h h0)
  | trust seatNo =>
    rw [hsame (d.step (.trust seatNo)) rfl]
    by_cases hs : d.robot.aiSeat = seatNo
    · simp only [step, recvGetTrustNotify, if_pos hs, Settles, recoveryHandCards]
      rw [if_neg Bool.false_ne_true, List.append_nil, recovery_reconciled_iff hr]
      exact ⟨fun h _ => h, fun h => h hs⟩
    · simp only [step, recvGetTrustNotify, if_neg hs, Settles]
      exact iff_of_true hr.cards (fun h => absurd h hs)
  | takeOut seatno cards =>
    by_cases hs : seatno = d.robot.aiSeat
    · have hown := recvGetTakeOutCardNotify_own hs cards
      have hiff := takeOut_reconciled_iff hr (ha hs)
      rw [← hown] at hiff
      simp only [Settles]
      constructor
      · intro h _
        have hcards := h.cards
        simp only [step, if_pos hs] at hcards
        rw [if_neg Bool.false_ne_true, List.append_nil] at hcards
        exact hiff.mp hcards
      · intro h
        refine ⟨?_, ?_⟩
        · simp only [step, if_pos hs]
          exact hr.distinct.diff
        · simp only [step, if_pos hs]
          rw [if_neg Bool.false_ne_true, List.append_nil]
          exact hiff.mpr (h hs)
    · -- another seat's play
      obtain ⟨h1, h2⟩ := rbtInTakeOutCard_cards d.robot seatno cards
      have hother : recvGetTakeOutCardNotify d.robot seatno cards
          = d.robot.rbtInTakeOutCard seatno cards := by
        unfold recvGetTakeOutCardNotify
        dsimp only
        rw [if_neg hs]
      rw [hsame _ (by simp only [step, if_neg hs])]
      simp only [step, if_neg hs, hother, h1, h2, Settles]
      exact iff_of_true hr.cards (fun h => absurd h hs)

/-- The cards an event announces for a seat. -/
def announces (seat : Int) : TurnEvent → List Int
  | .takeOut seatno cards => if seatno = seat then cards else []
  | _ => []

/-- The cards a run announces for a seat. -/
def announced (seat : Int) (es : List TurnEvent) : List Int := es.flatMap (announces seat)

/-- What the seat holds after a run: the cards at the start less those
announced. -/
theorem held_run (es : List TurnEvent) : ∀ d : Desk,
    (run step d es).held = d.held.diff (announced d.robot.aiSeat es) := by
  induction es with
  | nil => intro d; rfl
  | cons e es ih =>
    intro d
    have hstep : (d.step e).held = d.held.diff (announces d.robot.aiSeat e) := by
      cases e with
      | takeOut seatno cards =>
        simp only [step, announces]
        split <;> rfl
      | _ => rfl
    rw [run_cons, ih, (d.step_keeps e).1, hstep, announced, announced, List.flatMap_cons,
      List.diff_append]

end Desk

/-- With every step settling, `aiCardsVec` is the cards dealt less the cards
announced whenever no request is outstanding. -/
theorem aiCardsVec_of_settles (robot : AI) (hseat : 0 ≤ robot.aiSeat) {dealt : List Int}
    (hd : dealt.Nodup) (hv : ∀ c ∈ dealt, ValidCard c) (hsize : dealt.length ≤ 20)
    (hcards : robot.aiCardsVec.Perm dealt) (hpoints : robot.aiPoints = cardVecToPointArr dealt)
    {es : List TurnEvent} (hallowed : Along Desk.step Desk.Allowed ⟨robot, dealt, false⟩ es)
    (hsettles : Along Desk.step Desk.Settles ⟨robot, dealt, false⟩ es)
    (hquiet : (run Desk.step ⟨robot, dealt, false⟩ es).outstanding = false) :
    (run Desk.step ⟨robot, dealt, false⟩ es).robot.aiCardsVec.Perm
      (dealt.diff (Desk.announced robot.aiSeat es)) := by
  have hstart : Desk.Dealt ⟨robot, dealt, false⟩ ∧ Desk.Reconciled ⟨robot, dealt, false⟩ := by
    refine ⟨⟨hv, hsize, hseat, fun _ => hpoints⟩, hd, ?_⟩
    rw [if_neg Bool.false_ne_true, List.append_nil]
    exact hcards
  have hend := (hallowed.and hsettles).inv (fun d => d.Dealt ∧ d.Reconciled)
    (fun d e h hse => by
      refine ⟨h.1.step h.2 hse.1, ?_⟩
      cases e with
      | request u => exact Desk.request_reconciled h.1 h.2 hse.1 hse.2
      | ack | trust | takeOut =>
        exact (Desk.answer_reconciled_iff h.2 hse.1 fun _ he => TurnEvent.noConfusion he).mpr hse.2)
    hstart
  have hperm := hend.2.cards
  rw [hquiet, if_neg Bool.false_ne_true, List.append_nil, Desk.held_run] at hperm
  exact hperm

/-- A robot of level 0 in seat 0 that leads, with a three and a four. -/
def twoCards : AI :=
  { aiSeat := 0, aiCardsVec := [0, 1], curHandSeat := 0
    playerInfo := fun _ => ⟨cardVecToPointArr [0, 1], 2⟩ }

/-- The three is asked for, and played. -/
theorem aiCardsVec_of_settles_three :
    (run Desk.step ⟨twoCards, [0, 1], false⟩
      [.request .zero, .ack 0, .takeOut 0 [0]]).robot.aiCardsVec.Perm
      ([0, 1].diff (Desk.announced twoCards.aiSeat
        [.request .zero, .ack 0, .takeOut 0 [0]])) := by
  have hplay : [0].Subperm (run Desk.step ⟨twoCards, [0, 1], false⟩ [.request .zero, .ack 0]).held ∧
      (run Desk.step ⟨twoCards, [0, 1], false⟩
        [.request .zero, .ack 0]).robot.vecLastTakeOutCards.Subperm [0] ∧
      (run Desk.step ⟨twoCards, [0, 1], false⟩ [.request .zero, .ack 0]).outstanding = true ∧
      (run Desk.step ⟨twoCards, [0, 1], false⟩
        [.request .zero, .ack 0, .takeOut 0 [0]]).outstanding = false := by decide +kernel
  obtain ⟨hheld, hlast, hout, hquiet⟩ := hplay
  refine aiCardsVec_of_settles twoCards (by decide) (by decide) (by decide) (by decide)
    (List.Perm.refl _) rfl ⟨rfl, trivial, fun _ => hheld, trivial⟩
    ⟨fun _ => .inl rfl, fun h => absurd rfl h, fun _ => ?_, trivial⟩ hquiet
  exact (if_pos hout).mpr hlast

/-- A failed ack and a trust: the three is put back twice. -/
theorem ack_trust_recovers_twice :
    ¬∀ (robot : AI) (dealt : List Int), 0 ≤ robot.aiSeat → dealt.Nodup →
      (∀ c ∈ dealt, ValidCard c) → dealt.length ≤ 20 → robot.aiCardsVec.Perm dealt →
      robot.aiPoints = cardVecToPointArr dealt →
      ∀ es, Along Desk.step Desk.Allowed ⟨robot, dealt, false⟩ es →
        (run Desk.step ⟨robot, dealt, false⟩ es).outstanding = false →
        (run Desk.step ⟨robot, dealt, false⟩ es).robot.aiCardsVec.Perm
          (dealt.diff (Desk.announced robot.aiSeat es)) := by
  intro h
  have hrun := h twoCards [0, 1] (by decide) (by decide) (by decide) (by decide)
    (List.Perm.refl _) rfl [.request .zero, .ack 1, .trust 0] ⟨rfl, trivial, trivial, trivial⟩
    (by decide +kernel)
  have htwice : (run Desk.step ⟨twoCards, [0, 1], false⟩
      [.request .zero, .ack 1, .trust 0]).robot.aiCardsVec = [1, 0, 0] := by decide +kernel
  rw [htwice] at hrun
  exact absurd hrun.length_eq (by decide)

end RobotDdz
