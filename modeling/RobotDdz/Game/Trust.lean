import RobotDdz.Game.Seat

/-!
# A robot in trust

The server does not always play what a robot requests. It may reject a request
(`TAKEOUT_ACK`), put the seat in trust and play for it. `Desk` follows the
robot's own cards through that; here it sits at the table, with the others'
plays, the counts and the hand to beat.

`trust_plays`: at level 0 the robot has its cards right throughout, but for
those of a request that is still out, exactly when every answer of the server
settles (`Desk.Settles`), and then all its requests are legal plays.

The two halves are proved apart. The robot's own cards are a matter of its
desk, for which `Task/Reconcile` has the exact condition on an answer of the
server. What no answer can spoil is everything else (`Informed`): the seat, the
counts and the hand to beat come from the announced plays alone. Together they
make the request a legal play.

A request calls `RbtOutGetTakeOutCard` as a whole, with the second take-out it
may contain. At level 0 the first is enough (`turnContract_levelZero`), so what
is outstanding is what is asked for.
-/

namespace RobotDdz

open AI Runs

/-- The robot, the table, and whether a request is out. -/
structure Trustee where
  robot : AI
  table : Table
  outstanding : Bool

/-- What happens at the table: the robot is asked and requests its play, the
server answers the request, puts a seat in trust, or announces a play of any
seat. -/
inductive TrustEvent where
  | request (u : Undef)
  | ack (result : Int)
  | trust (seatNo : Int)
  | takeOut (seatno : Int) (cards : List Int)

namespace Trustee

/-- One event. -/
def step (x : Trustee) : TrustEvent → Trustee
  | .request u => { x with robot := (x.robot.rbtOutGetTakeOutCard u).1, outstanding := true }
  | .ack result =>
    { x with
      robot := recvTakeOutCardAck x.robot result
      outstanding := if result ≠ 0 then false else x.outstanding }
  | .trust seatNo =>
    { x with
      robot := recvGetTrustNotify x.robot seatNo
      outstanding := if x.robot.aiSeat = seatNo then false else x.outstanding }
  | .takeOut seatno cards =>
    { robot := recvGetTakeOutCardNotify x.robot seatno cards
      table := x.table.put seatno cards
      outstanding := if seatno = x.robot.aiSeat then false else x.outstanding }

/-- The robot's desk: its own cards and its request. -/
def desk (seat : Int) (x : Trustee) : Desk := ⟨x.robot, x.table.held seat, x.outstanding⟩

/-- What may happen: the robot is asked while it has cards and no request is
out, and before the first hand only as the lord; a seat plays cards it holds. -/
def Allowed (lord seat : Int) (x : Trustee) : TrustEvent → Prop
  | .request _ =>
    x.outstanding = false ∧ x.table.held seat ≠ [] ∧ (x.table.last = none → lord = seat)
  | .takeOut seatno cards => Seat seatno ∧ cards.Subperm (x.table.held seatno)
  | _ => True

/-- An answer of the server that settles, as in `Desk.Settles`. -/
def Settles (seat : Int) (x : Trustee) : TrustEvent → Prop
  | .request _ => True
  | .ack result => (x.desk seat).Settles (.ack result)
  | .trust seatNo => (x.desk seat).Settles (.trust seatNo)
  | .takeOut seatno cards => (x.desk seat).Settles (.takeOut seatno cards)

/-- A request is a legal play. -/
def Requests (seat : Int) (x : Trustee) : TrustEvent → Prop
  | .request u => x.table.LegalPlay seat (x.robot.rbtOutGetTakeOutCard u).2
  | _ => True

/-- What no answer of the server can spoil: the seat, the counts and the hand
to beat. -/
structure Informed (lord seat : Int) (x : Trustee) : Prop where
  knows : Knows lord seat x.robot x.table
  level : LevelZero seat (x.robot, x.table)
  table : x.table.Sound

section Trust

variable {lord seat : Int} {x : Trustee}

/-- Cards that are put back change nothing else. -/
theorem Informed.recovery (h : Informed lord seat x) (outstanding : Bool) :
    Informed lord seat { x with robot := x.robot.recoveryHandCards, outstanding } := by
  obtain ⟨⟨hseat, hpos, hremain, htotal, hcurrent⟩, ⟨hlevel, hpoints⟩, htable⟩ := h
  exact ⟨⟨hseat, hpos, hremain, htotal, hcurrent⟩, ⟨hlevel, hpoints⟩, htable⟩

/-- Every event keeps it: a request takes the robot's cards and nothing it
knows, an ack and a trust put cards back, and a play is announced as in any
game. -/
theorem Informed.step (h : Informed lord seat x) (hs : Seat seat) {e : TrustEvent}
    (ha : Allowed lord seat x e) : Informed lord seat (x.step e) := by
  cases e with
  | request u => exact ⟨h.knows.asked u, h.level.asked u, h.table⟩
  | ack result =>
    show Informed lord seat { x with robot := recvTakeOutCardAck x.robot result, outstanding := _ }
    unfold recvTakeOutCardAck
    split
    · exact h.recovery _
    · exact ⟨h.knows, h.level, h.table⟩
  | trust seatNo =>
    show Informed lord seat { x with robot := recvGetTrustNotify x.robot seatNo, outstanding := _ }
    unfold recvGetTrustNotify
    split
    · exact h.recovery _
    · exact ⟨h.knows, h.level, h.table⟩
  | takeOut seatno cards =>
    obtain ⟨hp, hsub⟩ := ha
    exact ⟨h.knows.announced hp hsub, ⟨(level_announced _ _ _).trans h.level.level,
      aiPoints_announced h.knows.aiSeat h.table hs h.level.points hsub⟩, h.table.put hp hsub⟩

/-- The robot sees what a turn needs when it has its cards. -/
theorem Informed.sees (h : Informed lord seat x) (hr : (x.desk seat).Reconciled)
    (hquiet : x.outstanding = false) : Sees lord seat x.robot x.table := by
  have hcards : (x.robot.aiCardsVec
      ++ if x.outstanding then x.robot.vecLastTakeOutCards else []).Perm (x.table.held seat) :=
    hr.cards
  rw [hquiet, if_neg Bool.false_ne_true, List.append_nil] at hcards
  exact ⟨h.knows.aiSeat, h.knows.position, h.knows.counts.current, hcards⟩

/-- A request of a robot that has its cards is a legal play, and they stay
right. -/
theorem Informed.request (h : Informed lord seat x) (hs : Seat seat)
    (hr : (x.desk seat).Reconciled) {u : Undef} (ha : Allowed lord seat x (.request u)) :
    x.table.LegalPlay seat (x.robot.rbtOutGetTakeOutCard u).2 ∧
      ((x.step (.request u)).desk seat).Reconciled := by
  obtain ⟨hquiet, hcards, hfirst⟩ := ha
  have hplays : SeatEvent.Plays seat (x.robot, x.table) (.own u) :=
    (h.sees hr hquiet).plays_levelZero hs h.table h.level ⟨hcards, hfirst⟩
  obtain ⟨hlegal, hkept⟩ := hplays
  refine ⟨hlegal, h.table.held_nodup hs, ?_⟩
  -- the answer and the cards left are the cards held
  have hleft := answer_announced u x.robot
  simp only [SeatEvent.step] at hkept
  rw [hleft, h.knows.aiSeat, Table.put_held, play, Function.update_self] at hkept
  show ((x.robot.rbtOutGetTakeOutCard u).1.aiCardsVec
    ++ (x.robot.rbtOutGetTakeOutCard u).1.vecLastTakeOutCards).Perm (x.table.held seat)
  rw [lastTakeOutCards_answer]
  refine List.perm_append_comm.trans ((List.Perm.append_left _ hkept).trans ?_)
  exact List.subperm_append_diff_self_of_count_le fun c _ => hlegal.held.count_le c

/-- The robot's cards are right after an event exactly when it settles. A
request always does at level 0; the answers of the server are the desk's
business, play for play. -/
theorem Informed.right_iff (h : Informed lord seat x) (hs : Seat seat)
    (hr : (x.desk seat).Reconciled) {e : TrustEvent} (ha : Allowed lord seat x e) :
    ((x.step e).desk seat).Reconciled ↔ Settles seat x e := by
  cases e with
  | request u => exact iff_of_true (h.request hs hr ha).2 trivial
  | ack result =>
    exact Desk.answer_reconciled_iff hr (e := .ack result) trivial fun _ he =>
      TurnEvent.noConfusion he
  | trust seatNo =>
    exact Desk.answer_reconciled_iff hr (e := .trust seatNo) trivial fun _ he =>
      TurnEvent.noConfusion he
  | takeOut seatno cards =>
    have hseat : x.robot.aiSeat = seat := h.knows.aiSeat
    have hheld : (x.step (.takeOut seatno cards)).desk seat
        = (x.desk seat).step (.takeOut seatno cards) := by
      have hput : (x.table.put seatno cards).held seat
          = if seatno = x.robot.aiSeat then (x.table.held seat).diff cards
            else x.table.held seat := by
        rw [hseat, Table.put_held, play, Function.update_apply]
        by_cases hp : seatno = seat
        · rw [if_pos hp.symm, if_pos hp, hp]
        · rw [if_neg (Ne.symm hp), if_neg hp]
      show Desk.mk _ ((x.table.put seatno cards).held seat) _ = _
      rw [hput]
      rfl
    rw [hheld]
    refine Desk.answer_reconciled_iff hr (fun hp => ?_) fun _ he => TurnEvent.noConfusion he
    show cards.Subperm (x.table.held seat)
    have hp' : seatno = seat := hp.trans hseat
    rw [← hp']
    exact ha.2

/-- A robot of level 0 in a live deal whose server may reject its requests, put
seats in trust and play for it: it has its cards right in every state, but for
those of a request that is out, exactly when every answer of the server
settles, and then all its requests are legal plays. -/
theorem trust_plays (u : Undef) {s : AI} (hlevel : s.level = 0) {d : Deal} (hd : d.Legal)
    (hs : Seat seat) (hl : Seat lord) {es : List TrustEvent}
    (hes : Along step (Allowed lord seat)
      ⟨(d.begin u s seat lord).1, (d.begin u s seat lord).2, false⟩ es) :
    ((∀ pre, pre <+: es → ((run step
        ⟨(d.begin u s seat lord).1, (d.begin u s seat lord).2, false⟩ pre).desk seat).Reconciled) ↔
      Along step (Settles seat)
        ⟨(d.begin u s seat lord).1, (d.begin u s seat lord).2, false⟩ es) ∧
    (Along step (Settles seat)
        ⟨(d.begin u s seat lord).1, (d.begin u s seat lord).2, false⟩ es →
      Along step (Requests seat)
        ⟨(d.begin u s seat lord).1, (d.begin u s seat lord).2, false⟩ es) := by
  have hlive := liveSeat_begin u s hd hs hl
  have hinformed : Informed lord seat
      ⟨(d.begin u s seat lord).1, (d.begin u s seat lord).2, false⟩ :=
    ⟨hlive.robot.toKnows, (dealt_rbtInInitCard u s hd hs).levelZero hd
      ((level_rbtInInitCard u s seat (d.hand seat)).trans hlevel) lord, hlive.table⟩
  have hright : (desk seat
      ⟨(d.begin u s seat lord).1, (d.begin u s seat lord).2, false⟩).Reconciled := by
    refine ⟨hlive.table.held_nodup hs, ?_⟩
    show ((d.begin u s seat lord).1.aiCardsVec ++ []).Perm
      ((d.begin u s seat lord).2.held seat)
    rw [List.append_nil]
    exact hlive.robot.cards
  constructor
  · exact Along.good_iff (fun x => Informed lord seat x ∧ (x.desk seat).Reconciled)
      (fun x => (x.desk seat).Reconciled) (fun x h => h.2)
      (fun x e h ha hq => ⟨h.1.step hs ha, (h.1.right_iff hs h.2 ha).mpr hq⟩)
      (fun x e h ha hg => (h.1.right_iff hs h.2 ha).mp hg) hes ⟨hinformed, hright⟩
  · intro hsettles
    refine ((hes.and hsettles).imp_of_inv
      (fun x => Informed lord seat x ∧ (x.desk seat).Reconciled) (fun x e h ha => ?_)
      ⟨hinformed, hright⟩).2
    refine ⟨⟨h.1.step hs ha.1, (h.1.right_iff hs h.2 ha.1).mpr ha.2⟩, ?_⟩
    cases e with
    | request u => exact (h.1.request hs h.2 ha.1).1
    | ack | trust | takeOut => trivial

/-- The first request is rejected, and the robot is asked again. -/
def askedTwice : List TrustEvent := [.request .zero, .ack 1, .request .zero]

theorem trust_plays_askedTwice :
    ((∀ pre, pre <+: askedTwice → ((run step
        ⟨(orderedDeal.begin .zero {} 0 0).1, (orderedDeal.begin .zero {} 0 0).2, false⟩
          pre).desk 0).Reconciled) ↔
      Along step (Settles 0)
        ⟨(orderedDeal.begin .zero {} 0 0).1, (orderedDeal.begin .zero {} 0 0).2, false⟩
          askedTwice) ∧
    (Along step (Settles 0)
        ⟨(orderedDeal.begin .zero {} 0 0).1, (orderedDeal.begin .zero {} 0 0).2, false⟩
          askedTwice →
      Along step (Requests 0)
        ⟨(orderedDeal.begin .zero {} 0 0).1, (orderedDeal.begin .zero {} 0 0).2, false⟩
          askedTwice) := by
  have hcards : (orderedDeal.begin .zero {} 0 0).2.held 0 ≠ [] := by decide
  exact trust_plays .zero rfl orderedDeal_legal ⟨by decide, by decide⟩ ⟨by decide, by decide⟩
    ⟨⟨rfl, hcards, fun _ => rfl⟩, trivial, ⟨rfl, hcards, fun _ => rfl⟩, trivial⟩

end Trust

end Trustee

end RobotDdz
