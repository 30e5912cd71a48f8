import RobotDdz.AI.LevelZero
import RobotDdz.AI.Resume
import RobotDdz.Game.Rules
import RobotDdz.Task.Reconcile

/-!
# A robot at the table

One robot in a live deal against any two players. The others may play whatever
they hold; the robot is asked in its turn, and what it answers is announced as
the play of its seat. Next to the robot runs the table, as in
`RobotDdz.AI.Counter`.

`AtTable` is what the robot has right of the table: its cards, its position,
the counts and the hand to beat. A turn keeps it and is a legal play exactly
when the strategy's pick is playable (`seat_plays_iff`). At level 0 every pick
is, so that a robot of level 0 never makes an illegal play and never loses
track of its cards (`levelZero_plays`).

The results hold for any two players at the table. They need not be robots, and
need not play well or even by the rules; only what cannot be done with cards is
excluded (`Allowed`). The invariant is therefore about the robot and the table
(`LiveSeat`), and each event has a lemma for the robot's side: a play that is
announced (`Knows.announced`) and a question (`Knows.asked`, `AtTable.own`).

The bridge between the two layers is `Sees.plays_iff`: the contract of a turn,
which is stated on the robot's own state, is the legality of its play on the
real table, for a robot that sees the hand to beat.
-/

namespace RobotDdz

open AI Runs

/-- What happens at the table, seen from a robot's seat: another seat plays, or
the robot is asked, with whatever undefined reads give it, and its answer is
played. -/
inductive SeatEvent where
  | other (seat : Int) (cards : List Int)
  | own (u : Undef)

namespace SeatEvent

/-- The robot and the table after an event. Every play is announced to the
robot. -/
def step (x : AI × Table) : SeatEvent → AI × Table
  | other seat cards => (recvGetTakeOutCardNotify x.1 seat cards, x.2.put seat cards)
  | own u =>
    let r := x.1.rbtOutGetTakeOutCard u
    (recvGetTakeOutCardNotify r.1 x.1.aiSeat r.2, x.2.put x.1.aiSeat r.2)

/-- What may happen: another seat plays cards it holds; the robot is asked
while it has cards, and before the first hand only as the lord. -/
def Allowed (lord seat : Int) (x : AI × Table) : SeatEvent → Prop
  | other seat' cards => Seat seat' ∧ seat' ≠ seat ∧ cards.Subperm (x.2.held seat')
  | own _ => x.2.held seat ≠ [] ∧ (x.2.last = none → lord = seat)

/-- A turn of the robot is a legal play, and leaves the robot with the cards it
then holds. -/
def Plays (seat : Int) (x : AI × Table) : SeatEvent → Prop
  | other _ _ => True
  | own u => x.2.LegalPlay seat (x.1.rbtOutGetTakeOutCard u).2 ∧
    (step x (own u)).1.aiCardsVec.Perm ((step x (own u)).2.held seat)

/-- A turn of the robot picks a hand that it can take out. -/
def Picks (x : AI × Table) : SeatEvent → Prop
  | other _ _ => True
  | own u => (x.1.takeOutByLevel u).1.PickPlayable (x.1.takeOutByLevel u).2

end SeatEvent

/-- What the robot in a seat knows of the table. -/
structure Knows (lord seat : Int) (s : AI) (t : Table) : Prop where
  aiSeat : s.aiSeat = seat
  position : s.aiPosition = .lord ↔ lord = seat
  counts : CountsTable s t

/-- It also has the cards it holds. -/
structure AtTable (lord seat : Int) (s : AI) (t : Table) : Prop extends Knows lord seat s t where
  cards : s.aiCardsVec.Perm (t.held seat)

/-- The robot has the hand to beat. -/
def SeesHand (s : AI) (t : Table) : Prop :=
  match t.last with
  | none => s.curHand.type = .nothing ∧ s.curHandSeat = -1
  | some (seat, hand) => s.curHand = hand ∧ s.curHandSeat = seat

/-- What a turn needs of that: the cards and the hand to beat, without the
counts. -/
structure Sees (lord seat : Int) (s : AI) (t : Table) : Prop where
  aiSeat : s.aiSeat = seat
  position : s.aiPosition = .lord ↔ lord = seat
  hand : SeesHand s t
  cards : s.aiCardsVec.Perm (t.held seat)

theorem AtTable.sees {lord seat : Int} {s : AI} {t : Table} (h : AtTable lord seat s t) :
    Sees lord seat s t := ⟨h.aiSeat, h.position, h.counts.current, h.cards⟩

/-! ## An announced play -/

section Table

variable {lord seat : Int} {s : AI} {t : Table}

/-- A play is seen, whoever plays. -/
theorem Knows.announced (h : Knows lord seat s t) {p : Int} (hp : Seat p) {cards : List Int}
    (hsub : cards.Subperm (t.held p)) :
    Knows lord seat (recvGetTakeOutCardNotify s p cards) (t.put p cards) := by
  obtain ⟨_, _, _, _, _, _, heq, -⟩ := s.rbtInTakeOutCard_eq p cards
  obtain ⟨vec, hvec⟩ := recvGetTakeOutCardNotify_eq s p cards
  have hcounts : CountsTable (s.rbtInTakeOutCard p cards) (t.put p cards) :=
    CountsTable.step (x := (s, t)) h.counts (c := .played p cards) ⟨hp, hsub⟩
  refine ⟨?_, ?_, ?_⟩
  · rw [hvec, heq]
    exact h.aiSeat
  · rw [hvec, heq]
    exact h.position
  · rw [hvec]
    exact ⟨hcounts.remain, hcounts.total, hcounts.current⟩

/-- Another seat's play. -/
theorem AtTable.other (h : AtTable lord seat s t) {p : Int} (hp : Seat p) (hne : p ≠ seat)
    {cards : List Int} (hsub : cards.Subperm (t.held p)) :
    AtTable lord seat (recvGetTakeOutCardNotify s p cards) (t.put p cards) := by
  refine ⟨h.toKnows.announced hp hsub, ?_⟩
  rw [recvGetTakeOutCardNotify_other (by rw [h.aiSeat]; exact hne),
    (rbtInTakeOutCard_cards s p cards).1, Table.put_held, play,
    Function.update_of_ne (Ne.symm hne)]
  exact h.cards

/-! ## The robot's turn -/

/-- Asking the robot changes nothing it knows. -/
theorem Knows.asked (h : Knows lord seat s t) (u : Undef) :
    Knows lord seat (s.rbtOutGetTakeOutCard u).1 t := by
  have hshown := deciding_keeps_shown u s
  refine ⟨?_, ?_, h.counts.of_shown hshown⟩
  · rw [eq_of_shown hshown AI.aiSeat]
    exact h.aiSeat
  · rw [eq_of_shown hshown AI.aiPosition]
    exact h.position

/-- The answer is announced: the cards are gone already. -/
theorem answer_announced (u : Undef) (s : AI) :
    (recvGetTakeOutCardNotify (s.rbtOutGetTakeOutCard u).1 s.aiSeat
      (s.rbtOutGetTakeOutCard u).2).aiCardsVec = (s.rbtOutGetTakeOutCard u).1.aiCardsVec := by
  have hseat := eq_of_shown (deciding_keeps_shown u s) AI.aiSeat
  rw [recvGetTakeOutCardNotify_own hseat.symm, lastTakeOutCards_answer, if_pos (List.Perm.refl _)]

/-- The robot's turn keeps what it has right, as soon as it plays cards it
holds and keeps the others. -/
theorem AtTable.own (h : AtTable lord seat s t) (hs : Seat seat) (u : Undef)
    (hsub : (s.rbtOutGetTakeOutCard u).2.Subperm (t.held seat))
    (hcards : (s.rbtOutGetTakeOutCard u).1.aiCardsVec.Perm
      ((t.held seat).diff (s.rbtOutGetTakeOutCard u).2)) :
    AtTable lord seat (SeatEvent.step (s, t) (.own u)).1 (SeatEvent.step (s, t) (.own u)).2 := by
  have hleft := answer_announced u s
  rw [h.aiSeat] at hleft
  show AtTable lord seat (recvGetTakeOutCardNotify (s.rbtOutGetTakeOutCard u).1 s.aiSeat
    (s.rbtOutGetTakeOutCard u).2) (t.put s.aiSeat (s.rbtOutGetTakeOutCard u).2)
  rw [h.aiSeat]
  refine ⟨(h.toKnows.asked u).announced hs hsub, ?_⟩
  rw [hleft, Table.put_held, play, Function.update_self]
  exact hcards

/-- The robot knows when it leads. -/
theorem Sees.isFree_iff (h : Sees lord seat s t) (hs : Seat seat) (ht : t.Sound)
    (hfirst : t.last = none → lord = seat) : s.isFree = true ↔ t.Leads seat := by
  have hcur := h.hand
  unfold SeesHand at hcur
  obtain ⟨hs0, hs3⟩ := hs
  unfold AI.isFree Table.Leads
  rw [Bool.or_eq_true, Bool.and_eq_true, decide_eq_true_iff, decide_eq_true_iff,
    decide_eq_true_iff, h.position, h.aiSeat]
  cases hlast : t.last with
  | none =>
    rw [hlast] at hcur
    exact iff_of_true (.inl ⟨hfirst hlast, hcur.2⟩) fun p hp => absurd hp (Option.not_mem_none p)
  | some p =>
    rw [hlast] at hcur
    obtain ⟨⟨hp0, -⟩, -⟩ := ht.last p hlast
    have hseat : s.curHandSeat = p.1 := hcur.2
    rw [hseat]
    simp only [Option.mem_some_iff, forall_eq']
    omega

theorem Sees.cards_ne_nil (h : Sees lord seat s t) (hcards : t.held seat ≠ []) :
    s.aiCardsVec ≠ [] := by
  intro hnil
  have hlen := h.cards.length_eq
  rw [hnil] at hlen
  exact hcards (List.length_eq_zero_iff.mp hlen.symm)

/-- The contract of a turn, for the table: for a robot that sees the hand to
beat, keeping it is the same as a legal play that leaves the seat the cards it
holds. -/
theorem Sees.contract_iff_legal (h : Sees lord seat s t) (hs : Seat seat) (ht : t.Sound)
    (hcards : t.held seat ≠ []) (hfirst : t.last = none → lord = seat) (r : AI × List Int) :
    TurnContract s r ↔
      t.LegalPlay seat r.2 ∧ r.1.aiCardsVec.Perm ((t.held seat).diff r.2) := by
  have hfree := h.isFree_iff hs ht hfirst
  have hcur := h.hand
  unfold SeesHand at hcur
  have hsome := h.cards_ne_nil hcards
  constructor
  · intro hc
    have hperm := hc.conserved.trans h.cards
    have hsub : r.2.Subperm (t.held seat) :=
      (List.sublist_append_left r.2 _).subperm.trans hperm.subperm
    refine ⟨⟨hsub, fun hl => (hc.leads (hfree.mpr hl) hsome).2, fun p hp hne => ?_⟩, ?_⟩
    · have hnot : s.isFree = false := by
        rw [Bool.eq_false_iff]
        exact fun hf => hne (hfree.mp hf p hp)
      rw [Option.mem_def.mp hp] at hcur
      have hhand : s.curHand = p.2 := hcur.1
      rw [← hhand]
      exact hc.follows hnot
    · refine (List.perm_append_left_iff r.2).mp (hperm.trans ?_)
      exact (List.subperm_append_diff_self_of_count_le fun x _ => hsub.count_le x).symm
  · rintro ⟨hplay, hkept⟩
    refine ⟨?_, fun hf _ => ?_, fun hf => ?_⟩
    · refine (List.Perm.append_left r.2 hkept).trans (List.Perm.trans ?_ h.cards.symm)
      exact List.subperm_append_diff_self_of_count_le fun x _ => hplay.held.count_le x
    · have hhand := hplay.leads (hfree.mp hf)
      refine ⟨fun hnil => hhand ?_, hhand⟩
      rw [hnil]
      exact handOf_nil
    · cases hlast : t.last with
      | none =>
        have htrue := hfree.mpr fun p hp => by
          rw [hlast] at hp
          exact absurd hp (Option.not_mem_none p)
        rw [hf] at htrue
        exact Bool.noConfusion htrue
      | some p =>
        rw [hlast] at hcur
        have hhand : s.curHand = p.2 := hcur.1
        rw [hhand]
        refine hplay.follows p hlast fun he => ?_
        have htrue := hfree.mpr fun q hq => by
          rw [hlast] at hq
          rwa [← Option.mem_some_iff.mp hq]
        rw [hf] at htrue
        exact Bool.noConfusion htrue

/-- A turn is a legal play that keeps the cards exactly when the strategy's
pick is playable. -/
theorem Sees.plays_iff (h : Sees lord seat s t) (hs : Seat seat) (ht : t.Sound) {u : Undef}
    (ha : SeatEvent.Allowed lord seat (s, t) (.own u)) :
    SeatEvent.Plays seat (s, t) (.own u) ↔ SeatEvent.Picks (s, t) (.own u) := by
  have hsome := h.cards_ne_nil ha.1
  have hleft := answer_announced u s
  have hsame := s.sameTurn_takeOutByLevel u
  have hpick := turnContract_checkTakeOut (s.takeOutByLevel u).1 (s.takeOutByLevel u).2
    (by rw [hsame.aiCardsVec]; exact hsome)
  show _ ↔ (s.takeOutByLevel u).1.PickPlayable (s.takeOutByLevel u).2
  rw [← hpick, ← hsame.turnContract_congr, h.contract_iff_legal hs ht ha.1 ha.2]
  show t.LegalPlay seat _ ∧ (recvGetTakeOutCardNotify _ s.aiSeat _).aiCardsVec.Perm
    ((t.put s.aiSeat _).held seat) ↔ _
  rw [hleft, h.aiSeat, Table.put_held, play, Function.update_self]
  exact Iff.rfl

end Table

/-! ## Runs -/

/-- The invariant of a run: the robot is at a sound table. -/
structure LiveSeat (lord seat : Int) (x : AI × Table) : Prop where
  robot : AtTable lord seat x.1 x.2
  table : x.2.Sound

section Run

variable {lord seat : Int}

/-- An event keeps the invariant, a turn of the robot if it plays by the rules. -/
theorem LiveSeat.step (hs : Seat seat) {x : AI × Table} (h : LiveSeat lord seat x) {e : SeatEvent}
    (ha : e.Allowed lord seat x) (hp : e.Plays seat x) : LiveSeat lord seat (e.step x) := by
  cases e with
  | other p cards =>
    obtain ⟨hp, hne, hsub⟩ := ha
    exact ⟨h.robot.other hp hne hsub, h.table.put hp hsub⟩
  | own u =>
    have hkept := hp.2
    have hleft := answer_announced u x.1
    have hseat := h.robot.aiSeat
    have hsub := hp.1.held
    simp only [SeatEvent.step] at hkept
    rw [hleft, hseat, Table.put_held, play, Function.update_self] at hkept
    refine ⟨h.robot.own hs u hsub hkept, ?_⟩
    show (x.2.put x.1.aiSeat _).Sound
    rw [hseat]
    exact h.table.put hs hsub

/-- A robot that has been dealt its hand, before the lord is known. -/
structure Dealt (d : Deal) (seat : Int) (s : AI) : Prop where
  aiSeat : s.aiSeat = seat
  cards : s.aiCardsVec = d.hand seat
  points : s.aiPoints = cardVecToPointArr (d.hand seat)
  counts : CountsTable s d.dealt

theorem dealt_rbtInInitCard (u : Undef) (s : AI) {d : Deal} (hd : d.Legal) (hs : Seat seat) :
    Dealt d seat (s.rbtInInitCard u seat (d.hand seat)) := by
  obtain ⟨hseat, -, hpoints⟩ := rbtInInitCard_spec u s (d.hand seat) hs
  refine ⟨hseat, ?_, hpoints, countsTable_dealt u s hd hs⟩
  unfold rbtInInitCard sortHandMap countOpponents
  dsimp only
  split <;> rfl

/-- The bottom cards go into the lord's hand, in their order and one by one;
another seat's robot keeps the cards it has. -/
theorem foldl_takeLeftover_cards (cards : List Int) : ∀ s : AI,
    (cards.foldl takeLeftover s).aiCardsVec
      = if s.lordSeat = s.aiSeat then s.aiCardsVec ++ cards else s.aiCardsVec := by
  induction cards with
  | nil => intro s; simp
  | cons card cards ih =>
    intro s
    obtain ⟨hai, hlord, -, -, -⟩ := takeLeftover_spec s card
    have hone : (takeLeftover s card).aiCardsVec
        = if s.lordSeat = s.aiSeat then s.aiCardsVec ++ [card] else s.aiCardsVec := by
      unfold takeLeftover setInfo
      by_cases hl : s.lordSeat = s.aiSeat
      · simp [hl]
      · simp only [hl, if_false, false_or]
        split <;> rfl
    rw [List.foldl_cons, ih, hai, hlord, hone]
    split
    · rw [List.append_assoc]
      rfl
    · rfl

/-- The position follows from the two seats. -/
theorem position_rbtInSetLord (s : AI) (lord : Int) (bottom : List Int) :
    (s.rbtInSetLord lord bottom).aiPosition = .lord ↔ lord = s.aiSeat := by
  rw [(s.rbtInSetLord_keeps lord bottom).1]
  show (if lord = s.aiSeat then Position.lord else _) = _ ↔ _
  split
  next h => exact iff_of_true rfl h
  next h =>
    refine iff_of_false ?_ h
    split <;> exact Position.noConfusion

/-- The lord takes the bottom cards: every robot is at the table. -/
theorem Dealt.liveSeat {s : AI} {d : Deal} (h : Dealt d seat s) (hd : d.Legal) (hl : Seat lord) :
    LiveSeat lord seat (s.rbtInSetLord lord d.bottom, d.started lord) := by
  refine ⟨⟨⟨(s.rbtInSetLord_spec lord d.bottom).1.trans h.aiSeat, ?_, ?_⟩, ?_⟩, (hd.sound hl).1⟩
  · rw [← h.aiSeat]
    exact position_rbtInSetLord s lord d.bottom
  · exact countsTable_started hd hl h.counts
  · show ((d.bottom.take 3).foldl takeLeftover (s.seatLord lord d.bottom)).aiCardsVec.Perm _
    rw [List.take_of_length_le (Nat.le_of_eq hd.three), foldl_takeLeftover_cards]
    show (if lord = s.aiSeat then s.aiCardsVec ++ d.bottom else s.aiCardsVec).Perm
      (d.held lord seat)
    rw [h.aiSeat, h.cards, Deal.held]
    by_cases he : lord = seat
    · rw [if_pos he, if_pos he.symm]
    · rw [if_neg he, if_neg (Ne.symm he)]

/-- Every legal deal begins so. -/
theorem liveSeat_begin (u : Undef) (s : AI) {d : Deal} (hd : d.Legal) (hs : Seat seat)
    (hl : Seat lord) : LiveSeat lord seat (d.begin u s seat lord) :=
  (dealt_rbtInInitCard u s hd hs).liveSeat hd hl

/-- In every live deal, whatever the others play and at any level, the robot's
turns are legal plays that leave it with the cards it holds exactly when its
picks are playable. -/
theorem seat_plays_iff (u : Undef) (s : AI) {d : Deal} (hd : d.Legal) (hs : Seat seat)
    (hl : Seat lord) {es : List SeatEvent}
    (hes : Along SeatEvent.step (fun x e => e.Allowed lord seat x) (d.begin u s seat lord) es) :
    Along SeatEvent.step (fun x e => e.Plays seat x) (d.begin u s seat lord) es
      ↔ Along SeatEvent.step (fun x e => e.Picks x) (d.begin u s seat lord) es := by
  refine hes.congr (LiveSeat lord seat) (fun x e h ha => ?_)
    (fun x e h ha hp => h.step hs ha hp) (liveSeat_begin u s hd hs hl)
  cases e with
  | other => exact Iff.rfl
  | own u => exact h.robot.sees.plays_iff hs h.table ha

/-- Seat 0 of the ordered deal leads two threes, seat 1 passes, the robot in
seat 2 is asked. -/
def pairLed : List SeatEvent := [.other 0 [0, 13], .other 1 [], .own .zero]

theorem allowed_pairLed :
    Along SeatEvent.step (fun x e => e.Allowed 0 2 x) (orderedDeal.begin .zero {} 2 0) pairLed := by
  refine ⟨⟨⟨by decide, by decide⟩, by decide, by decide⟩,
    ⟨⟨by decide, by decide⟩, by decide, List.nil_subperm⟩, ⟨by decide, fun hnone => ?_⟩, trivial⟩
  exact absurd hnone (by decide)

theorem seat_plays_iff_pairLed :
    Along SeatEvent.step (fun x e => e.Plays 2 x) (orderedDeal.begin .zero {} 2 0) pairLed
      ↔ Along SeatEvent.step (fun x e => e.Picks x) (orderedDeal.begin .zero {} 2 0) pairLed :=
  seat_plays_iff .zero {} orderedDeal_legal ⟨by decide, by decide⟩ ⟨by decide, by decide⟩
    allowed_pairLed

/-! ## Level 0 -/

/-- A robot of level 0 that counts its own cards right. -/
structure LevelZero (seat : Int) (x : AI × Table) : Prop where
  level : x.1.level = 0
  points : x.1.aiPoints = cardVecToPointArr (x.2.held seat)

/-- A robot that counts its own cards right does so after every play. -/
theorem aiPoints_announced {s : AI} {t : Table} (hseat : s.aiSeat = seat) (ht : t.Sound)
    (hs : Seat seat) (hpoints : s.aiPoints = cardVecToPointArr (t.held seat)) {p : Int}
    {cards : List Int} (hsub : cards.Subperm (t.held p)) :
    (recvGetTakeOutCardNotify s p cards).aiPoints
      = cardVecToPointArr ((t.put p cards).held seat) := by
  rw [aiPoints_recvGetTakeOutCardNotify (ht.held_nodup hs) (fun c hc => ht.held_valid hs c hc)
    hpoints fun hp => by rw [← hseat, ← hp]; exact hsub]
  rw [hseat, Table.put_held, play, Function.update_apply]
  by_cases hp : p = seat
  · rw [if_pos hp, if_pos hp.symm, hp]
  · rw [if_neg hp, if_neg (Ne.symm hp)]

/-- At level 0 being asked changes neither the level nor the counts. -/
theorem LevelZero.asked {s : AI} {t : Table} (h : LevelZero seat (s, t)) (u : Undef) :
    LevelZero seat ((s.rbtOutGetTakeOutCard u).1, t) := by
  have hknown := known_answer_levelZero u h.level
  exact ⟨(eq_of_known hknown AI.level).trans h.level,
    (aiPoints_of_known hknown).trans h.points⟩

/-- A robot of level 0 in its turn is in a state a turn can start from. Its
cards and the hand to beat are the table's, and those are legal. -/
theorem Sees.turnState {s : AI} {t : Table} (h : Sees lord seat s t) (hs : Seat seat)
    (ht : t.Sound) (hz : LevelZero seat (s, t)) (hfirst : t.last = none → lord = seat) :
    TurnState s := by
  have hcur := h.hand
  unfold SeesHand at hcur
  refine ⟨h.cards.nodup_iff.mpr (ht.held_nodup hs),
    fun c hc => ht.held_valid hs c (h.cards.subset hc), ?_, ?_, ?_, fun hf => ?_⟩
  · rw [h.cards.length_eq]
    exact ht.size seat hs
  · rw [hz.points]
    exact (cardVecToPointArr_perm h.cards).symm
  · cases hlast : t.last with
    | none =>
      rw [hlast] at hcur
      rw [hcur.2]
    | some p =>
      rw [hlast] at hcur
      obtain ⟨⟨hp0, -⟩, -⟩ := ht.last p hlast
      have hseat : s.curHandSeat = p.1 := hcur.2
      omega
  · cases hlast : t.last with
    | none =>
      have hfree := (h.isFree_iff hs ht hfirst).mpr fun p hp => by
        rw [hlast] at hp
        exact absurd hp (Option.not_mem_none p)
      rw [hf] at hfree
      exact Bool.noConfusion hfree
    | some p =>
      rw [hlast] at hcur
      have hhand : s.curHand = p.2 := hcur.1
      rw [hhand]
      exact (ht.last p hlast).2

/-- A robot of level 0 plays by the rules. -/
theorem Sees.plays_levelZero {s : AI} {t : Table} (h : Sees lord seat s t) (hs : Seat seat)
    (ht : t.Sound) (hz : LevelZero seat (s, t)) {u : Undef}
    (ha : SeatEvent.Allowed lord seat (s, t) (.own u)) :
    SeatEvent.Plays seat (s, t) (.own u) := by
  have hturn := h.turnState hs ht hz ha.2
  have hpick : s.takeOutByLevel u = s.updateControl.takeOutLvl0 u u.hand := if_pos hz.level
  refine (h.plays_iff hs ht ha).mpr ?_
  show (s.takeOutByLevel u).1.PickPlayable (s.takeOutByLevel u).2
  rw [hpick]
  refine pickPlayable_levelZero (s := s.updateControl) u ?_ (h.cards_ne_nil ha.1) u.hand
  exact ⟨hturn.nodup, hturn.valid, hturn.size, hturn.points, hturn.seat, hturn.curHand⟩

/-- An event keeps the counts of a robot of level 0. -/
theorem LevelZero.step (hs : Seat seat) {x : AI × Table} (h : LiveSeat lord seat x)
    (hz : LevelZero seat x) {e : SeatEvent} (ha : e.Allowed lord seat x) (hp : e.Plays seat x) :
    LevelZero seat (e.step x) := by
  have hseat := h.robot.aiSeat
  cases e with
  | other p cards =>
    exact ⟨(level_announced x.1 p cards).trans hz.level,
      aiPoints_announced hseat h.table hs hz.points ha.2.2⟩
  | own u =>
    have hasked := hz.asked u
    have hseat' := (h.robot.toKnows.asked u).aiSeat
    have hsub := hp.1.held
    show LevelZero seat (recvGetTakeOutCardNotify (x.1.rbtOutGetTakeOutCard u).1 x.1.aiSeat
      (x.1.rbtOutGetTakeOutCard u).2, x.2.put x.1.aiSeat (x.1.rbtOutGetTakeOutCard u).2)
    rw [hseat]
    exact ⟨(level_announced _ _ _).trans hasked.level,
      aiPoints_announced hseat' h.table hs hasked.points hsub⟩

theorem level_rbtInInitCard (u : Undef) (s : AI) (seat : Int) (cards : List Int) :
    (s.rbtInInitCard u seat cards).level = s.level := by
  unfold rbtInInitCard sortHandMap countOpponents
  dsimp only
  split <;> rfl

/-- The counts when the lord has the bottom cards. -/
theorem Dealt.levelZero {s : AI} {d : Deal} (h : Dealt d seat s) (hd : d.Legal)
    (hlevel : s.level = 0) (lord : Int) :
    LevelZero seat (s.rbtInSetLord lord d.bottom, d.started lord) := by
  obtain ⟨-, -, -, hown⟩ := s.rbtInSetLord_spec lord d.bottom
  refine ⟨?_, ?_⟩
  · obtain ⟨_, _, heq⟩ := s.rbtInSetLord_eq lord d.bottom
    show (s.rbtInSetLord lord d.bottom).level = 0
    rw [heq]
    exact hlevel
  · funext r
    show (s.rbtInSetLord lord d.bottom).aiPoints r = cardVecToPointArr (d.held lord seat) r
    rw [hown, h.points, h.aiSeat, List.take_of_length_le (Nat.le_of_eq hd.three), Deal.held]
    by_cases he : lord = seat
    · rw [if_pos he, if_pos he.symm, cardVecToPointArr_append]
    · rw [if_neg he, if_neg (Ne.symm he), Int.add_zero]

/-- A robot of level 0 in a live deal against players who play whatever they
hold: all its turns are legal plays, and it has its cards, its counts and the
hand to beat right throughout. -/
theorem levelZero_plays (u : Undef) {s : AI} (hlevel : s.level = 0) {d : Deal} (hd : d.Legal)
    (hs : Seat seat) (hl : Seat lord) {es : List SeatEvent}
    (hes : Along SeatEvent.step (fun x e => e.Allowed lord seat x) (d.begin u s seat lord) es) :
    Along SeatEvent.step (fun x e => e.Plays seat x) (d.begin u s seat lord) es ∧
      AtTable lord seat (run SeatEvent.step (d.begin u s seat lord) es).1
        (run SeatEvent.step (d.begin u s seat lord) es).2 := by
  have hstep : ∀ x e, LiveSeat lord seat x ∧ LevelZero seat x → SeatEvent.Allowed lord seat x e →
      (LiveSeat lord seat (e.step x) ∧ LevelZero seat (e.step x)) ∧ e.Plays seat x := by
    intro x e h ha
    have hplays : e.Plays seat x := by
      cases e with
      | other => trivial
      | own u => exact h.1.robot.sees.plays_levelZero hs h.1.table h.2 ha
    exact ⟨⟨h.1.step hs ha hplays, h.2.step hs h.1 ha hplays⟩, hplays⟩
  obtain ⟨hend, hplays⟩ := hes.imp_of_inv _ hstep
    ⟨liveSeat_begin u s hd hs hl, (dealt_rbtInInitCard u s hd hs).levelZero hd
      ((level_rbtInInitCard u s seat (d.hand seat)).trans hlevel) lord⟩
  exact ⟨hplays, hend.1.robot⟩

theorem levelZero_plays_pairLed :
    Along SeatEvent.step (fun x e => e.Plays 2 x) (orderedDeal.begin .zero {} 2 0) pairLed ∧
      AtTable 0 2 (run SeatEvent.step (orderedDeal.begin .zero {} 2 0) pairLed).1
        (run SeatEvent.step (orderedDeal.begin .zero {} 2 0) pairLed).2 :=
  levelZero_plays .zero rfl orderedDeal_legal ⟨by decide, by decide⟩ ⟨by decide, by decide⟩
    allowed_pairLed

end Run

end RobotDdz
