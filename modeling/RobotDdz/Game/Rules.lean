import RobotDdz.AI.Counter

/-!
# The rules of the table

What a play must be for the table: a seat plays cards it holds, the seat that
leads plays a hand, the others pass or play a higher one. `Round` is the table
with the seat to move; the turn goes round, and the round is over when somebody
has no cards left.

`Round.length_le_of_legal`: whoever plays, a round of legal plays is over after
at most three times as many turns as there are cards, since the seat whose hand
nobody beats has to play a card again.

Nothing here is about a robot. The rules are stated on the table, with
`getHand` and `isHandHigherThan` for what a hand is and which is higher, so
that "legal" has the same meaning for every player and in every module on
games.

The bound on the length of a round needs the rules and distinct cards only. A
pass is legal while somebody else's hand is to beat, and that can be so for two
seats in a row; then the turn is back with the seat whose hand it is, which
leads and must play a card.
-/

namespace RobotDdz

open AI Runs

/-- The hand of a play. -/
def handOf (cards : List Int) : Hand := getHand (cardVecToPointArr cards)

theorem handOf_nil : (handOf []).type = .nothing := getHand_zero

namespace Table

/-- The seat may start anew: nobody has played, or its own hand came last. -/
def Leads (t : Table) (seat : Int) : Prop := ∀ p ∈ t.last, p.1 = seat

/-- A play the rules allow. -/
structure LegalPlay (t : Table) (seat : Int) (cards : List Int) : Prop where
  held : cards.Subperm (t.held seat)
  leads : t.Leads seat → (handOf cards).type ≠ .nothing
  follows : ∀ p ∈ t.last, p.1 ≠ seat → cards = [] ∨
    (handOf cards).type ≠ .nothing ∧ isHandHigherThan (handOf cards) p.2 = true

/-- What is always true of a table: the cards are distinct, nobody has more
than twenty, and the hand to beat is one that was played. -/
structure Sound (t : Table) : Prop where
  nodup : t.unplayed.Nodup
  valid : ∀ c ∈ t.unplayed, ValidCard c
  size : ∀ i, Seat i → (t.held i).length ≤ 20
  last : ∀ p ∈ t.last, Seat p.1 ∧ PlayedHand p.2

/-- A seat plays cards. -/
def put (t : Table) (seat : Int) (cards : List Int) : Table := (Call.played seat cards).happen t

theorem put_held (t : Table) (seat : Int) (cards : List Int) :
    (t.put seat cards).held = play t.held (seat, cards) := rfl

theorem put_last (t : Table) (seat : Int) (cards : List Int) : (t.put seat cards).last
    = if (handOf cards).type ≠ .nothing then some (seat, handOf cards) else t.last := rfl

section Cards

variable {t : Table}

/-- A seat's cards are among the unplayed ones. -/
theorem held_sublist {i : Int} (hi : Seat i) : (t.held i).Sublist t.unplayed := by
  obtain ⟨h0, h3⟩ := hi
  have hseat : i = 0 ∨ i = 1 ∨ i = 2 := by omega
  unfold unplayed
  rcases hseat with rfl | rfl | rfl
  · exact ((List.sublist_append_left _ _).trans (List.sublist_append_left _ _)).trans
      (List.sublist_append_left _ _)
  · exact ((List.sublist_append_right _ _).trans (List.sublist_append_left _ _)).trans
      (List.sublist_append_left _ _)
  · exact (List.sublist_append_right _ _).trans (List.sublist_append_left _ _)

theorem Sound.held_nodup (ht : t.Sound) {i : Int} (hi : Seat i) : (t.held i).Nodup :=
  ht.nodup.sublist (held_sublist hi)

theorem Sound.held_valid (ht : t.Sound) {i : Int} (hi : Seat i) : ∀ c ∈ t.held i, ValidCard c :=
  fun c hc => ht.valid c ((held_sublist hi).subset hc)

/-- What a seat holds after a play is part of what it held. -/
theorem play_sublist (held : Int → List Int) (p : Int × List Int) (i : Int) :
    (play held p i).Sublist (held i) := by
  simp only [play, Function.update_apply]
  split
  next h =>
    rw [h]
    exact List.diff_sublist _ _
  next => exact List.Sublist.refl _

theorem put_unplayed_sublist (t : Table) (seat : Int) (cards : List Int) :
    (t.put seat cards).unplayed.Sublist t.unplayed := by
  have hi := play_sublist t.held (seat, cards)
  exact (((hi 0).append (hi 1)).append (hi 2)).append (List.Sublist.refl _)

/-- The hand of a play of held cards, when it is one. -/
theorem Sound.playedHand (ht : t.Sound) {seat : Int} (hs : Seat seat) {cards : List Int}
    (hsub : cards.Subperm (t.held seat)) (hhand : (handOf cards).type ≠ .nothing) :
    PlayedHand (handOf cards) := by
  obtain ⟨part, hperm, hpart⟩ := hsub
  refine ⟨cards, ?_, fun c hc => ?_, hhand, ⟨rfl, rfl, fun _ => rfl, rfl⟩⟩
  · exact hperm.nodup_iff.mp ((ht.held_nodup hs).sublist hpart)
  · exact ht.held_valid hs c (hpart.subset (hperm.symm.subset hc))

/-- A play keeps the table sound, whatever its cards are worth. -/
theorem Sound.put (ht : t.Sound) {seat : Int} (hs : Seat seat) {cards : List Int}
    (hsub : cards.Subperm (t.held seat)) : (t.put seat cards).Sound := by
  have hunplayed := put_unplayed_sublist t seat cards
  refine ⟨ht.nodup.sublist hunplayed, fun c hc => ht.valid c (hunplayed.subset hc),
    fun i hi => ?_, fun p hp => ?_⟩
  · exact Nat.le_trans (play_sublist t.held (seat, cards) i).length_le (ht.size i hi)
  · rw [put_last] at hp
    split at hp
    next hhand =>
      cases Option.mem_some_iff.mp hp
      exact ⟨hs, ht.playedHand hs hsub hhand⟩
    next => exact ht.last p hp

end Cards

/-- The number of cards in the three hands. -/
def left (t : Table) : Nat := (t.held 0).length + (t.held 1).length + (t.held 2).length

/-- A play of held cards takes them off the table. -/
theorem left_put {t : Table} {seat : Int} (hs : Seat seat) {cards : List Int}
    (hsub : cards.Subperm (t.held seat)) : (t.put seat cards).left + cards.length = t.left := by
  have hperm : (cards ++ (t.held seat).diff cards).Perm (t.held seat) :=
    List.subperm_append_diff_self_of_count_le fun y _ => hsub.count_le y
  have hlen := hperm.length_eq
  rw [List.length_append] at hlen
  obtain ⟨h0, h3⟩ := hs
  have hseat : seat = 0 ∨ seat = 1 ∨ seat = 2 := by omega
  simp only [left, put_held, play, Function.update_apply]
  rcases hseat with rfl | rfl | rfl
  all_goals
    simp only [if_true, if_false, Int.reduceEq]
    omega

end Table

/-- The table of a legal deal, with the bottom cards in the lord's hand: all
cards are of one deck, the lord has twenty and the others have seventeen. -/
theorem Deal.Legal.sound {d : Deal} (hd : d.Legal) {lord : Int} (hl : Seat lord) :
    (d.started lord).Sound ∧ (d.started lord).left = 54 := by
  obtain ⟨h0, h3⟩ := hl
  have hlord : lord = 0 ∨ lord = 1 ∨ lord = 2 := by omega
  have hperm : (d.started lord).unplayed.Perm deck := by
    refine List.Perm.trans ?_ hd.cards
    rw [List.perm_iff_count]
    intro c
    simp only [Table.unplayed, Deal.started, Deal.held, List.count_append]
    rcases hlord with rfl | rfl | rfl
    all_goals
      simp only [if_true, if_false, Int.reduceEq, List.count_append, List.count_nil]
      omega
  have hdeck : deck.Nodup ∧ deck.length = 54 ∧ ∀ c ∈ deck, ValidCard c := by decide
  have hsize : ∀ i, Seat i → ((d.started lord).held i).length = if i = lord then 20 else 17 := by
    intro i hi
    simp only [Deal.started, Deal.held]
    split
    · rw [List.length_append, hd.seventeen i hi, hd.three]
    · exact hd.seventeen i hi
  refine ⟨⟨hperm.nodup_iff.mpr hdeck.1, fun c hc => hdeck.2.2 c (hperm.subset hc),
    fun i hi => ?_, fun p hp => ?_⟩, ?_⟩
  · rw [hsize i hi]
    split <;> decide
  · exact absurd hp (Option.not_mem_none p)
  · rw [← hdeck.2.1, ← hperm.length_eq]
    simp only [Table.left, Table.unplayed, Deal.started, List.length_append, List.length_nil,
      Nat.add_zero]

/-! ## Rounds -/

/-- A table and the seat to move. -/
structure Round where
  table : Table
  turn : Int

namespace Round

/-- The next seat in turn. -/
def next (r : Round) : Int := (r.turn + 1) % 3

/-- The seat to move plays cards. -/
def step (r : Round) (cards : List Int) : Round := ⟨r.table.put r.turn cards, r.next⟩

/-- Somebody has no cards left. -/
def Over (r : Round) : Prop := ∃ i ∈ ([0, 1, 2] : List Int), r.table.held i = []

instance (r : Round) : Decidable r.Over := inferInstanceAs (Decidable (∃ i ∈ _, _))

theorem held_ne_nil {r : Round} (h : ¬r.Over) {i : Int} (hi : Seat i) : r.table.held i ≠ [] := by
  obtain ⟨h0, h3⟩ := hi
  have hmem : i ∈ ([0, 1, 2] : List Int) := by
    simp only [List.mem_cons, List.not_mem_nil, or_false]
    omega
  exact fun hnil => h ⟨i, hmem, hnil⟩

/-- The seat to move plays what the rules allow while nobody is out of cards. -/
def Legal (r : Round) (cards : List Int) : Prop := ¬r.Over ∧ r.table.LegalPlay r.turn cards

/-- A round among legal plays. -/
structure Sound (r : Round) : Prop where
  table : r.table.Sound
  turn : Seat r.turn

theorem Sound.step {r : Round} (hr : r.Sound) {cards : List Int} (hc : r.Legal cards) :
    (r.step cards).Sound :=
  ⟨hr.table.put hr.turn hc.2.held, seat_emod _⟩

/-- The passes that may follow before the turn is back with the hand to beat. -/
def passes (r : Round) : Nat :=
  match r.table.last with
  | none => 0
  | some p => ((p.1 - r.turn) % 3).toNat

/-- What falls with every turn. -/
def measure (r : Round) : Nat := 3 * r.table.left + r.passes

/-- A play of cards takes three off for each of them and allows two passes; a
pass is one of the two. -/
theorem measure_step {r : Round} (hr : r.Sound) {cards : List Int} (hc : r.Legal cards) :
    (r.step cards).measure < r.measure := by
  have hleft := Table.left_put hr.turn hc.2.held
  obtain ⟨h0, h3⟩ := hr.turn
  have hnext : r.next = (r.turn + 1) % 3 := rfl
  have hlast := Table.put_last r.table r.turn cards
  have hfalls : (r.step cards).passes < r.passes + 3 * cards.length := by
    unfold passes step
    by_cases hhand : (handOf cards).type ≠ .nothing
    · have hcards : cards ≠ [] := fun hnil => hhand (hnil ▸ handOf_nil)
      have hpos := List.length_pos_iff.mpr hcards
      simp only [hlast, if_pos hhand]
      omega
    · -- a pass is a follower's: the hand to beat is another seat's
      have hfollow : ∃ p ∈ r.table.last, p.1 ≠ r.turn := by
        by_contra hnone
        refine hhand (hc.2.leads fun p hp => ?_)
        by_contra hne
        exact hnone ⟨p, hp, hne⟩
      obtain ⟨p, hp, hne⟩ := hfollow
      obtain ⟨hp0, hp3⟩ := (hr.table.last p hp).1
      simp only [hlast, if_neg hhand, Option.mem_def.mp hp]
      omega
  unfold measure
  have hput : (r.step cards).table.left + cards.length = r.table.left := hleft
  omega

/-- After a play somebody has led. -/
theorem last_step {r : Round} {cards : List Int} (hc : r.Legal cards) :
    (r.step cards).table.last ≠ none := by
  show (r.table.put r.turn cards).last ≠ none
  rw [Table.put_last]
  split
  · exact Option.some_ne_none _
  next hhand =>
    intro hnone
    refine hhand (hc.2.leads fun p hp => ?_)
    rw [hnone] at hp
    exact absurd hp (Option.not_mem_none p)

/-- A round of legal plays has at most as many turns as its measure. -/
theorem length_le_of_legal {r : Round} (hr : r.Sound) {plays : List (List Int)}
    (hplays : Along step Legal r plays) : plays.length ≤ r.measure := by
  have hrun := hplays.length_le Sound measure
    (fun r cards hr hc => ⟨hr.step hc, measure_step hr hc⟩) hr
  omega

end Round

end RobotDdz
