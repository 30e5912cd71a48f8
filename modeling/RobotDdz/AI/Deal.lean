import RobotDdz.AI.Notify
import RobotDdz.Split.Partition

/-!
# Live deals

A deal is the 54 cards in three hands of seventeen and three bottom cards. The
robot is told its hand, the lord and the plays; the game itself is what each
seat holds (`play`). `robotAfter` is the robot's state after such a run.

`others_exact_iff` compares the two: `otherPoints` is the number of cards of
each rank that the two other seats hold, in every run, exactly when the robot
is not the lord.

The game is modelled beside the robot and not through it: a seat that plays a
card it does not hold is excluded by `Playable`, which is a condition on the
plays, and never by what the robot does about it. The order in which the seats
play does not matter for the counts, so no turn order is asked for.

The proof goes through the excess of the module before: it is zero after the
deal, the bottom cards are added to it if the robot is the lord, and no play
changes it. The two counts that `otherPoints` should be are then compared rank
by rank, and a lord's excess is not zero, since there is a bottom card
(`exists_bottom_rank`).
-/

namespace RobotDdz

open AI

/-- A seat of the table. -/
def Seat (i : Int) : Prop := 0 ≤ i ∧ i < 3

theorem seat_emod (i : Int) : Seat (i % 3) :=
  ⟨Int.emod_nonneg i three_ne_zero, Int.emod_lt_of_pos i three_pos⟩

/-- Three hands, by seat, and the bottom cards. -/
structure Deal where
  hand : Int → List Int
  bottom : List Int

/-- The cards of the deck, seventeen to a seat and three at the bottom. -/
structure Deal.Legal (d : Deal) : Prop where
  cards : (d.hand 0 ++ d.hand 1 ++ d.hand 2 ++ d.bottom).Perm deck
  seventeen : ∀ i, Seat i → (d.hand i).length = 17
  three : d.bottom.length = 3

/-- What each seat holds when the lord has taken the bottom cards. -/
def Deal.held (d : Deal) (lord i : Int) : List Int :=
  if i = lord then d.hand i ++ d.bottom else d.hand i

/-- Seat `p.1` plays the cards `p.2`. -/
def play (held : Int → List Int) (p : Int × List Int) : Int → List Int :=
  Function.update held p.1 ((held p.1).diff p.2)

/-- Every play is by a seat, with cards it holds. -/
def Playable : (Int → List Int) → List (Int × List Int) → Prop
  | _, [] => True
  | held, p :: plays => Seat p.1 ∧ p.2.Subperm (held p.1) ∧ Playable (play held p) plays

/-- The cards of each rank that the seats other than `seat` hold. -/
def othersHeld (held : Int → List Int) (seat : Int) : Points :=
  cardsAdd (cardVecToPointArr (held ((seat + 1) % 3))) (cardVecToPointArr (held ((seat + 2) % 3)))

section Run

variable (u : Undef) (s : AI) (d : Deal) (seat lord : Int)

/-- The robot in seat `seat` after the deal, the lord and the plays. -/
def robotAfter (plays : List (Int × List Int)) : AI :=
  plays.foldl (fun s p => s.rbtInTakeOutCard p.1 p.2)
    ((s.rbtInInitCard u seat (d.hand seat)).rbtInSetLord lord d.bottom)

/-- `otherPoints` is `remainPoints` less the robot's own cards. -/
def OthersExact (s : AI) : Prop :=
  ∀ r, r ≤ redJoker → s.otherPoints r = s.remainPoints r - s.aiPoints r

/-- The bookkeeping of the others' cards in every run of the deal. -/
structure Bookkeeping : Prop where
  dealt : OthersExact (s.rbtInInitCard u seat (d.hand seat))
  played : ∀ plays, Playable (d.held lord) plays → OthersExact (robotAfter u s d seat lord plays)
  held : ∀ plays, Playable (d.held lord) plays → ∀ r, r ≤ redJoker →
    (robotAfter u s d seat lord plays).otherPoints r
      = othersHeld (plays.foldl play (d.held lord)) seat r

end Run

theorem othersExact_iff (s : AI) : OthersExact s ↔ ∀ r, r ≤ redJoker → s.excess r = 0 := by
  unfold OthersExact AI.excess
  constructor
  · intro h r hr
    rw [h r hr, Int.sub_self]
  · intro h r hr
    have := h r hr
    omega

/-- The excess in a run of a deal: the bottom cards, when the robot is the
lord. -/
theorem excess_robotAfter (u : Undef) (s : AI) {d : Deal} (hd : d.Legal) {seat : Int}
    (hs : Seat seat) (lord : Int) (plays : List (Int × List Int)) {r : Nat} (hr : r ≤ redJoker) :
    (robotAfter u s d seat lord plays).excess r
      = if lord = seat then cardVecToPointArr d.bottom r else 0 := by
  have hplays : ∀ (plays : List (Int × List Int)) (s : AI),
      (plays.foldl (fun s p => s.rbtInTakeOutCard p.1 p.2) s).excess r = s.excess r := by
    intro plays
    induction plays with
    | nil => intro s; rfl
    | cons p plays ih =>
      intro s
      rw [List.foldl_cons, ih, excess_rbtInTakeOutCard s p.1 p.2 hr]
  obtain ⟨hseat, -, -⟩ := rbtInInitCard_spec u s (d.hand seat) hs
  rw [robotAfter, hplays, excess_rbtInSetLord, excess_rbtInInitCard, hseat, Int.zero_add,
    List.take_of_length_le (Nat.le_of_eq hd.three)]

/-! ## The two other seats -/

theorem cardVecToPointArr_diff {l l' : List Int} (h : l'.Subperm l) (r : Nat) :
    cardVecToPointArr (l.diff l') r = cardVecToPointArr l r - cardVecToPointArr l' r := by
  have hperm : (l' ++ l.diff l').Perm l :=
    List.subperm_append_diff_self_of_count_le fun x _ => h.count_le x
  have hsum := cardVecToPointArr_append l' (l.diff l') r
  rw [cardVecToPointArr_perm hperm] at hsum
  omega

/-- The ranks of the deck. -/
theorem deck_counts : ∀ r, r ≤ redJoker →
    cardVecToPointArr deck r = freshRemain Points.zero r := by
  decide

/-- A play of another seat takes its cards from the others', a play of the
robot takes none. -/
theorem othersHeld_play {held : Int → List Int} {seat : Int} (hs : Seat seat)
    {p : Int × List Int} (hp : Seat p.1) (hsub : p.2.Subperm (held p.1)) (r : Nat) :
    othersHeld (play held p) seat r
      = othersHeld held seat r - if p.1 = seat then 0 else cardVecToPointArr p.2 r := by
  have hdiff := cardVecToPointArr_diff hsub r
  obtain ⟨hs0, hs3⟩ := hs
  obtain ⟨hp0, hp3⟩ := hp
  simp only [othersHeld, cardsAdd, play, Function.update_apply]
  -- the player is the robot, the next seat or the one after
  by_cases h0 : p.1 = seat
  · have h1 : ¬(seat + 1) % 3 = p.1 := by omega
    have h2 : ¬(seat + 2) % 3 = p.1 := by omega
    rw [if_neg h1, if_neg h2, if_pos h0]
    omega
  · by_cases h1 : (seat + 1) % 3 = p.1
    · have h2 : ¬(seat + 2) % 3 = p.1 := by omega
      rw [if_pos h1, if_neg h2, if_neg h0, hdiff, h1]
      omega
    · have h2 : (seat + 2) % 3 = p.1 := by omega
      rw [if_neg h1, if_pos h2, if_neg h0, hdiff, h2]
      omega

/-- The others' cards after the deal, the lord being one of them. -/
theorem othersHeld_held {d : Deal} (hd : d.Legal) {seat lord : Int} (hs : Seat seat)
    (hl : Seat lord) (hne : lord ≠ seat) (r : Nat) :
    othersHeld (d.held lord) seat r
      = cardVecToPointArr deck r - cardVecToPointArr (d.hand seat) r := by
  have hsum : cardVecToPointArr deck r = cardVecToPointArr (d.hand 0) r
      + cardVecToPointArr (d.hand 1) r + cardVecToPointArr (d.hand 2) r
      + cardVecToPointArr d.bottom r := by
    rw [← cardVecToPointArr_perm hd.cards, cardVecToPointArr_append, cardVecToPointArr_append,
      cardVecToPointArr_append]
  obtain ⟨hs0, hs3⟩ := hs
  obtain ⟨hl0, hl3⟩ := hl
  have hseat : seat = 0 ∨ seat = 1 ∨ seat = 2 := by omega
  have hlord : lord = 0 ∨ lord = 1 ∨ lord = 2 := by omega
  rw [hsum]
  rcases hseat with rfl | rfl | rfl <;> rcases hlord with rfl | rfl | rfl <;>
    simp [othersHeld, cardsAdd, Deal.held, cardVecToPointArr_append] at hne ⊢ <;> omega

/-- The robot's seat and the difference between its count of the others' cards
and the cards they hold go through a run unchanged. -/
theorem foldl_play_others {seat : Int} (hs : Seat seat) {r : Nat} (hr : r ≤ redJoker) :
    ∀ (plays : List (Int × List Int)) (s : AI) (held : Int → List Int), s.aiSeat = seat →
      Playable held plays →
      (plays.foldl (fun s p => s.rbtInTakeOutCard p.1 p.2) s).otherPoints r
          - othersHeld (plays.foldl play held) seat r
        = s.otherPoints r - othersHeld held seat r := by
  intro plays
  induction plays with
  | nil => intro s held _ _; rfl
  | cons p plays ih =>
    intro s held hseat hplays
    obtain ⟨hp, hsub, hrest⟩ := hplays
    have hstep := rbtInTakeOutCard_counted s p.1 p.2
    have hlt := lt_cardPointNum hr
    rw [List.foldl_cons, List.foldl_cons, ih _ _ (hstep.seat.trans hseat) hrest,
      hstep.other, othersHeld_play hs hp hsub, hseat]
    by_cases h0 : p.1 = seat
    · simp [h0]
    · simp [h0, hlt]

/-- The robot's count of the others' cards when the lord is one of them. -/
theorem otherPoints_robotAfter (u : Undef) (s : AI) {d : Deal} (hd : d.Legal) {seat lord : Int}
    (hs : Seat seat) (hl : Seat lord) (hne : lord ≠ seat) {plays : List (Int × List Int)}
    (hplays : Playable (d.held lord) plays) {r : Nat} (hr : r ≤ redJoker) :
    (robotAfter u s d seat lord plays).otherPoints r
      = othersHeld (plays.foldl play (d.held lord)) seat r := by
  obtain ⟨hseat, hremain, hown⟩ := rbtInInitCard_spec u s (d.hand seat) hs
  obtain ⟨hseat', -, hother, -⟩ :=
    rbtInSetLord_spec (s.rbtInInitCard u seat (d.hand seat)) lord d.bottom
  have hfresh : freshRemain s.remainPoints r = cardVecToPointArr deck r := by
    rw [deck_counts r hr]
    unfold freshRemain
    rw [if_pos hr, if_pos hr]
  have hinit := excess_rbtInInitCard u s seat (d.hand seat) r
  rw [excess, hremain, hown, hfresh] at hinit
  have hrun := foldl_play_others hs hr plays _ _ (hseat'.trans hseat) hplays
  rw [hother, othersHeld_held hd hs hl hne] at hrun
  unfold robotAfter
  omega

/-- Some rank is the rank of a bottom card. -/
theorem exists_bottom_rank {d : Deal} (hd : d.Legal) :
    ∃ r, r ≤ redJoker ∧ 0 < cardVecToPointArr d.bottom r := by
  have hpos : 0 < d.bottom.length := by rw [hd.three]; decide
  obtain ⟨card, hcard⟩ := List.exists_mem_of_length_pos hpos
  have hdeck : card ∈ deck := hd.cards.subset (List.mem_append_right _ hcard)
  have hvalid : ∀ card ∈ deck, ValidCard card := by decide
  obtain ⟨h0, h14⟩ := cardToPoint_range (hvalid card hdeck)
  refine ⟨(cardToPoint card).toNat, by simp only [redJoker]; omega, ?_⟩
  rw [cardVecToPointArr_apply]
  have hcount : 0 < d.bottom.countP (hasPoint (cardToPoint card).toNat) := by
    rw [List.countP_pos_iff]
    exact ⟨card, hcard, by simp [hasPoint, h0]⟩
  omega

/-- `otherPoints` counts the others' cards in every run of a legal deal exactly
when the robot is not the lord. -/
theorem others_exact_iff (u : Undef) (s : AI) {d : Deal} (hd : d.Legal) {seat lord : Int}
    (hs : Seat seat) (hl : Seat lord) : Bookkeeping u s d seat lord ↔ lord ≠ seat := by
  constructor
  · intro h heq
    -- no play is needed: the bottom cards are in excess as soon as the lord is set
    obtain ⟨r, hr, hpos⟩ := exists_bottom_rank hd
    have hzero := (othersExact_iff _).mp (h.played [] trivial) r hr
    rw [excess_robotAfter u s hd hs lord [] hr, if_pos heq] at hzero
    omega
  · intro hne
    refine ⟨?_, ?_, ?_⟩
    · rw [othersExact_iff]
      intro r _
      exact excess_rbtInInitCard u s seat (d.hand seat) r
    · intro plays _
      rw [othersExact_iff]
      intro r hr
      rw [excess_robotAfter u s hd hs lord plays hr, if_neg hne]
    · intro plays hplays r hr
      exact otherPoints_robotAfter u s hd hs hl hne hplays hr

/-- The deck dealt in order. -/
def orderedDeal : Deal where
  hand i := (List.range 17).map fun k => 17 * i + (k : Int)
  bottom := [51, 52, 53]

theorem orderedDeal_legal : orderedDeal.Legal := by
  refine ⟨?_, fun i _ => ?_, rfl⟩
  · have h : orderedDeal.hand 0 ++ orderedDeal.hand 1 ++ orderedDeal.hand 2 ++ orderedDeal.bottom
        = deck := by decide
    rw [h]
  · simp [orderedDeal]

theorem others_exact_iff_second : Bookkeeping .zero {} orderedDeal 1 0 ↔ (0 : Int) ≠ 1 :=
  others_exact_iff .zero {} orderedDeal_legal ⟨by decide, by decide⟩ ⟨by decide, by decide⟩

/-- A robot in the lord's seat has the bottom two and both jokers among the
others' cards as well as its own. -/
theorem others_lord_fails : ¬Bookkeeping .zero {} orderedDeal 0 0 := by
  intro h
  have hzero := (othersExact_iff _).mp (h.played [] trivial) blackJoker (by decide)
  rw [excess_robotAfter .zero {} orderedDeal_legal ⟨by decide, by decide⟩ 0 [] (by decide)] at hzero
  exact absurd hzero (by decide)

end RobotDdz
