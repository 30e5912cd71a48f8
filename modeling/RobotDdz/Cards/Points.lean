import Mathlib.Data.List.Basic
import Mathlib.Data.List.Nodup
import Mathlib.Data.List.Perm.Subperm
import Mathlib.Algebra.Order.BigOperators.Group.List
import Mathlib.Tactic.Ring

/-!
# Cards, ranks and point arrays

The bottom layer of `AIUtils`: a card is an `int` in `0..53`, `cardToPoint`
gives its rank, and a point array `int points[CARD_POINT_NUM]` counts the cards
of each rank. The source casts between `CardPoint` and `int` at every step
(`CardPoint(i)`, `keyPoint + len - 1`), so a rank is a `Nat` here, with the
enumerators as named constants, and a point array is a function from ranks to
`Int` counts: the extraction passes do drive counts below zero.

`cardVecToPointArr_apply` reads the array as a count over the list; from it come
the permutation and concatenation laws and `legalCounts_of_nodup`: distinct
valid cards give at most four of a rank and at most one of each joker.

Mirroring notes vs `AIUtils.cpp` and `RobotConfig.h`:
- `CARD_POINT_NUM` is 16: the thirteen ranks, two jokers and `CARD_LZ`, which
  no card has. The sums over a whole array include it, and so does `total`.
- `cardToPoint` gives `-1` for anything that is no card, and the callers use it
  as an index all the same. Such a write goes before the array; here it is no
  write to the array (`incAt`), and the module on indices from the network says
  when it happens.
- A point array is an array of `int`. Counts of cards stay far from the ends of
  the type; the two functions that add up arrays of any entries,
  `getLowestControl` and `calControl`, have their sums in 32 bits where they
  are modelled.
-/

namespace RobotDdz

/-! `enum CardPoint`, by the `int` values. -/

abbrev card3 : Nat := 0
abbrev card8 : Nat := 5
abbrev cardT : Nat := 7
abbrev cardJ : Nat := 8
abbrev cardQ : Nat := 9
abbrev cardK : Nat := 10
abbrev cardA : Nat := 11
abbrev card2 : Nat := 12
abbrev blackJoker : Nat := 13
abbrev redJoker : Nat := 14

/-- `CARD_POINT_NUM`: the ranks, with the unused `CARD_LZ` last. -/
abbrev cardPointNum : Nat := 16

attribute [simp] card3 card8 cardT cardJ cardQ cardK cardA card2 blackJoker redJoker cardPointNum

/-- A rank up to the red joker is an index of the array. -/
theorem lt_cardPointNum {r : Nat} (hr : r ≤ redJoker) : r < cardPointNum :=
  Nat.lt_of_le_of_lt hr (Nat.lt_succ_of_lt (Nat.lt_succ_self redJoker))

/-- `int points[CARD_POINT_NUM]`. -/
abbrev Points := Nat → Int

namespace Points

/-- `fill(points, points + CARD_POINT_NUM, 0)`. -/
def zero : Points := fun _ => 0

/-- The array with the given leading entries and zeros after them. -/
def ofList (l : List Int) : Points := fun r => l.getD r 0

/-- `for (j = lo; j < lo + len; ++j) points[j] += d`. -/
def addRange (c : Points) (lo len : Nat) (d : Int) : Points :=
  fun r => if lo ≤ r ∧ r < lo + len then c r + d else c r

/-- `points[i]` for an `int` index; a read before the array counts as 0. -/
def readAt (c : Points) (i : Int) : Int := if 0 ≤ i then c i.toNat else 0

/-- `points[i] += d` for an `int` index; a write before the array is no write
to the array. -/
def incAt (c : Points) (i : Int) (d : Int) : Points :=
  if 0 ≤ i then Function.update c i.toNat (c i.toNat + d) else c

/-- `accumulate(points, points + CARD_POINT_NUM, 0)`. -/
def total (c : Points) : Int := ((List.range cardPointNum).map c).sum

@[simp] theorem zero_apply (r : Nat) : zero r = 0 := rfl

/-- The counts a loop over a range of ranks changes. -/
theorem addRange_in {c : Points} {lo len r : Nat} {d : Int} (h : lo ≤ r ∧ r < lo + len) :
    addRange c lo len d r = c r + d := if_pos h

/-- The counts it leaves alone. -/
theorem addRange_out {c : Points} {lo len r : Nat} {d : Int} (h : ¬(lo ≤ r ∧ r < lo + len)) :
    addRange c lo len d r = c r := if_neg h

/-- The total written out, rank by rank. -/
theorem total_eq (c : Points) : total c = c 0 + c 1 + c 2 + c 3 + c 4 + c 5 + c 6 + c 7 + c 8
    + c 9 + c 10 + c 11 + c 12 + c 13 + c 14 + c 15 := by
  simp only [total, List.range, List.range.loop, List.map_cons, List.map_nil,
    List.sum_cons, List.sum_nil]
  ring

/-- The total of two arrays, rank by rank together. -/
theorem total_add (c d : Points) : total (fun r => c r + d r) = total c + total d := by
  rw [total_eq, total_eq, total_eq]
  ring

/-- A total goes by the counts of the array only. -/
theorem total_mono {c d : Points} (h : ∀ r, r < cardPointNum → c r ≤ d r) : total c ≤ total d :=
  List.sum_le_sum fun i hi => h i (List.mem_range.mp hi)

/-- Arrays of one total, one below the other, are equal. -/
theorem eq_of_total_le {c d : Points} (h : ∀ r, r < cardPointNum → c r ≤ d r)
    (ht : total d ≤ total c) : ∀ r, r < cardPointNum → c r = d r := by
  intro r hr
  by_contra hne
  have hlt : c r < d r := lt_of_le_of_ne (h r hr) hne
  have hsum : total c < total d := List.sum_lt_sum c d
    (fun i hi => h i (List.mem_range.mp hi)) ⟨r, List.mem_range.mpr hr, hlt⟩
  omega

end Points

/-- `cardsAdd`. -/
def cardsAdd (c0 c1 : Points) : Points := fun r => c0 r + c1 r

/-- `pointsSub`, and `pointsSubEqual` with the result stored back. -/
def pointsSub (c0 c1 : Points) : Points := fun r => c0 r - c1 r

/-- `cardToPoint`: `-1` for anything that is not a card. -/
def cardToPoint (card : Int) : Int :=
  if 0 ≤ card ∧ card ≤ 51 then card % 13
  else if card = 52 ∨ card = 53 then card - 52 + 13
  else -1

/-- `cardVecToPointArr`. -/
def cardVecToPointArr (cardVec : List Int) : Points :=
  cardVec.foldl (fun c card => c.incAt (cardToPoint card) 1) Points.zero

/-- A card id of the deck. -/
def ValidCard (card : Int) : Prop := 0 ≤ card ∧ card ≤ 53

instance (card : Int) : Decidable (ValidCard card) := inferInstanceAs (Decidable (_ ∧ _))

/-- A card of the deck has a rank up to the red joker. -/
theorem cardToPoint_range {card : Int} (h : ValidCard card) :
    0 ≤ cardToPoint card ∧ cardToPoint card ≤ 14 := by
  obtain ⟨h0, h53⟩ := h
  unfold cardToPoint
  split
  · omega
  · split <;> omega

/-- Whether a card has rank `r`. -/
def hasPoint (r : Nat) (card : Int) : Bool := cardToPoint card == (r : Int)

/-- Counting one card raises the count of its rank by one. -/
theorem incAt_apply (c : Points) (card : Int) (r : Nat) :
    c.incAt (cardToPoint card) 1 r = c r + if hasPoint r card then 1 else 0 := by
  unfold Points.incAt hasPoint
  by_cases h0 : 0 ≤ cardToPoint card
  · rw [if_pos h0, Function.update_apply]
    by_cases hr : r = (cardToPoint card).toNat
    · have he : cardToPoint card = (r : Int) := by omega
      simp [hr, h0]
    · have hne : ¬ cardToPoint card = (r : Int) := by omega
      simp [hr, hne]
  · have hne : ¬ cardToPoint card = (r : Int) := by omega
    simp [h0, hne]

/-- Counting the cards of a list on top of counts that are there. -/
theorem foldl_incAt (l : List Int) : ∀ (c : Points) (r : Nat),
    l.foldl (fun c card => c.incAt (cardToPoint card) 1) c r
      = c r + (l.countP (hasPoint r) : Int) := by
  induction l with
  | nil => intro c r; simp
  | cons card l ih =>
    intro c r
    rw [List.foldl_cons, ih, incAt_apply, List.countP_cons]
    split <;> push_cast <;> ring

/-- A point array counts the cards of each rank. -/
theorem cardVecToPointArr_apply (l : List Int) (r : Nat) :
    cardVecToPointArr l r = (l.countP (hasPoint r) : Int) := by
  rw [cardVecToPointArr, foldl_incAt]
  simp

/-- The counts do not depend on the order of the cards. -/
theorem cardVecToPointArr_perm {l l' : List Int} (h : l.Perm l') :
    cardVecToPointArr l = cardVecToPointArr l' := by
  funext r
  rw [cardVecToPointArr_apply, cardVecToPointArr_apply, h.countP_eq]

/-- The cards of two lists together. -/
theorem cardVecToPointArr_append (l l' : List Int) (r : Nat) :
    cardVecToPointArr (l ++ l') r = cardVecToPointArr l r + cardVecToPointArr l' r := by
  simp only [cardVecToPointArr_apply, List.countP_append]
  push_cast
  rfl

/-- Counts of cards are not negative. -/
theorem cardVecToPointArr_nonneg (l : List Int) (r : Nat) : 0 ≤ cardVecToPointArr l r := by
  rw [cardVecToPointArr_apply]
  exact Int.natCast_nonneg _

/-- The counts of a set of distinct cards: at most four of a rank, one of each
joker, nothing at `CARD_LZ` and beyond. -/
structure LegalCounts (p : Points) : Prop where
  nonneg : ∀ r, 0 ≤ p r
  four : ∀ r, p r ≤ 4
  joker : ∀ r, r = blackJoker ∨ r = redJoker → p r ≤ 1
  top : ∀ r, redJoker < r → p r = 0

/-- Fewer cards are legal counts too. -/
theorem LegalCounts.of_le {p q : Points} (hp : LegalCounts p) (h0 : ∀ r, 0 ≤ q r)
    (hle : ∀ r, q r ≤ p r) : LegalCounts q := by
  refine ⟨h0, fun r => Int.le_trans (hle r) (hp.four r),
    fun r hr => Int.le_trans (hle r) (hp.joker r hr), fun r hr => ?_⟩
  have hq := hle r
  rw [hp.top r hr] at hq
  exact Int.le_antisymm hq (h0 r)

/-- The card ids. -/
def deck : List Int := (List.range 54).map Int.ofNat

/-- No rank has more cards in the deck than a legal count allows. -/
theorem deck_rank_count : ∀ r < 15, deck.countP (hasPoint r) ≤ if 13 ≤ r then 1 else 4 := by
  decide +kernel

/-- The deck has every card id. -/
theorem mem_deck {card : Int} (h : ValidCard card) : card ∈ deck := by
  obtain ⟨h0, h53⟩ := h
  obtain ⟨n, rfl⟩ := Int.eq_ofNat_of_zero_le h0
  have hn : n < 54 := by omega
  exact List.mem_map.mpr ⟨n, List.mem_range.mpr hn, rfl⟩

/-- Distinct valid cards have legal counts: they are part of the deck, which
has four of a rank and one of a joker. -/
theorem legalCounts_of_nodup {l : List Int} (hd : l.Nodup) (hv : ∀ c ∈ l, ValidCard c) :
    LegalCounts (cardVecToPointArr l) := by
  have htop : ∀ r, redJoker < r → cardVecToPointArr l r = 0 := by
    intro r hr
    simp only [redJoker] at hr
    have h0 : l.countP (hasPoint r) = 0 := by
      rw [List.countP_eq_zero]
      intro c hc hp
      have := cardToPoint_range (hv c hc)
      have : cardToPoint c = (r : Int) := by simpa [hasPoint] using hp
      omega
    rw [cardVecToPointArr_apply, h0]
    rfl
  -- distinct valid cards are part of the deck, which has four of a rank and one of a joker
  have hle : ∀ r, r < 15 → cardVecToPointArr l r ≤ if 13 ≤ r then 1 else 4 := by
    intro r hr
    have hsub : l.Subperm deck := hd.subperm fun card hc => mem_deck (hv card hc)
    have h1 := hsub.countP_le (hasPoint r)
    have h2 := deck_rank_count r hr
    rw [cardVecToPointArr_apply]
    split at h2 <;> rename_i h13
    · rw [if_pos h13]; omega
    · rw [if_neg h13]; omega
  refine ⟨cardVecToPointArr_nonneg l, ?_, ?_, htop⟩
  · intro r
    by_cases hr : r < 15
    · have := hle r hr
      split at this <;> omega
    · rw [htop r (by simp only [redJoker]; omega)]
      decide
  · intro r hr
    have := hle r (by rcases hr with rfl | rfl <;> decide)
    rwa [if_pos (by rcases hr with rfl | rfl <;> decide)] at this

/-- The total of a point array of valid cards is the number of cards, since a
valid card has a point within the array. -/
theorem total_cardVecToPointArr {l : List Int} (hv : ∀ c ∈ l, ValidCard c) :
    (cardVecToPointArr l).total = (l.length : Int) := by
  induction l with
  | nil => rfl
  | cons card l ih =>
    have hsplit : cardVecToPointArr (card :: l)
        = fun r => cardVecToPointArr [card] r + cardVecToPointArr l r := by
      funext r
      exact cardVecToPointArr_append [card] l r
    have hone : (cardVecToPointArr [card]).total = 1 := by
      obtain ⟨h0, h14⟩ := cardToPoint_range (hv card (List.mem_cons_self ..))
      obtain ⟨k, hk⟩ := Int.eq_ofNat_of_zero_le h0
      have hlt : k < 15 := by omega
      have hrep : cardVecToPointArr [card] = Function.update Points.zero k 1 := by
        simp [cardVecToPointArr, Points.incAt, hk]
      -- one array for each of the fifteen ranks
      rw [hrep]
      clear hrep hk hsplit ih hv
      revert k
      decide
    rw [hsplit, Points.total_add, hone, ih fun c hc => hv c (List.mem_cons_of_mem _ hc)]
    push_cast [List.length_cons]
    ring

end RobotDdz
