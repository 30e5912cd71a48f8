import RobotDdz.Cards.Hand
import Mathlib.Data.List.Sort
import Mathlib.Data.List.Range

/-!
# Recognising a play

`getHand` sorts the ranks of a play into four buckets by multiplicity
(`sortedCard`), and classifies by the bucket sizes in one ordered chain of
conditions (`classify`). Neither the solo chain nor the pair chain test looks at
contiguity, so the recogniser accepts more than the rules of the game do; the
embedding keeps that.

`getHand_handToPointsArray` is the round trip: the point array of a well-formed
hand has one bucket for the body and one for the kickers (`sortedCard_hand`),
both already in increasing order, and the chain of conditions lands in the
branch of the hand's own type.

Mirroring notes vs `AIUtils.cpp`:
- `sortedCard` has four buckets, and the source pushes into
  `sortedCard[points[i] - 1]` for any count above zero. A count above four goes
  past the buckets; the module on indices from the network has that, and here
  such a rank is in no bucket.
- The chain of conditions is kept in the source's order: without a bomb the
  chains first, then the trio, the pair and the solo, and with one bomb by its
  kickers. Two bombs are no hand.
- `getHand` leaves `len` unset for the types that are no chains. `Hand.Agrees`
  compares the length for chains only.
-/

namespace RobotDdz

/-- `sortedCard[k - 1]`: the ranks up to the red joker held `k` times. -/
def sortedCard (points : Points) (k : Int) : List Nat :=
  (List.range (redJoker + 1)).filter fun i => points i = k

/-- `sortedCard[k].back()`. -/
def back (l : List Nat) : Nat := l.getLastD 0

/-- `sortedCard[k].front()`. -/
def front (l : List Nat) : Nat := l.headD 0

/-- `getHand` after the rocket test, from the four buckets. -/
def classify (solos pairs trios bombs : List Nat) : Hand :=
  if bombs.length = 0 then
    if 2 ≤ trios.length ∧ back trios ≤ cardA ∧ back trios - front trios = trios.length - 1 then
      if solos.length = 0 ∧ pairs.length = 0 then
        { type := .trioChain, keyPoint := front trios, len := trios.length }
      else if solos.length = trios.length ∧ pairs.length = 0 then
        { type := .trioChainSolo, keyPoint := front trios, len := trios.length, kicker := solos }
      else if pairs.length = trios.length ∧ solos.length = 0 then
        { type := .trioChainPair, keyPoint := front trios, len := trios.length, kicker := pairs }
      else {}
    else if trios.length = 0 ∧ solos.length = 0 ∧ 3 ≤ pairs.length ∧ back pairs ≤ cardA then
      { type := .pairChain, keyPoint := front pairs, len := pairs.length }
    else if trios.length = 0 ∧ pairs.length = 0 ∧ 5 ≤ solos.length ∧ back solos ≤ cardA then
      { type := .soloChain, keyPoint := front solos, len := solos.length }
    else if trios.length = 1 then
      if pairs.length = 0 ∧ solos.length = 0 then { type := .trio, keyPoint := front trios }
      else if pairs.length = 1 ∧ solos.length = 0 then
        { type := .trioPair, keyPoint := front trios, kicker := pairs }
      else if pairs.length = 0 ∧ solos.length = 1 then
        { type := .trioSolo, keyPoint := front trios, kicker := solos }
      else {}
    else if trios.length = 0 ∧ pairs.length = 1 ∧ solos.length = 0 then
      { type := .pair, keyPoint := front pairs }
    else if trios.length = 0 ∧ pairs.length = 0 ∧ solos.length = 1 then
      { type := .solo, keyPoint := front solos }
    else {}
  else if bombs.length = 1 then
    if trios.length = 0 ∧ pairs.length = 0 ∧ solos.length = 0 then
      { type := .bomb, keyPoint := front bombs }
    else if trios.length = 0 ∧ pairs.length = 2 ∧ solos.length = 0 then
      { type := .fourDualPair, keyPoint := front bombs, kicker := pairs }
    else if trios.length = 0 ∧ pairs.length = 0 ∧ solos.length = 2 then
      { type := .fourDualSolo, keyPoint := front bombs, kicker := solos }
    else {}
  else {}

/-- `getHand`. Fields the source leaves unset are zero here. -/
def getHand (points : Points) : Hand :=
  if points blackJoker = 1 ∧ points redJoker = 1 then
    if points.total = 2 then { type := .nuke, keyPoint := blackJoker } else {}
  else
    classify (sortedCard points 1) (sortedCard points 2) (sortedCard points 3) (sortedCard points 4)

/-! ## Well-formed hands -/

/-- The key and length conditions of a hand of each type. -/
def HandType.BodyOk : HandType → (keyPoint len : Nat) → Prop
  | .solo, k, _ | .trioSolo, k, _ | .trioPair, k, _ | .fourDualSolo, k, _ | .fourDualPair, k, _ =>
    k ≤ redJoker
  | .pair, k, _ | .trio, k, _ | .bomb, k, _ => k ≤ card2
  | .nuke, k, _ => k = blackJoker
  | .soloChain, k, len => 5 ≤ len ∧ k + len ≤ cardA + 1
  | .pairChain, k, len => 3 ≤ len ∧ k + len ≤ cardA + 1
  | .trioChain, k, len | .trioChainSolo, k, len | .trioChainPair, k, len =>
    2 ≤ len ∧ k + len ≤ cardA + 1
  | .nothing, _, _ | .lzBomb, _, _ | .lz, _, _ => False

instance (t : HandType) (k len : Nat) : Decidable (t.BodyOk k len) :=
  match t with
  | .solo | .trioSolo | .trioPair | .fourDualSolo | .fourDualPair | .pair | .trio | .bomb =>
    inferInstanceAs (Decidable (_ ≤ _))
  | .nuke => inferInstanceAs (Decidable (_ = _))
  | .soloChain | .pairChain | .trioChain | .trioChainSolo | .trioChainPair =>
    inferInstanceAs (Decidable (_ ∧ _))
  | .nothing | .lzBomb | .lz => inferInstanceAs (Decidable False)

/-- The shape of a hand `getHand` recognises. The kicker conditions are empty
for the types without kickers. A multiple of a joker is not excluded under or
as a kicker: the recogniser does not mind it. -/
structure Hand.Shaped (h : Hand) : Prop where
  body : h.type.BodyOk h.keyPoint h.len
  filled : h.kickers.length = h.kickerCount
  increasing : h.kickers.Pairwise (· < ·)
  outside : ∀ k ∈ h.kickers, k < h.keyPoint ∨ h.keyPoint + h.width ≤ k
  kickerTop : ∀ k ∈ h.kickers, k ≤ redJoker
  jokers : ¬(blackJoker ∈ h.kickers ∧ redJoker ∈ h.kickers)

/-- A well-formed hand: its kickers also fit in `CardPoint kicker[5]`. -/
structure Hand.WellFormed (h : Hand) : Prop extends h.Shaped where
  capacity : h.kickerCount ≤ 5

/-- Two hands with the same type, key, chain length and kickers. -/
structure Hand.Agrees (h h' : Hand) : Prop where
  type : h.type = h'.type
  keyPoint : h.keyPoint = h'.keyPoint
  len : isChain h'.type = true → h.len = h'.len
  kickers : h.kickers = h'.kickers

/-- A shaped hand lies within the array, body and kickers. -/
theorem Hand.Shaped.placed {h : Hand} (hw : h.Shaped) : h.Placed := by
  refine ⟨fun ht => ?_, ?_, hw.outside⟩
  · have hb := hw.body
    simp only [HandType.BodyOk, ht] at hb
    exact hb
  · have hl := hw.filled
    rw [Hand.kickers, List.length_take] at hl
    omega

/-! ## The buckets of a hand -/

/-- A bucket is the increasing list of its members. -/
theorem sortedCard_eq {points : Points} {k : Int} {l : List Nat} (hs : l.Pairwise (· < ·))
    (hm : ∀ r, r ∈ l ↔ r ≤ redJoker ∧ points r = k) : sortedCard points k = l := by
  refine (List.Pairwise.eq_of_mem_iff ?_ hs fun r => ?_)
  · exact (List.pairwise_lt_range).filter _
  · rw [hm r, sortedCard, List.mem_filter, List.mem_range, Nat.lt_succ_iff, decide_eq_true_iff]

/-- The body ranks of a hand. -/
def Hand.run (h : Hand) : List Nat := List.range' h.keyPoint h.width

/-- The body of a hand stays within the ranks. -/
theorem Hand.Shaped.top {h : Hand} (hw : h.Shaped) : h.keyPoint + h.width ≤ redJoker + 1 := by
  have hb := hw.body
  cases ht : h.type <;> simp [HandType.BodyOk, Hand.width, ht] at hb ⊢ <;> omega

/-- Kicked hands hold their kickers fewer times than their body. -/
theorem kickMult_lt (t : HandType) (ht : t.kickMult ≠ 0) : t.kickMult < t.mult := by
  cases t <;> simp_all [HandType.kickMult, HandType.mult]

/-- Types without kickers have none to read. -/
theorem kickers_of_kickMult_zero {h : Hand} (ht : h.type.kickMult = 0) : h.kickers = [] := by
  cases h' : h.type <;> simp_all [HandType.kickMult, Hand.kickers, Hand.kickerCount]

/-- The buckets of a shaped hand: its body, its kickers, and nothing else. A
rank of the body is never a kicker, so each rank is in one bucket by its count. -/
theorem sortedCard_hand {h : Hand} (hw : h.Shaped) {k : Int} (hk : 0 < k) :
    sortedCard (handToPointsArray h) k
      = if h.type.mult = k then h.run else if h.type.kickMult = k then h.kickers else [] := by
  have htop := hw.top
  have hnone := kickers_of_kickMult_zero (h := h)
  have hlt := kickMult_lt h.type
  have hrun : ∀ r, r ∈ h.run ↔ h.keyPoint ≤ r ∧ r < h.keyPoint + h.width := by
    intro r
    rw [Hand.run, List.mem_range'_1]
  have hkick := hw.kickerTop
  apply sortedCard_eq
  · split
    · exact List.pairwise_lt_range'
    · split
      · exact hw.increasing
      · exact List.Pairwise.nil
  · intro r
    have hout := hw.outside r
    rw [handToPointsArray_apply hw.placed]
    simp only [redJoker] at htop hkick ⊢
    by_cases hin : h.keyPoint ≤ r ∧ r < h.keyPoint + h.width
    · -- a body rank: never a kicker, and held `mult` times
      rw [if_pos hin]
      split
      next hm => rw [hrun]; constructor <;> intro <;> omega
      next hm =>
        split
        next hm' =>
          constructor
          · intro hr; have := hout hr; omega
          · intro hr; exact absurd hr.2 hm
        next => simp [hm]
    · rw [if_neg hin]
      by_cases hr : r ∈ h.kickers
      · have hne : h.type.kickMult ≠ 0 := by
          intro h0
          rw [hnone h0] at hr
          exact absurd hr (List.not_mem_nil)
        have := hlt hne
        have := hkick r hr
        rw [if_pos hr]
        split
        next hm => rw [hrun]; constructor <;> intro <;> omega
        next hm => split <;> simp_all
      · rw [if_neg hr]
        split
        next hm => rw [hrun]; constructor <;> intro <;> omega
        next hm => split <;> simp_all <;> omega

/-- A rank is in the bucket of its count. -/
theorem mem_sortedCard {points : Points} {k : Int} {r : Nat} :
    r ∈ sortedCard points k ↔ r ≤ redJoker ∧ points r = k := by
  rw [sortedCard, List.mem_filter, List.mem_range, Nat.lt_succ_iff, decide_eq_true_iff]

/-- Only the rocket holds both jokers once each. -/
theorem not_both_jokers {h : Hand} (hw : h.Shaped) (hn : h.type ≠ .nuke) :
    ¬(handToPointsArray h blackJoker = 1 ∧ handToPointsArray h redJoker = 1) := by
  intro hboth
  obtain ⟨hb, hr⟩ := hboth
  have hb' := mem_sortedCard.mpr ⟨(by decide : blackJoker ≤ redJoker), hb⟩
  have hr' := mem_sortedCard.mpr ⟨(by decide : redJoker ≤ redJoker), hr⟩
  rw [sortedCard_hand hw (by decide)] at hb' hr'
  by_cases hm : h.type.mult = 1
  · rw [if_pos hm, Hand.run, List.mem_range'_1] at hb' hr'
    have hbody := hw.body
    simp only [HandType.BodyOk, Hand.width, blackJoker, redJoker, cardA] at hbody hb' hr'
    cases ht : h.type <;> simp_all [HandType.mult] <;> omega
  · rw [if_neg hm] at hb' hr'
    by_cases hk : h.type.kickMult = 1
    · rw [if_pos hk] at hb' hr'
      exact hw.jokers ⟨hb', hr'⟩
    · rw [if_neg hk] at hb'
      exact absurd hb' (List.not_mem_nil)

/-- The body has as many ranks as the hand is wide. -/
theorem length_run (h : Hand) : h.run.length = h.width := List.length_range'

/-- Its lowest rank is the key. -/
theorem front_run {h : Hand} (hpos : 0 < h.width) : front h.run = h.keyPoint := by
  obtain ⟨n, hn⟩ := Nat.exists_eq_succ_of_ne_zero (Nat.pos_iff_ne_zero.mp hpos)
  rw [front, Hand.run, hn, List.range'_succ]
  rfl

/-- Its highest rank is that many above. -/
theorem back_run {h : Hand} (hpos : 0 < h.width) : back h.run = h.keyPoint + h.width - 1 := by
  obtain ⟨n, hn⟩ := Nat.exists_eq_succ_of_ne_zero (Nat.pos_iff_ne_zero.mp hpos)
  rw [back, Hand.run, hn, List.range'_concat]
  simp

/-! ## Counting the cards of a hand -/

theorem total_single {i : Nat} (hi : i < cardPointNum) (v : Int) :
    Points.total (fun r => if r = i then v else 0) = v := by
  rw [Points.total, List.sum_map_ite_eq]
  have h1 : (List.range cardPointNum).count i = 1 :=
    List.count_eq_one_of_mem List.nodup_range (List.mem_range.mpr hi)
  simp [h1]

/-- The total of an array with one value at some ranks and none elsewhere. -/
theorem total_members {ks : List Nat} (hd : ks.Nodup) (hlt : ∀ k ∈ ks, k < cardPointNum) (v : Int) :
    Points.total (fun r => if r ∈ ks then v else 0) = v * ks.length := by
  induction ks with
  | nil => simp [Points.total]
  | cons k ks ih =>
    obtain ⟨hnot, hd'⟩ := List.nodup_cons.mp hd
    have hsplit : (fun r => if r ∈ k :: ks then v else 0)
        = fun r => (if r = k then v else 0) + if r ∈ ks then v else 0 := by
      funext r
      by_cases hr : r = k
      · subst hr
        simp [hnot]
      · simp [hr]
    rw [hsplit, Points.total_add, total_single (hlt k List.mem_cons_self),
      ih hd' fun x hx => hlt x (List.mem_cons_of_mem _ hx), List.length_cons]
    push_cast
    ring

/-- The number of cards of a shaped hand: what the type takes of each rank of
the body, and of each kicker. -/
theorem total_handToPointsArray {h : Hand} (hs : h.Shaped) :
    (handToPointsArray h).total = h.type.mult * h.width + h.type.kickMult * h.kickers.length := by
  have hsplit : handToPointsArray h = fun r => (if r ∈ h.run then h.type.mult else 0)
      + if r ∈ h.kickers then h.type.kickMult else 0 := by
    funext r
    have hout := hs.outside r
    have hrun : r ∈ h.run ↔ h.keyPoint ≤ r ∧ r < h.keyPoint + h.width := by
      rw [Hand.run, List.mem_range'_1]
    rw [handToPointsArray_apply hs.placed]
    by_cases hin : h.keyPoint ≤ r ∧ r < h.keyPoint + h.width
    · have hnot : r ∉ h.kickers := fun hr => by have := hout hr; omega
      rw [if_pos hin, if_pos (hrun.mpr hin), if_neg hnot, add_zero]
    · rw [if_neg hin, if_neg (mt hrun.mp hin), zero_add]
  have htop := hs.top
  have hnodup : h.run.Nodup := List.nodup_range'
  have hrun : ∀ r ∈ h.run, r < cardPointNum := fun r hr => by
    rw [Hand.run, List.mem_range'_1] at hr
    simp only [redJoker, cardPointNum] at htop ⊢
    omega
  have hkick : ∀ r ∈ h.kickers, r < cardPointNum := fun r hr => by
    have := hs.kickerTop r hr
    simp only [redJoker, cardPointNum] at this ⊢
    omega
  rw [hsplit, Points.total_add, total_members hnodup hrun,
    total_members (hs.increasing.imp Nat.ne_of_lt) hkick, length_run]

/-- With more than two kickers there are four cards to each of them, and five
if they are pairs. -/
theorem Hand.Shaped.kickers_le_total {h : Hand} (hs : h.Shaped) : h.kickerCount ≤ 2 ∨
    4 * (h.kickerCount : Int) ≤ (handToPointsArray h).total ∧
      (h.type = .trioChainPair → 5 * (h.kickerCount : Int) ≤ (handToPointsArray h).total) := by
  rw [total_handToPointsArray hs, hs.filled]
  cases ht : h.type <;>
    simp only [ht, HandType.mult, HandType.kickMult, Hand.width, Hand.kickerCount, reduceCtorEq,
      false_implies, true_implies, and_true] <;>
    omega

/-- A hand with the fields `getHand` does not set put back to zero. -/
def Hand.canonical (h : Hand) : Hand :=
  { type := h.type, keyPoint := h.keyPoint, len := if isChain h.type then h.len else 0,
    kicker := h.kickers }

/-- The fields put back to zero are those that the comparison leaves out. -/
theorem Hand.Shaped.canonical_agrees {h : Hand} (hw : h.Shaped) :
    h.canonical.Agrees h := by
  refine ⟨rfl, rfl, fun hc => if_pos hc, ?_⟩
  have hcount : h.canonical.kickerCount = h.kickerCount := by
    cases ht : h.type <;> simp [canonical, kickerCount, isChain, ht]
  rw [kickers, hcount, ← hw.filled]
  exact List.take_length

/-- The classification of the buckets of a shaped hand is that hand, in the
form the recogniser writes it. The rocket is recognised before the buckets are
made. -/
theorem getHand_eq_canonical {h : Hand} (hw : h.Shaped) :
    getHand (handToPointsArray h) = h.canonical := by
  have hbody := hw.body
  by_cases hn : h.type = .nuke
  · have hp : handToPointsArray h = handToPointsArray { type := .nuke } := by
      simp [handToPointsArray, hn]
    have hg : getHand (handToPointsArray { type := .nuke })
        = { type := .nuke, keyPoint := blackJoker } := by decide
    simp only [HandType.BodyOk, hn] at hbody
    rw [hp, hg]
    simp [Hand.canonical, hn, hbody, isChain, Hand.kickers, Hand.kickerCount]
  · rw [getHand, if_neg (not_both_jokers hw hn), sortedCard_hand hw (by decide),
      sortedCard_hand hw (by decide), sortedCard_hand hw (by decide),
      sortedCard_hand hw (by decide)]
    have hlen := length_run h
    have hfront := front_run (h := h)
    have hback := back_run (h := h)
    have hfill := hw.filled
    have hnone := kickers_of_kickMult_zero (h := h)
    simp only [HandType.BodyOk, Hand.kickerCount, Hand.width, card2, cardA, redJoker]
      at hbody hlen hfront hback hfill
    cases ht : h.type <;>
      simp only [ht, HandType.mult, HandType.kickMult, Hand.canonical]
        at hn hbody hlen hfront hback hfill hnone ⊢
    case nuke => exact absurd trivial hn
    -- the chains: their end is at most the ace, and they are long enough for their own branch
    case trioChain | trioChainSolo | trioChainPair | pairChain | soloChain =>
      have hpos : 0 < h.len := by omega
      have hend : h.keyPoint + h.len - 1 ≤ 11 := by omega
      have hgap : h.keyPoint + h.len - 1 - h.keyPoint = h.len - 1 := by omega
      have hne : h.len ≠ 0 := by omega
      simp [classify, hlen, hfront hpos, hback hpos, hfill, hbody, hend, hgap, hne, hnone, isChain]
    all_goals
      have hfront' := hfront (by decide)
      simp [classify, hlen, hfront', hfill, hnone, isChain]

/-- `getHand` undoes `handToPointsArray`: of the point array of a well-formed
hand it makes that hand again, in the fields it sets. -/
theorem getHand_handToPointsArray {h : Hand} (hw : h.WellFormed) :
    (getHand (handToPointsArray h)).Agrees h := by
  rw [getHand_eq_canonical hw.toShaped]
  exact hw.toShaped.canonical_agrees

theorem getHand_handToPointsArray_wings :
    (getHand (handToPointsArray
        { type := .trioChainSolo, keyPoint := 3, len := 2, kicker := [0, 14] })).Agrees
      { type := .trioChainSolo, keyPoint := 3, len := 2, kicker := [0, 14] } :=
  getHand_handToPointsArray
    ⟨⟨by decide, by decide, by decide, by decide, by decide, by decide⟩, by decide⟩

end RobotDdz
