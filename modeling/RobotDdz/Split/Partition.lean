import RobotDdz.Split.Conserve
import RobotDdz.Split.Summary

/-!
# The chosen map as a partition of the holding

`sortHandsLordOnly1Card` always returns an exact partition, and no count goes
negative on the way through the solo chain pass
(`sortHandsLordOnly1Card_partition`).

`sortHandsWithBestKind` returns one exactly when the pair chain pass of the
kind it chooses robs no rank that still holds cards
(`sortHandsWithBestKind_partition_iff`). Three, four and five in pairs with a
single six is enough to lose the six.

The first function chooses among three splitters that all have a pair chain
pass, by their summaries. Which one it chooses is a matter of the others' cards
as well, so the condition is about the counts that the chosen one hands to its
pair chain pass (`chosenBeforePairChain`), before that pass has run. The second
chooses between two splitters without such a pass.

`NeverNegative` is about the counts on the way, not only at the end: a count
could go below zero and come back up in a trimming loop without the sums
telling.
-/

namespace RobotDdz

open Loops

/-- A legal holding: legal counts and at most twenty cards. -/
structure LegalHolding (p : Points) : Prop extends LegalCounts p where
  size : p.total ≤ 20

section Best

variable (u : Undef) (p : Points) (lowestControl : Nat) (maxOppNumber : Int) (otherPoints : Points)
  (searchKicker : Bool)

/-- The map `sortHandsWithBestKind` returns has the hands of the chosen
splitter. -/
theorem sortHandsWithBestKind_vec (t : HandType) :
    (sortHandsWithBestKind u p lowestControl maxOppNumber otherPoints searchKicker).1.vec t
      = (splitCardsToHands (bestKind u p lowestControl maxOppNumber otherPoints searchKicker) p
          searchKicker).vec t := by
  rw [sortHandsWithBestKind_eq]
  exact getHandsMapSummary_vec ..

/-- The map has the cards of the chosen splitter's map, since the choice only
reads. -/
theorem sortHandsWithBestKind_sum :
    (sortHandsWithBestKind u p lowestControl maxOppNumber otherPoints searchKicker).1.sum
      = (splitCardsToHands (bestKind u p lowestControl maxOppNumber otherPoints searchKicker) p
          searchKicker).sum :=
  HandsMap.sum_congr fun _ => sortHandsWithBestKind_vec ..

/-- The counts the chosen splitter hands to its pair chain pass. -/
def chosenBeforePairChain : Points :=
  (beforePairChain (bestKind u p lowestControl maxOppNumber otherPoints searchKicker) p).cards

/-- The map is an exact partition when, and only when, the pair chain pass of
the chosen splitter finds no card on the rank above a chain it makes. -/
theorem sortHandsWithBestKind_partition_iff (hp : LegalHolding p) :
    (sortHandsWithBestKind u p lowestControl maxOppNumber otherPoints searchKicker).1.sum = p ↔
      ∀ a b,
        PairRun (chosenBeforePairChain u p lowestControl maxOppNumber otherPoints searchKicker)
            a b →
        chosenBeforePairChain u p lowestControl maxOppNumber otherPoints searchKicker
          (overrun (chosenBeforePairChain u p lowestControl maxOppNumber otherPoints searchKicker)
            a b) = 0 := by
  rw [sortHandsWithBestKind_sum]
  unfold chosenBeforePairChain
  generalize bestKind u p lowestControl maxOppNumber otherPoints searchKicker = k
  have hsum := sum_splitCardsToHands hp.toLegalCounts k searchKicker
  have h0 := (beforePairChain_sound hp.toLegalCounts k).nonneg
  constructor
  · intro heq a b hrun
    have h1 := (hsum _).1 ⟨a, b, hrun, rfl⟩
    have h2 := h0 (overrun (beforePairChain k p).cards a b)
    rw [heq] at h1
    omega
  · intro hnone
    funext r
    by_cases hr : Robbed (beforePairChain k p).cards r
    · have h1 := (hsum r).1 hr
      obtain ⟨a, b, hrun, rfl⟩ := hr
      rw [hnone a b hrun] at h1
      omega
    · exact (hsum r).2 hr

end Best

/-- Checking the fifteen ranks is enough. -/
theorem legalHolding_ofList {l : List Int} (hlen : l.length ≤ redJoker + 1)
    (hr : ∀ r < redJoker + 1, 0 ≤ Points.ofList l r ∧
      Points.ofList l r ≤ if blackJoker ≤ r then 1 else 4)
    (ht : (Points.ofList l).total ≤ 20) : LegalHolding (Points.ofList l) := by
  have htop : ∀ r, redJoker < r → Points.ofList l r = 0 := fun r h => by
    simp only [redJoker] at h hlen
    exact List.getD_eq_default _ _ (by omega)
  simp only [redJoker, blackJoker] at hr htop
  refine ⟨⟨fun r => ?_, fun r => ?_, fun r h => ?_, htop⟩, ht⟩
  · by_cases h : r < 15
    · exact (hr r h).1
    · rw [htop r (by omega)]
  · by_cases h : r < 15
    · have := (hr r h).2
      split at this <;> omega
    · rw [htop r (by omega)]
      decide
  · have := (hr r (by rcases h with rfl | rfl <;> decide)).2
    rwa [if_pos (by rcases h with rfl | rfl <;> decide)] at this

/-- Pairs of three, four and five, and a single six. -/
def threePairsAndSix : Points := Points.ofList [2, 2, 2, 1]

/-- Seven cards of a deck. -/
theorem legalHolding_threePairsAndSix : LegalHolding threePairsAndSix :=
  legalHolding_ofList (by decide) (by decide) (by decide)

theorem sortHandsWithBestKind_partition_iff_six :
    (sortHandsWithBestKind .zero threePairsAndSix card2 17 .zero false).1.sum = threePairsAndSix ↔
      ∀ a b,
        PairRun (chosenBeforePairChain .zero threePairsAndSix card2 17 .zero false) a b →
        chosenBeforePairChain .zero threePairsAndSix card2 17 .zero false
          (overrun (chosenBeforePairChain .zero threePairsAndSix card2 17 .zero false) a b) = 0 :=
  sortHandsWithBestKind_partition_iff .zero threePairsAndSix card2 17 .zero false
    legalHolding_threePairsAndSix

/-- The six goes to the chain's fourth step and is in no hand. -/
theorem sortHandsWithBestKind_loses_six :
    LegalHolding threePairsAndSix ∧ threePairsAndSix 3 = 1 ∧
      (sortHandsWithBestKind .zero threePairsAndSix card2 17 .zero false).1.sum 3 = 0 :=
  ⟨legalHolding_threePairsAndSix, by decide, by decide +kernel⟩

/-! ## Two splitters without a pair chain pass -/

/-- Every state the counts go through in the solo chain pass over `c`: after
any number of rounds of the scan, of the growing of any one chain, and after
any number of chains in either trimming loop. A loop over a range of ranks
changes each of them once, so no further states lie between these at any rank. -/
structure NeverNegative (c : Points) : Prop where
  scan : ∀ n r, 0 ≤ (whileLoop soloChainCond soloChainStep n ⟨card3, ⟨c, []⟩⟩).pile.cards r
  extend : ∀ done it todo n r, (soloScan ⟨c, []⟩).hands = done ++ it :: todo →
    0 ≤ (whileLoop extendCond extendStep n
      ⟨(mapState extendChain (soloScan ⟨c, []⟩).cards done).1, it⟩).cards r
  trimPairs : ∀ done todo r, (expandSoloChain (soloScan ⟨c, []⟩)).hands = done ++ todo →
    0 ≤ (mapState trimPairs (expandSoloChain (soloScan ⟨c, []⟩)).cards done).1 r
  trimEnds : ∀ chains, chains = mapState RobotDdz.trimPairs
      (expandSoloChain (soloScan ⟨c, []⟩)).cards (expandSoloChain (soloScan ⟨c, []⟩)).hands →
    ∀ done todo r, chains.2 = done ++ todo → 0 ≤ (mapState trimEnds chains.1 done).1 r

/-- No count goes below zero in the solo chain pass, from counts that are not
negative: not in the scan, nor in a round of growing or of either trimming
loop. -/
theorem neverNegative {c : Points} (h0 : ∀ r, 0 ≤ c r) : NeverNegative c := by
  have hstart : SoloInv c (SoloRun 5) ⟨c, []⟩ :=
    ⟨h0, fun r => by simp [Pile.ledger], fun h hh => absurd hh (List.not_mem_nil)⟩
  have hscan := soloRounds_inv (s := ⟨card3, ⟨c, []⟩⟩) hstart
  have hmid : SoloInv c (SoloRun 5) (soloScan ⟨c, []⟩) := hscan (soloFuel c)
  have hexp := expandSoloChain_inv hmid
  generalize hp : soloScan ⟨c, []⟩ = p at *
  generalize hq : expandSoloChain p = q at *
  refine ⟨fun n => (hscan n).nonneg, fun done it todo n r hd => ?_, fun done todo r hd => ?_,
    fun chains hc done todo r hd => ?_⟩
  · rw [hp] at hd ⊢
    have hrun : SoloRun 5 it := hmid.runs it (by rw [hd]; simp)
    have hpre : SoloInv c (SoloRun 5) ⟨p.cards, done ++ it :: todo⟩ := by rw [← hd]; exact hmid
    have hdone := mapState_solo (f := extendChain) (Q := SoloRun 5)
      (fun _ _ h0 _ hit => extendRounds_inv h0 hit cardPointNum) hpre.take
    exact (extendRounds_inv hdone.nonneg hrun n).1 r
  · rw [hp, hq] at hd ⊢
    have hpre : SoloInv c (SoloRun 5) ⟨q.cards, done ++ todo⟩ := by rw [← hd]; exact hexp
    exact (trimPairs_inv hpre.take).nonneg r
  · rw [hp, hq] at hc
    have hall := trimPairs_inv hexp
    rw [← hc, hd] at hall
    have hrun : ∀ h, ChainOk c h → SoloRun 4 h := fun _ hk => hk.run
    have hpre : SoloInv (fun r => c r - handsSum todo r) (SoloRun 4) ⟨chains.1, done⟩ :=
      ⟨hall.take.nonneg, hall.take.balance, fun h hh => hrun h (hall.take.runs h hh)⟩
    exact (mapState_solo (f := trimEnds) (fun _ _ h0 _ hh => trimEnds_spec h0 hh) hpre).nonneg r

section LordOnly1Card

variable (u : Undef) (p : Points) (lowestControl : Nat) (maxOppNumber : Int) (otherPoints : Points)
  (searchKicker : Bool)

/-- The map has the hands of the fourth splitter or those of the fifth. -/
theorem sortHandsLordOnly1Card_vec :
    (∀ t, (sortHandsLordOnly1Card u p lowestControl maxOppNumber otherPoints searchKicker).1.vec t
      = (splitCardsToHandsKind4 p searchKicker).vec t) ∨
    ∀ t, (sortHandsLordOnly1Card u p lowestControl maxOppNumber otherPoints searchKicker).1.vec t
      = (splitCardsToHandsKind5 p searchKicker).vec t := by
  unfold sortHandsLordOnly1Card
  simp only []
  split
  · exact Or.inr fun t => getHandsMapSummary_vec ..
  · exact Or.inl fun t => getHandsMapSummary_vec ..

/-- `sortHandsLordOnly1Card` returns an exact partition, and neither solo chain
pass ever takes a card that is not there. -/
theorem sortHandsLordOnly1Card_partition (hp : LegalCounts p) :
    (sortHandsLordOnly1Card u p lowestControl maxOppNumber otherPoints searchKicker).1.sum = p ∧
      NeverNegative p ∧ NeverNegative (getTrio (getBomb ⟨p, .empty⟩)).cards := by
  refine ⟨?_, neverNegative hp.nonneg, neverNegative (sound_start hp).getBomb.getTrio.nonneg⟩
  rcases sortHandsLordOnly1Card_vec u p lowestControl maxOppNumber otherPoints searchKicker
    with h | h
  · rw [HandsMap.sum_congr h]
    exact funext (sum_splitCardsToHandsKind4 hp searchKicker)
  · rw [HandsMap.sum_congr h]
    exact funext (sum_splitCardsToHandsKind5 hp searchKicker)

end LordOnly1Card

/-- Three to eight with a second five, three nines and two jacks. -/
def runAndNines : Points := .ofList [1, 1, 2, 1, 1, 1, 3, 0, 2]

/-- Both solo chain passes take cards out of it. -/
theorem sortHandsLordOnly1Card_partition_run :
    (sortHandsLordOnly1Card .zero runAndNines card2 17 .zero true).1.sum = runAndNines ∧
      NeverNegative runAndNines ∧ NeverNegative (getTrio (getBomb ⟨runAndNines, .empty⟩)).cards :=
  sortHandsLordOnly1Card_partition .zero runAndNines card2 17 .zero true
    (legalHolding_ofList (by decide) (by decide) (by decide)).toLegalCounts

example : (getSoloChain ⟨runAndNines, .empty⟩).cards ≠ runAndNines ∧
    (getSoloChain (getTrio (getBomb ⟨runAndNines, .empty⟩))).cards
      ≠ (getTrio (getBomb ⟨runAndNines, .empty⟩)).cards := by
  refine ⟨fun h => ?_, fun h => ?_⟩
  · exact absurd (congrFun h 0) (by decide +kernel)
  · exact absurd (congrFun h 0) (by decide +kernel)

end RobotDdz
