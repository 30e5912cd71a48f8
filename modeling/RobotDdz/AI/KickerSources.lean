import RobotDdz.AI.Search
import RobotDdz.Split.Legal
import RobotDdz.Lib.Fill

/-!
# Where kickers come from

`findKickerFromPoints` splits the cards that are left beside a body and looks
for kickers in the map. `Offers` is what it relies on of that map.

For a trio `soloKicker_spec` and `pairKicker_spec` find a held rank. A chain
takes what `kickerSources` lists, in order: the solos off the body, ends of
long chains, and the held ranks from the lowest, whatever has been taken before
(`chainKickers_agree`). Whether a solo chain is taken from below reads the solo
of the chain's index, and `readsPastEnd_iff` says when there is none.

The point of the list is that it does not depend on how many kickers are still
wanted. The source's loops stop in the middle when they have enough; the list
is what they would give if they did not, and the kickers are its first elements
(`chainKickers_agree`, by the rules of `Lib/Fill`). A statement about the
kickers of a chain is then one about a prefix of this list.

Mirroring notes vs `AIUtils.cpp`:
- The loops over the solo chains use the index of the chain for `soloHands`,
  which has other elements. Where there are fewer solos than chains the read is
  past the end.
- A chain gives ranks from its ends only while it is longer than five ranks.
-/

namespace RobotDdz

open Loops Fill

/-! ## What the split of a holding offers -/

/-- What the search relies on: the ranks of the map's solos, pairs and chains
are held so often, and the solos go up. -/
structure Offers (p : Points) (m : HandsMap) : Prop where
  single : ∀ t, t = .solo ∨ t = .pair → ∀ h ∈ m.vec t, h.keyPoint ≤ redJoker ∧ t.mult ≤ p h.keyPoint
  soloUp : (m.vec .solo).Pairwise fun h h' => h.keyPoint < h'.keyPoint
  chain : ∀ t, t = .soloChain ∨ t = .pairChain → ∀ c ∈ m.vec t,
    3 ≤ c.len ∧ c.keyPoint + c.len ≤ cardA + 1 ∧
      ∀ r, c.keyPoint ≤ r → r < c.keyPoint + c.len → t.mult ≤ p r

section Best

variable (u : Undef) (lowestControl : Nat) (maxOppNumber : Int) (otherPoints : Points)

/-- The map `findKickerFromPoints` looks at. -/
def kickerMap (p : Points) : HandsMap :=
  (sortHandsWithBestKind u p lowestControl maxOppNumber otherPoints false).1

variable {p : Points} (hp : LegalCounts p)

theorem kickerMap_vec (p : Points) : ∃ k : Kind, ∀ t,
    (kickerMap u lowestControl maxOppNumber otherPoints p).vec t
      = (splitInto (.kind k) p false).vec t := by
  refine ⟨bestKind u p lowestControl maxOppNumber otherPoints false, fun t => ?_⟩
  rw [kickerMap, sortHandsWithBestKind_vec, splitInto]

include hp

/-- No hand of the map has cards that are not held. -/
theorem kickerMap_le {t : HandType} {h : Hand}
    (hh : h ∈ (kickerMap u lowestControl maxOppNumber otherPoints p).vec t) (r : Nat) :
    handToPointsArray h r ≤ p r := by
  obtain ⟨k, hvec⟩ := kickerMap_vec u lowestControl maxOppNumber otherPoints p
  rw [hvec] at hh
  have hle := le_handsSum (HandsMap.mem_hands.mpr ⟨t, hh⟩) r
  obtain ⟨hrobbed, hkept⟩ := sum_splitCardsToHands hp k false r
  have h0 := (beforePairChain_sound hp k).nonneg r
  change _ ≤ (splitCardsToHands k p false).sum r at hle
  by_cases hr : Robbed (beforePairChain k p).cards r
  · have := hrobbed hr
    omega
  · have := hkept hr
    omega

theorem kickerMap_offers : Offers p (kickerMap u lowestControl maxOppNumber otherPoints p) := by
  obtain ⟨k, hvec⟩ := kickerMap_vec u lowestControl maxOppNumber otherPoints p
  have hle := fun t h =>
    kickerMap_le u lowestControl maxOppNumber otherPoints hp (t := t) (h := h)
  have hr := splitInto_kickReady hp (.kind k)
  generalize kickerMap u lowestControl maxOppNumber otherPoints p = m at *
  refine ⟨fun t ht h hh => ?_, by rw [hvec]; exact hr.soloUp, fun t ht c hc => ?_⟩
  · have hcards := hle t h hh h.keyPoint
    rw [hvec] at hh
    have htype := hr.kicker_type ht hh
    refine ⟨hr.kicker_top ht hh, ?_⟩
    rw [handToPointsArray_ofSingle (by rw [htype]; rcases ht with rfl | rfl <;> rfl), htype,
      if_pos rfl] at hcards
    exact hcards
  · have hcards := hle t c hc
    rw [hvec] at hc
    have hplaced : c.type = t ∧ c.Placed ∧ 3 ≤ c.len ∧ c.keyPoint + c.len ≤ cardA + 1 := by
      rcases mem_splitInto hp _ false hc with ⟨hs, htype⟩ | ⟨rfl, rfl, -⟩
      · have heq : c.type = t := by
          rcases htype with heq | ⟨hb, -⟩
          · exact heq
          · rcases ht with rfl | rfl <;> cases hb
        have hbody := hs.body
        rw [heq] at hbody
        refine ⟨heq, hs.placed, ?_⟩
        rcases ht with rfl | rfl
        · exact ⟨Nat.le_trans (by decide) hbody.1, hbody.2⟩
        · exact hbody
      · refine ⟨rfl, ⟨fun h => HandType.noConfusion h, Nat.le_refl 0, fun k hk => ?_⟩, by decide⟩
        exact absurd hk List.not_mem_nil
    obtain ⟨htype, hpl, hlen, htop⟩ := hplaced
    refine ⟨hlen, htop, fun r hlo hhi => ?_⟩
    have hcr := hcards r
    have hw : c.width = c.len := Hand.width_of_isChain (by
      rw [htype]
      rcases ht with rfl | rfl <;> rfl)
    rw [handToPointsArray_apply hpl, hw, if_pos ⟨hlo, hhi⟩, htype] at hcr
    exact hcr

end Best

/-! ## One kicker for a trio -/

section Trio

theorem joinedChain_spec (keyPoint : Nat) {k : Nat} : ∀ (chains : List Hand),
    joinedChain keyPoint chains = some k → k ≠ keyPoint ∧ ∃ d ∈ chains, d.keyPoint = k := by
  intro chains
  induction chains with
  | nil => intro h; cases h
  | cons c chains ih =>
    intro h
    unfold joinedChain at h
    split at h
    next d hfind =>
      have hd := List.find?_some hfind
      rw [Bool.and_eq_true, decide_eq_true_iff, decide_eq_true_iff] at hd
      cases h
      exact ⟨hd.2, d, List.mem_cons_of_mem _ (List.mem_of_find?_eq_some hfind), rfl⟩
    next =>
      obtain ⟨hne, d, hd, heq⟩ := ih h
      exact ⟨hne, d, List.mem_cons_of_mem _ hd, heq⟩

/-- The kicker of a `TRIO_SOLO` is a held rank off the trio. The sources are
gone through in order: a solo, the rank two chains share, an end of a chain
that can spare it, and any rank that is held. -/
theorem soloKicker_spec {p : Points} {m : HandsMap} (ho : Offers p m) {keyPoint k : Nat}
    (h : soloKicker p m keyPoint = some k) :
    k ≠ keyPoint ∧ k ≤ redJoker ∧ 1 ≤ p k := by
  have hchain := ho.chain .soloChain (Or.inl rfl)
  unfold soloKicker at h
  rw [Option.orElse_eq_some, Option.orElse_eq_some, Option.orElse_eq_some] at h
  rcases h with h | ⟨-, h | ⟨-, h | ⟨-, h⟩⟩⟩
  · -- a solo
    obtain ⟨s, hs, rfl⟩ := Option.map_eq_some_iff.mp h
    have hmem := List.mem_of_find?_eq_some hs
    obtain ⟨htop, hheld⟩ := ho.single .solo (Or.inl rfl) s hmem
    have hne := List.find?_some hs
    exact ⟨of_decide_eq_true hne, htop, hheld⟩
  · -- the rank two chains share
    obtain ⟨hne, d, hd, rfl⟩ := joinedChain_spec keyPoint _ h
    obtain ⟨hlen, htop, hheld⟩ := hchain d hd
    simp only [cardA] at htop
    exact ⟨hne, by simp only [redJoker]; omega, hheld _ (Nat.le_refl _) (by omega)⟩
  · -- an end of a long chain
    obtain ⟨c, hc, rfl⟩ := Option.map_eq_some_iff.mp h
    have hlong := List.find?_some hc
    rw [decide_eq_true_iff] at hlong
    obtain ⟨-, htop, hheld⟩ := hchain c (List.mem_of_find?_eq_some hc)
    simp only [cardA] at htop
    split
    next hne => exact ⟨hne, by simp only [redJoker]; omega, hheld _ (Nat.le_refl _) (by omega)⟩
    next heq =>
      exact ⟨by omega, by simp only [redJoker]; omega, hheld _ (by omega) (by omega)⟩
  · -- any rank
    have hk := List.find?_some h
    rw [Bool.and_eq_true, decide_eq_true_iff, decide_eq_true_iff] at hk
    have hmem := List.mem_range.mp (List.mem_of_find?_eq_some h)
    exact ⟨hk.2, Nat.lt_succ_iff.mp hmem, hk.1⟩

/-- The kicker of a `TRIO_PAIR` is a rank held twice: that of the first pair,
or the low end of a pair chain longer than three, or any. -/
theorem pairKicker_spec {p : Points} {m : HandsMap} (ho : Offers p m) {keyPoint k : Nat}
    (h : pairKicker p m keyPoint = some k) :
    k ≤ redJoker ∧ 2 ≤ p k := by
  unfold pairKicker at h
  rw [Option.orElse_eq_some, Option.orElse_eq_some] at h
  rcases h with h | ⟨-, h | ⟨-, h⟩⟩
  · obtain ⟨s, hs, rfl⟩ := Option.map_eq_some_iff.mp h
    exact ho.single .pair (Or.inr rfl) s (List.mem_of_mem_head? hs)
  · obtain ⟨c, hc, hif⟩ := Option.bind_eq_some_iff.mp h
    split at hif
    next =>
      cases hif
      obtain ⟨hlen, htop, hheld⟩ :=
        ho.chain .pairChain (Or.inr rfl) c (List.mem_of_mem_head? hc)
      simp only [cardA] at htop
      exact ⟨by simp only [redJoker]; omega, hheld _ (Nat.le_refl _) (by omega)⟩
    next => cases hif
  · have hk := List.find?_some h
    rw [Bool.and_eq_true, decide_eq_true_iff, decide_eq_true_iff] at hk
    have hmem := List.mem_range.mp (List.mem_of_find?_eq_some h)
    exact ⟨by simp only [redJoker, card2] at *; omega, hk.1⟩

end Trio

/-! ## The kickers of a chain -/

/-- The solos off the body. -/
def outsideSolos (m : HandsMap) (hand : Hand) : List Nat :=
  ((m.vec .solo).filter fun h =>
    h.keyPoint < hand.keyPoint || hand.keyPoint + hand.len ≤ h.keyPoint).map Hand.keyPoint

/-- What a solo chain of more than five ranks can spare: ranks from its low
end, all of them when the solo with the chain's index lies above the body and
otherwise those below the body, then ranks from its high end. -/
def chainEnds (hand : Hand) (soloKey : Nat) (c : Hand) : List Nat :=
  let low := if hand.keyPoint + hand.len ≤ soloKey then c.len - 5
    else min (c.len - 5) (hand.keyPoint - c.keyPoint)
  List.range' c.keyPoint low ++ (List.range' (c.keyPoint + low + 5) (c.len - 5 - low)).reverse

/-- The ranks of the first solo chains, in the order they are offered. -/
def endsOf (u : Undef) (m : HandsMap) (hand : Hand) (chains : List (Hand × Nat)) : List Nat :=
  chains.flatMap fun c => chainEnds hand (vecAt u (m.vec .solo) c.2).keyPoint c.1

/-- The ranks offered as kickers of a chain, in order. -/
def kickerSources (u : Undef) (points : Points) (m : HandsMap) (hand : Hand) : List Nat :=
  outsideSolos m hand ++ endsOf u m hand (m.vec .soloChain).zipIdx
    ++ allRanks.filter fun i => 0 < points i

theorem chainEnds_short (hand : Hand) (soloKey : Nat) {c : Hand} (h : c.len ≤ 5) :
    chainEnds hand soloKey c = [] := by
  have hz : c.len - 5 = 0 := by omega
  unfold chainEnds
  rw [hz]
  split
  · rfl
  · rw [Nat.zero_min]
    rfl

/-- The next rank comes from the low end, as long as the chain begins below the
body or the solo with the chain's index lies above it, and the chain is longer
than five. -/
theorem chainEnds_low (hand : Hand) {soloKey : Nat} {c : Hand} (hc : 5 < c.len)
    (h : c.keyPoint < hand.keyPoint ∨ hand.keyPoint + hand.len ≤ soloKey) :
    chainEnds hand soloKey c
      = c.keyPoint ::
        chainEnds hand soloKey { c with keyPoint := c.keyPoint + 1, len := c.len - 1 } := by
  obtain ⟨n, hn⟩ : ∃ n, c.len = n + 6 := ⟨c.len - 6, by omega⟩
  unfold chainEnds
  dsimp only
  rw [hn]
  by_cases hb : hand.keyPoint + hand.len ≤ soloKey
  · rw [if_pos hb, if_pos hb]
    show List.range' c.keyPoint (n + 1) ++ (List.range' _ (n + 1 - (n + 1))).reverse
      = c.keyPoint :: (List.range' (c.keyPoint + 1) n ++ (List.range' _ (n - n)).reverse)
    rw [Nat.sub_self, Nat.sub_self, List.range'_succ]
    rfl
  · rw [if_neg hb, if_neg hb]
    have hlt : c.keyPoint < hand.keyPoint := h.resolve_right hb
    obtain ⟨d, hd⟩ : ∃ d, hand.keyPoint - c.keyPoint = d + 1 :=
      ⟨hand.keyPoint - c.keyPoint - 1, by omega⟩
    have hd' : hand.keyPoint - (c.keyPoint + 1) = d := by omega
    rw [hd, hd', show n + 6 - 5 = n + 1 by omega, show n + 6 - 1 - 5 = n by omega,
      Nat.succ_min_succ, List.range'_succ, List.cons_append,
      show c.keyPoint + (min n d + 1) + 5 = c.keyPoint + 1 + min n d + 5 by omega,
      show n + 1 - (min n d + 1) = n - min n d by omega]

/-- The next rank comes from the high end. -/
theorem chainEnds_high (hand : Hand) {soloKey : Nat} {c : Hand} (hc : 5 < c.len)
    (h : ¬(c.keyPoint < hand.keyPoint ∨ hand.keyPoint + hand.len ≤ soloKey)) :
    chainEnds hand soloKey c
      = (c.keyPoint + c.len - 1) :: chainEnds hand soloKey { c with len := c.len - 1 } := by
  obtain ⟨n, hn⟩ : ∃ n, c.len = n + 6 := ⟨c.len - 6, by omega⟩
  obtain ⟨hlt, hb⟩ := not_or.mp h
  have hz : hand.keyPoint - c.keyPoint = 0 := by omega
  unfold chainEnds
  dsimp only
  rw [if_neg hb, if_neg hb, hz, Nat.min_zero, Nat.min_zero, hn,
    show n + 6 - 5 - 0 = n + 1 by omega, show n + 6 - 1 - 5 - 0 = n by omega,
    List.range'_concat, List.reverse_append]
  show _ :: _ = _ :: _
  rw [show c.keyPoint + 0 + 5 + 1 * n = c.keyPoint + (n + 6) - 1 by omega]
  rfl

/-- The `while` loop over one chain fills up from what it can spare. It stops
when the kickers are enough, which is `topUp`, or five ranks are left, which is
in `chainEnds`. -/
theorem chainKickersFrom_eq (hand : Hand) (soloKey : Nat) :
    ∀ (fuel : Nat) {c : Hand} (k : List Nat), c.len ≤ fuel + 5 →
      chainKickersFrom hand soloKey fuel c k = topUp hand.len k (chainEnds hand soloKey c) := by
  intro fuel
  induction fuel with
  | zero =>
    intro c k hf
    rw [chainEnds_short hand soloKey (by omega), topUp_nil]
    rfl
  | succ fuel ih =>
    intro c k hf
    unfold chainKickersFrom
    by_cases hc : 5 < c.len
    case neg => rw [if_neg fun h => hc h.2, chainEnds_short hand soloKey (by omega), topUp_nil]
    by_cases hk : k.length < hand.len
    case neg => rw [if_neg fun h => hk h.1, topUp_full (Nat.le_of_not_lt hk)]
    rw [if_pos ⟨hk, hc⟩]
    by_cases hlow : c.keyPoint < hand.keyPoint ∨ hand.keyPoint + hand.len ≤ soloKey
    · rw [if_pos hlow, chainEnds_low hand hc hlow, topUp_cons hk]
      exact ih _ (by show c.len - 1 ≤ _; omega)
    · rw [if_neg hlow, chainEnds_high hand hc hlow, topUp_cons hk]
      exact ih _ (by show c.len - 1 ≤ _; omega)

/-- The kickers found before the solo chain with index `i` is looked at. -/
def kickersBefore (u : Undef) (m : HandsMap) (hand : Hand) (i : Nat) : List Nat :=
  ((m.vec .soloChain).zipIdx.take i).foldl
    (fun k c => chainKickersFrom hand (vecAt u (m.vec .solo) c.2).keyPoint c.1.len c.1 k)
    (outsideSolos m hand)

section Sources

variable (u : Undef) (m : HandsMap) (hand : Hand)

theorem foldl_chains (chains : List (Hand × Nat)) :
    Agree hand.len
      (chains.foldl
        (fun k c => chainKickersFrom hand (vecAt u (m.vec .solo) c.2).keyPoint c.1.len c.1 k)
        (outsideSolos m hand))
      (outsideSolos m hand ++ endsOf u m hand chains) := by
  have hstep : ∀ (k : List Nat) (c : Hand × Nat),
      chainKickersFrom hand (vecAt u (m.vec .solo) c.2).keyPoint c.1.len c.1 k
        = topUp hand.len k (chainEnds hand (vecAt u (m.vec .solo) c.2).keyPoint c.1) := by
    intro k c
    exact chainKickersFrom_eq hand _ c.1.len k (Nat.le_add_right _ _)
  simp only [hstep]
  exact foldl_topUp _ chains rfl

/-- The kickers of a chain are the first of the sources. -/
theorem chainKickers_agree (points : Points) :
    Agree hand.len (chainKickers u points m hand) (kickerSources u points m hand) := by
  have hchains := (foldl_chains u m hand (m.vec .soloChain).zipIdx).topUp
    (allRanks.filter fun i => 0 < points i)
  rw [← foldl_push] at hchains
  exact hchains

end Sources

/-! ## Reading past the solos -/

/-- Whether the loop over one chain comes to read `soloHands[i].keyPoint`, with
`found` kickers before it. -/
def readsSolo (hand : Hand) : (fuel : Nat) → Hand → (found : Nat) → Bool
  | 0, _, _ => false
  | fuel + 1, c, found =>
    if found < hand.len ∧ 5 < c.len then
      if c.keyPoint < hand.keyPoint then
        readsSolo hand fuel { c with keyPoint := c.keyPoint + 1, len := c.len - 1 } (found + 1)
      else true
    else false

/-- A chain with no solo of its index has its index read. -/
def ReadsPastEnd (u : Undef) (m : HandsMap) (hand : Hand) : Prop :=
  ∃ i c, (m.vec .soloChain)[i]? = some c ∧ (m.vec .solo).length ≤ i ∧
    readsSolo hand c.len c (kickersBefore u m hand i).length = true

/-- The chain is read once the ranks it has below the body are used up: it is
then still longer than five, and the kickers found are still too few. -/
theorem readsSolo_iff (hand : Hand) : ∀ (fuel : Nat) {c : Hand} (found : Nat), c.len ≤ fuel + 5 →
    (readsSolo hand fuel c found = true ↔ hand.keyPoint - c.keyPoint + 5 < c.len ∧
      found + (hand.keyPoint - c.keyPoint) < hand.len) := by
  intro fuel
  induction fuel with
  | zero =>
    intro c found hf
    exact ⟨fun h => Bool.noConfusion h, fun h => absurd h.1 (by omega)⟩
  | succ fuel ih =>
    intro c found hf
    unfold readsSolo
    split
    next hmore =>
      split
      next hlow =>
        rw [ih (found + 1) (by show c.len - 1 ≤ _; omega)]
        show hand.keyPoint - (c.keyPoint + 1) + 5 < c.len - 1 ∧
          found + 1 + (hand.keyPoint - (c.keyPoint + 1)) < hand.len ↔ _
        constructor <;> intro h <;> omega
      next hlow => exact ⟨fun _ => by omega, fun _ => rfl⟩
    next hmore => exact ⟨fun h => Bool.noConfusion h, fun h => absurd ⟨by omega, by omega⟩ hmore⟩

/-- A chain without a solo of its index is still wanted when its ranks below
the body are used up. -/
def Overruns (u : Undef) (m : HandsMap) (hand : Hand) : Prop :=
  ∃ i c, (m.vec .soloChain)[i]? = some c ∧ (m.vec .solo).length ≤ i ∧
    hand.keyPoint - c.keyPoint + 5 < c.len ∧
    (outsideSolos m hand ++ endsOf u m hand ((m.vec .soloChain).zipIdx.take i)).length
      + (hand.keyPoint - c.keyPoint) < hand.len

theorem readsPastEnd_iff (u : Undef) (m : HandsMap) (hand : Hand) :
    ReadsPastEnd u m hand ↔ Overruns u m hand := by
  refine exists_congr fun i => exists_congr fun c => and_congr_right fun _ =>
    and_congr_right fun _ => ?_
  rw [readsSolo_iff hand c.len _ (Nat.le_add_right _ _)]
  refine and_congr_right fun _ => ?_
  have hagree := foldl_chains u m hand ((m.vec .soloChain).zipIdx.take i)
  change Agree hand.len (kickersBefore u m hand i) _ at hagree
  constructor
  · intro h
    rw [← hagree.eq_of_short (by omega)]
    exact h
  · intro h
    rw [← hagree.symm.eq_of_short (by omega)]
    exact h

/-- Every source is a held rank: solos and chains come from a split of the
points, and the last ranks are taken from the points themselves. -/
theorem kickerSources_held {u : Undef} {p : Points} {m : HandsMap} (ho : Offers p m) (hand : Hand) :
    ∀ k ∈ kickerSources u p m hand, k ≤ redJoker ∧ 1 ≤ p k := by
  intro k hk
  rw [kickerSources, List.mem_append, List.mem_append] at hk
  rcases hk with (hk | hk) | hk
  · obtain ⟨h, hh, rfl⟩ := List.mem_map.mp hk
    exact ho.single .solo (Or.inl rfl) h (List.mem_of_mem_filter hh)
  · obtain ⟨c, hc, hkc⟩ := List.mem_flatMap.mp hk
    obtain ⟨-, htop, hheld⟩ := ho.chain .soloChain (Or.inl rfl) c.1 (List.fst_mem_of_mem_zipIdx hc)
    -- both ends of the chain are in the chain
    have hin : c.1.keyPoint ≤ k ∧ k < c.1.keyPoint + c.1.len := by
      by_cases hlong : c.1.len ≤ 5
      · rw [chainEnds_short hand _ hlong] at hkc
        exact absurd hkc List.not_mem_nil
      · have hlow : ∀ low, low ≤ c.1.len - 5 →
            k ∈ List.range' c.1.keyPoint low
              ++ (List.range' (c.1.keyPoint + low + 5) (c.1.len - 5 - low)).reverse →
            c.1.keyPoint ≤ k ∧ k < c.1.keyPoint + c.1.len := by
          intro low hle hmem
          rw [List.mem_append, List.mem_reverse, List.mem_range'_1, List.mem_range'_1] at hmem
          omega
        apply hlow _ _ hkc
        split
        · exact Nat.le_refl _
        · exact Nat.min_le_left _ _
    simp only [cardA] at htop
    exact ⟨by simp only [redJoker]; omega, hheld k hin.1 hin.2⟩
  · rw [List.mem_filter, decide_eq_true_iff] at hk
    exact ⟨Nat.lt_succ_iff.mp (List.mem_range.mp hk.1), hk.2⟩

end RobotDdz
