import RobotDdz.Split.Chains
import Mathlib.Algebra.Order.BigOperators.Group.List

/-!
# What the solo chain pass does

`getSoloChain` takes five-runs, lets each grow, merges neighbours, and then
gives ranks back at the ends of long chains. Every step conserves cards and
never takes a card that is not there: `SoloInv` says so, for the scan after any
number of rounds (`soloRounds_inv`), for the growing of any chain
(`extendRounds_inv`) and for the two trimming loops, whose step is
`giveBack_ledger`.

Lengths are another matter. `optimizeSoloChain` tests the high end of a chain
with `hl` and moves it by `ll`; `trimPairs_spec` shows that this leaves five
ranks or more except for a chain of all twelve ranks whose four lowest and
three highest ranks still hold cards, of which four ranks are left.

The loops of the pass are run with fuel, and each is shown to end before the
fuel does (`soloScan_done`, `extendChain_done`), so that the fuel is not part
of what the pass computes. For the scan the variant is the ranks left and the
cards it may still take: a round that finds a run does not move on, since the
source looks for another chain from the same rank.

`ChainOk` is the outcome, as the later modules use it: a chain of five ranks or
more, or the short chain of four from a holding with the long pattern.
-/

namespace RobotDdz

open Loops

/-- A solo chain of at least `n` ranks up to the ace. -/
structure SoloRun (n : Nat) (h : Hand) : Prop where
  type : h.type = .soloChain
  plain : h.kicker = []
  long : n ≤ h.len
  top : h.keyPoint + h.len ≤ cardA + 1

/-- A solo chain as counts: one card of each of its ranks. -/
theorem handToPointsArray_solo {n : Nat} {h : Hand} (hs : SoloRun n h) (r : Nat) :
    handToPointsArray h r = if h.keyPoint ≤ r ∧ r < h.keyPoint + h.len then 1 else 0 := by
  have := handToPointsArray_run (h := h) (by rw [hs.type]; rfl) r
  rwa [hs.type] at this

/-- Counts without negative entries, an account that balances, and hands of one
kind. -/
structure SoloInv (ledger : Points) (P : Hand → Prop) (p : Pile) : Prop where
  nonneg : ∀ r, 0 ≤ p.cards r
  balance : ∀ r, p.ledger r = ledger r
  runs : ∀ h ∈ p.hands, P h

/-! ## The scan -/

/-- The end of a run: every rank after the start is held up to it, and it is
not above the ace. -/
theorem soloEnd_spec (c : Points) {s : Nat} (hs : s ≤ cardA) :
    s ≤ soloEnd c s ∧ soloEnd c s ≤ cardA ∧ ∀ r, s < r → r ≤ soloEnd c s → 1 ≤ c r := by
  refine whileLoop_inv (fun e => s ≤ e ∧ e ≤ cardA ∧ ∀ r, s < r → r ≤ e → 1 ≤ c r) ?_ _
    ⟨Nat.le_refl _, hs, fun r h1 h2 => by omega⟩
  intro e hinv hc
  obtain ⟨h1, h2, h3⟩ := hinv
  obtain ⟨⟨hc1, hc2⟩, -⟩ : (e + 1 ≤ cardA ∧ 1 ≤ c (e + 1)) ∧ e - s < 4 := by simpa using hc
  refine ⟨by omega, hc1, fun r hr hre => ?_⟩
  rcases Nat.lt_succ_iff_lt_or_eq.mp (Nat.lt_succ_of_le hre) with h | rfl
  · exact h3 r hr (by omega)
  · exact hc2

/-- Taking a run of held ranks out as a chain: the cards and the chains
together are what they were, and no count is below zero. -/
theorem SoloInv.takeRun {ledger cards : Points} {hands : List Hand} {i e : Nat}
    (hI : SoloInv ledger (SoloRun 5) ⟨cards, hands⟩) (hle : i ≤ e) (hlong : 4 ≤ e - i)
    (htop : e ≤ cardA) (hheld : ∀ r, i ≤ r → r ≤ e → 1 ≤ cards r) :
    SoloInv ledger (SoloRun 5) ⟨cards.addRange i (e + 1 - i) (-1),
      hands ++ [{ type := .soloChain, keyPoint := i, len := e - i + 1 }]⟩ := by
  have hrun : SoloRun 5 { type := .soloChain, keyPoint := i, len := e - i + 1 } :=
    ⟨rfl, rfl, by simp only; omega, by simp only; omega⟩
  refine ⟨fun r => ?_, fun r => ?_, fun h hh => ?_⟩
  · have h0 := hI.nonneg r
    by_cases hr : i ≤ r ∧ r < i + (e + 1 - i)
    · have h1 := hheld r hr.1 (by omega)
      simp only
      rw [Points.addRange_in hr]
      omega
    · simp only
      rw [Points.addRange_out hr]
      exact h0
  · have hb := hI.balance r
    simp only [Pile.ledger, handsSum_append, handsSum_cons, handsSum_nil,
      handToPointsArray_solo hrun, Points.addRange] at hb ⊢
    split <;> split <;> omega
  · rw [List.mem_append, List.mem_singleton] at hh
    rcases hh with hh | rfl
    · exact hI.runs h hh
    · exact hrun

/-- One round of the scan: it moves on, or takes a run of five ranks that all
have a card left. -/
theorem soloChainStep_inv {ledger : Points} {s : Scan} (hI : SoloInv ledger (SoloRun 5) s.pile)
    (hi : soloChainCond s = true) : SoloInv ledger (SoloRun 5) (soloChainStep s).pile := by
  obtain ⟨i, ⟨cards, hands⟩⟩ := s
  have hi' : i ≤ cardT := of_decide_eq_true hi
  unfold soloChainStep
  simp only [] at hI ⊢
  split
  next h1 =>
    obtain ⟨hle, htop, hheld⟩ :=
      soloEnd_spec cards (s := i) (by simp only [cardT, cardA] at hi' ⊢; omega)
    generalize soloEnd cards i = e at *
    split
    next hlong =>
      refine hI.takeRun hle hlong htop fun r hr hre => ?_
      -- the rank it starts at passed the test of the step, the later ones that of the inner loop
      rcases Nat.lt_or_eq_of_le hr with h | rfl
      · exact hheld r h hre
      · exact h1
    next => exact hI
  next => exact hI

/-- After any number of rounds of the scan. -/
theorem soloRounds_inv {ledger : Points} {s : Scan} (hI : SoloInv ledger (SoloRun 5) s.pile)
    (n : Nat) :
    SoloInv ledger (SoloRun 5) (whileLoop soloChainCond soloChainStep n s).pile :=
  whileLoop_inv (fun s : Scan => SoloInv ledger (SoloRun 5) s.pile)
    (fun _ hs hc => soloChainStep_inv hs hc) n hI

/-- What the scan can still do: ranks to pass, and cards up to the ten to take. -/
def soloVariant (s : Scan) : Nat :=
  cardT + 1 - s.i + ((List.range (cardT + 1)).map fun r => (s.pile.cards r).toNat).sum

/-- Either the scan moves up, or five cards are gone: this is what the fuel of
the scan is bounded by, since its counter stays where a chain was found. -/
theorem soloChainStep_variant {ledger : Points} {s : Scan} (hI : SoloInv ledger (SoloRun 5) s.pile)
    (hi : soloChainCond s = true) : soloVariant (soloChainStep s) < soloVariant s := by
  obtain ⟨i, ⟨cards, hands⟩⟩ := s
  have hi' : i ≤ cardT := of_decide_eq_true hi
  have hle := (soloEnd_spec cards (s := i) (by simp only [cardT, cardA] at hi' ⊢; omega)).1
  unfold soloChainStep
  simp only []
  split
  next h1 =>
    split
    next =>
      -- the rank the chain starts at is counted, and loses a card
      have hlt : ((List.range (cardT + 1)).map fun r =>
            ((cards.addRange i (soloEnd cards i + 1 - i) (-1)) r).toNat).sum
          < ((List.range (cardT + 1)).map fun r => (cards r).toNat).sum := by
        refine List.sum_lt_sum _ _ (fun r _ => ?_)
          ⟨i, List.mem_range.mpr (Nat.lt_succ_of_le hi'), ?_⟩
        · simp only [Points.addRange]
          split <;> omega
        · rw [Points.addRange_in (by omega)]
          omega
      simp only [soloVariant]
      omega
    next => simp only [soloVariant]; omega
  next => simp only [soloVariant]; omega

/-- The scan ends because it has passed the ten, not for want of fuel. -/
theorem soloScan_done {c : Points} (h0 : ∀ r, 0 ≤ c r) :
    soloChainCond (whileLoop soloChainCond soloChainStep (soloFuel c) ⟨card3, ⟨c, []⟩⟩)
      = false := by
  refine whileLoop_exit (fun s : Scan => SoloInv c (SoloRun 5) s.pile) soloVariant
    (fun s hs hc => ⟨soloChainStep_inv hs hc, soloChainStep_variant hs hc⟩) _
    ⟨h0, fun r => by simp [Pile.ledger], fun h hh => absurd hh (List.not_mem_nil)⟩ ?_
  simp only [soloVariant, soloFuel, card3, Nat.sub_zero, Nat.le_refl]

/-! ## Growing and merging -/

/-- One more rank at the high end of a chain, if it is held. What the chain
gains the counts lose. -/
theorem extendStep_inv {c : Points} {it : Hand} {e : Extend}
    (hI : (∀ r, 0 ≤ e.cards r) ∧ SoloRun 5 e.hand ∧
      ∀ r, e.cards r + handToPointsArray e.hand r = c r + handToPointsArray it r)
    (hc : extendCond e = true) :
    (∀ r, 0 ≤ (extendStep e).cards r) ∧ SoloRun 5 (extendStep e).hand ∧
      ∀ r, (extendStep e).cards r + handToPointsArray (extendStep e).hand r
        = c r + handToPointsArray it r := by
  obtain ⟨h0, hrun, hbal⟩ := hI
  obtain ⟨hc1, hc2⟩ : e.hand.keyPoint + e.hand.len ≤ cardA ∧
      0 < e.cards (e.hand.keyPoint + e.hand.len) := by simpa [extendCond] using hc
  have hlong := hrun.long
  have hrun' : SoloRun 5 { e.hand with len := e.hand.len + 1 } :=
    ⟨hrun.type, hrun.plain, by simp only; omega, by simp only; omega⟩
  refine ⟨fun r => ?_, hrun', fun r => ?_⟩
  · have := h0 r
    simp only [extendStep, Points.addRange]
    split
    next hr =>
      obtain rfl : r = e.hand.keyPoint + e.hand.len := by omega
      omega
    next => exact this
  · have hb := hbal r
    rw [handToPointsArray_solo hrun] at hb
    simp only [extendStep, handToPointsArray_solo hrun', Points.addRange]
    split <;> split <;> split at hb <;> omega

/-- After any number of rounds of the first loop of `expandSoloChain` at one
chain. -/
theorem extendRounds_inv {c : Points} {it : Hand} (h0 : ∀ r, 0 ≤ c r) (hit : SoloRun 5 it)
    (n : Nat) :
    (∀ r, 0 ≤ (whileLoop extendCond extendStep n ⟨c, it⟩).cards r) ∧
      SoloRun 5 (whileLoop extendCond extendStep n ⟨c, it⟩).hand ∧
      ∀ r, (whileLoop extendCond extendStep n ⟨c, it⟩).cards r
        + handToPointsArray (whileLoop extendCond extendStep n ⟨c, it⟩).hand r
          = c r + handToPointsArray it r :=
  whileLoop_inv (fun e : Extend => (∀ r, 0 ≤ e.cards r) ∧ SoloRun 5 e.hand ∧
    ∀ r, e.cards r + handToPointsArray e.hand r = c r + handToPointsArray it r)
    (fun _ hI hc => extendStep_inv hI hc) n ⟨h0, hit, fun _ => rfl⟩

/-- Growing ends at the ace or at an empty rank, not for want of fuel. -/
theorem extendChain_done (c : Points) (it : Hand) :
    extendCond (whileLoop extendCond extendStep cardPointNum ⟨c, it⟩) = false := by
  refine whileLoop_exit (fun _ => True)
    (fun e : Extend => cardA + 1 - (e.hand.keyPoint + e.hand.len)) (fun e _ hc => ⟨trivial, ?_⟩) _
    trivial ?_
  · have h1 : e.hand.keyPoint + e.hand.len ≤ cardA := by
      simp only [extendCond, Bool.and_eq_true, decide_eq_true_iff] at hc
      exact hc.1
    simp only [extendStep]
    omega
  · simp only [cardA, cardPointNum]
    omega

/-- The rule for the three loops over the chains: what holds of one chain and
the counts holds of the vector. No chain and its counts exceed the account. -/
theorem mapState_solo {f : Points → Hand → Points × Hand} {ledger : Points} {P Q : Hand → Prop}
    (hf : ∀ c h, (∀ r, 0 ≤ c r) → (∀ r, c r + handToPointsArray h r ≤ ledger r) → P h →
      (∀ r, 0 ≤ (f c h).1 r) ∧ Q (f c h).2 ∧
        ∀ r, (f c h).1 r + handToPointsArray (f c h).2 r = c r + handToPointsArray h r)
    {p : Pile} (hI : SoloInv ledger P p) :
    SoloInv ledger Q ⟨(mapState f p.cards p.hands).1, (mapState f p.cards p.hands).2⟩ := by
  have h := mapState_inv (f := f)
    (fun c done todo => (∀ r, 0 ≤ c r) ∧ (∀ h ∈ done, Q h) ∧ (∀ h ∈ todo, P h) ∧
      ∀ r, c r + handsSum done r + handsSum todo r = ledger r) ?_ p.hands (s := p.cards) []
      ⟨hI.nonneg, by simp, hI.runs, fun r => ?_⟩
  · obtain ⟨h0, hdone, -, hbal⟩ := h
    rw [List.nil_append] at hdone hbal
    exact ⟨h0, fun r => by simpa [Pile.ledger] using hbal r, hdone⟩
  · intro c done h todo hinv
    obtain ⟨h0, hdone, htodo, hbal⟩ := hinv
    -- the other chains account for the rest
    have hle : ∀ r, c r + handToPointsArray h r ≤ ledger r := fun r => by
      have h1 := hbal r
      have h2 := handsSum_nonneg done r
      have h3 := handsSum_nonneg todo r
      rw [handsSum_cons] at h1
      omega
    obtain ⟨g0, gn, gb⟩ := hf c h h0 hle (htodo h List.mem_cons_self)
    refine ⟨g0, fun y hy => ?_, fun y hy => htodo y (List.mem_cons_of_mem _ hy), fun r => ?_⟩
    · rw [List.mem_append, List.mem_singleton] at hy
      rcases hy with hy | rfl
      · exact hdone y hy
      · exact gn
    · have h1 := hbal r
      have h2 := gb r
      rw [handsSum_cons] at h1
      rw [handsSum_append, handsSum_cons, handsSum_nil]
      omega
  · have := hI.balance r
    simpa [Pile.ledger] using this

/-- A prefix of the chains, with the account less the others. -/
theorem SoloInv.take {ledger : Points} {P : Hand → Prop} {c : Points} {done todo : List Hand}
    (hI : SoloInv ledger P ⟨c, done ++ todo⟩) :
    SoloInv (fun r => ledger r - handsSum todo r) P ⟨c, done⟩ := by
  refine ⟨hI.nonneg, fun r => ?_, fun h hh => hI.runs h (List.mem_append_left _ hh)⟩
  have := hI.balance r
  simp only [Pile.ledger, handsSum_append] at this ⊢
  omega

/-- The chain that begins where this one ends, and the others in their order. -/
theorem findFollower_spec {it newIt : Hand} {rest rest' : List Hand}
    (h : findFollower it rest = some (newIt, rest')) :
    it.keyPoint + it.len = newIt.keyPoint ∧ rest.Perm (newIt :: rest') := by
  induction rest generalizing rest' with
  | nil => exact absurd h (by simp [findFollower])
  | cons x xs ih =>
    unfold findFollower at h
    split at h
    next hx =>
      obtain ⟨rfl, rfl⟩ : x = newIt ∧ xs = rest' := by simpa using h
      exact ⟨hx, List.Perm.refl _⟩
    next =>
      obtain ⟨y, hy, he⟩ := Option.map_eq_some_iff.mp h
      obtain ⟨rfl, rfl⟩ : y.1 = newIt ∧ x :: y.2 = rest' := by simpa using he
      obtain ⟨hk, hp⟩ := @ih y.2 hy
      exact ⟨hk, (hp.cons x).trans (List.Perm.swap _ _ _)⟩

/-- Merging neighbours keeps the cards and the chains: two chains of which one
begins where the other ends are one run. -/
theorem mergeChains_spec (fuel : Nat) : ∀ {l : List Hand}, (∀ h ∈ l, SoloRun 5 h) →
    (∀ h ∈ mergeChains fuel l, SoloRun 5 h) ∧
      ∀ r, handsSum (mergeChains fuel l) r = handsSum l r := by
  induction fuel with
  | zero =>
    intro l hl
    cases l <;> exact ⟨hl, fun _ => rfl⟩
  | succ fuel ih =>
    intro l hl
    cases l with
    | nil => exact ⟨hl, fun _ => rfl⟩
    | cons it rest =>
      have hit := hl it List.mem_cons_self
      unfold mergeChains
      split
      next newIt rest' hsome =>
        obtain ⟨hk, hperm⟩ := findFollower_spec hsome
        have hnew := hl newIt (List.mem_cons_of_mem _ (hperm.mem_iff.mpr List.mem_cons_self))
        obtain ⟨h1, h2⟩ := ih (l := rest') fun h hh =>
          hl h (List.mem_cons_of_mem _ (hperm.mem_iff.mpr (List.mem_cons_of_mem _ hh)))
        have hlong := hit.long
        have htop := hnew.top
        -- the follower starts where `it` ends, so the two together are one run
        have hboth : SoloRun 5 { it with len := it.len + newIt.len } :=
          ⟨hit.type, hit.plain, by simp only; omega, by simp only; omega⟩
        refine ⟨fun h hh => ?_, fun r => ?_⟩
        · rcases List.mem_cons.mp hh with rfl | hh
          · exact hboth
          · exact h1 h hh
        · rw [handsSum_cons, handsSum_cons, h2 r, handsSum_perm hperm, handsSum_cons,
            handToPointsArray_solo hboth, handToPointsArray_solo hit, handToPointsArray_solo hnew]
          simp only
          split <;> split <;> split <;> omega
      next =>
        obtain ⟨h1, h2⟩ := ih (l := rest) fun h hh => hl h (List.mem_cons_of_mem _ hh)
        refine ⟨fun h hh => ?_, fun r => ?_⟩
        · rcases List.mem_cons.mp hh with rfl | hh
          · exact hit
          · exact h1 h hh
        · rw [handsSum_cons, handsSum_cons, h2 r]

/-- Growing and merging together keep cards and chains: the first by
`extendRounds_inv` for each chain, the second by `mergeChains_spec`. -/
theorem expandSoloChain_inv {ledger : Points} {p : Pile} (hI : SoloInv ledger (SoloRun 5) p) :
    SoloInv ledger (SoloRun 5) (expandSoloChain p) := by
  have h := mapState_solo (f := extendChain) (Q := SoloRun 5)
    (fun c it h0 _ hit => extendRounds_inv h0 hit cardPointNum) hI
  -- growing takes cards in, merging only regroups what is already in chains
  obtain ⟨h1, h2⟩ := mergeChains_spec (mapState extendChain p.cards p.hands).2.length h.runs
  refine ⟨h.nonneg, fun r => ?_, h1⟩
  have := h.balance r
  simp only [Pile.ledger, expandSoloChain] at this ⊢
  rw [h2 r, this]

/-! ## Giving ranks back -/

/-- Shortening a chain by `a` ranks below and `b` above and returning those
cards conserves. -/
theorem giveBack_ledger {m n : Nat} {h : Hand} {a b : Nat} (hh : SoloRun m h) (hab : a + b ≤ h.len)
    (hn : SoloRun n { h with keyPoint := h.keyPoint + a, len := h.len - a - b }) (c : Points)
    (r : Nat) :
    (c.addRange h.keyPoint a 1).addRange (h.keyPoint + h.len - b) b 1 r
        + handToPointsArray { h with keyPoint := h.keyPoint + a, len := h.len - a - b } r
      = c r + handToPointsArray h r := by
  rw [handToPointsArray_solo hh, handToPointsArray_solo hn]
  simp only [Points.addRange]
  split <;> split <;> split <;> split <;> omega

/-- Cards given back overdraw nothing. -/
theorem giveBack_nonneg {c : Points} (h0 : ∀ r, 0 ≤ c r) (k a l b : Nat) (r : Nat) :
    0 ≤ (c.addRange k a 1).addRange l b 1 r := by
  have := h0 r
  simp only [Points.addRange]
  split <;> split <;> omega

/-- How many ranks from the low end on still have cards beside the chain. -/
theorem lowLen_spec (c : Points) (start n : Nat) :
    lowLen c start n ≤ n ∧ ∀ j, j < lowLen c start n → 0 < c (start + j) := by
  refine whileLoop_inv (fun ll => ll ≤ n ∧ ∀ j, j < ll → 0 < c (start + j)) ?_ n
    ⟨Nat.zero_le n, fun j hj => absurd hj (Nat.not_lt_zero j)⟩
  intro ll hinv hc
  obtain ⟨-, h2⟩ := hinv
  obtain ⟨hc1, hc2⟩ : ll < n ∧ 0 < c (start + ll) := by simpa using hc
  refine ⟨hc1, fun j hj => ?_⟩
  rcases Nat.lt_succ_iff_lt_or_eq.mp hj with h | rfl
  · exact h2 j h
  · exact hc2

/-- The same from the high end down. -/
theorem highLen_spec (c : Points) (e n : Nat) :
    highLen c e n ≤ n ∧ ∀ j, j < highLen c e n → 0 < c (e - j) := by
  refine whileLoop_inv (fun hl => hl ≤ n ∧ ∀ j, j < hl → 0 < c (e - j)) ?_ n
    ⟨Nat.zero_le n, fun j hj => absurd hj (Nat.not_lt_zero j)⟩
  intro hl hinv hc
  obtain ⟨-, h2⟩ := hinv
  obtain ⟨hc1, hc2⟩ : hl < n ∧ 0 < c (e - hl) := by simpa using hc
  refine ⟨hc1, fun j hj => ?_⟩
  rcases Nat.lt_succ_iff_lt_or_eq.mp hj with h | rfl
  · exact h2 j h
  · exact hc2

/-- A chain that `trimPairs` leaves too short: it held all twelve ranks, and
the four lowest and three highest of them still have cards. -/
structure OverTrimmed (c : Points) (h h' : Hand) : Prop where
  whole : h.keyPoint = 0 ∧ h.len = 12
  left : h' = shortChain
  held : ∀ r, r ≤ 3 ∨ 9 ≤ r ∧ r ≤ cardA → 0 < c r

/-- Both trimming loops work on the two end ranks of a chain; this is what they
return, said with the number of ranks taken off each end. -/
theorem cutEnds_eq (c : Points) (h : Hand) (a b : Nat) (hab : a + b < h.len) :
    ((c.addRange h.keyPoint (h.keyPoint + a - h.keyPoint) 1).addRange
        (h.keyPoint + h.len - 1 - b + 1)
        (h.keyPoint + h.len - 1 - (h.keyPoint + h.len - 1 - b)) 1,
      ({ h with keyPoint := h.keyPoint + a,
                len := h.keyPoint + h.len - 1 - b + 1 - (h.keyPoint + a) } : Hand))
    = ((c.addRange h.keyPoint a 1).addRange (h.keyPoint + h.len - b) b 1,
      ({ h with keyPoint := h.keyPoint + a, len := h.len - a - b } : Hand)) := by
  have hfirst : h.keyPoint + a - h.keyPoint = a := by omega
  have hend : h.keyPoint + h.len - 1 - b + 1 = h.keyPoint + h.len - b := by omega
  have hlast : h.keyPoint + h.len - 1 - (h.keyPoint + h.len - 1 - b) = b := by omega
  have hleft : h.keyPoint + h.len - b - (h.keyPoint + a) = h.len - a - b := by omega
  rw [hfirst, hend, hlast, hleft]

/-- How many ranks `trimPairs` moves: `a` at the low end, `b` at the high
end, where `b` is `ll` again. -/
theorem trimPairs_eq {c : Points} {h : Hand} (hh : SoloRun 5 h) :
    ∃ a b, trimPairs c h = ((c.addRange h.keyPoint a 1).addRange (h.keyPoint + h.len - b) b 1,
        { h with keyPoint := h.keyPoint + a, len := h.len - a - b }) ∧
      a + b + 4 ≤ h.len ∧ (h.len < a + b + 5 → OverTrimmed c h (trimPairs c h).2) := by
  have hlong := hh.long
  have htop := hh.top
  simp only [cardA] at htop
  obtain ⟨hll, hlow⟩ := lowLen_spec c h.keyPoint (h.len - 5)
  obtain ⟨hhl, hhigh⟩ := highLen_spec c (h.keyPoint + h.len - 1) (h.len - 5)
  unfold trimPairs
  simp only []
  generalize lowLen c h.keyPoint (h.len - 5) = ll at *
  generalize highLen c (h.keyPoint + h.len - 1) (h.len - 5) = hl at *
  by_cases hpair : 3 ≤ h.len - 5
  · simp only [if_pos hpair, Bool.and_eq_true, Bool.or_eq_true, decide_eq_true_iff]
    by_cases hl3 : 3 ≤ ll ∧ (hl ≤ ll ∨ ll + hl ≤ h.len - 5) <;>
      by_cases hh3 : 3 ≤ hl ∧ (ll < hl ∨ ll + hl ≤ h.len - 5) <;>
      simp only [hl3, hh3, and_self, if_true, if_false]
    · -- both ends move by `ll`: too far exactly when `ll` is four and `hl` three
      refine ⟨ll, ll, cutEnds_eq c h ll ll (by omega), by omega, fun hshort => ?_⟩
      have h4 : ll = 4 := by omega
      have h3 : hl = 3 := by omega
      have hlen : h.len = 12 := by omega
      have hkey : h.keyPoint = 0 := by omega
      refine ⟨⟨hkey, hlen⟩, ?_, fun r hr => ?_⟩
      · obtain ⟨type, keyPoint, len, kicker⟩ := h
        obtain ⟨rfl, rfl, -, -⟩ := hh
        simp only at hkey hlen
        subst hkey hlen h4
        rfl
      · rcases hr with hr | ⟨hr, hr'⟩
        · have := hlow r (by omega)
          rwa [hkey, Nat.zero_add] at this
        · have := hhigh (11 - r) (by simp only [cardA] at hr'; omega)
          have hback : 0 + 12 - 1 - (11 - r) = r := by
            simp only [cardA] at hr'
            omega
          rwa [hkey, hlen, hback] at this
    -- the low end alone, the high end alone (by `ll` too), neither
    · exact ⟨ll, 0, cutEnds_eq c h ll 0 (by omega), by omega, by omega⟩
    · exact ⟨0, ll, cutEnds_eq c h 0 ll (by omega), by omega, by omega⟩
    · exact ⟨0, 0, cutEnds_eq c h 0 0 (by omega), by omega, by omega⟩
  · -- at most seven ranks: nothing is given back in pairs
    rw [if_neg hpair]
    refine ⟨0, 0, ?_, by omega, by omega⟩
    have hzero : ∀ (c : Points) k, c.addRange k 0 1 = c :=
      fun c k => funext fun r => Points.addRange_out (by omega)
    simp only [hzero, Nat.sub_zero, Nat.add_zero]

/-- Shortened chains are chains. -/
theorem SoloRun.shorten {m n a b : Nat} {h : Hand} (hh : SoloRun m h) (hab : a + b + n ≤ h.len) :
    SoloRun n { h with keyPoint := h.keyPoint + a, len := h.len - a - b } := by
  have htop := hh.top
  exact ⟨hh.type, hh.plain, by simp only; omega, by simp only; omega⟩

/-- The first trimming loop on one chain: counts not negative, four ranks or
more, and no card lost. -/
theorem trimPairs_spec {c : Points} {h : Hand} (h0 : ∀ r, 0 ≤ c r) (hh : SoloRun 5 h) :
    (∀ r, 0 ≤ (trimPairs c h).1 r) ∧ SoloRun 4 (trimPairs c h).2 ∧
      ∀ r, (trimPairs c h).1 r + handToPointsArray (trimPairs c h).2 r
        = c r + handToPointsArray h r := by
  obtain ⟨a, b, heq, hab, -⟩ := trimPairs_eq (c := c) hh
  rw [heq]
  have hrun := hh.shorten (n := 4) hab
  exact ⟨giveBack_nonneg h0 _ _ _ _, hrun, giveBack_ledger hh (by omega) hrun c⟩

/-- The second trimming loop stops at five ranks, and leaves shorter chains
alone. -/
theorem trimEnds_eq {c : Points} {h : Hand} (hh : SoloRun 4 h) :
    ∃ a b, trimEnds c h = ((c.addRange h.keyPoint a 1).addRange (h.keyPoint + h.len - b) b 1,
        { h with keyPoint := h.keyPoint + a, len := h.len - a - b }) ∧
      (a + b = 0 ∨ a + b + 5 ≤ h.len) := by
  have hlong := hh.long
  have hI : ∃ a b, whileLoop (trimCond c) (trimStep c) h.len
        ⟨h.keyPoint, h.keyPoint + h.len - 1⟩ = ⟨h.keyPoint + a, h.keyPoint + h.len - 1 - b⟩ ∧
      (a + b = 0 ∨ a + b + 5 ≤ h.len) := by
    refine whileLoop_inv (fun e : Ends => ∃ a b, e = ⟨h.keyPoint + a, h.keyPoint + h.len - 1 - b⟩ ∧
      (a + b = 0 ∨ a + b + 5 ≤ h.len)) ?_ _ ⟨0, 0, rfl, Or.inl rfl⟩
    intro e hinv hc
    obtain ⟨a, b, rfl, hab⟩ := hinv
    have h5 : 5 ≤ h.keyPoint + h.len - 1 - b - (h.keyPoint + a) := by
      simp only [trimCond, Bool.and_eq_true, decide_eq_true_iff] at hc
      exact hc.1
    unfold trimStep
    split
    · exact ⟨a + 1, b, rfl, by omega⟩
    · exact ⟨a, b + 1, rfl, by omega⟩
  obtain ⟨a, b, he, hab⟩ := hI
  refine ⟨a, b, ?_, hab⟩
  have hab' : a + b < h.len := by omega
  simp only [trimEnds, he]
  exact cutEnds_eq c h a b hab'

/-- The second trimming loop on one chain. It needs four ranks only and keeps
them. -/
theorem trimEnds_spec {c : Points} {h : Hand} (h0 : ∀ r, 0 ≤ c r) (hh : SoloRun 4 h) :
    (∀ r, 0 ≤ (trimEnds c h).1 r) ∧ SoloRun 4 (trimEnds c h).2 ∧
      ∀ r, (trimEnds c h).1 r + handToPointsArray (trimEnds c h).2 r
        = c r + handToPointsArray h r := by
  have hlong := hh.long
  obtain ⟨a, b, heq, hab⟩ := trimEnds_eq (c := c) hh
  rw [heq]
  have hrun := hh.shorten (n := 4) (a := a) (b := b) (by omega)
  exact ⟨giveBack_nonneg h0 _ _ _ _, hrun, giveBack_ledger hh (by omega) hrun c⟩

/-- The counts a holding needs for the short chain to come out of it. -/
def LongPattern (ledger : Points) : Prop :=
  (∀ r, r ≤ cardA → 1 ≤ ledger r) ∧ ∀ r, r ≤ cardA → r ≤ 3 ∨ 9 ≤ r → 2 ≤ ledger r

/-- A chain as the first trimming loop leaves it, from a holding with the given
counts. -/
def ChainOk (ledger : Points) (h : Hand) : Prop :=
  SoloRun 5 h ∨ h = shortChain ∧ LongPattern ledger

/-- In either case the chain is one of four ranks at least. -/
theorem ChainOk.run {ledger : Points} {h : Hand} (hk : ChainOk ledger h) : SoloRun 4 h := by
  rcases hk with hr | ⟨rfl, -⟩
  · exact ⟨hr.type, hr.plain, Nat.le_of_succ_le hr.long, hr.top⟩
  · exact ⟨rfl, rfl, by decide, by decide⟩

/-- The first trimming loop shortens below five only from the long pattern:
there the chain has all ranks to the ace, and both its ends have cards to
spare. -/
theorem trimPairs_chainOk {ledger c : Points} {h : Hand}
    (hle : ∀ r, c r + handToPointsArray h r ≤ ledger r) (hnn : ∀ r, 0 ≤ c r) (hh : SoloRun 5 h) :
    ChainOk ledger (trimPairs c h).2 := by
  obtain ⟨a, b, heq, hab, hover⟩ := trimPairs_eq (c := c) hh
  by_cases hshort : h.len < a + b + 5
  · right
    obtain ⟨⟨hkey, hlen⟩, hleft, hheld⟩ := hover hshort
    have hchain : ∀ r, r ≤ cardA → handToPointsArray h r = 1 := fun r hr => by
      rw [handToPointsArray_solo hh, if_pos (by simp only [cardA] at hr; omega)]
    refine ⟨hleft, fun r hr => ?_, fun r hr hends => ?_⟩
    · have h1 := hle r
      have h2 := hnn r
      rw [hchain r hr] at h1
      omega
    · have h1 := hle r
      have h2 := hheld r (by omega)
      rw [hchain r hr] at h1
      omega
  · left
    rw [heq]
    exact hh.shorten (by omega)

/-- The second trimming loop shortens nothing below five. -/
theorem trimEnds_chainOk {ledger c : Points} {h : Hand} (hk : ChainOk ledger h) :
    ChainOk ledger (trimEnds c h).2 := by
  obtain ⟨a, b, heq, hab⟩ := trimEnds_eq (c := c) hk.run
  rcases hk with hr | ⟨rfl, hl⟩
  · left
    have := hr.long
    rw [heq]
    exact hr.shorten (by omega)
  · right
    obtain ⟨rfl, rfl⟩ : a = 0 ∧ b = 0 := by simp only [shortChain] at hab; omega
    rw [heq]
    exact ⟨rfl, hl⟩

/-- The first trimming loop over the vector of chains. -/
theorem trimPairs_inv {ledger : Points} {p : Pile} (hI : SoloInv ledger (SoloRun 5) p) :
    SoloInv ledger (ChainOk ledger)
      ⟨(mapState trimPairs p.cards p.hands).1, (mapState trimPairs p.cards p.hands).2⟩ :=
  mapState_solo (f := trimPairs) (fun _ _ h0 hle hh =>
    ⟨(trimPairs_spec h0 hh).1, trimPairs_chainOk hle h0 hh, (trimPairs_spec h0 hh).2.2⟩) hI

/-- The second one. -/
theorem trimEnds_inv {ledger : Points} {p : Pile} (hI : SoloInv ledger (ChainOk ledger) p) :
    SoloInv ledger (ChainOk ledger)
      ⟨(mapState trimEnds p.cards p.hands).1, (mapState trimEnds p.cards p.hands).2⟩ :=
  mapState_solo (f := trimEnds) (fun _ _ h0 _ hk =>
    ⟨(trimEnds_spec h0 hk.run).1, trimEnds_chainOk hk, (trimEnds_spec h0 hk.run).2.2⟩) hI

/-- Both, one after the other: the invariant of the pass with `ChainOk` for the
chains. -/
theorem optimizeSoloChain_inv {ledger : Points} {p : Pile} (hI : SoloInv ledger (SoloRun 5) p) :
    SoloInv ledger (ChainOk ledger) (optimizeSoloChain p) :=
  trimEnds_inv (trimPairs_inv hI)

/-! ## The pass -/

/-- The pass from an empty vector: counts stay non-negative and the account
balances. -/
theorem soloPass_inv {c : Points} (h0 : ∀ r, 0 ≤ c r) :
    SoloInv c (ChainOk c) (optimizeSoloChain (expandSoloChain (soloScan ⟨c, []⟩))) := by
  have hstart : SoloInv c (SoloRun 5) ⟨c, []⟩ :=
    ⟨h0, fun r => by simp [Pile.ledger], fun h hh => absurd hh (List.not_mem_nil)⟩
  exact optimizeSoloChain_inv
    (expandSoloChain_inv (soloRounds_inv (s := ⟨card3, ⟨c, []⟩⟩) hstart _))

variable {s : Split} (h0 : ∀ r, 0 ≤ s.cards r) (hv : s.handMap.vec .soloChain = [])

include h0 hv

/-- The pass overdraws no count. -/
theorem getSoloChain_nonneg (r : Nat) : 0 ≤ (getSoloChain s).cards r := by
  have h := (soloPass_inv h0).nonneg r
  rw [← hv] at h
  rw [getSoloChain, overVector_cards]
  exact h

/-- The chains of the pass, from the counts that were handed to it. -/
theorem getSoloChain_chains : ∀ h ∈ (getSoloChain s).handMap.vec .soloChain, ChainOk s.cards h := by
  have h := (soloPass_inv h0).runs
  rw [← hv] at h
  rw [getSoloChain, overVector_vec]
  exact h

/-- The pass conserves cards. -/
theorem getSoloChain_ledger (r : Nat) : (getSoloChain s).ledger r = s.ledger r := by
  have h := (soloPass_inv h0).balance r
  rw [← hv] at h
  rw [getSoloChain, ledger_overVector, h, hv]
  simp [Pile.ledger]

/-- The pass as the other modules see it. -/
theorem getSoloChain_spec : PassSpec .soloChain s (getSoloChain s) := by
  refine ⟨fun r => ?_, fun t' ht => overVector_other _ _ ht, fun h hh => Or.inr ?_⟩
  · have h1 := (soloPass_inv h0).balance r
    have h2 := handsSum_nonneg
      (optimizeSoloChain (expandSoloChain (soloScan ⟨s.cards, []⟩))).hands r
    rw [Pile.ledger] at h1
    rw [getSoloChain, overVector_cards, hv]
    omega
  · rcases getSoloChain_chains h0 hv h hh with hr | ⟨rfl, -⟩
    · refine ⟨Or.inl hr.type, by rw [hr.type]; rfl, Or.inl ?_⟩
      have h1 := hr.long
      have h2 := hr.top
      rw [hr.type]
      exact ⟨h1, h2⟩
    · exact ⟨Or.inl rfl, rfl, Or.inr rfl⟩

end RobotDdz
