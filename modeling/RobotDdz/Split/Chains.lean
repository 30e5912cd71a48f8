import RobotDdz.Split.Exact

/-!
# What the trio and pair chain passes do

`getTrioChain` conserves: `TrioInv` is the scan invariant, and its last clause
is what the kicker pass needs, that a rank inside a chain has given three of
its cards to it.

`getPairChain` does not. Its removal loop runs `j <= hand.len` and takes two
cards off the rank above the chain, whatever is there. `PairRun` says where the
scan extracts a chain, as a condition on the counts before the pass, and
`overrun` is the rank it robs; `getPairChain_robbed` and `getPairChain_kept`
are the exact account.

Both scans move one index `i` up the ranks, and what a round has extracted lies
below it. An invariant is therefore about two parts: below `i` the counts are
what the extractions have made of `c`, and from `i` on they still are those of
`c`. The rank `getPairChain` robs lies below `i` as well, since the scan goes
on above the whole run (`RobbedBelow.lt`). A round that extracts nothing and
one that extracts have a lemma each (`skip`, `take`).
-/

namespace RobotDdz

open Loops

/-- The types of hands that are runs of ranks without kickers. -/
def HandType.isRun : HandType → Bool
  | .soloChain | .pairChain | .trioChain => true
  | _ => false

/-- A run of ranks without kickers, as counts. -/
theorem handToPointsArray_run {h : Hand} (ht : h.type.isRun = true) (r : Nat) :
    handToPointsArray h r
      = if h.keyPoint ≤ r ∧ r < h.keyPoint + h.len then h.type.mult else 0 := by
  cases h' : h.type <;>
    simp_all [HandType.isRun, handToPointsArray, forUp_update_run, HandType.mult]

/-- `runEnd` finds the whole run, and its fuel is enough: it stops at the ace
or below a rank with fewer cards, and all ranks up to there have enough. -/
theorem runEnd_spec (c : Points) (m : Int) {i : Nat} (hs : i ≤ cardA) (hm : m ≤ c i) :
    i ≤ runEnd c m i ∧ runEnd c m i ≤ cardA ∧
      (∀ r, i ≤ r → r ≤ runEnd c m i → m ≤ c r) ∧
      (runEnd c m i = cardA ∨ c (runEnd c m i + 1) < m) := by
  let I := fun e => i ≤ e ∧ e ≤ cardA ∧ ∀ r, i ≤ r → r ≤ e → m ≤ c r
  have hI : I i := ⟨Nat.le_refl _, hs, fun r h1 h2 => by rwa [Nat.le_antisymm h2 h1]⟩
  have hstep : ∀ e, I e → (decide (e + 1 ≤ cardA) && decide (m ≤ c (e + 1))) = true →
      I (e + 1) ∧ cardA - (e + 1) < cardA - e := by
    intro e hinv hc
    obtain ⟨h1, h2, h3⟩ := hinv
    obtain ⟨hc1, hc2⟩ : e + 1 ≤ cardA ∧ m ≤ c (e + 1) := by simpa using hc
    refine ⟨⟨by omega, hc1, fun r hr hre => ?_⟩, by omega⟩
    rcases Nat.lt_succ_iff_lt_or_eq.mp (Nat.lt_succ_of_le hre) with h | rfl
    · exact h3 r hr (by omega)
    · exact hc2
  have hinv := whileLoop_inv I (fun e he hc => (hstep e he hc).1) cardPointNum hI
  have hexit := whileLoop_exit I (fun e => cardA - e) hstep cardPointNum hI
    (by simp only [cardA, cardPointNum]; omega)
  obtain ⟨h1, h2, h3⟩ := hinv
  refine ⟨h1, h2, h3, ?_⟩
  change (decide (runEnd c m i + 1 ≤ cardA) && decide (m ≤ c (runEnd c m i + 1))) = false
    at hexit
  have h2' : runEnd c m i ≤ cardA := h2
  by_cases he : runEnd c m i = cardA
  · exact Or.inl he
  · right
    have hlt : runEnd c m i + 1 ≤ cardA := by omega
    simpa [hlt] using hexit

/-! ## Trio chains -/

/-- The scan of `getTrioChain` against the counts `c` it started from. -/
structure TrioInv (c : Points) (hands : List Hand) (s : Scan) : Prop where
  ahead : ∀ r, s.i ≤ r → s.pile.cards r = c r
  ledger : ∀ r, s.pile.ledger r = c r + handsSum hands r
  taken : ∀ r, s.pile.cards r = c r ∨ 3 ≤ c r ∧ s.pile.cards r = c r - 3
  new : ∀ h ∈ s.pile.hands, h ∈ hands ∨ Bare .trioChain h ∧
    ∀ r, h.keyPoint ≤ r → r < h.keyPoint + h.len → s.pile.cards r = c r - 3

/-- A round that extracts nothing. -/
theorem TrioInv.skip {c : Points} {hands : List Hand} {i i' : Nat} {p : Pile}
    (hI : TrioInv c hands ⟨i, p⟩) (hle : i ≤ i') : TrioInv c hands ⟨i', p⟩ :=
  ⟨fun r hr => hI.ahead r (Nat.le_trans hle hr), hI.ledger, hI.taken, hI.new⟩

/-- A round that extracts the chain of the ranks `i .. e`, each held three
times. -/
theorem TrioInv.take {c : Points} {hands : List Hand} {i e : Nat} {p : Pile}
    (hI : TrioInv c hands ⟨i, p⟩) (hlong : i + 1 ≤ e) (htop : e ≤ cardA)
    (hheld : ∀ r, i ≤ r → r ≤ e → 3 ≤ p.cards r) :
    TrioInv c hands ⟨e + 2, p.cards.addRange i (e + 1 - i) (-3),
      p.hands ++ [{ type := .trioChain, keyPoint := i, len := e - i + 1 }]⟩ := by
  obtain ⟨ahead, ledger, taken, new⟩ := hI
  simp only [Pile.ledger] at ahead ledger taken new
  refine ⟨fun r hr => ?_, fun r => ?_, fun r => ?_, fun h hh => ?_⟩
  · -- the ranks not yet scanned are above the chain
    simp only at hr ⊢
    rw [Points.addRange_out (by omega), ahead r (by omega)]
  · -- the three cards of each rank of the chain move from the counts to the hand
    have hold := ledger r
    simp only [Pile.ledger, handsSum_append, handsSum_cons, handsSum_nil,
      handToPointsArray_run (h := { type := .trioChain, keyPoint := i, len := e - i + 1 }) rfl,
      HandType.mult, Points.addRange]
    have : (i ≤ r ∧ r < i + (e + 1 - i)) ↔ (i ≤ r ∧ r < i + (e - i + 1)) := by omega
    simp only [this]
    split <;> omega
  · simp only
    by_cases hr : i ≤ r ∧ r < i + (e + 1 - i)
    · have h1 := hheld r hr.1 (by omega)
      have h2 := ahead r hr.1
      rw [Points.addRange_in hr]
      right
      omega
    · rw [Points.addRange_out hr]
      exact taken r
  · rw [List.mem_append, List.mem_singleton] at hh
    rcases hh with hh | rfl
    · -- an older chain lies below `i`: its ranks have given their three cards already
      refine (new h hh).imp_right fun hb => ⟨hb.1, fun r h1 h2 => ?_⟩
      have hlow : r < i := by
        have h3 := hb.2 r h1 h2
        by_contra hge
        have := ahead r (by omega)
        omega
      simp only
      rw [Points.addRange_out (by omega)]
      exact hb.2 r h1 h2
    · right
      refine ⟨⟨Or.inl rfl, rfl, Or.inl ?_⟩, fun r h1 h2 => ?_⟩
      · simp only [HandType.BodyOk]
        omega
      · simp only at h1 h2 ⊢
        rw [Points.addRange_in ⟨h1, by omega⟩, ahead r h1]
        omega

/-- One round of the scan for trio chains: it extracts a run of two ranks or
more, or moves on. -/
theorem trioChainStep_inv {c : Points} {hands : List Hand} {s : Scan} (hI : TrioInv c hands s)
    (hi : s.i ≤ cardK) : TrioInv c hands (trioChainStep s) := by
  obtain ⟨i, p⟩ := s
  simp only [cardK] at hi
  unfold trioChainStep
  simp only []
  split
  next h3 =>
    obtain ⟨hle, htop, hheld, -⟩ :=
      runEnd_spec p.cards 3 (i := i) (by simp only [cardA]; omega) h3
    generalize runEnd p.cards 3 i = e at *
    split
    next hlong => exact hI.take (by omega) htop hheld
    next => exact hI.skip (by omega)
  next => exact hI.skip (Nat.le_succ i)

/-- The scan, run to its end. -/
theorem trioScan_inv (p : Pile) : TrioInv p.cards p.hands
    (whileLoop (fun s : Scan => s.i ≤ cardK) trioChainStep cardPointNum ⟨card3, p⟩) := by
  refine whileLoop_inv (TrioInv p.cards p.hands)
    (fun s hs hc => trioChainStep_inv hs (of_decide_eq_true hc)) cardPointNum ?_
  exact ⟨fun _ _ => rfl, fun _ => rfl, fun _ => Or.inl rfl, fun h hh => Or.inl hh⟩

/-- At each rank three cards are taken or none. -/
theorem getTrioChain_taken (s : Split) (r : Nat) : (getTrioChain s).cards r = s.cards r ∨
    3 ≤ s.cards r ∧ (getTrioChain s).cards r = s.cards r - 3 :=
  (trioScan_inv ⟨s.cards, s.handMap.vec .trioChain⟩).taken r

/-- `getTrioChain` is a pass in the sense of `PassSpec`. -/
theorem getTrioChain_spec (s : Split) : PassSpec .trioChain s (getTrioChain s) := by
  have hI := trioScan_inv ⟨s.cards, s.handMap.vec .trioChain⟩
  refine ⟨fun r => ?_, fun t' ht => HandsMap.vec_put_ne ht, fun h hh => ?_⟩
  · have := getTrioChain_taken s r
    omega
  · simp only [getTrioChain, overVector, HandsMap.vec_put_self] at hh
    exact (hI.new h hh).imp_right And.left

/-- `getTrioChain` conserves cards. -/
theorem getTrioChain_ledger (s : Split) (r : Nat) : (getTrioChain s).ledger r = s.ledger r := by
  have hI := trioScan_inv ⟨s.cards, s.handMap.vec .trioChain⟩
  rw [getTrioChain, ledger_overVector, hI.ledger r, Pile.ledger]
  omega

/-- It takes three cards only where there are three. -/
theorem getTrioChain_nonneg {s : Split} {r : Nat} (h : 0 ≤ s.cards r) :
    0 ≤ (getTrioChain s).cards r := by
  have := getTrioChain_taken s r
  omega

/-- A rank of a new trio chain has given three cards to it. -/
theorem getTrioChain_clear {s : Split} (hv : s.handMap.vec .trioChain = []) :
    ∀ h ∈ (getTrioChain s).handMap.vec .trioChain, ∀ r, h.keyPoint ≤ r → r < h.keyPoint + h.len →
      (getTrioChain s).cards r = s.cards r - 3 := by
  intro h hh
  have hI := trioScan_inv ⟨s.cards, s.handMap.vec .trioChain⟩
  simp only [getTrioChain, overVector, HandsMap.vec_put_self] at hh
  rcases hI.new h hh with hold | hnew
  · rw [hv] at hold
    exact absurd hold (List.not_mem_nil)
  · exact hnew.2

/-! ## Pair chains -/

/-- A run of three or more ranks held at least twice each, which no rank
extends: what one extraction of `getPairChain` starts from. -/
structure PairRun (c : Points) (a b : Nat) : Prop where
  long : a + 2 ≤ b
  top : b ≤ cardA
  held : ∀ r, a ≤ r → r ≤ b → 2 ≤ c r
  below : a = 0 ∨ c (a - 1) < 2
  above : b = cardA ∨ c (b + 1) < 2

/-- The chain `getPairChain` makes of a run. -/
def pairChainOf (c : Points) (a b : Nat) : Hand :=
  optimizePairChain c { type := .pairChain, keyPoint := a, len := b - a + 1 }

/-- The rank above that chain. -/
def overrun (c : Points) (a b : Nat) : Nat :=
  (pairChainOf c a b).keyPoint + (pairChainOf c a b).len

/-- The chain stays inside its run. -/
theorem pairChainOf_spec (c : Points) {a b : Nat} (h : a + 2 ≤ b) :
    (pairChainOf c a b).type = .pairChain ∧ a ≤ (pairChainOf c a b).keyPoint ∧
      3 ≤ (pairChainOf c a b).len ∧ overrun c a b ≤ b + 1 := by
  refine whileLoop_inv (fun h : Hand => h.type = .pairChain ∧ a ≤ h.keyPoint ∧ 3 ≤ h.len ∧
    h.keyPoint + h.len ≤ b + 1) ?_ _ ⟨rfl, Nat.le_refl _, ?_, ?_⟩
  · intro h hinv hc
    obtain ⟨h1, h2, h3, h4⟩ := hinv
    have hlen : 3 < h.len := by
      simp only [pairChainShrinks, Bool.and_eq_true, decide_eq_true_iff] at hc
      exact hc.1
    unfold shrinkPairChain
    split <;> refine ⟨h1, ?_, ?_, ?_⟩ <;> simp only <;> omega
  · simp only
    omega
  · simp only
    omega

/-- `optimizePairChain` reads the counts of the run only. -/
theorem pairChainOf_congr {c c' : Points} {a b : Nat} (hab : a + 2 ≤ b)
    (hc : ∀ r, a ≤ r → r ≤ b → c r = c' r) : pairChainOf c a b = pairChainOf c' a b := by
  refine whileLoop_congr (fun h : Hand => a ≤ h.keyPoint ∧ 1 ≤ h.len ∧ h.keyPoint + h.len ≤ b + 1)
    ?_ ?_ ?_ _ ⟨Nat.le_refl _, by simp only; omega, by simp only; omega⟩
  · intro h hinv
    obtain ⟨h1, h2, h3⟩ := hinv
    simp only [pairChainShrinks]
    rw [hc h.keyPoint (by omega) (by omega), hc (h.keyPoint + h.len - 1) (by omega) (by omega)]
  · intro h hinv _
    obtain ⟨h1, h2, h3⟩ := hinv
    simp only [shrinkPairChain]
    rw [hc h.keyPoint (by omega) (by omega), hc (h.keyPoint + h.len - 1) (by omega) (by omega)]
  · intro h hinv hcond
    obtain ⟨h1, h2, h3⟩ := hinv
    have hlen : 3 < h.len := by
      simp only [pairChainShrinks, Bool.and_eq_true, decide_eq_true_iff] at hcond
      exact hcond.1
    unfold shrinkPairChain
    split <;> refine ⟨?_, ?_, ?_⟩ <;> simp only <;> omega

/-- `optimizePairChain` ends because neither of its tests holds, not for want
of fuel. -/
theorem pairChainOf_done (c : Points) (a b : Nat) :
    pairChainShrinks c (pairChainOf c a b) = false := by
  refine whileLoop_exit (fun _ => True) (fun h : Hand => h.len) ?_ _ trivial (Nat.le_refl _)
  intro h _ hc
  have hlen : 3 < h.len := by
    simp only [pairChainShrinks, Bool.and_eq_true, decide_eq_true_iff] at hc
    exact hc.1
  refine ⟨trivial, ?_⟩
  unfold shrinkPairChain
  split <;> simp only <;> omega

/-- The ranks `getPairChain` robs, from the counts before it. -/
def Robbed (c : Points) (r : Nat) : Prop := ∃ a b, PairRun c a b ∧ r = overrun c a b

/-- The ranks robbed for runs that start below `i`. -/
def RobbedBelow (c : Points) (i r : Nat) : Prop :=
  ∃ a b, PairRun c a b ∧ a < i ∧ r = overrun c a b

/-- The scan never stands inside a run. -/
def AtEdge (c : Points) (i : Nat) : Prop := i = 0 ∨ c (i - 1) < 2

/-- A run that starts below an edge ends below it, with a rank to spare. -/
theorem PairRun.end_lt {c : Points} {a b i : Nat} (hr : PairRun c a b) (he : AtEdge c i)
    (hai : a < i) : b + 2 ≤ i := by
  rcases he with rfl | he
  · omega
  · by_contra hlt
    have := hr.held (i - 1) (by omega) (by omega)
    omega

/-- A rank robbed for a run below an edge lies below the edge: the run ends
with a rank to spare. -/
theorem RobbedBelow.lt {c : Points} {i r : Nat} (h : RobbedBelow c i r) (he : AtEdge c i) :
    r < i := by
  obtain ⟨a, b, hr, hai, rfl⟩ := h
  have h1 := hr.end_lt he hai
  have h2 := (pairChainOf_spec c hr.long).2.2.2
  omega

/-- Moving the scan over ranks where no run starts robs nothing new. -/
theorem robbedBelow_skip {c : Points} {i i' r : Nat} (hle : i ≤ i')
    (hno : ∀ a b, PairRun c a b → i ≤ a → a < i' → False) :
    RobbedBelow c i' r ↔ RobbedBelow c i r := by
  constructor
  · intro hrob
    obtain ⟨a, b, hr, ha, rfl⟩ := hrob
    by_cases hai : a < i
    · exact ⟨a, b, hr, hai, rfl⟩
    · exact (hno a b hr (by omega) ha).elim
  · intro hrob
    obtain ⟨a, b, hr, ha, rfl⟩ := hrob
    exact ⟨a, b, hr, by omega, rfl⟩

section Block

variable {c : Points} {i e : Nat} (hheld : ∀ r, i ≤ r → r ≤ e → 2 ≤ c r)
  (habove : e = cardA ∨ c (e + 1) < 2) (htop : e ≤ cardA)

include hheld habove htop

/-- No run starts inside a maximal block, or right above it. -/
theorem no_run_inside {a b : Nat} (hr : PairRun c a b) (hia : i < a) (hae : a < e + 2) : False := by
  by_cases h : a ≤ e
  · rcases hr.below with h0 | hlow
    · omega
    · have := hheld (a - 1) (by omega) (by omega)
      omega
  · obtain rfl : a = e + 1 := by omega
    have h1 := hr.held (e + 1) (Nat.le_refl _) (by have := hr.long; omega)
    have h2 := hr.long
    have h3 := hr.top
    rcases habove with rfl | hlow <;> omega

/-- A run that starts with a maximal block is that block. -/
theorem run_end_unique (hie : i ≤ e) {b : Nat} (hr : PairRun c i b) : b = e := by
  have h2 := hr.top
  rcases Nat.lt_trichotomy b e with hlt | heq | hgt
  · rcases hr.above with h | h
    · omega
    · have h1 := hr.long
      have := hheld (b + 1) (by omega) (by omega)
      omega
  · exact heq
  · have := hr.held (e + 1) (by omega) (by omega)
    rcases habove with rfl | h <;> omega

end Block

/-- The scan of `getPairChain` against the counts `c` it started from. -/
structure PairInv (c : Points) (hands : List Hand) (s : Scan) : Prop where
  edge : AtEdge c s.i ∨ cardQ < s.i
  ahead : ∀ r, s.i ≤ r → s.pile.cards r = c r
  robbed : ∀ r, RobbedBelow c s.i r →
    s.pile.cards r = c r - 2 ∧ s.pile.ledger r = c r + handsSum hands r - 2
  kept : ∀ r, ¬RobbedBelow c s.i r →
    (s.pile.cards r = c r ∨ 2 ≤ c r ∧ s.pile.cards r = c r - 2) ∧
      s.pile.ledger r = c r + handsSum hands r
  new : ∀ h ∈ s.pile.hands, h ∈ hands ∨ Bare .pairChain h

/-- A round that extracts nothing. -/
theorem PairInv.skip {c : Points} {hands : List Hand} {i i' : Nat} {p : Pile}
    (hI : PairInv c hands ⟨i, p⟩) (hle : i ≤ i') (hedge : AtEdge c i' ∨ cardQ < i')
    (hno : ∀ a b, PairRun c a b → i ≤ a → a < i' → False) : PairInv c hands ⟨i', p⟩ := by
  refine ⟨hedge, fun r hr => hI.ahead r (Nat.le_trans hle hr), fun r hr => ?_, fun r hr => ?_,
    hI.new⟩
  · exact hI.robbed r ((robbedBelow_skip hle hno).mp hr)
  · exact hI.kept r fun h => hr ((robbedBelow_skip hle hno).mpr h)

/-- Passing a run robs the rank above its chain, and no other. -/
theorem robbedBelow_take {c : Points} {i e : Nat} (hrun : PairRun c i e) (r : Nat) :
    RobbedBelow c (e + 2) r ↔ RobbedBelow c i r ∨ r = overrun c i e := by
  have hlong := hrun.long
  constructor
  · intro hrob
    obtain ⟨a, b, hr, ha, rfl⟩ := hrob
    rcases Nat.lt_trichotomy a i with hai | rfl | hia
    · exact Or.inl ⟨a, b, hr, hai, rfl⟩
    · have hle : a ≤ e := by omega
      rw [run_end_unique hrun.held hrun.above hrun.top hle hr]
      exact Or.inr rfl
    · exact (no_run_inside hrun.held hrun.above hrun.top hr hia ha).elim
  · intro hrob
    rcases hrob with ⟨a, b, hr, ha, rfl⟩ | rfl
    · exact ⟨a, b, hr, by omega, rfl⟩
    · exact ⟨i, e, hrun, by omega, rfl⟩

/-- The extraction takes two cards of each rank of the chain and, since its
loop runs one rank too far, two of the rank above; the hand accounts for the
former only. -/
theorem ledger_takePairChain {c : Points} {i e : Nat} (hrun : PairRun c i e) (p : Pile) (r : Nat) :
    Pile.ledger ⟨p.cards.addRange (pairChainOf c i e).keyPoint
      ((pairChainOf c i e).len + 1) (-2), p.hands ++ [pairChainOf c i e]⟩ r
        = p.ledger r - if r = overrun c i e then 2 else 0 := by
  obtain ⟨htype, -, -, -⟩ := pairChainOf_spec c hrun.long
  have ho : overrun c i e = (pairChainOf c i e).keyPoint + (pairChainOf c i e).len := rfl
  have hsum := handToPointsArray_run (h := pairChainOf c i e) (by rw [htype]; rfl)
  simp only [htype, HandType.mult] at hsum
  simp only [Pile.ledger, handsSum_append, handsSum_cons, handsSum_nil, hsum, Points.addRange]
  split <;> split <;> split <;> omega

/-- A round that extracts the chain of the run `i .. e`. The rank above the
chain loses two cards as well; it is a new robbed rank above the older ones,
and every other rank keeps its account. -/
theorem PairInv.take {c : Points} {hands : List Hand} {i e : Nat} {p : Pile}
    (hI : PairInv c hands ⟨i, p⟩) (hi : AtEdge c i) (hrun : PairRun c i e) :
    PairInv c hands ⟨e + 2, p.cards.addRange (pairChainOf c i e).keyPoint
      ((pairChainOf c i e).len + 1) (-2), p.hands ++ [pairChainOf c i e]⟩ := by
  obtain ⟨htype, hkey, hlen, hover⟩ := pairChainOf_spec c hrun.long
  have htop := hrun.top
  have hlong := hrun.long
  have ho : overrun c i e = (pairChainOf c i e).keyPoint + (pairChainOf c i e).len := rfl
  have hbelow := robbedBelow_take hrun
  have hledger := ledger_takePairChain hrun p
  refine ⟨?_, fun r hr => ?_, fun r hr => ?_, fun r hr => ?_, fun h hh => ?_⟩
  · rcases hrun.above with rfl | h
    · right; simp only [cardA, cardQ]; omega
    · left; right; simpa using h
  · simp only at hr ⊢
    rw [Points.addRange_out (by omega)]
    exact hI.ahead r (by simp only; omega)
  · -- a robbed rank: an older one lies below the chain, the new one right above it
    simp only at hr ⊢
    rcases (hbelow r).mp hr with hold | rfl
    · have hlt := hold.lt hi
      have h1 := hI.robbed r hold
      rw [hledger, if_neg (by omega), Points.addRange_out (by omega)]
      refine ⟨h1.1, ?_⟩
      have := h1.2
      simp only at this
      omega
    · have hnot : ¬RobbedBelow c i (overrun c i e) := fun h => by have := h.lt hi; omega
      have h1 := (hI.kept _ hnot).2
      have h2 := hI.ahead (overrun c i e) (by simp only; omega)
      simp only at h1 h2
      rw [hledger, if_pos rfl, Points.addRange_in (by omega)]
      omega
  · -- any other rank keeps its account, and gives two cards when it is in the chain
    simp only at hr ⊢
    have hold : ¬RobbedBelow c i r := fun h => hr ((hbelow r).mpr (Or.inl h))
    have hne : r ≠ overrun c i e := fun h => hr ((hbelow r).mpr (Or.inr h))
    obtain ⟨h1, h2⟩ := hI.kept r hold
    simp only at h1 h2
    rw [hledger, if_neg hne]
    refine ⟨?_, by omega⟩
    by_cases hin : (pairChainOf c i e).keyPoint ≤ r ∧
        r < (pairChainOf c i e).keyPoint + ((pairChainOf c i e).len + 1)
    · have h3 := hI.ahead r (by simp only; omega)
      have h4 := hrun.held r (by omega) (by omega)
      simp only at h3
      rw [Points.addRange_in hin]
      right
      omega
    · rw [Points.addRange_out hin]
      exact h1
  · simp only at hh
    rw [List.mem_append, List.mem_singleton] at hh
    rcases hh with hh | rfl
    · exact hI.new h hh
    · right
      refine ⟨Or.inl htype, by rw [htype]; rfl, Or.inl ?_⟩
      rw [htype]
      simp only [HandType.BodyOk, cardA] at htop ⊢
      omega

/-- One round of the scan for pair chains: it extracts the chain of a run, or
moves on. -/
theorem pairChainStep_inv {c : Points} {hands : List Hand} {s : Scan} (hI : PairInv c hands s)
    (hi : s.i ≤ cardQ) : PairInv c hands (pairChainStep s) := by
  obtain ⟨i, p⟩ := s
  have hedge : AtEdge c i := hI.edge.resolve_right (by simp only at hi ⊢; omega)
  have hahead : ∀ r, i ≤ r → p.cards r = c r := hI.ahead
  simp only [cardQ] at hi
  unfold pairChainStep
  simp only []
  split
  next h2 =>
    obtain ⟨hle, htop, hheld, habove⟩ :=
      runEnd_spec p.cards 2 (i := i) (by simp only [cardA]; omega) h2
    generalize runEnd p.cards 2 i = e at *
    have hheld' : ∀ r, i ≤ r → r ≤ e → 2 ≤ c r := fun r h1 h3 => by
      rw [← hahead r h1]
      exact hheld r h1 h3
    have habove' : e = cardA ∨ c (e + 1) < 2 := by
      rwa [← hahead (e + 1) (by omega)]
    have hedge' : AtEdge c (e + 2) ∨ cardQ < e + 2 := by
      rcases habove' with rfl | h
      · right; simp only [cardA, cardQ]; omega
      · left; right; simpa using h
    split
    next hlong =>
      -- the step reads the current counts, which on the run are those of the start
      have hrun : PairRun c i e := ⟨by omega, htop, hheld', hedge.imp_right id, habove'⟩
      have hcongr : optimizePairChain p.cards
          { type := .pairChain, keyPoint := i, len := e - i + 1 } = pairChainOf c i e :=
        pairChainOf_congr hrun.long fun r h1 _ => hahead r h1
      rw [hcongr]
      exact hI.take hedge hrun
    next hshort =>
      -- too short: no run of the start begins at `i` or inside the pairs just passed
      refine hI.skip (by omega) hedge' fun a b hr hia hae => ?_
      rcases Nat.lt_or_eq_of_le hia with hlt | rfl
      · exact no_run_inside hheld' habove' htop hr hlt hae
      · have := run_end_unique hheld' habove' htop hle hr
        have := hr.long
        omega
  next h2 =>
    have hci : c i < 2 := by
      rw [← hahead i (Nat.le_refl _)]
      omega
    refine hI.skip (Nat.le_succ i) (Or.inl (Or.inr (by simpa using hci))) fun a b hr hia hai => ?_
    obtain rfl : a = i := by omega
    have := hr.held a (Nat.le_refl _) (by have := hr.long; omega)
    omega

/-- Every round moves on, so the scan ends. -/
theorem pairChainStep_lt (s : Scan) (hi : s.i ≤ cardQ) : s.i < (pairChainStep s).i := by
  unfold pairChainStep
  simp only []
  split
  next h2 =>
    have := (runEnd_spec s.pile.cards 2 (i := s.i)
      (by simp only [cardQ, cardA] at hi ⊢; omega) h2).1
    split <;> simp only <;> omega
  next => simp only; omega

/-- The scan of `getPairChain`, run to its end. -/
def pairScan (p : Pile) : Scan :=
  whileLoop (fun s : Scan => s.i ≤ cardQ) pairChainStep cardPointNum ⟨card3, p⟩

/-- The scan, run to its end. -/
theorem pairScan_inv (p : Pile) : PairInv p.cards p.hands (pairScan p) := by
  refine whileLoop_inv (PairInv p.cards p.hands)
    (fun s hs hc => pairChainStep_inv hs (of_decide_eq_true hc)) cardPointNum ?_
  have hno : ∀ r, ¬RobbedBelow p.cards 0 r := fun r ⟨_, _, _, h, _⟩ => Nat.not_lt_zero _ h
  exact ⟨Or.inl (Or.inl rfl), fun _ _ => rfl, fun r hr => (hno r hr).elim,
    fun _ _ => ⟨Or.inl rfl, rfl⟩, fun h hh => Or.inl hh⟩

/-- The scan passes every rank a run can start at. -/
theorem pairScan_end (p : Pile) : cardQ < (pairScan p).i := by
  have h := whileLoop_exit (c := fun s : Scan => decide (s.i ≤ cardQ)) (b := pairChainStep)
    (fun _ => True) (fun s => cardK - s.i)
    (fun s _ hc => ⟨trivial, by
      have hi : s.i ≤ cardQ := of_decide_eq_true hc
      have := pairChainStep_lt s hi
      simp only [cardQ, cardK] at hi ⊢
      omega⟩)
    cardPointNum (s := ⟨card3, p⟩) trivial (by simp only [cardK, card3, cardPointNum]; omega)
  exact Nat.lt_of_not_le (of_decide_eq_false h)

/-- Past the last rank where a run can start, every run has been met. -/
theorem robbedBelow_end {c : Points} {i r : Nat} (hi : cardQ < i) :
    RobbedBelow c i r ↔ Robbed c r := by
  constructor
  · intro hrob
    obtain ⟨a, b, hr, -, rfl⟩ := hrob
    exact ⟨a, b, hr, rfl⟩
  · intro hrob
    obtain ⟨a, b, hr, rfl⟩ := hrob
    refine ⟨a, b, hr, ?_, rfl⟩
    have h1 := hr.long
    have h2 := hr.top
    simp only [cardA, cardQ] at h2 hi
    omega

/-- Only a rank from the six to the two can be robbed. -/
theorem Robbed.range {c : Points} {r : Nat} (h : Robbed c r) : 3 ≤ r ∧ r ≤ card2 := by
  obtain ⟨a, b, hr, rfl⟩ := h
  obtain ⟨-, h1, h2, h3⟩ := pairChainOf_spec c hr.long
  have h4 := hr.top
  have ho : overrun c a b = (pairChainOf c a b).keyPoint + (pairChainOf c a b).len := rfl
  simp only [cardA, card2] at h4 ⊢
  omega

/-- What `getPairChain` does at a rank it robs. -/
theorem getPairChain_robbed {s : Split} {r : Nat} (h : Robbed s.cards r) :
    (getPairChain s).cards r = s.cards r - 2 ∧ (getPairChain s).ledger r = s.ledger r - 2 := by
  have hI := pairScan_inv ⟨s.cards, s.handMap.vec .pairChain⟩
  have h1 := hI.robbed r ((robbedBelow_end (pairScan_end _)).mpr h)
  refine ⟨h1.1, ?_⟩
  have h2 := ledger_overVector .pairChain (fun p => (pairScan p).pile) s r
  rw [h1.2, Pile.ledger] at h2
  refine h2.trans ?_
  omega

/-- What `getPairChain` does at every other rank. -/
theorem getPairChain_kept {s : Split} {r : Nat} (h : ¬Robbed s.cards r) :
    ((getPairChain s).cards r = s.cards r ∨
      2 ≤ s.cards r ∧ (getPairChain s).cards r = s.cards r - 2) ∧
    (getPairChain s).ledger r = s.ledger r := by
  have hI := pairScan_inv ⟨s.cards, s.handMap.vec .pairChain⟩
  have h1 := hI.kept r fun h' => h ((robbedBelow_end (pairScan_end _)).mp h')
  refine ⟨h1.1, ?_⟩
  have h2 := ledger_overVector .pairChain (fun p => (pairScan p).pile) s r
  rw [h1.2, Pile.ledger] at h2
  refine h2.trans ?_
  omega

/-- `getPairChain` is a pass in the sense of `PassSpec`: it takes too much, but
what it pushes is bare. -/
theorem getPairChain_spec (s : Split) : PassSpec .pairChain s (getPairChain s) := by
  refine ⟨fun r => ?_, fun t' ht => HandsMap.vec_put_ne ht, fun h hh => ?_⟩
  · by_cases hr : Robbed s.cards r
    · have := (getPairChain_robbed hr).1
      omega
    · have := (getPairChain_kept hr).1
      omega
  · simp only [getPairChain, overVector, HandsMap.vec_put_self] at hh
    exact (pairScan_inv ⟨s.cards, s.handMap.vec .pairChain⟩).new h hh

end RobotDdz
