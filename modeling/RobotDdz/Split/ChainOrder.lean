import RobotDdz.Split.Trim
import RobotDdz.Split.Legal

/-!
# The order of the solo chains

The scan finds chains in the order of their keys, and between two keys lies a
rank it left without spare cards (`Apart`). The trimming loops only give back
ranks that are held besides, so no low end passes such a rank, and chains found
at different ranks stay in order. Of two chains found at one rank the earlier
may be cut further: exactly when it `Overtakes` the later one.

The argument follows two chains at a time. `FoundPair` is what is known of them
when they were found, `Rest` what is left of one after any of the loops, and
`Trimmed` says of the whole vector that every chain is a rest of its own. A
legal holding has twenty cards; two chains take at least ten of them, and this
bounds what the first loop can still do (`FoundPair.room`).

`Overtakes` is a condition on the chains before the loops: their lengths and
the cards beside them.
-/

namespace RobotDdz

open Loops

/-! ## What is handed to the trimming loops -/

/-- Two keys in order, with a rank without cards between them where they
differ. -/
def Apart (c : Points) (k k' : Nat) : Prop := k = k' ∨ ∃ b, k ≤ b ∧ b < k' ∧ c b = 0

theorem Apart.mono {c c' : Points} {k k' : Nat} (h : Apart c k k')
    (hc : ∀ r, r < k' → c r = 0 → c' r = 0) : Apart c' k k' := by
  rcases h with h | ⟨b, h1, h2, h3⟩
  · exact Or.inl h
  · exact Or.inr ⟨b, h1, h2, hc b h2 h3⟩

/-- Behind the scan every chain is cut off from the ranks to come. -/
structure ScanApart (s : Scan) : Prop where
  nonneg : ∀ r, 0 ≤ s.pile.cards r
  apart : (s.pile.hands.map Hand.keyPoint).Pairwise (Apart s.pile.cards)
  behind : ∀ h ∈ s.pile.hands, h.keyPoint ≤ s.i ∧
    (h.keyPoint = s.i ∨ cardA < s.i ∨ ∃ b, h.keyPoint ≤ b ∧ b ≤ s.i ∧ s.pile.cards b = 0)

/-- A run shorter than five ends before an empty rank or at the ace. -/
theorem soloEnd_short {c : Points} {s : Nat} (h0 : ∀ r, 0 ≤ c r)
    (hshort : ¬4 ≤ soloEnd c s - s) : cardA < soloEnd c s + 1 ∨ c (soloEnd c s + 1) = 0 := by
  have hdone : (soloEnd c s + 1 ≤ cardA && 1 ≤ c (soloEnd c s + 1) && soloEnd c s - s < 4)
      = false :=
    whileLoop_exit (c := fun e => e + 1 ≤ cardA && 1 ≤ c (e + 1) && e - s < 4) (b := (· + 1))
      (fun e => s ≤ e) (fun e => 4 - (e - s)) (fun e he hc => ⟨by omega, by
        simp only [Bool.and_eq_true, decide_eq_true_iff] at hc
        omega⟩) 4 (Nat.le_refl s) (by omega)
  have h := h0 (soloEnd c s + 1)
  by_contra hno
  rw [not_or] at hno
  refine absurd hdone (by
    rw [Bool.not_eq_false]
    simp only [Bool.and_eq_true, decide_eq_true_iff]
    exact ⟨⟨by omega, by omega⟩, by omega⟩)

/-- The rank of a new chain holds a card, so what cuts the others off lies
below it. -/
theorem ScanApart.cut {i : Nat} {cards : Points} {hands : List Hand}
    (hI : ScanApart ⟨i, ⟨cards, hands⟩⟩) (hi : i ≤ cardT) (hheld : 1 ≤ cards i) :
    ∀ h ∈ hands, h.keyPoint ≤ i ∧ Apart cards h.keyPoint i := by
  intro h hh
  obtain ⟨hk, hor⟩ := hI.behind h hh
  refine ⟨hk, ?_⟩
  rcases hor with heq | hA | ⟨b, hb1, hb2, hb3⟩
  · exact Or.inl heq
  · simp only [cardT, cardA] at hi hA
    omega
  · refine Or.inr ⟨b, hb1, lt_of_le_of_ne hb2 fun heq => ?_, hb3⟩
    subst heq
    simp only at hb3
    omega

/-- A chain is found. The chains found before it start at or below its start,
and what cuts them off from the ranks to come is an empty rank, which stays
empty. -/
theorem ScanApart.take {i n : Nat} {cards : Points} {hands : List Hand} {hand : Hand}
    (hI : ScanApart ⟨i, ⟨cards, hands⟩⟩) (hi : i ≤ cardT) (hn : 0 < n)
    (hheld : ∀ r, i ≤ r → r < i + n → 1 ≤ cards r) (hkey : hand.keyPoint = i) :
    ScanApart ⟨i, ⟨cards.addRange i n (-1), hands ++ [hand]⟩⟩ := by
  have hcut := hI.cut hi (hheld i (Nat.le_refl i) (Nat.lt_add_of_pos_right hn))
  have hzero : ∀ r, r < i → cards r = 0 → cards.addRange i n (-1) r = 0 := by
    intro r hr hc
    rw [Points.addRange_out (by omega)]
    exact hc
  refine ⟨fun r => ?_, ?_, fun h hh => ?_⟩
  · have h0 := hI.nonneg r
    simp only at h0 ⊢
    by_cases hr : i ≤ r ∧ r < i + n
    · have := hheld r hr.1 hr.2
      rw [Points.addRange_in hr]
      omega
    · rw [Points.addRange_out hr]
      exact h0
  · rw [List.map_append, List.pairwise_append]
    refine ⟨?_, List.pairwise_singleton _ _, fun k hk k' hk' => ?_⟩
    · refine hI.apart.imp_of_mem fun {k k'} hk hk' h => h.mono fun r hr hc => ?_
      obtain ⟨h', hh', rfl⟩ := List.mem_map.mp hk'
      exact hzero r (Nat.lt_of_lt_of_le hr (hcut h' hh').1) hc
    · obtain ⟨h, hh, rfl⟩ := List.mem_map.mp hk
      rw [List.map_singleton, List.mem_singleton, hkey] at hk'
      subst hk'
      exact (hcut h hh).2.mono hzero
  · rw [List.mem_append, List.mem_singleton] at hh
    rcases hh with hh | rfl
    · obtain ⟨hk, hap⟩ := hcut h hh
      refine ⟨hk, ?_⟩
      rcases hap with heq | ⟨b, hb1, hb2, hb3⟩
      · exact Or.inl heq
      · exact Or.inr (Or.inr ⟨b, hb1, Nat.le_of_lt hb2, hzero b hb2 hb3⟩)
    · exact ⟨Nat.le_of_eq hkey, Or.inl hkey⟩

/-- The scan goes on behind a rank that cuts the chains off. -/
theorem ScanApart.skip {i i' b : Nat} {cards : Points} {hands : List Hand}
    (hI : ScanApart ⟨i, ⟨cards, hands⟩⟩) (hb : i ≤ b) (hb' : b ≤ i')
    (hz : cardA < i' ∨ cards b = 0) : ScanApart ⟨i', ⟨cards, hands⟩⟩ := by
  refine ⟨hI.nonneg, hI.apart, fun h hh => ?_⟩
  have hk : h.keyPoint ≤ i := (hI.behind h hh).1
  refine ⟨Nat.le_trans hk (Nat.le_trans hb hb'), Or.inr ?_⟩
  rcases hz with hA | hz
  · exact Or.inl hA
  · exact Or.inr ⟨b, Nat.le_trans hk hb, hb', hz⟩

theorem soloChainStep_apart {s : Scan} (hI : ScanApart s) (hi : soloChainCond s = true) :
    ScanApart (soloChainStep s) := by
  obtain ⟨i, ⟨cards, hands⟩⟩ := s
  have hi' : i ≤ cardT := of_decide_eq_true hi
  unfold soloChainStep
  simp only []
  split
  next h1 =>
    obtain ⟨hle, htop, hheld⟩ :=
      soloEnd_spec cards (s := i) (by simp only [cardT, cardA] at hi' ⊢; omega)
    have hshort := soloEnd_short (c := cards) (s := i) hI.nonneg
    generalize soloEnd cards i = e at *
    split
    next hlong =>
      refine hI.take hi' (by omega) (fun r hlo hhi => ?_) rfl
      rcases Nat.lt_or_eq_of_le hlo with h | rfl
      · exact hheld r h (by omega)
      · exact h1
    next hlong => exact hI.skip (b := e + 1) (by omega) (Nat.le_refl _) (hshort hlong)
  next h1 =>
    have hz : cards i = 0 := by
      have h0 : 0 ≤ cards i := hI.nonneg i
      omega
    exact hI.skip (Nat.le_refl i) (Nat.le_succ i) (Or.inr hz)

/-- The chains of the scan. -/
theorem soloScan_apart {c : Points} (h0 : ∀ r, 0 ≤ c r) :
    ((soloScan ⟨c, []⟩).hands.map Hand.keyPoint).Pairwise (Apart (soloScan ⟨c, []⟩).cards) := by
  have hstart : ScanApart ⟨card3, ⟨c, []⟩⟩ :=
    ⟨h0, List.Pairwise.nil, fun h hh => absurd hh List.not_mem_nil⟩
  have hscan := whileLoop_inv (c := soloChainCond) (b := soloChainStep) ScanApart
    (fun _ hs hc => soloChainStep_apart hs hc) (soloFuel c) hstart
  unfold soloScan
  dsimp only
  exact hscan.apart

/-- Growing a chain keeps its key and only takes cards. -/
theorem extendChain_le (c : Points) (it : Hand) :
    (∀ r, (extendChain c it).1 r ≤ c r) ∧ (extendChain c it).2.keyPoint = it.keyPoint := by
  refine whileLoop_inv (c := extendCond) (b := extendStep)
    (fun e : Extend => (∀ r, e.cards r ≤ c r) ∧ e.hand.keyPoint = it.keyPoint)
    (fun e he _ => ⟨fun r => ?_, he.2⟩) cardPointNum (s := ⟨c, it⟩) ⟨fun _ => Int.le_refl _, rfl⟩
  have := he.1 r
  simp only [extendStep, Points.addRange]
  split <;> omega

/-- The chain ends at the ace, or before a rank without cards. -/
def Ended (c : Points) (h : Hand) : Prop :=
  h.keyPoint + h.len ≤ cardA → c (h.keyPoint + h.len) = 0

/-- A grown chain has ended. -/
theorem extendChain_ended {c : Points} {it : Hand} (h0 : ∀ r, 0 ≤ c r) (hit : SoloRun 5 it) :
    Ended (extendChain c it).1 (extendChain c it).2 := by
  intro hle
  have hdone := extendChain_done c it
  have h := (extendRounds_inv h0 hit cardPointNum).1
    ((extendChain c it).2.keyPoint + (extendChain c it).2.len)
  by_contra hne
  refine absurd hdone (by
    rw [Bool.not_eq_false]
    simp only [extendCond, Bool.and_eq_true, decide_eq_true_iff]
    exact ⟨hle, lt_of_le_of_ne h (Ne.symm hne)⟩)

/-- What the first loop of `expandSoloChain` does to the counts, the keys and
the ends. -/
theorem extendChains_spec {c : Points} {hands : List Hand} (h0 : ∀ r, 0 ≤ c r)
    (hruns : ∀ h ∈ hands, SoloRun 5 h) :
    (∀ r, 0 ≤ (mapState extendChain c hands).1 r ∧ (mapState extendChain c hands).1 r ≤ c r) ∧
      (mapState extendChain c hands).2.map Hand.keyPoint = hands.map Hand.keyPoint ∧
      ∀ h ∈ (mapState extendChain c hands).2, Ended (mapState extendChain c hands).1 h := by
  have h := mapState_inv (f := extendChain) (fun c' done todo =>
    (∀ r, 0 ≤ c' r ∧ c' r ≤ c r) ∧
      done.map Hand.keyPoint ++ todo.map Hand.keyPoint = hands.map Hand.keyPoint ∧
      (∀ h ∈ done, Ended c' h) ∧ ∀ h ∈ todo, SoloRun 5 h) ?_ hands (s := c) []
    ⟨fun r => ⟨h0 r, Int.le_refl _⟩, rfl, fun h hh => absurd hh List.not_mem_nil, hruns⟩
  · rw [List.nil_append, List.map_nil, List.append_nil] at h
    exact ⟨h.1, h.2.1, h.2.2.1⟩
  · intro c' done it todo hinv
    obtain ⟨hc, hkeys, hdone, htodo⟩ := hinv
    have hit := htodo it List.mem_cons_self
    obtain ⟨hle, hkey⟩ := extendChain_le c' it
    have hnn := (extendRounds_inv (fun r => (hc r).1) hit cardPointNum).1
    refine ⟨fun r => ⟨hnn r, Int.le_trans (hle r) (hc r).2⟩, ?_, fun h hh => ?_,
      fun h hh => htodo h (List.mem_cons_of_mem _ hh)⟩
    · rw [← hkeys, List.map_append, List.map_singleton, hkey, List.append_assoc]
      rfl
    · rw [List.mem_append, List.mem_singleton] at hh
      rcases hh with hh | rfl
      · intro hA
        have h1 := hdone h hh hA
        have h2 := hle (h.keyPoint + h.len)
        have h3 := hnn (h.keyPoint + h.len)
        change 0 ≤ (extendChain c' it).1 (h.keyPoint + h.len) at h3
        omega
      · exact extendChain_ended (fun r => (hc r).1) hit

theorem findFollower_sublist {it newIt : Hand} {rest rest' : List Hand}
    (h : findFollower it rest = some (newIt, rest')) : rest'.Sublist rest := by
  induction rest generalizing rest' with
  | nil => exact absurd h (by simp [findFollower])
  | cons x xs ih =>
    unfold findFollower at h
    split at h
    next =>
      obtain ⟨rfl, rfl⟩ : x = newIt ∧ xs = rest' := by simpa using h
      exact List.sublist_cons_self _ _
    next =>
      obtain ⟨y, hy, he⟩ := Option.map_eq_some_iff.mp h
      obtain ⟨rfl, rfl⟩ : y.1 = newIt ∧ x :: y.2 = rest' := by simpa using he
      exact (@ih y.2 hy).cons_cons x

/-- Merging drops chains and moves ends of chains to those of others: the
starts that are left are starts of before, in their order, and so are the ends. -/
theorem mergeChains_keys (fuel : Nat) : ∀ l : List Hand,
    ((mergeChains fuel l).map Hand.keyPoint).Sublist (l.map Hand.keyPoint) ∧
      ∀ h ∈ mergeChains fuel l, ∃ h' ∈ l, h.keyPoint + h.len = h'.keyPoint + h'.len := by
  induction fuel with
  | zero =>
    intro l
    have heq : mergeChains 0 l = l := by cases l <;> rfl
    rw [heq]
    exact ⟨List.Sublist.refl _, fun h hh => ⟨h, hh, rfl⟩⟩
  | succ fuel ih =>
    intro l
    cases l with
    | nil => exact ⟨List.Sublist.refl _, fun h hh => absurd hh List.not_mem_nil⟩
    | cons it rest =>
      unfold mergeChains
      split
      next newIt rest' hsome =>
        obtain ⟨hk, hperm⟩ := findFollower_spec hsome
        have hsub := findFollower_sublist hsome
        obtain ⟨h1, h2⟩ := ih rest'
        refine ⟨(h1.trans (hsub.map _)).cons_cons _, fun h hh => ?_⟩
        rcases List.mem_cons.mp hh with rfl | hh
        · refine ⟨newIt, List.mem_cons_of_mem _ (hperm.mem_iff.mpr List.mem_cons_self), ?_⟩
          simp only
          omega
        · obtain ⟨h', hh', he⟩ := h2 h hh
          exact ⟨h', List.mem_cons_of_mem _ (hsub.subset hh'), he⟩
      next =>
        obtain ⟨h1, h2⟩ := ih rest
        refine ⟨h1.cons_cons _, fun h hh => ?_⟩
        rcases List.mem_cons.mp hh with rfl | hh
        · exact ⟨h, List.mem_cons_self, rfl⟩
        · obtain ⟨h', hh', he⟩ := h2 h hh
          exact ⟨h', List.mem_cons_of_mem _ hh', he⟩

/-- What the trimming loops are handed. -/
structure Found (ledger : Points) (p : Pile) : Prop extends SoloInv ledger (SoloRun 5) p where
  apart : (p.hands.map Hand.keyPoint).Pairwise (Apart p.cards)
  ended : ∀ h ∈ p.hands, Ended p.cards h

/-- Growing leaves an empty rank empty, and merging keeps the order of the
keys. -/
theorem expandSoloChain_found {ledger : Points} {p : Pile} (hI : SoloInv ledger (SoloRun 5) p)
    (hapart : (p.hands.map Hand.keyPoint).Pairwise (Apart p.cards)) :
    Found ledger (expandSoloChain p) := by
  obtain ⟨hc, hkeys, hended⟩ := extendChains_spec hI.nonneg hI.runs
  have hcards : (expandSoloChain p).cards = (mapState extendChain p.cards p.hands).1 := rfl
  have hhands : (expandSoloChain p).hands
      = mergeChains (mapState extendChain p.cards p.hands).2.length
        (mapState extendChain p.cards p.hands).2 := rfl
  have hinv := expandSoloChain_inv hI
  obtain ⟨hsub, hends⟩ := mergeChains_keys (mapState extendChain p.cards p.hands).2.length
    (mapState extendChain p.cards p.hands).2
  rw [← hhands] at hsub hends
  rw [← hcards] at hc hended
  rw [hkeys] at hsub
  refine ⟨hinv, ?_, fun h hh => ?_⟩
  · refine (hapart.sublist hsub).imp fun h => h.mono fun r _ hz => ?_
    have := hc r
    omega
  · obtain ⟨h', hh', he⟩ := hends h hh
    have := hended h' hh'
    unfold Ended at this ⊢
    rw [he]
    exact this

/-- The solo chains before they are trimmed, and the cards left beside them. -/
def chainsFound (cards : Points) : Pile := expandSoloChain (soloScan ⟨cards, []⟩)

theorem chainsFound_found {c : Points} (h0 : ∀ r, 0 ≤ c r) : Found c (chainsFound c) := by
  have hstart : SoloInv c (SoloRun 5) ⟨c, []⟩ :=
    ⟨h0, fun r => by simp [Pile.ledger], fun h hh => absurd hh (List.not_mem_nil)⟩
  have hscan : SoloInv c (SoloRun 5) (soloScan ⟨c, []⟩) :=
    soloRounds_inv (s := ⟨card3, ⟨c, []⟩⟩) hstart _
  exact expandSoloChain_found hscan (soloScan_apart h0)

/-! ## Two chains while they are trimmed -/

theorem Cut.balance {n : Nat} {c c' : Points} {h h' : Hand} (hcut : Cut c h c' h')
    (hh : SoloRun n h) (r : Nat) :
    c' r + handToPointsArray h' r = c r + handToPointsArray h r := by
  have hlow := hcut.low
  have hhigh := hcut.high
  rw [handToPointsArray_solo hh, handToPointsArray_solo hcut.run]
  by_cases hr : GivenBack h h' r
  · rw [hcut.back r hr]
    unfold GivenBack at hr
    split <;> split <;> omega
  · rw [hcut.kept r hr]
    unfold GivenBack at hr
    split <;> split <;> omega

/-- What is left of a chain. -/
structure Rest (c : Points) (h h' : Hand) : Prop where
  run : SoloRun 5 h'
  low : h.keyPoint ≤ h'.keyPoint
  high : h'.keyPoint + h'.len ≤ h.keyPoint + h.len
  back : ∀ r, GivenBack h h' r → 2 ≤ c r

theorem Rest.cut {c c' : Points} {h h' h'' : Hand} (hr : Rest c h h') (hcut : Cut c h' c' h'') :
    Rest c' h h'' := by
  have h1 := hr.low
  have h2 := hr.high
  have h3 := hcut.low
  have h4 := hcut.high
  refine ⟨hcut.run, by omega, by omega, fun r hb => ?_⟩
  by_cases hold : GivenBack h h' r
  · exact Int.le_trans (hr.back r hold) (hcut.le r)
  · refine hcut.two_le ?_
    unfold GivenBack at hb hold ⊢
    omega

section Spare

variable {c c0 : Points} {h h' : Hand} (hr : Rest c h h') (hpos : ∀ r, 0 < c r ↔ 0 < c0 r)

include hr hpos

theorem Rest.spare {r : Nat} (hb : GivenBack h h' r) : 0 < c0 r := by
  have := hr.back r hb
  exact (hpos r).mp (by omega)

/-- No low end passes a rank without spare cards. -/
theorem Rest.low_le {z : Nat} (hz : c0 z = 0) (hle : h.keyPoint ≤ z) : h'.keyPoint ≤ z := by
  by_contra hlt
  have := hr.spare hpos (r := z) (Or.inl ⟨hle, by omega⟩)
  omega

/-- Neither does a high end. -/
theorem Rest.lt_high {z : Nat} (hz : c0 z = 0) (hlt : z < h.keyPoint + h.len) :
    z < h'.keyPoint + h'.len := by
  by_contra hle
  have := hr.spare hpos (r := z) (Or.inr ⟨by omega, hlt⟩)
  omega

end Spare

/-- The high end of a chain has been moved by the first loop only. -/
def Paired (c0 : Points) (x : Hand × Hand) : Prop :=
  ∃ m, x.2.keyPoint + x.2.len + m = x.1.keyPoint + x.1.len ∧ (0 < m → HighMove c0 x.1 m)

/-- The earlier chain is longer, and every rank it could give up before the
later one is down to five is held besides. -/
def Overtakes (c : Points) (h h' : Hand) : Prop :=
  h.keyPoint = h'.keyPoint ∧ h'.len < h.len ∧
    ∀ k, k + 5 ≤ h'.len → 0 < c (h.keyPoint + k)

/-- Two chains in the order they were found. -/
structure FoundPair (ledger c0 : Points) (h h' : Hand) : Prop where
  run : SoloRun 5 h
  run' : SoloRun 5 h'
  apart : Apart c0 h.keyPoint h'.keyPoint
  ended : Ended c0 h
  ended' : Ended c0 h'
  account : ∀ r, c0 r + handToPointsArray h r + handToPointsArray h' r ≤ ledger r

section Pair

variable {ledger c0 c : Points} {x y : Hand × Hand}

/-- Twenty cards, less those of the two chains. -/
theorem FoundPair.room (hf : FoundPair ledger c0 x.1 y.1) (h20 : ledger.total ≤ 20) :
    c0.total + x.1.len + y.1.len ≤ 20 := by
  have hsum := Points.total_mono (c := fun r => c0 r + handToPointsArray x.1 r
    + handToPointsArray y.1 r) fun r _ => hf.account r
  rw [Points.total_add, Points.total_add, hf.run.total, hf.run'.total] at hsum
  omega

variable (hf : FoundPair ledger c0 x.1 y.1) (h20 : ledger.total ≤ 20) (h0 : ∀ r, 0 ≤ c0 r)
  (hpos : ∀ r, 0 < c r ↔ 0 < c0 r) (hx : Rest c x.1 x.2)

include hf h20 h0 hpos hx

omit h20 h0 in
/-- The earlier chain passes a later one it overtakes. -/
theorem FoundPair.passes (hstop : x.2.len = 5 ∨ c0 x.2.keyPoint = 0)
    (hover : Overtakes c0 x.1 y.1) {h' : Hand} (hrun' : SoloRun 5 h')
    (hhigh' : h'.keyPoint + h'.len ≤ y.1.keyPoint + y.1.len) : h'.keyPoint < x.2.keyPoint := by
  obtain ⟨hkey, hlt, hheld⟩ := hover
  have htop := hf.run.top
  have hlong := hrun'.long
  -- the later chain ends at a rank without spare cards, inside the earlier one
  have hzero : c0 (y.1.keyPoint + y.1.len) = 0 := hf.ended' (by omega)
  have hend := hx.lt_high hpos hzero (by omega)
  rcases hstop with h5 | hz
  · omega
  · by_contra hle
    have hk := hheld (x.2.keyPoint - x.1.keyPoint) (by have := hx.low; omega)
    rw [Nat.add_sub_cancel' hx.low] at hk
    omega

/-- Otherwise the first loop leaves the later chain long enough to follow.
Where it could cut more, the cards it needs for that, with those of the two
chains, would be more than twenty. -/
theorem FoundPair.follows (hkey : x.1.keyPoint = y.1.keyPoint) (hno : ¬Overtakes c0 x.1 y.1)
    (hm : Paired c0 y) : x.2.keyPoint + 5 ≤ y.2.keyPoint + y.2.len := by
  have hroom := hf.room h20
  have hlong := hx.run.long
  have hlow := hx.low
  have hhigh := hx.high
  -- as found, it is
  have hfound : x.2.keyPoint + 5 ≤ y.1.keyPoint + y.1.len := by
    by_cases hlt : y.1.len < x.1.len
    · have hgap : ∃ k, k + 5 ≤ y.1.len ∧ c0 (x.1.keyPoint + k) = 0 := by
        by_contra hall
        refine hno ⟨hkey, hlt, fun k hk => ?_⟩
        by_contra hle
        have := h0 (x.1.keyPoint + k)
        exact hall ⟨k, hk, by omega⟩
      obtain ⟨k, hk, hz⟩ := hgap
      have := hx.low_le hpos hz (Nat.le_add_right _ _)
      omega
    · omega
  obtain ⟨m, hm, hmove⟩ := hm
  rcases Nat.eq_zero_or_pos m with rfl | hpos'
  · omega
  · obtain ⟨h8, hfits, hlowHeld, htopHeld⟩ := hmove hpos'
    have hytop := hf.run'.top
    simp only [cardA] at hytop
    -- three cards at the high end, and one at each rank the earlier chain or `m` counts
    have hcount : ∀ q, q + 5 ≤ y.1.len → (∀ r, y.1.keyPoint ≤ r → r < y.1.keyPoint + q → 0 < c0 r) →
        (q : Int) + 3 ≤ c0.total := by
      intro q hq hheld
      refine runs_le_total (a := y.1.keyPoint) (b := y.1.keyPoint + y.1.len - 3) (n := 3) h0
        (by omega) (by simp only [cardPointNum]; omega) hheld fun r h1 h2 => ?_
      have := htopHeld (y.1.keyPoint + y.1.len - 1 - r) (by omega)
      rwa [show y.1.keyPoint + y.1.len - 1 - (y.1.keyPoint + y.1.len - 1 - r) = r by omega] at this
    have hc1 := hcount (x.2.keyPoint - x.1.keyPoint) (by omega) fun r h1 h2 =>
      hx.spare hpos (Or.inl ⟨by omega, by omega⟩)
    have hc2 := hcount m hfits fun r h1 h2 => by
      have := hlowHeld (r - y.1.keyPoint) (by omega)
      rwa [Nat.add_sub_cancel' h1] at this
    -- a shorter earlier chain ends below the three
    have hends : x.1.len < y.1.len → x.1.len + 4 ≤ y.1.len := by
      intro hlt
      have hz := hf.ended (by simp only [cardA]; omega)
      by_contra hnear
      have := htopHeld (y.1.keyPoint + y.1.len - 1 - (x.1.keyPoint + x.1.len)) (by omega)
      rw [show y.1.keyPoint + y.1.len - 1 - (y.1.keyPoint + y.1.len - 1
        - (x.1.keyPoint + x.1.len)) = x.1.keyPoint + x.1.len by omega] at this
      omega
    omega

/-- Two chains come out of the second loop in order just when the first does
not overtake. -/
theorem FoundPair.inOrder_iff (h4 : ∀ r, ledger r ≤ 4) (hc : ∀ r, 0 ≤ c r)
    (hy : Rest c y.1 y.2)
    (hlive : ∀ r, c r + handToPointsArray x.2 r + handToPointsArray y.2 r ≤ ledger r)
    (hstop : x.2.len = 5 ∨ c0 x.2.keyPoint = 0) (hm : Paired c0 y) :
    x.2.keyPoint ≤ (trimEnds c y.2).2.keyPoint ↔ ¬Overtakes c0 x.1 y.1 := by
  have hcut := trimEnds_cut hc hy.run
  rcases hf.apart with hkey | ⟨b, hb1, hb2, hb3⟩
  · constructor
    · intro hle hover
      have := hf.passes hpos hx hstop hover hcut.run
        (Nat.le_trans hcut.high hy.high)
      omega
    · intro hno
      have hfollow := hf.follows h20 h0 hpos hx hkey hno hm
      have hxlong := hx.run.long
      refine trimEnds_reaches hy.run (e := x.2.keyPoint + x.2.len - 1) hfollow (by omega)
        (fun r h1 h2 => ?_) fun r h1 h2 h3 h4' => ?_
      · have := hy.low
        exact hx.back r (Or.inl ⟨by omega, h2⟩)
      · -- both chains have a card of the rank
        have hr := hlive r
        have := h4 r
        rw [handToPointsArray_solo hx.run, if_pos (by omega), handToPointsArray_solo hy.run,
          if_pos (by omega)] at hr
        omega
  · have h1 := hx.low_le hpos hb3 hb1
    have h2 := hy.low
    have h3 := hcut.low
    exact ⟨fun _ hover => absurd hover.1 (by omega), fun _ => by omega⟩

end Pair

/-! ## All of them -/

/-- The chains as found beside what is left of them, and the counts. -/
structure Trimmed (ledger c0 c : Points) (xs : List (Hand × Hand)) : Prop where
  nonneg : ∀ r, 0 ≤ c r
  pos_iff : ∀ r, 0 < c r ↔ 0 < c0 r
  balance : ∀ r, c r + handsSum (xs.map Prod.snd) r = ledger r
  rest : ∀ x ∈ xs, Rest c x.1 x.2

/-- Five cards and more for every chain. -/
theorem total_handsSum_runs (hands : List Hand) (hruns : ∀ h ∈ hands, SoloRun 5 h) :
    5 * (hands.length : Int) ≤ (handsSum hands).total := by
  induction hands with
  | nil => exact Int.le_refl 0
  | cons h hands ih =>
    have hrun := hruns h List.mem_cons_self
    have hlong := hrun.long
    have htail := ih fun h' hh' => hruns h' (List.mem_cons_of_mem _ hh')
    have hsplit : handsSum (h :: hands) = fun r => handToPointsArray h r + handsSum hands r :=
      funext fun r => handsSum_cons h hands r
    rw [hsplit, Points.total_add, hrun.total, List.length_cons]
    push_cast
    omega

namespace Trimmed

variable {ledger c0 c : Points} {pre post : List (Hand × Hand)} {x : Hand × Hand}

/-- Cutting one chain. -/
theorem cut (hI : Trimmed ledger c0 c (pre ++ x :: post)) {c' : Points} {h' : Hand}
    (hcut : Cut c x.2 c' h') : Trimmed ledger c0 c' (pre ++ (x.1, h') :: post) := by
  have hx := hI.rest x (List.mem_append_right _ List.mem_cons_self)
  refine ⟨fun r => Int.le_trans (hI.nonneg r) (hcut.le r),
    fun r => (hcut.pos_iff r).trans (hI.pos_iff r), fun r => ?_, fun y hy => ?_⟩
  · have hb := hI.balance r
    have hc := hcut.balance hx.run r
    rw [List.map_append, List.map_cons, handsSum_append, handsSum_cons] at hb ⊢
    simp only
    omega
  · rw [List.mem_append, List.mem_cons] at hy
    rcases hy with hy | rfl | hy
    · obtain ⟨h1, h2, h3, h4⟩ := hI.rest y (List.mem_append_left _ hy)
      exact ⟨h1, h2, h3, fun r hr => Int.le_trans (h4 r hr) (hcut.le r)⟩
    · exact hx.cut hcut
    · obtain ⟨h1, h2, h3, h4⟩ :=
        hI.rest y (List.mem_append_right _ (List.mem_cons_of_mem _ hy))
      exact ⟨h1, h2, h3, fun r hr => Int.le_trans (h4 r hr) (hcut.le r)⟩

/-- Beside another chain of five a chain and the spare cards are at most
fifteen cards. -/
theorem room (hI : Trimmed ledger c0 c (pre ++ x :: post)) (h20 : ledger.total ≤ 20)
    (hmore : 2 ≤ (pre ++ x :: post).length) : c.total + x.2.len ≤ 15 := by
  have hrun : ∀ y ∈ pre ++ x :: post, SoloRun 5 y.2 := fun y hy => (hI.rest y hy).run
  have hpre := total_handsSum_runs (pre.map Prod.snd) fun h hh => by
    obtain ⟨y, hy, rfl⟩ := List.mem_map.mp hh
    exact hrun y (List.mem_append_left _ hy)
  have hpost := total_handsSum_runs (post.map Prod.snd) fun h hh => by
    obtain ⟨y, hy, rfl⟩ := List.mem_map.mp hh
    exact hrun y (List.mem_append_right _ (List.mem_cons_of_mem _ hy))
  have hx := (hrun x (List.mem_append_right _ List.mem_cons_self)).total
  have hledger : ledger = fun r => c r + (handsSum (pre.map Prod.snd) r
      + (handToPointsArray x.2 r + handsSum (post.map Prod.snd) r)) := by
    funext r
    rw [← hI.balance r, List.map_append, List.map_cons, handsSum_append, handsSum_cons]
  rw [hledger, Points.total_add, Points.total_add, Points.total_add, hx] at h20
  simp only [List.length_append, List.length_cons] at hmore
  simp only [List.length_map] at hpre hpost
  omega

/-- Two of the chains and the spare cards are part of the account. -/
theorem two_le (hI : Trimmed ledger c0 c (pre ++ x :: post)) {y : Hand × Hand} (hy : y ∈ pre)
    (r : Nat) : c r + handToPointsArray y.2 r + handToPointsArray x.2 r ≤ ledger r := by
  have hb := hI.balance r
  have h1 := le_handsSum (l := pre.map Prod.snd) (List.mem_map_of_mem hy) r
  have h2 := handsSum_nonneg (post.map Prod.snd) r
  rw [List.map_append, List.map_cons, handsSum_append, handsSum_cons] at hb
  omega

end Trimmed

/-- Two hands of a vector are part of its sum. -/
theorem two_le_handsSum (hands : List Hand) : hands.Pairwise fun h h' => ∀ r,
    handToPointsArray h r + handToPointsArray h' r ≤ handsSum hands r := by
  induction hands with
  | nil => exact List.Pairwise.nil
  | cons h hands ih =>
    refine List.pairwise_cons.mpr ⟨fun h' hh' r => ?_, ih.imp fun hpair r => ?_⟩
    · have := le_handsSum hh' r
      rw [handsSum_cons]
      omega
    · have := hpair r
      have := handToPointsArray_nonneg h r
      rw [handsSum_cons]
      omega

section Loops

variable {ledger : Points} {p : Pile} (hp : Found ledger p) (h4 : ∀ r, ledger r ≤ 4)
  (h20 : ledger.total ≤ 20) (hmore : 2 ≤ p.hands.length)

include hp

/-- Before the loops nothing is cut. -/
theorem Found.trimmed : Trimmed ledger p.cards p.cards (p.hands.map fun h => (h, h)) := by
  have hsnd : (p.hands.map fun h => (h, h)).map Prod.snd = p.hands := by
    rw [List.map_map]
    exact List.map_id _
  refine ⟨hp.nonneg, fun _ => Iff.rfl, fun r => ?_, fun x hx => ?_⟩
  · rw [hsnd]
    exact hp.balance r
  · obtain ⟨h, hh, rfl⟩ := List.mem_map.mp hx
    refine ⟨hp.runs h hh, Nat.le_refl _, Nat.le_refl _, fun r hr => ?_⟩
    simp only [GivenBack] at hr
    omega

/-- Any two of the chains, in their order. -/
theorem Found.pairwise : p.hands.Pairwise (FoundPair ledger p.cards) := by
  refine ((List.pairwise_map.mp hp.apart).and (two_le_handsSum p.hands)).imp_of_mem
    fun {h h'} hh hh' hpair => ⟨hp.runs h hh, hp.runs h' hh', hpair.1, hp.ended h hh,
      hp.ended h' hh', fun r => ?_⟩
  have h1 := hp.balance r
  have h2 := hpair.2 r
  unfold Pile.ledger at h1
  omega

omit hp in
include h20 hmore in
/-- The first loop, over all chains: each is a rest of its own, and where the
high end of one was moved, the cards for it were there before the loop. -/
theorem Found.afterPairs (hI : Trimmed ledger p.cards p.cards (p.hands.map fun h => (h, h))) :
    Trimmed ledger p.cards (mapState (onSecond trimPairs) p.cards (p.hands.map fun h => (h, h))).1
        (mapState (onSecond trimPairs) p.cards (p.hands.map fun h => (h, h))).2 ∧
      ∀ x ∈ (mapState (onSecond trimPairs) p.cards (p.hands.map fun h => (h, h))).2,
        Paired p.cards x := by
  have hstart : ∀ x ∈ p.hands.map fun h => (h, h), x.2 = x.1 := by
    intro x hx
    obtain ⟨h, -, rfl⟩ := List.mem_map.mp hx
    rfl
  have h := mapState_inv (f := onSecond trimPairs) (fun c done todo =>
    Trimmed ledger p.cards c (done ++ todo) ∧ 2 ≤ (done ++ todo).length ∧
      (∀ x ∈ done, Paired p.cards x) ∧ ∀ x ∈ todo, x.2 = x.1) ?_
    (p.hands.map fun h => (h, h)) (s := p.cards) []
    ⟨hI, by rwa [List.nil_append, List.length_map], fun x hx => absurd hx List.not_mem_nil, hstart⟩
  · rw [List.nil_append, List.append_nil] at h
    exact ⟨h.1, h.2.2.1⟩
  · intro c done x todo hinv
    obtain ⟨htrim, hlen, hdone, htodo⟩ := hinv
    have hx := htodo x List.mem_cons_self
    have hrun := (htrim.rest x (List.mem_append_right _ List.mem_cons_self)).run
    obtain ⟨hcut, m, hm, hmove⟩ := trimPairs_cut htrim.nonneg hrun (htrim.room h20 hlen)
    have hnext := htrim.cut hcut
    refine ⟨by rw [List.append_assoc]; exact hnext, by simpa using hlen, fun y hy => ?_,
      fun y hy => htodo y (List.mem_cons_of_mem _ hy)⟩
    rw [List.mem_append, List.mem_singleton] at hy
    rcases hy with hy | rfl
    · exact hdone y hy
    · -- spare cards are where they were before the loop
      refine ⟨m, ?_, fun hpos => ?_⟩
      · show (trimPairs c x.2).2.keyPoint + (trimPairs c x.2).2.len + m = x.1.keyPoint + x.1.len
        rw [hm, hx]
      obtain ⟨h1, h2, h3, h4⟩ := hmove hpos
      rw [hx] at h1 h2 h3 h4
      exact ⟨h1, h2, fun k hk => (htrim.pos_iff _).mp (h3 k hk),
        fun k hk => (htrim.pos_iff _).mp (h4 k hk)⟩

include h4 h20 in
/-- The second loop, over all chains: it leaves two of them in order exactly
when the earlier one does not overtake the later. -/
theorem Found.afterEnds {c : Points} {xs : List (Hand × Hand)}
    (hI : Trimmed ledger p.cards c xs) (hfst : xs.map Prod.fst = p.hands)
    (hm : ∀ x ∈ xs, Paired p.cards x) :
    (mapState (onSecond trimEnds) c xs).2.Pairwise fun x y =>
      x.2.keyPoint ≤ y.2.keyPoint ↔ ¬Overtakes p.cards x.1 y.1 := by
  have h := mapState_inv (f := onSecond trimEnds) (fun c done todo =>
    Trimmed ledger p.cards c (done ++ todo) ∧ (done ++ todo).map Prod.fst = p.hands ∧
      (∀ x ∈ todo, Paired p.cards x) ∧ (∀ x ∈ done, x.2.len = 5 ∨ p.cards x.2.keyPoint = 0) ∧
      done.Pairwise fun x y => x.2.keyPoint ≤ y.2.keyPoint ↔ ¬Overtakes p.cards x.1 y.1) ?_
    xs (s := c) [] ⟨hI, hfst, hm, fun x hx => absurd hx List.not_mem_nil, List.Pairwise.nil⟩
  · rw [List.nil_append] at h
    exact h.2.2.2.2
  · intro c done y todo hinv
    obtain ⟨htrim, hfst, hm, hstop, hord⟩ := hinv
    have hy := htrim.rest y (List.mem_append_right _ List.mem_cons_self)
    have hcut := trimEnds_cut htrim.nonneg hy.run
    have hfound := hp.pairwise
    rw [← hfst, List.map_append, List.map_cons, List.pairwise_append] at hfound
    refine ⟨by rw [List.append_assoc]; exact htrim.cut hcut, ?_,
      fun x hx => hm x (List.mem_cons_of_mem _ hx), fun x hx => ?_, ?_⟩
    · rw [← hfst]
      simp only [List.append_assoc, List.map_append, List.map_cons, List.cons_append,
        List.nil_append]
      rfl
    · rw [List.mem_append, List.mem_singleton] at hx
      rcases hx with hx | rfl
      · exact hstop x hx
      · refine (trimEnds_stop htrim.nonneg hy.run).imp_right fun hz => ?_
        have h1 := htrim.pos_iff (trimEnds c y.2).2.keyPoint
        have h2 := hp.nonneg (trimEnds c y.2).2.keyPoint
        show p.cards (trimEnds c y.2).2.keyPoint = 0
        omega
    · refine List.pairwise_append.mpr ⟨hord, List.pairwise_singleton _ _, fun x hx z hz => ?_⟩
      obtain rfl := List.mem_singleton.mp hz
      have hpair := hfound.2.2 x.1 (List.mem_map_of_mem hx) y.1 List.mem_cons_self
      exact hpair.inOrder_iff h20 hp.nonneg htrim.pos_iff
        (htrim.rest x (List.mem_append_left _ hx)) h4 htrim.nonneg hy
        (fun r => htrim.two_le hx r) (hstop x hx) (hm y List.mem_cons_self)

include h4 h20 in
/-- The solo chains come out of the trimming loops in order just when none
overtakes a later one. -/
theorem Found.ordered_iff :
    ((optimizeSoloChain p).hands.Pairwise fun h h' => h.keyPoint ≤ h'.keyPoint) ↔
      p.hands.Pairwise fun h h' => ¬Overtakes p.cards h h' := by
  rcases Nat.lt_or_ge p.hands.length 2 with hfew | hmore
  · have hshort : ∀ (l : List Hand) (R : Hand → Hand → Prop), l.length < 2 → l.Pairwise R := by
      intro l R hl
      match l with
      | [] => exact List.Pairwise.nil
      | [h] => exact List.pairwise_singleton R h
      | _ :: _ :: _ => exact absurd hl (by simp)
    have hlen : (optimizeSoloChain p).hands.length = p.hands.length :=
      (length_mapState ..).trans (length_mapState ..)
    exact iff_of_true (hshort _ _ (by omega)) (hshort _ _ hfew)
  · obtain ⟨htrim, hpaired⟩ := Found.afterPairs h20 hmore hp.trimmed
    obtain ⟨hc, hsnd, hfst⟩ := mapState_onSecond trimPairs (p.hands.map fun h => (h, h)) p.cards
    have hfst' : (p.hands.map fun h => (h, h)).map Prod.fst = p.hands := by
      rw [List.map_map]
      exact List.map_id _
    have hsnd' : (p.hands.map fun h => (h, h)).map Prod.snd = p.hands := by
      rw [List.map_map]
      exact List.map_id _
    rw [hfst'] at hfst
    rw [hsnd'] at hc hsnd
    rw [hc] at htrim
    have hord := hp.afterEnds h4 h20 htrim hfst hpaired
    generalize (mapState (onSecond trimPairs) p.cards (p.hands.map fun h => (h, h))).2 = xs at *
    obtain ⟨-, hsnd2, hfst2⟩ := mapState_onSecond trimEnds xs (mapState trimPairs p.cards p.hands).1
    have hout : (optimizeSoloChain p).hands =
        (mapState (onSecond trimEnds) (mapState trimPairs p.cards p.hands).1
          xs).2.map Prod.snd := by
      rw [hsnd2, hsnd]
      rfl
    have hin : p.hands =
        (mapState (onSecond trimEnds) (mapState trimPairs p.cards p.hands).1
          xs).2.map Prod.fst := by
      rw [hfst2, hfst]
    generalize (mapState (onSecond trimEnds) (mapState trimPairs p.cards p.hands).1 xs).2 = ys at *
    rw [hout, List.pairwise_map]
    constructor
    · intro h
      rw [hin, List.pairwise_map]
      exact (hord.and h).imp fun hpair => hpair.1.mp hpair.2
    · intro h
      rw [hin, List.pairwise_map] at h
      exact (hord.and h).imp fun hpair => hpair.1.mpr hpair.2

end Loops

end RobotDdz
