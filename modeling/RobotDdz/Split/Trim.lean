import RobotDdz.Split.SoloChain

/-!
# The two trimming loops

Both loops of `optimizeSoloChain` give ranks back that are held besides
(`Cut`), so a rank without spare cards has none after them either, and no end
of a chain passes one. `trimPairs_cut` and `trimEnds_cut` say so for one chain;
the first needs that there is room for another chain, since a chain of all
twelve ranks may lose ranks that are not spare.

A rank is spare for a chain if the counts beside the chain have a card of it.
`Cut` is the whole contract of a trimming loop: the chain gets shorter at its
ends, each rank it loses was spare, and the card goes back to the counts. From
it follow the facts that the order of the chains needs, without another look at
the loops: the counts only grow, the same ranks are spare, and a rank given
back has two cards.
-/

namespace RobotDdz

open Loops

/-! ## Counting ranks -/

/-- One card of each of the `n` ranks from `a` on. -/
def runOf (a n : Nat) : Points := Points.zero.addRange a n 1

/-- The counts of a run. -/
theorem runOf_apply (a n r : Nat) : runOf a n r = if a ≤ r ∧ r < a + n then 1 else 0 := rfl

/-- A run within the array has as many cards as ranks. -/
theorem total_runOf {a n : Nat} (h : a + n ≤ cardPointNum) : (runOf a n).total = n := by
  induction n with
  | zero =>
    have hzero : runOf a 0 = Points.zero := funext fun r => Points.addRange_out (by omega)
    rw [hzero]
    rfl
  | succ n ih =>
    have hsplit : runOf a (n + 1)
        = fun r => runOf a n r + Function.update Points.zero (a + n) 1 r := by
      funext r
      rw [runOf_apply, runOf_apply, Function.update_apply, Points.zero_apply]
      split <;> split <;> split <;> omega
    have hone : ∀ k < cardPointNum, Points.total (Function.update Points.zero k 1) = 1 := by
      decide
    rw [hsplit, Points.total_add, ih (by omega), hone (a + n) (by omega)]
    rfl

/-- A chain has a card of each of its ranks. -/
theorem SoloRun.array {n : Nat} {h : Hand} (hs : SoloRun n h) :
    handToPointsArray h = runOf h.keyPoint h.len := funext fun r => handToPointsArray_solo hs r

/-- A chain has as many cards as ranks. -/
theorem SoloRun.total {n : Nat} {h : Hand} (hs : SoloRun n h) :
    (handToPointsArray h).total = h.len := by
  have htop := hs.top
  rw [hs.array, total_runOf (by simp only [cardA, cardPointNum] at htop ⊢; omega)]

/-- Two runs of held ranks, the second above the first, have no rank in common,
so there are as many cards as both are long. -/
theorem runs_le_total {c : Points} (h0 : ∀ r, 0 ≤ c r) {a m b n : Nat} (hab : a + m ≤ b)
    (hb : b + n ≤ cardPointNum) (hlow : ∀ r, a ≤ r → r < a + m → 0 < c r)
    (hhigh : ∀ r, b ≤ r → r < b + n → 0 < c r) : (m : Int) + n ≤ c.total := by
  have hle : ∀ r, runOf a m r + runOf b n r ≤ c r := by
    intro r
    have := h0 r
    rw [runOf_apply, runOf_apply]
    split
    next h =>
      have := hlow r h.1 h.2
      rw [if_neg (by omega)]
      omega
    next =>
      split
      next h =>
        have := hhigh r h.1 h.2
        omega
      next => omega
  have hsum := Points.total_mono (c := fun r => runOf a m r + runOf b n r) fun r _ => hle r
  rwa [Points.total_add, total_runOf (by omega), total_runOf hb] at hsum

/-! ## A cut -/

/-- The rank is off the chain `h` after it has become `h'`. -/
def GivenBack (h h' : Hand) (r : Nat) : Prop :=
  h.keyPoint ≤ r ∧ r < h'.keyPoint ∨ h'.keyPoint + h'.len ≤ r ∧ r < h.keyPoint + h.len

/-- A chain shortened at its ends by ranks that are held besides. -/
structure Cut (c : Points) (h : Hand) (c' : Points) (h' : Hand) : Prop where
  run : SoloRun 5 h'
  low : h.keyPoint ≤ h'.keyPoint
  high : h'.keyPoint + h'.len ≤ h.keyPoint + h.len
  held : ∀ r, GivenBack h h' r → 0 < c r
  back : ∀ r, GivenBack h h' r → c' r = c r + 1
  kept : ∀ r, ¬GivenBack h h' r → c' r = c r

namespace Cut

variable {c c' : Points} {h h' : Hand} (hcut : Cut c h c' h')

include hcut

/-- A cut gives cards to the counts and takes none. -/
theorem le (r : Nat) : c r ≤ c' r := by
  by_cases hr : GivenBack h h' r
  · rw [hcut.back r hr]
    omega
  · rw [hcut.kept r hr]

/-- The same ranks have spare cards. -/
theorem pos_iff (r : Nat) : 0 < c' r ↔ 0 < c r := by
  by_cases hr : GivenBack h h' r
  · have := hcut.held r hr
    rw [hcut.back r hr]
    omega
  · rw [hcut.kept r hr]

/-- The card given back joins the one that was spare. -/
theorem two_le {r : Nat} (hr : GivenBack h h' r) : 2 ≤ c' r := by
  have := hcut.held r hr
  rw [hcut.back r hr]
  omega

end Cut

/-- A cut by its two lengths. -/
theorem cut_of {n a b : Nat} {c : Points} {h : Hand} (hh : SoloRun n h) (hab : a + b + 5 ≤ h.len)
    (hlow : ∀ k, k < a → 0 < c (h.keyPoint + k))
    (hhigh : ∀ k, k < b → 0 < c (h.keyPoint + h.len - 1 - k)) :
    Cut c h ((c.addRange h.keyPoint a 1).addRange (h.keyPoint + h.len - b) b 1)
      { h with keyPoint := h.keyPoint + a, len := h.len - a - b } := by
  refine ⟨hh.shorten (by omega), by simp only; omega, by simp only; omega, fun r hr => ?_,
    fun r hr => ?_, fun r hr => ?_⟩
  · rcases hr with ⟨h1, h2⟩ | ⟨h1, h2⟩
    · have := hlow (r - h.keyPoint) (by simp only at h2; omega)
      rwa [Nat.add_sub_cancel' h1] at this
    · have := hhigh (h.keyPoint + h.len - 1 - r) (by simp only at h1; omega)
      rwa [show h.keyPoint + h.len - 1 - (h.keyPoint + h.len - 1 - r) = r by omega] at this
  · simp only [GivenBack] at hr
    simp only [Points.addRange]
    split <;> split <;> omega
  · simp only [GivenBack] at hr
    simp only [Points.addRange]
    split <;> split <;> omega

/-! ## The first loop -/

/-- What lets `trimPairs` move the high end of a chain, by `m` ranks: a long
chain, `m` spare ranks at the low end, and three at the high end. -/
structure HighMove (c : Points) (h : Hand) (m : Nat) : Prop where
  long : 8 ≤ h.len
  fits : m + 5 ≤ h.len
  low : ∀ k, k < m → 0 < c (h.keyPoint + k)
  top : ∀ k, k < 3 → 0 < c (h.keyPoint + h.len - 1 - k)

/-- The ranks taken off the two ends of a chain, all held besides. -/
structure Trimming (c : Points) (h : Hand) (a b : Nat) : Prop where
  fits : a + b + 5 ≤ h.len
  low : ∀ k, k < a → 0 < c (h.keyPoint + k)
  high : ∀ k, k < b → 0 < c (h.keyPoint + h.len - 1 - k)

/-- Where five more cards are in another chain, the first loop takes held ranks
off. -/
theorem trimPairs_trimming {c : Points} {h : Hand} (h0 : ∀ r, 0 ≤ c r) (hh : SoloRun 5 h)
    (hroom : c.total + h.len ≤ 15) :
    ∃ a b, trimPairs c h = ((c.addRange h.keyPoint a 1).addRange (h.keyPoint + h.len - b) b 1,
        { h with keyPoint := h.keyPoint + a, len := h.len - a - b }) ∧
      Trimming c h a b ∧ (0 < b → HighMove c h b) := by
  have hlong := hh.long
  have htop := hh.top
  simp only [cardA] at htop
  obtain ⟨hll, hlow⟩ := lowLen_spec c h.keyPoint (h.len - 5)
  obtain ⟨hhl, hhigh⟩ := highLen_spec c (h.keyPoint + h.len - 1) (h.len - 5)
  have hends : lowLen c h.keyPoint (h.len - 5)
      + highLen c (h.keyPoint + h.len - 1) (h.len - 5) ≤ h.len →
      (lowLen c h.keyPoint (h.len - 5) : Int)
        + highLen c (h.keyPoint + h.len - 1) (h.len - 5) ≤ c.total := by
    intro hle
    refine runs_le_total (a := h.keyPoint)
      (b := h.keyPoint + h.len - highLen c (h.keyPoint + h.len - 1) (h.len - 5)) h0 (by omega)
      (by simp only [cardPointNum]; omega) (fun r h1 h2 => ?_) fun r h1 h2 => ?_
    · have := hlow (r - h.keyPoint) (by omega)
      rwa [Nat.add_sub_cancel' h1] at this
    · have := hhigh (h.keyPoint + h.len - 1 - r) (by omega)
      rwa [show h.keyPoint + h.len - 1 - (h.keyPoint + h.len - 1 - r) = r by omega] at this
  have hnone : ∀ {P : Nat → Prop} k, k < 0 → P k := fun k hk => absurd hk (Nat.not_lt_zero k)
  unfold trimPairs
  simp only []
  generalize lowLen c h.keyPoint (h.len - 5) = ll at *
  generalize highLen c (h.keyPoint + h.len - 1) (h.len - 5) = hl at *
  have hmove : 3 ≤ h.len - 5 → 3 ≤ hl → HighMove c h ll := fun hpair h3 =>
    ⟨by omega, by omega, hlow, fun k hk => hhigh k (by omega)⟩
  by_cases hpair : 3 ≤ h.len - 5
  · simp only [if_pos hpair, Bool.and_eq_true, Bool.or_eq_true, decide_eq_true_iff]
    by_cases hl3 : 3 ≤ ll ∧ (hl ≤ ll ∨ ll + hl ≤ h.len - 5) <;>
      by_cases hh3 : 3 ≤ hl ∧ (ll < hl ∨ ll + hl ≤ h.len - 5) <;>
      simp only [hl3, hh3, and_self, if_true, if_false]
    · -- both ends move by `ll`, and there are not cards enough for `ll` to exceed `hl`
      have hsum := hends (by omega)
      have hle : ll ≤ hl := by omega
      exact ⟨ll, ll, cutEnds_eq c h ll ll (by omega),
        ⟨by omega, hlow, fun k hk => hhigh k (by omega)⟩, fun _ => hmove hpair hh3.1⟩
    · exact ⟨ll, 0, cutEnds_eq c h ll 0 (by omega), ⟨by omega, hlow, hnone⟩,
        fun h => absurd h (Nat.lt_irrefl 0)⟩
    · exact ⟨0, ll, cutEnds_eq c h 0 ll (by omega),
        ⟨by omega, hnone, fun k hk => hhigh k (by omega)⟩, fun _ => hmove hpair hh3.1⟩
    · exact ⟨0, 0, cutEnds_eq c h 0 0 (by omega), ⟨by omega, hnone, hnone⟩,
        fun h => absurd h (Nat.lt_irrefl 0)⟩
  · rw [if_neg hpair]
    refine ⟨0, 0, ?_, ⟨hlong, hnone, hnone⟩, fun h => absurd h (Nat.lt_irrefl 0)⟩
    have hzero : ∀ (c : Points) k, c.addRange k 0 1 = c :=
      fun c k => funext fun r => Points.addRange_out (by omega)
    simp only [hzero, Nat.sub_zero, Nat.add_zero]

/-- So it cuts, and the high end it moves is that of a long chain. -/
theorem trimPairs_cut {c : Points} {h : Hand} (h0 : ∀ r, 0 ≤ c r) (hh : SoloRun 5 h)
    (hroom : c.total + h.len ≤ 15) :
    Cut c h (trimPairs c h).1 (trimPairs c h).2 ∧
      ∃ m, (trimPairs c h).2.keyPoint + (trimPairs c h).2.len + m = h.keyPoint + h.len ∧
        (0 < m → HighMove c h m) := by
  obtain ⟨a, b, heq, ⟨hfits, hlow, hhigh⟩, hmove⟩ := trimPairs_trimming h0 hh hroom
  rw [heq]
  exact ⟨cut_of hh hfits hlow hhigh, b, by simp only; omega, hmove⟩

/-! ## The second loop -/

section Ends

variable {c : Points} {h : Hand}

/-- The ends `trimEnds` arrives at. -/
def trimmedEnds (c : Points) (h : Hand) : Ends :=
  whileLoop (trimCond c) (trimStep c) h.len ⟨h.keyPoint, h.keyPoint + h.len - 1⟩

/-- The second loop keeps the chain's type and moves its ends. -/
theorem trimEnds_hand : (trimEnds c h).2 =
    { h with
      keyPoint := (trimmedEnds c h).newStart
      len := (trimmedEnds c h).newEnd + 1 - (trimmedEnds c h).newStart } := rfl

/-- One round of the second loop takes spare ranks off one end or the other,
the low one first unless the high one has more cards. -/
theorem trimStep_trimming (h0 : ∀ r, 0 ≤ c r) {a b : Nat} (hI : Trimming c h a b)
    (hc : trimCond c ⟨h.keyPoint + a, h.keyPoint + h.len - 1 - b⟩ = true) :
    ∃ a' b', trimStep c ⟨h.keyPoint + a, h.keyPoint + h.len - 1 - b⟩
        = ⟨h.keyPoint + a', h.keyPoint + h.len - 1 - b'⟩ ∧ Trimming c h a' b' := by
  simp only [trimCond, Bool.and_eq_true, Bool.or_eq_true, decide_eq_true_iff] at hc
  obtain ⟨h5, hends⟩ := hc
  obtain ⟨hfits, hlow, hhigh⟩ := hI
  unfold trimStep
  split
  next hlowEnd =>
    refine ⟨a + 1, b, rfl, by omega, fun k hk => ?_, hhigh⟩
    rcases Nat.lt_succ_iff_lt_or_eq.mp hk with h | rfl
    · exact hlow k h
    · exact hlowEnd.1
  next hno =>
    refine ⟨a, b + 1, rfl, by omega, hlow, fun k hk => ?_⟩
    rcases Nat.lt_succ_iff_lt_or_eq.mp hk with h | rfl
    · exact hhigh k h
    · -- the high end has more cards than the low one
      have hlt := hends.resolve_left hno
      have := h0 (h.keyPoint + a)
      omega

/-- The second loop, run to its end, has taken spare ranks off both ends. -/
theorem trimmedEnds_trimming (h0 : ∀ r, 0 ≤ c r) (hh : SoloRun 5 h) :
    ∃ a b, trimmedEnds c h = ⟨h.keyPoint + a, h.keyPoint + h.len - 1 - b⟩ ∧ Trimming c h a b := by
  refine whileLoop_inv (fun e : Ends => ∃ a b,
    e = ⟨h.keyPoint + a, h.keyPoint + h.len - 1 - b⟩ ∧ Trimming c h a b) ?_ _
    ⟨0, 0, rfl, hh.long, fun k hk => absurd hk (Nat.not_lt_zero k),
      fun k hk => absurd hk (Nat.not_lt_zero k)⟩
  intro e hinv hc
  obtain ⟨a, b, rfl, hI⟩ := hinv
  exact trimStep_trimming h0 hI hc

/-- The loop ends because its condition fails. -/
theorem trimmedEnds_done : trimCond c (trimmedEnds c h) = false := by
  refine whileLoop_exit (fun _ => True) (fun e : Ends => e.newEnd - e.newStart)
    (fun e _ hc => ⟨trivial, ?_⟩) _ trivial (by simp only; omega)
  simp only [trimCond, Bool.and_eq_true, decide_eq_true_iff] at hc
  obtain ⟨h5, -⟩ := hc
  unfold trimStep
  split
  · simp only
    omega
  · simp only
    omega

/-- The second loop cuts. -/
theorem trimEnds_cut (h0 : ∀ r, 0 ≤ c r) (hh : SoloRun 5 h) :
    Cut c h (trimEnds c h).1 (trimEnds c h).2 := by
  obtain ⟨a, b, he, hfits, hlow, hhigh⟩ := trimmedEnds_trimming h0 hh
  have hcut := cut_of hh hfits hlow hhigh
  have heq : trimEnds c h = ((c.addRange h.keyPoint a 1).addRange (h.keyPoint + h.len - b) b 1,
      { h with keyPoint := h.keyPoint + a, len := h.len - a - b }) := by
    rw [← cutEnds_eq c h a b (by omega)]
    show (_, _) = _
    unfold trimmedEnds at he
    rw [he]
  rw [heq]
  exact hcut

/-- It stops at five ranks, or at a low end without spare cards. -/
theorem trimEnds_stop (h0 : ∀ r, 0 ≤ c r) (hh : SoloRun 5 h) :
    (trimEnds c h).2.len = 5 ∨ c (trimEnds c h).2.keyPoint = 0 := by
  obtain ⟨a, b, he, hfits, -, -⟩ := trimmedEnds_trimming h0 hh
  have hdone := trimmedEnds_done (c := c) (h := h)
  have hc := h0 (h.keyPoint + a)
  rw [trimEnds_hand, he]
  rw [he] at hdone
  by_cases h5 : 5 ≤ h.keyPoint + h.len - 1 - b - (h.keyPoint + a)
  · right
    show c (h.keyPoint + a) = 0
    -- a spare card at the low end would let one of the two ends move
    by_contra hne
    refine absurd hdone (by
      rw [Bool.not_eq_false]
      simp only [trimCond, Bool.and_eq_true, Bool.or_eq_true, decide_eq_true_iff]
      exact ⟨h5, by omega⟩)
  · left
    simp only
    omega

/-- The low end reaches `a` if every rank below has two spare cards and, in a
run of five or more ranks from `a` on, no rank of the chain has more than two. -/
theorem trimEnds_reaches (hh : SoloRun 5 h) {a e : Nat}
    (hroom : a + 5 ≤ h.keyPoint + h.len) (hae : a + 4 ≤ e)
    (hlow : ∀ r, h.keyPoint ≤ r → r < a → 2 ≤ c r)
    (hrun : ∀ r, a ≤ r → r ≤ e → h.keyPoint ≤ r → r < h.keyPoint + h.len → c r ≤ 2) :
    a ≤ (trimEnds c h).2.keyPoint := by
  have hlong := hh.long
  have hinv : h.keyPoint ≤ (trimmedEnds c h).newStart ∧
      (trimmedEnds c h).newEnd < h.keyPoint + h.len ∧
      (a ≤ (trimmedEnds c h).newStart ∨ a + 4 ≤ (trimmedEnds c h).newEnd) := by
    refine whileLoop_inv (fun x : Ends => h.keyPoint ≤ x.newStart ∧
      x.newEnd < h.keyPoint + h.len ∧ (a ≤ x.newStart ∨ a + 4 ≤ x.newEnd)) ?_ _
      ⟨Nat.le_refl _, by simp only; omega, by simp only; omega⟩
    intro x hx hc
    obtain ⟨hstart, hend, hx⟩ := hx
    simp only [trimCond, Bool.and_eq_true, Bool.or_eq_true, decide_eq_true_iff] at hc
    obtain ⟨h5, hends⟩ := hc
    unfold trimStep
    split
    next => exact ⟨by simp only; omega, hend, by simp only; omega⟩
    next hno =>
      refine ⟨hstart, by simp only; omega, ?_⟩
      by_cases hreached : a ≤ x.newStart
      · exact Or.inl hreached
      · -- the high end has three spare cards, so it is above the run
        have h2 := hlow x.newStart hstart (by omega)
        have hlt := hends.resolve_left hno
        have hout : ¬(a ≤ x.newEnd ∧ x.newEnd ≤ e) := fun hin => by
          have := hrun x.newEnd hin.1 hin.2 (by omega) hend
          omega
        simp only
        omega
  obtain ⟨hstart, hend, hor⟩ := hinv
  show a ≤ (trimmedEnds c h).newStart
  by_contra hlt
  -- both ends may still move
  have h2 := hlow _ hstart (by omega)
  have hdone := trimmedEnds_done (c := c) (h := h)
  refine absurd hdone (by
    rw [Bool.not_eq_false]
    simp only [trimCond, Bool.and_eq_true, Bool.or_eq_true, decide_eq_true_iff]
    exact ⟨by omega, by omega⟩)

end Ends

end RobotDdz
