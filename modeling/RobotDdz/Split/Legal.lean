import RobotDdz.Split.Partition

/-!
# Which hands the splitters make

Every hand of every splitter has a shape `getHand` recognises, with one
exception: the solo chain of four ranks that `optimizeSoloChain` can leave
(`mem_splitInto`). It needs a holding with all of three to ace, the long
pattern, and a holding of at most twenty cards that has it is one of sixteen
(`exists_longHolding`), so that which of them go wrong is decided case by case
in `short_mem_longHolding`.

`splitInto_legal_iff` puts the two together.

Every splitter makes solo chains in one pass, so the question is which counts
reach that pass with the long pattern (`LongPattern`). Before it the splitters
differ: kind 2 has taken out bombs and trio chains and kind 5 bombs and trios,
while the others have taken nothing. A legal holding has twenty cards, and all
of three to ace with four low and three high ranks held besides are nineteen of
them; that is why the cases are so few that they can be gone through one by
one.

`LegalHand` asks for two things: that the hand is recognised as itself, and
that its length has an entry in `SOLO_CHAIN_CHARGE_LEN`, which `isChargeHand`
reads without a test.
-/

namespace RobotDdz

/-- The five splitters. -/
inductive Splitter where
  | kind (k : Kind)
  | kind4
  | kind5
deriving DecidableEq, Repr

/-- The map a splitter makes. -/
def splitInto : Splitter → Points → Bool → HandsMap
  | .kind k => splitCardsToHands k
  | .kind4 => splitCardsToHandsKind4
  | .kind5 => splitCardsToHandsKind5

/-- What a splitter hands to `getSoloChain`. -/
def beforeSoloChain : Splitter → Points → Split
  | .kind .kind2, cards => getTrioChain (getBomb ⟨cards, .empty⟩)
  | .kind5, cards => getTrio (getBomb ⟨cards, .empty⟩)
  | _, cards => ⟨cards, .empty⟩

/-- What it hands to `getNormalHand`. -/
def beforeNormal : Splitter → Points → Split
  | .kind k, cards => afterPairChain k (getPairChain (beforePairChain k cards))
  | .kind4, cards => getBomb (getSoloChain ⟨cards, .empty⟩)
  | .kind5, cards => getSoloChain (getTrio (getBomb ⟨cards, .empty⟩))

theorem splitInto_eq (x : Splitter) (p : Points) (searchKicker : Bool) :
    splitInto x p searchKicker = withKickers searchKicker (getNormalHand (beforeNormal x p)) := by
  match x with
  | .kind k => exact splitCardsToHands_eq k p searchKicker
  | .kind4 => simp only [splitInto, splitCardsToHandsKind4, beforeNormal]
  | .kind5 => simp only [splitInto, splitCardsToHandsKind5, beforeNormal]

section Split

variable {p : Points} (hp : LegalCounts p) (x : Splitter)

include hp

theorem beforeSoloChain_sound : Sound p (beforeSoloChain x p) ∧
    (beforeSoloChain x p).handMap.vec .soloChain = [] := by
  have h0 := sound_start hp
  have hb : (getBomb ⟨p, .empty⟩).handMap.vec .soloChain = [] :=
    (getBomb_spec h0.nonneg).other _ (by decide)
  match x with
  | .kind .kind1 | .kind .kind3 | .kind4 => exact ⟨h0, rfl⟩
  | .kind .kind2 =>
    refine ⟨h0.getBomb.getTrioChain ?_ (getBomb_three hp h0), ?_⟩
    · rw [(getBomb_spec h0.nonneg).other _ (by decide)]
      rfl
    · exact ((getTrioChain_spec _).other _ (by decide)).trans hb
  | .kind5 => exact ⟨h0.getBomb.getTrio, ((getTrio_spec _).other _ (by decide)).trans hb⟩

/-- What is handed to `getNormalHand` is in the frame, and its solo chains are
those of `getSoloChain`. -/
theorem beforeNormal_frame : Frame p (beforeNormal x p) ∧
    (beforeNormal x p).handMap.vec .soloChain
      = (getSoloChain (beforeSoloChain x p)).handMap.vec .soloChain := by
  obtain ⟨hs, hv⟩ := beforeSoloChain_sound hp x
  have h1 := hs.getSoloChain hv
  rcases x with (_ | _ | _) | _ | _
  · refine ⟨afterPairChain_frame hp .kind1, ?_⟩
    refine ((getPairChain_spec _).other _ (by decide)).trans ?_
    refine ((getTrioChain_spec _).other _ (by decide)).trans ?_
    exact (getBomb_spec h1.nonneg).other _ (by decide)
  · refine ⟨afterPairChain_frame hp .kind2, ?_⟩
    exact (getPairChain_spec _).other _ (by decide)
  · refine ⟨afterPairChain_frame hp .kind3, ?_⟩
    refine ((getTrioChain_spec _).other _ (by decide)).trans ?_
    refine ((getPairChain_spec _).other _ (by decide)).trans ?_
    exact (getBomb_spec h1.nonneg).other _ (by decide)
  · exact ⟨h1.getBomb.frame, (getBomb_spec h1.nonneg).other _ (by decide)⟩
  · exact ⟨h1.frame, rfl⟩

/-- Without kickers, the map is one the kicker pass could work on. -/
theorem splitInto_kickReady : KickReady (splitInto x p false) := by
  rw [splitInto_eq]
  exact normal_kickReady hp (beforeNormal_frame hp x).1

/-- The solo chains of the map are those of `getSoloChain`. -/
theorem splitInto_soloChain (searchKicker : Bool) :
    (splitInto x p searchKicker).vec .soloChain
      = (getSoloChain (beforeSoloChain x p)).handMap.vec .soloChain := by
  obtain ⟨hf, hv⟩ := beforeNormal_frame hp x
  have hn : (getNormalHand (beforeNormal x p)).handMap.vec .soloChain
      = (beforeNormal x p).handMap.vec .soloChain := by
    rw [getNormalHand_vec, if_neg (by decide), List.append_nil]
    exact List.append_nil _
  rw [splitInto_eq, ← hv, ← hn]
  unfold withKickers
  split
  · exact (findKickerForTrioOrTrioChain_step (normal_kickReady hp hf)).kept
  · rfl

/-- A hand of a splitter has a recognised shape, or is the short chain of a
holding with the long pattern. -/
theorem mem_splitInto (searchKicker : Bool) {t : HandType} {h : Hand}
    (hh : h ∈ (splitInto x p searchKicker).vec t) :
    (h.Shaped ∧ (h.type = t ∨ t = .bomb ∧ h.type = .nuke)) ∨
      t = .soloChain ∧ h = shortChain ∧ LongPattern p := by
  have hf := (beforeNormal_frame hp x).1
  have hmem := hh
  rw [splitInto_eq] at hmem
  rcases mem_withKickers hp hf searchKicker hmem with hold | ⟨hs, ht⟩
  · have hb := normal_bare hp hf t h hold
    rcases hb.shaped with hs | hs
    · exact Or.inl ⟨hs, hb.type⟩
    · have ht : t = .soloChain := by
        rcases hb.type with h' | ⟨-, h'⟩
        · rw [hs] at h'
          exact h'.symm
        · rw [hs] at h'
          exact HandType.noConfusion h'
      right
      refine ⟨ht, hs, ?_⟩
      subst ht
      obtain ⟨hsound, hv⟩ := beforeSoloChain_sound hp x
      rw [splitInto_soloChain hp x] at hh
      rcases getSoloChain_chains hsound.nonneg hv h hh with hrun | ⟨-, h1, h2⟩
      · have := hrun.long
        rw [hs] at this
        exact absurd this (by decide)
      · exact ⟨fun r hr => Int.le_trans (h1 r hr) (hsound.frame.le r),
          fun r hr hends => Int.le_trans (h2 r hr hends) (hsound.frame.le r)⟩
  · exact Or.inl ⟨hs, Or.inl ht⟩

end Split

/-! ## The holdings with the long pattern -/

/-- The smallest holding with the long pattern, of nineteen cards. -/
def longBase : Points := Points.ofList [2, 2, 2, 2, 1, 1, 1, 1, 1, 2, 2, 2]

/-- That holding with one more card of rank `i`; from 15 on, with none. -/
def longHolding (i : Nat) : Points :=
  if i < redJoker + 1 then Function.update longBase i (longBase i + 1) else longBase

/-- The holdings whose whole run loses too many ranks: exactly one seven, one
eight and one jack, and for the fifth splitter no trio among the pairs. -/
def OverLong (x : Splitter) (p : Points) : Prop :=
  LongPattern p ∧ p 4 = 1 ∧ p 5 = 1 ∧ p 8 = 1 ∧
    (x = .kind5 → ∀ r, r ≤ cardA → r ≤ 3 ∨ 9 ≤ r → p r = 2)

instance (x : Splitter) (p : Points) : Decidable (OverLong x p) :=
  inferInstanceAs (Decidable ((_ ∧ _) ∧ _ ∧ _ ∧ _ ∧ _))

theorem longHolding_top {i r : Nat} (hr : redJoker < r) : longHolding i r = 0 := by
  have hbase : longBase r = 0 := List.getD_eq_default _ _ (by
    simp only [redJoker, List.length_cons, List.length_nil] at hr ⊢
    omega)
  unfold longHolding
  split
  · rw [Function.update_of_ne (by omega), hbase]
  · exact hbase

/-- Twenty cards with the long pattern are the nineteen and at most one more.
An array between one of the sixteen and the holding, with the same total, is
both. -/
theorem exists_longHolding {p : Points} (hp : LegalHolding p) (hl : LongPattern p) :
    ∃ i, i < 16 ∧ p = longHolding i := by
  have hbase : ∀ r, r < cardPointNum → longBase r ≤ p r := by
    intro r hr
    by_cases hA : r ≤ cardA
    · have h1 := hl.1 r hA
      have h2 := hl.2 r hA
      have hb : ∀ r ≤ cardA, longBase r = if r ≤ 3 ∨ 9 ≤ r then 2 else 1 := by decide
      rw [hb r hA]
      split
      next h => exact h2 h
      next => exact h1
    · have hb : ∀ r < cardPointNum, ¬r ≤ cardA → longBase r = 0 := by decide
      rw [hb r hr hA]
      exact hp.nonneg r
  -- an array between a candidate and the holding, with the same total, is the candidate
  have heq : ∀ i, (∀ r, r < cardPointNum → longHolding i r ≤ p r) →
      p.total ≤ (longHolding i).total → p = longHolding i := by
    intro i hle ht
    funext r
    by_cases hr : r < cardPointNum
    · exact (Points.eq_of_total_le hle ht r hr).symm
    · have htop : redJoker < r := by simp only [redJoker, cardPointNum] at hr ⊢; omega
      rw [hp.top r htop, longHolding_top htop]
  by_cases hmore : ∃ i, i < redJoker + 1 ∧ longBase i < p i
  · obtain ⟨i, hi, hlt⟩ := hmore
    have htotal : ∀ i < redJoker + 1, (longHolding i).total = 20 := by decide
    refine ⟨i, by simp only [redJoker] at hi; omega, heq i (fun r hr => ?_) ?_⟩
    · rw [longHolding, if_pos hi, Function.update_apply]
      split
      next h => subst h; omega
      next => exact hbase r hr
    · rw [htotal i hi]
      exact hp.size
  · refine ⟨15, by decide, heq 15 hbase ?_⟩
    have hle : ∀ r, r < cardPointNum → p r ≤ longBase r := by
      intro r hr
      by_cases h15 : r < redJoker + 1
      · by_contra h
        exact hmore ⟨r, h15, by omega⟩
      · rw [hp.top r (by omega), longHolding_top (i := 15) (r := r) (by omega) |>.symm]
        exact Int.le_refl _
    exact Points.total_mono hle

/-- Which of the sixteen holdings give the short chain. -/
theorem short_mem_longHolding (x : Splitter) : ∀ i < 16,
    shortChain ∈ (getSoloChain (beforeSoloChain x (longHolding i))).handMap.vec .soloChain
      ↔ OverLong x (longHolding i) := by
  rcases x with (_ | _ | _) | _ | _ <;> decide +kernel

/-- A splitter makes the short chain of the over-long holdings and of no
others. -/
theorem short_mem_iff (x : Splitter) {p : Points} (hp : LegalHolding p) (searchKicker : Bool) :
    shortChain ∈ (splitInto x p searchKicker).vec .soloChain ↔ OverLong x p := by
  have hcase : LongPattern p →
      (shortChain ∈ (splitInto x p searchKicker).vec .soloChain ↔ OverLong x p) := fun hl => by
    rw [splitInto_soloChain hp.toLegalCounts x]
    obtain ⟨i, hi, rfl⟩ := exists_longHolding hp hl
    exact short_mem_longHolding x i hi
  constructor
  · intro hmem
    rcases mem_splitInto hp.toLegalCounts x searchKicker hmem with ⟨hs, -⟩ | ⟨-, -, hl⟩
    · have := hs.body
      exact absurd this (by decide)
    · exact (hcase hl).mp hmem
  · intro hover
    exact (hcase hover.1).mpr hover

/-- The hands of a splitter hold no more cards than the holding. -/
theorem splitInto_sum_le {p : Points} (hp : LegalCounts p) (x : Splitter) (searchKicker : Bool)
    (r : Nat) : (splitInto x p searchKicker).sum r ≤ p r := by
  match x with
  | .kind k =>
    have h := sum_splitCardsToHands hp k searchKicker r
    have h0 := (beforePairChain_sound hp k).nonneg r
    simp only [splitInto]
    by_cases hr : Robbed (beforePairChain k p).cards r
    · have := h.1 hr
      omega
    · have := h.2 hr
      omega
  | .kind4 => exact Int.le_of_eq (sum_splitCardsToHandsKind4 hp searchKicker r)
  | .kind5 => exact Int.le_of_eq (sum_splitCardsToHandsKind5 hp searchKicker r)

/-- What a splitter's hand should be: recognised as itself, and a solo chain
for which `SOLO_CHAIN_CHARGE_LEN` has an entry. -/
structure LegalHand (h : Hand) : Prop where
  roundTrip : (getHand (handToPointsArray h)).Agrees h
  chainLen : h.type = .soloChain → 5 ≤ h.len ∧ h.len - 5 ≤ 7

/-- The hands of a splitter are legal exactly when the holding is not one of
the over-long ones. -/
theorem splitInto_legal_iff (x : Splitter) {p : Points} (hp : LegalHolding p)
    (searchKicker : Bool) :
    (∀ h ∈ (splitInto x p searchKicker).hands, LegalHand h) ↔ ¬OverLong x p := by
  rw [← short_mem_iff x hp searchKicker]
  constructor
  · intro hall hmem
    have := (hall shortChain (HandsMap.mem_hands.mpr ⟨_, hmem⟩)).roundTrip.type
    exact HandType.noConfusion this
  · intro hno h hh
    obtain ⟨t, ht⟩ := HandsMap.mem_hands.mp hh
    rcases mem_splitInto hp.toLegalCounts x searchKicker ht with ⟨hs, -⟩ | ⟨rfl, rfl, -⟩
    · refine ⟨?_, fun htype => ?_⟩
      · rw [getHand_eq_canonical hs]
        exact hs.canonical_agrees
      · have hb := hs.body
        rw [htype] at hb
        simp only [HandType.BodyOk, cardA] at hb
        omega
    · exact absurd ht hno

theorem legalHolding_longBase : LegalHolding longBase :=
  legalHolding_ofList (by decide) (by decide) (by decide)

theorem splitInto_legal_iff_six :
    (∀ h ∈ (splitInto .kind5 threePairsAndSix true).hands, LegalHand h)
      ↔ ¬OverLong .kind5 threePairsAndSix :=
  splitInto_legal_iff .kind5 legalHolding_threePairsAndSix true

/-- Three to six and queen to ace in pairs with a single seven to jack: the
fourth splitter makes a solo chain of four, which is no hand. -/
theorem splitCardsToHandsKind4_short :
    LegalHolding longBase ∧ shortChain ∈ (splitInto .kind4 longBase true).hands ∧
      (getHand (handToPointsArray shortChain)).type = .nothing ∧ shortChain.len = 4 :=
  ⟨legalHolding_longBase, by decide +kernel, by decide, rfl⟩

end RobotDdz
