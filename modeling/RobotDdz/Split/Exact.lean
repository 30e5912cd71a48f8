import RobotDdz.Split.Passes
import RobotDdz.Cards.GetHand

/-!
# What the passes over single ranks leave

`getBomb`, `getTrio` and `getNormalHand` look at each rank once, so what they
leave has a closed form: `forUp_takeExact` for the loop that takes the ranks
held exactly `k` times, `getNormalHand_cards` and `getNormalHand_vec` for the
last pass, which takes every rank held one to four times. The conservation and
legality results read these and never look at the loops again.

Two counts have to be kept apart. The rocket test of `getBomb` looks at the
jokers, and the loop after it at the ranks up to the two; `deNuked` is what
lies between. It differs from the counts before in the jokers alone, and there
only when both are held, so most results about `getBomb` are about `deNuked`
and the loop.

`PassSpec` is what the passes have in common and all that the later passes are
told: the counts only fall, the other vectors stay as they are, and each new
hand is bare. The closed forms say more, and the exact results on conservation
and order use them.

Mirroring notes vs `AIUtils.cpp`:
- `getBomb` pushes the rocket into the vector of `BOMB` with the type `NUKE`,
  keyed by the black joker.
- `getNormalHand` tests the jokers for the rocket first, whichever pass ran
  before, then takes ranks by their count. No test of it covers a count of five
  or more, which stays.
-/

namespace RobotDdz

open Loops

/-- The hand `{type, i}`. -/
def single (t : HandType) (i : Nat) : Hand := { type := t, keyPoint := i }

/-- The types of hands that are copies of one rank. -/
def HandType.isSingle : HandType → Bool
  | .solo | .pair | .trio | .bomb => true
  | _ => false

/-- A hand of copies of one rank, as counts. -/
theorem handToPointsArray_ofSingle {h : Hand} (ht : h.type.isSingle = true) (r : Nat) :
    handToPointsArray h r = if r = h.keyPoint then h.type.mult else 0 := by
  cases h' : h.type <;> simp_all [HandType.isSingle, handToPointsArray, Function.update_apply,
    HandType.mult]

/-- The counts of a hand that a pass sets up from one rank. -/
theorem handToPointsArray_single {t : HandType} (ht : t.isSingle = true) (i r : Nat) :
    handToPointsArray (single t i) r = if r = i then t.mult else 0 :=
  handToPointsArray_ofSingle (h := single t i) ht r

/-- The rocket is one of each joker. -/
theorem handToPointsArray_nuke (r : Nat) :
    handToPointsArray (single .nuke blackJoker) r
      = if r = blackJoker ∨ r = redJoker then 1 else 0 := by
  simp only [handToPointsArray, single, Function.update_apply, Points.zero_apply]
  grind

/-- The hands made of the ranks below `n` held exactly `k` times. -/
def exacts (c : Points) (k : Int) (t : HandType) (n : Nat) : List Hand :=
  ((List.range n).filter fun i => c i = k).map (single t)

/-- One rank more: the step of the loop, as a list. -/
theorem exacts_succ (c : Points) (k : Int) (t : HandType) (n : Nat) :
    exacts c k t (n + 1) = exacts c k t n ++ if c n = k then [single t n] else [] := by
  unfold exacts
  rw [List.range_succ, List.filter_append, List.map_append]
  by_cases h : c n = k <;> simp [h]

/-- The hands are exactly those of the ranks held `k` times. -/
theorem mem_exacts {c : Points} {k : Int} {t : HandType} {n : Nat} {h : Hand} :
    h ∈ exacts c k t n ↔ ∃ i, i < n ∧ c i = k ∧ h = single t i := by
  simp only [exacts, List.mem_map, List.mem_filter, List.mem_range, decide_eq_true_iff]
  constructor
  · intro hex
    obtain ⟨i, ⟨hi, hk⟩, rfl⟩ := hex
    exact ⟨i, hi, hk, rfl⟩
  · intro hex
    obtain ⟨i, hi, hk, rfl⟩ := hex
    exact ⟨i, ⟨hi, hk⟩, rfl⟩

/-- The keys of the exact hands increase. -/
theorem exacts_pairwise (c : Points) (k : Int) (t : HandType) (n : Nat) :
    (exacts c k t n).Pairwise fun h h' => h.keyPoint < h'.keyPoint := by
  rw [exacts, List.pairwise_map]
  exact (List.pairwise_lt_range).filter _

/-- Their cards are all the cards of those ranks. This is where the
multiplicity of the type and the number of copies looked for have to be the
same. -/
theorem handsSum_exacts {t : HandType} (ht : t.isSingle = true) (c : Points) (n r : Nat) :
    handsSum (exacts c t.mult t n) r = if r < n ∧ c r = t.mult then t.mult else 0 := by
  induction n with
  | zero => simp [exacts]
  | succ n ih =>
    rw [exacts_succ, handsSum_append, ih]
    by_cases hn : c n = t.mult
    · rw [if_pos hn, handsSum_cons, handsSum_nil, handToPointsArray_single ht]
      by_cases hr : r = n
      · subst hr
        rw [if_neg (by omega), if_pos rfl, if_pos ⟨by omega, hn⟩]
        omega
      · rw [if_neg hr]
        have : (r < n + 1 ∧ c r = t.mult) ↔ (r < n ∧ c r = t.mult) := by omega
        simp only [this]
        omega
    · rw [if_neg hn, handsSum_nil]
      have : (r < n + 1 ∧ c r = t.mult) ↔ (r < n ∧ c r = t.mult) := by
        constructor
        · intro hrank
          obtain ⟨h1, h2⟩ := hrank
          refine ⟨?_, h2⟩
          rcases Nat.lt_succ_iff_lt_or_eq.mp h1 with h | rfl
          · exact h
          · exact absurd h2 hn
        · intro hrank
          obtain ⟨h1, h2⟩ := hrank
          exact ⟨by omega, h2⟩
      simp only [this]
      omega

/-- The loop of `getBomb` and of `getTrio`: what it leaves of the cards and the
hands it pushes. The rank of a round is still as it was at the start. -/
theorem forUp_takeExact (k : Int) (t : HandType) (n : Nat) (p : Pile) :
    forUp (takeExact k t) 0 n p
      = ⟨fun r => if r < n ∧ p.cards r = k then 0 else p.cards r,
          p.hands ++ exacts p.cards k t n⟩ := by
  have h := forUp_inv (b := takeExact k t)
    (fun i s => s = ⟨fun r => if r < i ∧ p.cards r = k then 0 else p.cards r,
      p.hands ++ exacts p.cards k t i⟩) 0 n (s := p) ?_ ?_
  · simpa using h
  · intro i s _ _ heq
    subst heq
    unfold takeExact
    -- the rank of this round is still as it was at the start
    have hi : ¬(i < i ∧ p.cards i = k) := by omega
    simp only [if_neg hi, exacts_succ]
    split
    next hk =>
      simp only [Pile.mk.injEq, List.append_assoc]
      refine ⟨funext fun r => ?_, rfl⟩
      rw [Function.update_apply]
      grind
    next hk =>
      simp only [Pile.mk.injEq, List.append_nil]
      refine ⟨funext fun r => ?_, trivial⟩
      grind
  · simp [exacts]

/-! ## What a pass may do -/

/-- The one malformed hand a splitter can build, see `SoloChain`. -/
def shortChain : Hand := { type := .soloChain, keyPoint := 4, len := 4 }

/-- A hand as a pass pushes it into the vector of type `t`: no kickers yet, and
a shape `getHand` recognises, up to the short chain. -/
structure Bare (t : HandType) (h : Hand) : Prop where
  type : h.type = t ∨ t = .bomb ∧ h.type = .nuke
  plain : h.type.kickMult = 0
  body : h.type.BodyOk h.keyPoint h.len ∨ h = shortChain

/-- A bare hand is a hand of the game, but for the short chain. -/
theorem Bare.shaped {t : HandType} {h : Hand} (hb : Bare t h) : h.Shaped ∨ h = shortChain := by
  rcases hb.body with hbody | hshort
  · left
    have hk := kickers_of_kickMult_zero hb.plain
    have hcount : h.kickerCount = 0 := by
      have := hb.plain
      cases ht : h.type <;> simp_all [HandType.kickMult, Hand.kickerCount]
    refine ⟨hbody, ?_, ?_, ?_, ?_, ?_⟩ <;> simp [hk, hcount]
  · exact Or.inr hshort

/-- A hand of one rank is bare; the jokers make solos only. -/
theorem bare_single {t : HandType} (ht : t.isSingle = true) {i : Nat}
    (hi : i ≤ card2 ∨ t = .solo ∧ i ≤ redJoker) : Bare t (single t i) := by
  refine ⟨Or.inl rfl, ?_, Or.inl ?_⟩
  · cases t <;> simp_all [HandType.isSingle, single, HandType.kickMult]
  · simp only [card2, redJoker] at hi
    cases t <;> simp_all [HandType.isSingle, single, HandType.BodyOk]
    omega

/-- The rocket is bare in the vector of the bombs. -/
theorem bare_nuke : Bare .bomb (single .nuke blackJoker) :=
  ⟨Or.inr ⟨rfl, rfl⟩, rfl, Or.inl rfl⟩

/-- The frame of a pass over the vector of type `t`: counts only fall, the
other vectors stay, and what is new is bare. -/
structure PassSpec (t : HandType) (s s' : Split) : Prop where
  le : ∀ r, s'.cards r ≤ s.cards r
  other : ∀ t', t' ≠ t → s'.handMap.vec t' = s.handMap.vec t'
  new : ∀ h ∈ s'.handMap.vec t, h ∈ s.handMap.vec t ∨ Bare t h

/-! ## The rocket -/

/-- The counts after the rocket test. -/
def deNuked (c : Points) : Points := fun r =>
  if (c blackJoker = 1 ∧ c redJoker = 1) ∧ (r = blackJoker ∨ r = redJoker) then 0 else c r

/-- What the rocket test pushes. -/
def nukes (c : Points) : List Hand :=
  if c blackJoker = 1 ∧ c redJoker = 1 then [single .nuke blackJoker] else []

/-- The rocket test moves the two jokers and loses none. -/
theorem handsSum_nukes (c : Points) (r : Nat) : deNuked c r + handsSum (nukes c) r = c r := by
  unfold deNuked nukes
  by_cases hb : c blackJoker = 1 ∧ c redJoker = 1
  · rw [if_pos hb, handsSum_cons, handsSum_nil, handToPointsArray_nuke]
    by_cases hr : r = blackJoker ∨ r = redJoker
    · rw [if_pos ⟨hb, hr⟩, if_pos hr]
      rcases hr with rfl | rfl
      · omega
      · omega
    · rw [if_neg (fun h => hr h.2), if_neg hr]
      omega
  · rw [if_neg (fun h => hb h.1), if_neg hb, handsSum_nil]
    omega

/-- The rocket test in closed form: the counts without the rocket, the vector
with it. -/
theorem takeNuke_eq (p : Pile) : takeNuke p = ⟨deNuked p.cards, p.hands ++ nukes p.cards⟩ := by
  unfold takeNuke deNuked nukes
  by_cases hb : p.cards blackJoker = 1 ∧ p.cards redJoker = 1
  · rw [if_pos hb, if_pos hb, Pile.mk.injEq]
    refine ⟨funext fun r => ?_, rfl⟩
    simp only [Function.update_apply, hb]
    grind
  · rw [if_neg hb, if_neg hb, List.append_nil]
    simp [hb]

/-- The same test at the head of `getNormalHand`. -/
theorem pushNuke_cards (s : Split) : (pushNuke s).cards = deNuked s.cards := by
  unfold pushNuke deNuked
  by_cases hb : s.cards blackJoker = 1 ∧ s.cards redJoker = 1
  · rw [if_pos hb]
    refine funext fun r => ?_
    simp only [Function.update_apply, hb]
    grind
  · rw [if_neg hb]
    simp [hb]

/-- Only the bombs' vector can get longer by it. -/
theorem pushNuke_vec (s : Split) (t : HandType) :
    (pushNuke s).handMap.vec t = s.handMap.vec t ++ if t = .bomb then nukes s.cards else [] := by
  unfold pushNuke nukes
  by_cases hb : s.cards blackJoker = 1 ∧ s.cards redJoker = 1
  · rw [if_pos hb, if_pos hb, HandsMap.vec_push]
    by_cases ht : t = .bomb
    · subst ht
      rw [if_pos rfl, if_pos rfl]
      rfl
    · rw [if_neg ht, if_neg ht, List.append_nil]
  · rw [if_neg hb, if_neg hb]
    simp

/-! ## Bombs and trios -/

/-- What `getBomb` leaves: nothing of a rank held four times, no rocket, and
everything else. -/
theorem getBomb_cards (s : Split) (r : Nat) : (getBomb s).cards r
    = if r ≤ card2 ∧ deNuked s.cards r = 4 then 0 else deNuked s.cards r := by
  simp only [getBomb, overVector, takeNuke_eq, forUp_takeExact, Nat.lt_succ_iff]

/-- What `getBomb` adds: the rocket first, then the bombs from the lowest rank
on. -/
theorem getBomb_vec (s : Split) : (getBomb s).handMap.vec .bomb
    = s.handMap.vec .bomb ++ nukes s.cards ++ exacts (deNuked s.cards) 4 .bomb (card2 + 1) := by
  simp only [getBomb, overVector, takeNuke_eq, forUp_takeExact, HandsMap.vec_put_self]

/-- The rocket test takes cards and gives none. -/
theorem deNuked_le {c : Points} {r : Nat} (h : 0 ≤ c r) : deNuked c r ≤ c r := by
  unfold deNuked
  split <;> omega

/-- A count that survives the rocket test with cards is the count before it. -/
theorem deNuked_pos {c : Points} {r : Nat} (h : 0 < deNuked c r) : deNuked c r = c r := by
  unfold deNuked at h ⊢
  split at h
  next => exact absurd h (by decide)
  next hc => rw [if_neg hc]

/-- It takes a joker only where one is held. -/
theorem deNuked_nonneg {c : Points} {r : Nat} (h : 0 ≤ c r) : 0 ≤ deNuked c r := by
  unfold deNuked
  split <;> omega

/-- It looks at nothing up to the two. -/
theorem deNuked_eq {c : Points} {r : Nat} (h : r ≤ card2) : deNuked c r = c r := by
  unfold deNuked
  simp only [card2, blackJoker, redJoker] at h ⊢
  rw [if_neg (by omega)]

/-- No count is overdrawn by `getBomb`. -/
theorem getBomb_nonneg {s : Split} (h0 : ∀ r, 0 ≤ s.cards r) (r : Nat) :
    0 ≤ (getBomb s).cards r := by
  have := deNuked_nonneg (h0 r)
  rw [getBomb_cards]
  split <;> omega

/-- No rank up to the two is held four times after `getBomb`. -/
theorem getBomb_le_three {s : Split} {r : Nat} (hr : r ≤ card2) (h4 : s.cards r ≤ 4) :
    (getBomb s).cards r ≤ 3 := by
  rw [getBomb_cards, deNuked_eq hr]
  split <;> omega

/-- `getBomb` is a pass in the sense of `PassSpec`, from counts that are not
negative. -/
theorem getBomb_spec {s : Split} (h0 : ∀ r, 0 ≤ s.cards r) : PassSpec .bomb s (getBomb s) := by
  refine ⟨fun r => ?_, fun t' ht => ?_, fun h hh => ?_⟩
  · have := deNuked_le (h0 r)
    have := h0 r
    rw [getBomb_cards]
    split <;> omega
  · exact HandsMap.vec_put_ne ht
  · rw [getBomb_vec, List.mem_append, List.mem_append] at hh
    rcases hh with (hh | hh) | hh
    · exact Or.inl hh
    · right
      unfold nukes at hh
      split at hh
      · rw [List.mem_singleton.mp hh]
        exact bare_nuke
      · exact absurd hh (List.not_mem_nil)
    · right
      obtain ⟨i, hi, -, rfl⟩ := mem_exacts.mp hh
      exact bare_single rfl (Or.inl (Nat.lt_succ_iff.mp hi))

/-- `getBomb` conserves cards, from any counts. -/
theorem getBomb_ledger (s : Split) (r : Nat) : (getBomb s).ledger r = s.ledger r := by
  have hn := handsSum_nukes s.cards r
  have he := handsSum_exacts (t := .bomb) rfl (deNuked s.cards) (card2 + 1) r
  rw [getBomb, ledger_overVector]
  simp only [Pile.ledger, takeNuke_eq, forUp_takeExact, handsSum_append]
  simp only [HandType.mult] at he
  rw [he]
  split <;> omega

/-- What `getTrio` leaves: nothing of a rank held three times, and everything
else. -/
theorem getTrio_cards (s : Split) (r : Nat) : (getTrio s).cards r
    = if r ≤ card2 ∧ s.cards r = 3 then 0 else s.cards r := by
  simp only [getTrio, overVector, forUp_takeExact, Nat.lt_succ_iff]

/-- What `getTrio` adds: the trios from the lowest rank on. -/
theorem getTrio_vec (s : Split) : (getTrio s).handMap.vec .trio
    = s.handMap.vec .trio ++ exacts s.cards 3 .trio (card2 + 1) := by
  simp only [getTrio, overVector, forUp_takeExact, HandsMap.vec_put_self]

theorem getTrio_nonneg {s : Split} (h0 : ∀ r, 0 ≤ s.cards r) (r : Nat) :
    0 ≤ (getTrio s).cards r := by
  have := h0 r
  rw [getTrio_cards]
  split <;> omega

/-- `getTrio` is a pass in the sense of `PassSpec`. -/
theorem getTrio_spec (s : Split) : PassSpec .trio s (getTrio s) := by
  refine ⟨fun r => ?_, fun t' ht => ?_, fun h hh => ?_⟩
  · rw [getTrio_cards]
    split <;> omega
  · exact HandsMap.vec_put_ne ht
  · rw [getTrio_vec, List.mem_append] at hh
    refine hh.imp_right fun hh => ?_
    obtain ⟨i, hi, -, rfl⟩ := mem_exacts.mp hh
    exact bare_single rfl (Or.inl (Nat.lt_succ_iff.mp hi))

/-- `getTrio` conserves cards, from any counts. -/
theorem getTrio_ledger (s : Split) (r : Nat) : (getTrio s).ledger r = s.ledger r := by
  have he := handsSum_exacts (t := .trio) rfl s.cards (card2 + 1) r
  rw [getTrio, ledger_overVector]
  simp only [Pile.ledger, forUp_takeExact, handsSum_append]
  simp only [HandType.mult] at he
  rw [he]
  split <;> omega

/-! ## The last pass -/

/-- What `getNormalHand` appends to the vector of type `t` from the ranks below
`n`. -/
def normals (c : Points) (t : HandType) (n : Nat) : List Hand :=
  if t.isSingle then exacts c t.mult t n else []

/-- The hands of the last pass in the vector of one type: one for each rank
held as often as the type has copies. -/
theorem mem_normals {c : Points} {t : HandType} {n : Nat} {h : Hand} :
    h ∈ normals c t n ↔ t.isSingle = true ∧ ∃ i, i < n ∧ c i = t.mult ∧ h = single t i := by
  unfold normals
  split
  next ht => simp only [mem_exacts, ht, true_and]
  next ht => simp [ht]

/-- A rank held one to four times goes into the vector of its type. -/
theorem normalStep_take {t : HandType} {s : Split} {i : Nat} (ht : t.isSingle = true)
    (hc : s.cards i = t.mult) :
    normalStep i s = ⟨Function.update s.cards i 0, s.handMap.push t (single t i)⟩ := by
  cases t <;> simp_all [HandType.isSingle, HandType.mult, normalStep, pushExact, single]

/-- A rank that is not held, or more than four times, is passed over. -/
theorem normalStep_skip {s : Split} {i : Nat} (hc : ¬(1 ≤ s.cards i ∧ s.cards i ≤ 4)) :
    normalStep i s = s := by
  have h4 : s.cards i ≠ 4 := by omega
  have h3 : s.cards i ≠ 3 := by omega
  have h2 : s.cards i ≠ 2 := by omega
  have h1 : s.cards i ≠ 1 := by omega
  simp [normalStep, pushExact, h4, h3, h2, h1]

/-- A count of one to four is the multiplicity of one of the single-rank types. -/
theorem exists_single {k : Int} (h : 1 ≤ k ∧ k ≤ 4) :
    ∃ t : HandType, t.isSingle = true ∧ k = t.mult := by
  have hk : k = 1 ∨ k = 2 ∨ k = 3 ∨ k = 4 := by omega
  rcases hk with rfl | rfl | rfl | rfl
  · exact ⟨.solo, rfl, rfl⟩
  · exact ⟨.pair, rfl, rfl⟩
  · exact ⟨.trio, rfl, rfl⟩
  · exact ⟨.bomb, rfl, rfl⟩

/-- The single-rank types have different multiplicities, so a count belongs to
one of them. -/
theorem single_mult_inj {t t' : HandType} (ht : t.isSingle = true) (ht' : t'.isSingle = true)
    (h : t.mult = t'.mult) : t = t' := by
  cases t <;> cases t' <;> simp_all [HandType.isSingle, HandType.mult]

/-- The loop of `getNormalHand`: ranks held one to four times go, everything
else stays. -/
theorem forUp_normalStep (n : Nat) (s : Split) :
    (∀ r, (forUp normalStep 0 n s).cards r
      = if r < n ∧ 1 ≤ s.cards r ∧ s.cards r ≤ 4 then 0 else s.cards r) ∧
    ∀ t, (forUp normalStep 0 n s).handMap.vec t = s.handMap.vec t ++ normals s.cards t n := by
  have h := forUp_inv (b := normalStep)
    (fun i s' =>
      (∀ r, s'.cards r = if r < i ∧ 1 ≤ s.cards r ∧ s.cards r ≤ 4 then 0 else s.cards r) ∧
      ∀ t, s'.handMap.vec t = s.handMap.vec t ++ normals s.cards t i) 0 n (s := s) ?_ ?_
  · simpa using h
  · intro i s' _ _ hinv
    obtain ⟨hc, hv⟩ := hinv
    have hci : s'.cards i = s.cards i := by rw [hc i, if_neg (by omega)]
    by_cases hrange : 1 ≤ s.cards i ∧ s.cards i ≤ 4
    · -- the count fixes the type, so only the vector of that type grows
      obtain ⟨t₀, ht₀, hk⟩ := exists_single hrange
      rw [normalStep_take ht₀ (by rw [hci, hk])]
      refine ⟨fun r => ?_, fun t => ?_⟩
      · simp only [Function.update_apply, hc r]
        grind
      · simp only [HandsMap.vec_push, normals, exacts_succ]
        by_cases ht : t = t₀
        · subst ht
          rw [if_pos rfl, hv t, if_pos ht₀, if_pos hk, normals, if_pos ht₀, List.append_assoc]
        · rw [if_neg ht, hv t, normals]
          by_cases hs : t.isSingle = true
          · have hne : s.cards i ≠ t.mult := fun he =>
              ht (single_mult_inj hs ht₀ (by rw [← he, hk]))
            rw [if_pos hs, if_pos hs, if_neg hne, List.append_nil]
          · rw [if_neg hs, if_neg hs]
    · rw [normalStep_skip (by rw [hci]; exact hrange)]
      refine ⟨fun r => ?_, fun t => ?_⟩
      · rw [hc r]
        grind
      · rw [hv t, normals, normals, exacts_succ]
        by_cases hs : t.isSingle = true
        · have hne : s.cards i ≠ t.mult := by
            intro he
            apply hrange
            rw [he]
            cases t <;> simp_all [HandType.isSingle, HandType.mult]
          rw [if_pos hs, if_pos hs, if_neg hne, List.append_nil]
        · rw [if_neg hs, if_neg hs]
  · simp [normals, exacts]

/-- The counts `getNormalHand` leaves. -/
theorem getNormalHand_cards (s : Split) (r : Nat) :
    (getNormalHand s).cards r
      = if r ≤ redJoker ∧ 1 ≤ deNuked s.cards r ∧ deNuked s.cards r ≤ 4 then 0
        else deNuked s.cards r := by
  have h := (forUp_normalStep (redJoker + 1) (pushNuke s)).1 r
  rw [pushNuke_cards] at h
  rw [getNormalHand, h]
  simp only [Nat.lt_succ_iff]

/-- The vectors `getNormalHand` leaves. -/
theorem getNormalHand_vec (s : Split) (t : HandType) :
    (getNormalHand s).handMap.vec t = s.handMap.vec t ++ (if t = .bomb then nukes s.cards else [])
      ++ normals (deNuked s.cards) t (redJoker + 1) := by
  have h := (forUp_normalStep (redJoker + 1) (pushNuke s)).2 t
  rw [pushNuke_cards, pushNuke_vec] at h
  exact h

/-- One rank of the last pass conserves cards. -/
theorem normalStep_ledger (i : Nat) (s : Split) (r : Nat) :
    (normalStep i s).ledger r = s.ledger r := by
  by_cases hrange : 1 ≤ s.cards i ∧ s.cards i ≤ 4
  · obtain ⟨t, ht, hk⟩ := exists_single hrange
    rw [normalStep_take ht hk]
    simp only [Split.ledger, HandsMap.sum_push, handToPointsArray_single ht, Function.update_apply]
    split
    next hr => subst hr; omega
    next => omega
  · rw [normalStep_skip hrange]

/-- So does its rocket test. -/
theorem pushNuke_ledger (s : Split) (r : Nat) : (pushNuke s).ledger r = s.ledger r := by
  have hn := handsSum_nukes s.cards r
  rw [Split.ledger, Split.ledger, pushNuke_cards]
  unfold pushNuke
  unfold nukes at hn
  split
  next hb =>
    rw [if_pos hb, handsSum_cons, handsSum_nil] at hn
    rw [HandsMap.sum_push]
    simp only [single] at hn
    omega
  next hb =>
    rw [if_neg hb, handsSum_nil] at hn
    omega

/-- `getNormalHand` conserves cards: its two parts do, the second by induction
over the ranks. -/
theorem getNormalHand_ledger (s : Split) (r : Nat) : (getNormalHand s).ledger r = s.ledger r := by
  have h := forUp_inv (b := normalStep) (fun _ s' => s'.ledger r = s.ledger r)
    card3 (redJoker + 1) (s := pushNuke s) ?_ (pushNuke_ledger s r)
  · exact h
  · intro i s' _ _ hs
    rw [normalStep_ledger, hs]

end RobotDdz
