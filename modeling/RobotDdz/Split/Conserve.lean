import RobotDdz.Split.SoloChain
import RobotDdz.Split.Kicking

/-!
# Conservation by the splitters

`Frame` is what every pass before `getNormalHand` keeps, whatever it does to
the account: counts below the holding, bare hands, no solos or pairs yet, and
nothing left on the ranks of a trio or trio chain. `normal_kickReady` turns it
into what the kicker pass needs, and `sum_withKickers` reads the final sum off
the account before `getNormalHand`.

`sum_splitCardsToHands` is the result for the three kinds with a pair chain
pass: the sum falls short of the holding by what `getPairChain` takes off the
ranks it robs. The other two kinds conserve (`sum_splitCardsToHandsKind4`,
`Kind5`).

A splitter is a sequence of passes, each with its own spec lemma (`PassSpec`)
and ledger lemma in the modules before. Here they are composed: `Frame` and
`Sound` have one lemma per pass, and the five splitters are those lemmas in the
order the source calls the passes. `Sound` is `Frame` with a balanced account,
so it is lost at `getPairChain` and `Frame` goes on.
-/

namespace RobotDdz

/-- The frame of the passes before `getNormalHand`. -/
structure Frame (p : Points) (s : Split) : Prop where
  le : ∀ r, s.cards r ≤ p r
  bare : ∀ t, ∀ h ∈ s.handMap.vec t, Bare t h
  solo : s.handMap.vec .solo = []
  pair : s.handMap.vec .pair = []
  clear : ∀ t, t = .trio ∨ t = .trioChain → ∀ b ∈ s.handMap.vec t,
    ∀ r, b.keyPoint ≤ r → r < b.keyPoint + b.width → s.cards r ≤ 0

/-- A splitter starts with the holding to place and an empty map. -/
theorem frame_start (p : Points) : Frame p ⟨p, .empty⟩ :=
  ⟨fun _ => Int.le_refl _, fun _ _ hh => absurd hh (List.not_mem_nil), rfl, rfl,
    fun _ _ _ hb => absurd hb (List.not_mem_nil)⟩

/-- A pass keeps the frame if the bodies it adds are clear: a pass of another
type only takes cards, and the bodies there are keep their empty ranks. -/
theorem Frame.pass {p : Points} {s s' : Split} {t : HandType} (hf : Frame p s)
    (hs : PassSpec t s s') (ht : t ≠ .solo ∧ t ≠ .pair)
    (hnew : t = .trio ∨ t = .trioChain → ∀ b ∈ s'.handMap.vec t, b ∈ s.handMap.vec t ∨
      ∀ r, b.keyPoint ≤ r → r < b.keyPoint + b.width → s'.cards r ≤ 0) : Frame p s' := by
  refine ⟨fun r => Int.le_trans (hs.le r) (hf.le r), fun t' h hh => ?_, ?_, ?_,
    fun t' ht' b hb r h1 h2 => ?_⟩
  · by_cases h' : t' = t
    · subst h'
      rcases hs.new h hh with hold | hnew
      · exact hf.bare t' h hold
      · exact hnew
    · rw [hs.other t' h'] at hh
      exact hf.bare t' h hh
  · rw [hs.other _ (Ne.symm ht.1)]
    exact hf.solo
  · rw [hs.other _ (Ne.symm ht.2)]
    exact hf.pair
  · have hold : b ∈ s.handMap.vec t' → s'.cards r ≤ 0 := fun hb =>
      Int.le_trans (hs.le r) (hf.clear t' ht' b hb r h1 h2)
    by_cases h' : t' = t
    · subst h'
      rcases hnew ht' b hb with hb | hclear
      · exact hold hb
      · exact hclear r h1 h2
    · rw [hs.other t' h'] at hb
      exact hold hb

section Passes

variable {p : Points} {s : Split} (hf : Frame p s)

include hf

/-- `getBomb` keeps the frame: a bomb takes all four cards of its rank. -/
theorem Frame.getBomb (h0 : ∀ r, 0 ≤ s.cards r) : Frame p (getBomb s) :=
  hf.pass (getBomb_spec h0) (by decide) (fun h => absurd h (by decide))

/-- `getTrio` keeps it: a trio takes all three. -/
theorem Frame.getTrio : Frame p (getTrio s) := by
  refine hf.pass (getTrio_spec s) (by decide) fun _ b hb => ?_
  rw [getTrio_vec, List.mem_append] at hb
  refine hb.imp_right fun hb r h1 h2 => ?_
  obtain ⟨i, hi, hc, rfl⟩ := mem_exacts.mp hb
  obtain rfl : r = i := by simp only [single, Hand.width] at h1 h2; omega
  rw [getTrio_cards, if_pos ⟨Nat.lt_succ_iff.mp hi, hc⟩]

/-- `getSoloChain` keeps it, from a vector of solo chains that is still empty. -/
theorem Frame.getSoloChain (h0 : ∀ r, 0 ≤ s.cards r) (hv : s.handMap.vec .soloChain = []) :
    Frame p (getSoloChain s) :=
  hf.pass (getSoloChain_spec h0 hv) (by decide) (fun h => absurd h (by decide))

/-- `getPairChain` keeps it, although it may take two cards too many: the
counts fall all the more. -/
theorem Frame.getPairChain : Frame p (getPairChain s) :=
  hf.pass (getPairChain_spec s) (by decide) (fun h => absurd h (by decide))

/-- `getTrioChain` keeps it where no rank up to the two is held four times.
Otherwise a card would be left on a rank of the chain, and could become a
kicker on its own body. -/
theorem Frame.getTrioChain (hv : s.handMap.vec .trioChain = [])
    (h3 : ∀ r, r ≤ card2 → s.cards r ≤ 3) : Frame p (getTrioChain s) := by
  refine hf.pass (getTrioChain_spec s) (by decide) fun _ b hb => Or.inr fun r h1 h2 => ?_
  have hbare : Bare .trioChain b := by
    rcases (getTrioChain_spec s).new b hb with hold | hnew
    · rw [hv] at hold
      exact absurd hold (List.not_mem_nil)
    · exact hnew
  have htype : b.type = .trioChain := by
    rcases hbare.type with h | ⟨h, -⟩
    · exact h
    · exact HandType.noConfusion h
  have hw : b.width = b.len := by rw [Hand.width, htype]
  have htop : b.keyPoint + b.len ≤ cardA + 1 := by
    rcases hbare.body with h | rfl
    · rw [htype] at h
      exact h.2
    · exact HandType.noConfusion htype
  rw [getTrioChain_clear hv b hb r h1 (by omega)]
  have := h3 r (by simp only [cardA, card2] at htop ⊢; omega)
  omega

end Passes

/-! ## The end of a splitter -/

variable {p : Points}

/-- A hand `getNormalHand` makes comes from a rank that held its cards. -/
theorem normals_rank (hp : LegalCounts p) {s : Split} (hf : Frame p s) {t : HandType} {h : Hand}
    (hh : h ∈ normals (deNuked s.cards) t (redJoker + 1)) :
    t.isSingle = true ∧ h = single t h.keyPoint ∧ deNuked s.cards h.keyPoint = t.mult ∧
      s.cards h.keyPoint = t.mult ∧ (h.keyPoint ≤ card2 ∨ t = .solo ∧ h.keyPoint ≤ redJoker) := by
  obtain ⟨ht, i, hi, hc, rfl⟩ := mem_normals.mp hh
  have hpos : 0 < t.mult := by cases t <;> simp_all [HandType.isSingle, HandType.mult]
  have hs : s.cards i = t.mult := (deNuked_pos (by omega)).symm.trans hc
  refine ⟨ht, rfl, hc, hs, ?_⟩
  by_cases hsolo : t = .solo
  · exact Or.inr ⟨hsolo, Nat.lt_succ_iff.mp hi⟩
  · left
    have h2 : 2 ≤ t.mult := by cases t <;> simp_all [HandType.isSingle, HandType.mult]
    have h3 := hf.le i
    have h4 := hp.joker i
    simp only [single, redJoker, blackJoker, card2] at hi h4 ⊢
    omega

/-- `getNormalHand` leaves bare hands. -/
theorem normal_bare (hp : LegalCounts p) {s : Split} (hf : Frame p s) :
    ∀ t, ∀ h ∈ (getNormalHand s).handMap.vec t, Bare t h := by
  intro t h hh
  rw [getNormalHand_vec, List.mem_append, List.mem_append] at hh
  rcases hh with (hh | hh) | hh
  · exact hf.bare t h hh
  · split at hh
    next ht =>
      unfold nukes at hh
      split at hh
      · rw [ht, List.mem_singleton.mp hh]
        exact bare_nuke
      · exact absurd hh (List.not_mem_nil)
    next => exact absurd hh (List.not_mem_nil)
  · obtain ⟨ht, he, -, -, hr⟩ := normals_rank hp hf hh
    rw [he]
    exact bare_single ht hr

/-- `getNormalHand` leaves the map ready for the kicker pass. A solo or a pair
comes from a rank with just that many cards, so it is off every body, and with
both jokers held the rocket has taken them. -/
theorem normal_kickReady (hp : LegalCounts p) {s : Split} (hf : Frame p s) :
    KickReady (getNormalHand s).handMap := by
  have hsolo : (getNormalHand s).handMap.vec .solo
      = normals (deNuked s.cards) .solo (redJoker + 1) := by
    rw [getNormalHand_vec, hf.solo]
    rfl
  have hpair : (getNormalHand s).handMap.vec .pair
      = normals (deNuked s.cards) .pair (redJoker + 1) := by
    rw [getNormalHand_vec, hf.pair]
    rfl
  -- solos and pairs alike come from a rank with that many cards
  have hkick : ∀ t', t' = .solo ∨ t' = .pair → ∀ h ∈ (getNormalHand s).handMap.vec t',
      h ∈ normals (deNuked s.cards) t' (redJoker + 1) := by
    intro t' ht h hh
    rcases ht with rfl | rfl
    · rwa [hsolo] at hh
    · rwa [hpair] at hh
  refine ⟨fun t _ => normal_bare hp hf t, ?_, ?_, fun t ht b hb t' ht' h hh => ?_, ?_⟩
  · rw [hsolo]
    exact exacts_pairwise ..
  · rw [hpair]
    exact exacts_pairwise ..
  · obtain ⟨hst, -, hc, hcs, -⟩ := normals_rank hp hf (hkick t' ht' h hh)
    have hpos : 0 < t'.mult := by rcases ht' with rfl | rfl <;> decide
    have hlt : t'.mult < 3 := by rcases ht' with rfl | rfl <;> decide
    rw [getNormalHand_vec, List.mem_append, List.mem_append] at hb
    rcases hb with (hb | hb) | hb
    · -- an old body: its ranks are empty
      by_contra hin
      have := hf.clear t ht b hb h.keyPoint (by omega) (by omega)
      omega
    · rw [if_neg (by rcases ht with rfl | rfl <;> decide)] at hb
      exact absurd hb (List.not_mem_nil)
    · -- a new trio: its rank held three cards
      obtain ⟨-, he, hbc, -, -⟩ := normals_rank hp hf hb
      have htrio : t = .trio := by
        rcases ht with rfl | rfl
        · rfl
        · exact absurd (mem_normals.mp hb).1 (by decide)
      subst htrio
      have hw : b.width = 1 := by rw [he]; rfl
      have h3 : HandType.trio.mult = 3 := rfl
      have hne : h.keyPoint ≠ b.keyPoint := fun heq => by
        rw [heq] at hc
        omega
      omega
  · -- with both jokers held the rocket has taken them
    intro hboth
    obtain ⟨⟨x, hx, ex⟩, ⟨y, hy, ey⟩⟩ := hboth
    have hx' := normals_rank hp hf (hkick .solo (Or.inl rfl) x hx)
    have hy' := normals_rank hp hf (hkick .solo (Or.inl rfl) y hy)
    rw [ex] at hx'
    rw [ey] at hy'
    have h1 : s.cards blackJoker = 1 := hx'.2.2.2.1
    have h2 : s.cards redJoker = 1 := hy'.2.2.2.1
    have h3 : deNuked s.cards blackJoker = 1 := hx'.2.2.1
    unfold deNuked at h3
    rw [if_pos ⟨⟨h1, h2⟩, Or.inl rfl⟩] at h3
    exact absurd h3 (by decide)

/-- A hand of a splitter's map: bare, or kicked and of a recognised shape. -/
theorem mem_withKickers (hp : LegalCounts p) {s : Split} (hf : Frame p s) (searchKicker : Bool)
    {t : HandType} {h : Hand} (hh : h ∈ (withKickers searchKicker (getNormalHand s)).vec t) :
    h ∈ (getNormalHand s).handMap.vec t ∨ h.Shaped ∧ h.type = t := by
  unfold withKickers at hh
  split at hh
  next => exact (findKickerForTrioOrTrioChain_step (normal_kickReady hp hf)).new t h hh
  next => exact Or.inl hh

/-- The sum of a splitter's map, from the account before `getNormalHand`. Only
counts below zero are left over. -/
theorem sum_withKickers (hp : LegalCounts p) {s : Split} (hf : Frame p s) (searchKicker : Bool)
    (h15 : ∀ r, redJoker < r → 0 ≤ s.cards r) (r : Nat) :
    (withKickers searchKicker (getNormalHand s)).sum r = s.ledger r - min (s.cards r) 0 := by
  have hsum : (withKickers searchKicker (getNormalHand s)).sum r
      = (getNormalHand s).handMap.sum r := by
    unfold withKickers
    split
    next => exact (findKickerForTrioOrTrioChain_step (normal_kickReady hp hf)).sum r
    next => rfl
  have hl := getNormalHand_ledger s r
  have hc := getNormalHand_cards s r
  have h4 := hp.four r
  have hle := hf.le r
  have ht := hp.top r
  have h15' := h15 r
  rw [Split.ledger] at hl
  rw [hsum]
  have hden : deNuked s.cards r = s.cards r ∨ deNuked s.cards r = 0 ∧ s.cards r = 1 := by
    unfold deNuked
    split
    next hb => right; rcases hb.2 with rfl | rfl <;> simp [hb.1]
    next => exact Or.inl rfl
  split at hc <;> omega

/-! ## The splitters -/

/-- The state of a splitter while it conserves. -/
structure Sound (p : Points) (s : Split) : Prop where
  frame : Frame p s
  nonneg : ∀ r, 0 ≤ s.cards r
  balance : ∀ r, s.ledger r = p r

/-- A splitter starts with a balanced account. -/
theorem sound_start (hp : LegalCounts p) : Sound p ⟨p, .empty⟩ :=
  ⟨frame_start p, hp.nonneg, fun r => by simp [Split.ledger]⟩

/-- `getBomb` conserves and keeps the frame. -/
theorem Sound.getBomb {s : Split} (h : Sound p s) : Sound p (getBomb s) :=
  ⟨h.frame.getBomb h.nonneg, getBomb_nonneg h.nonneg,
    fun r => (getBomb_ledger s r).trans (h.balance r)⟩

/-- `getTrio` conserves and keeps the frame. -/
theorem Sound.getTrio {s : Split} (h : Sound p s) : Sound p (getTrio s) :=
  ⟨h.frame.getTrio, getTrio_nonneg h.nonneg, fun r => (getTrio_ledger s r).trans (h.balance r)⟩

/-- `getSoloChain` conserves and keeps the frame. -/
theorem Sound.getSoloChain {s : Split} (h : Sound p s) (hv : s.handMap.vec .soloChain = []) :
    Sound p (getSoloChain s) :=
  ⟨h.frame.getSoloChain h.nonneg hv, getSoloChain_nonneg h.nonneg hv,
    fun r => (getSoloChain_ledger h.nonneg hv r).trans (h.balance r)⟩

/-- `getTrioChain` conserves and keeps the frame. -/
theorem Sound.getTrioChain {s : Split} (h : Sound p s) (hv : s.handMap.vec .trioChain = [])
    (h3 : ∀ r, r ≤ card2 → s.cards r ≤ 3) : Sound p (getTrioChain s) :=
  ⟨h.frame.getTrioChain hv h3, fun r => getTrioChain_nonneg (h.nonneg r),
    fun r => (getTrioChain_ledger s r).trans (h.balance r)⟩

/-- A conserving state that ends a splitter makes an exact partition. -/
theorem Sound.sum (hp : LegalCounts p) {s : Split} (h : Sound p s) (searchKicker : Bool) (r : Nat) :
    (withKickers searchKicker (getNormalHand s)).sum r = p r := by
  have h0 := h.nonneg r
  rw [sum_withKickers hp h.frame searchKicker (fun r _ => h.nonneg r), h.balance r]
  omega

/-- After `getBomb` no rank is held four times. -/
theorem getBomb_three (hp : LegalCounts p) {s : Split} (h : Sound p s) :
    ∀ r, r ≤ card2 → (getBomb s).cards r ≤ 3 :=
  fun r hr => getBomb_le_three hr (Int.le_trans (h.frame.le r) (hp.four r))

/-- Up to `getPairChain` the splitters conserve. -/
theorem beforePairChain_sound (hp : LegalCounts p) (k : Kind) : Sound p (beforePairChain k p) := by
  have h0 := sound_start hp
  cases k with
  | kind1 =>
    have h1 := h0.getSoloChain rfl
    exact h1.getBomb.getTrioChain (by
      rw [(getBomb_spec h1.nonneg).other _ (by decide),
        (getSoloChain_spec h0.nonneg rfl).other _ (by decide)]
      rfl) (getBomb_three hp h1)
  | kind2 =>
    have h1 := h0.getBomb
    have h2 := h1.getTrioChain (by rw [(getBomb_spec h0.nonneg).other _ (by decide)]; rfl)
      (getBomb_three hp h0)
    exact h2.getSoloChain (by
      rw [(getTrioChain_spec _).other _ (by decide), (getBomb_spec h0.nonneg).other _ (by decide)]
      rfl)
  | kind3 => exact (h0.getSoloChain rfl).getBomb

/-- The frame holds to the end of the pair chain pass and what follows it. -/
theorem afterPairChain_frame (hp : LegalCounts p) (k : Kind) :
    Frame p (afterPairChain k (getPairChain (beforePairChain k p))) := by
  have hb := (beforePairChain_sound hp k).frame
  cases k with
  | kind1 => exact hb.getPairChain
  | kind2 => exact hb.getPairChain
  | kind3 =>
    have h0 := sound_start hp
    have h1 := h0.getSoloChain rfl
    refine hb.getPairChain.getTrioChain ?_ fun r hr => ?_
    · rw [(getPairChain_spec _).other _ (by decide), beforePairChain,
        (getBomb_spec h1.nonneg).other _ (by decide),
        (getSoloChain_spec h0.nonneg rfl).other _ (by decide)]
      rfl
    · exact Int.le_trans ((getPairChain_spec _).le r) (getBomb_three hp h1 r hr)

/-- Nothing after `getPairChain` changes the account, or a count below zero. -/
theorem afterPairChain_tail (k : Kind) (s : Split) (r : Nat) :
    (afterPairChain k s).ledger r = s.ledger r ∧
      min ((afterPairChain k s).cards r) 0 = min (s.cards r) 0 := by
  cases k with
  | kind1 => exact ⟨rfl, rfl⟩
  | kind2 => exact ⟨rfl, rfl⟩
  | kind3 =>
    have := getTrioChain_taken s r
    refine ⟨getTrioChain_ledger s r, ?_⟩
    simp only [afterPairChain]
    omega

/-- The sum of the map of one of the first three splitters, rank by rank: a
robbed rank loses up to two cards, and nothing else is lost or gained. -/
theorem sum_splitCardsToHands (hp : LegalCounts p) (k : Kind) (searchKicker : Bool) (r : Nat) :
    (Robbed (beforePairChain k p).cards r → (splitCardsToHands k p searchKicker).sum r
        = p r - min 2 ((beforePairChain k p).cards r)) ∧
      (¬Robbed (beforePairChain k p).cards r →
        (splitCardsToHands k p searchKicker).sum r = p r) := by
  have hs := beforePairChain_sound hp k
  have h0 := hs.nonneg r
  have hbal := hs.balance r
  obtain ⟨htail, hmin⟩ := afterPairChain_tail k (getPairChain (beforePairChain k p)) r
  -- only a robbed rank goes below zero, and robbed ranks are below the jokers
  have h15 : ∀ r, redJoker < r →
      0 ≤ (afterPairChain k (getPairChain (beforePairChain k p))).cards r := by
    intro r hr
    have hnot : ¬Robbed (beforePairChain k p).cards r := fun h => by
      have := h.range
      simp only [card2, redJoker] at this hr
      omega
    have h1 := (getPairChain_kept hnot).1
    have h2 := (afterPairChain_tail k (getPairChain (beforePairChain k p)) r).2
    have h3 := hs.nonneg r
    omega
  rw [splitCardsToHands_eq, sum_withKickers hp (afterPairChain_frame hp k) searchKicker h15, htail,
    hmin]
  refine ⟨fun hr => ?_, fun hr => ?_⟩
  · have := getPairChain_robbed hr
    omega
  · have := getPairChain_kept hr
    omega

/-- The fourth splitter has no pair chain pass and returns an exact partition. -/
theorem sum_splitCardsToHandsKind4 (hp : LegalCounts p) (searchKicker : Bool) (r : Nat) :
    (splitCardsToHandsKind4 p searchKicker).sum r = p r :=
  ((sound_start hp).getSoloChain rfl).getBomb.sum hp searchKicker r

/-- So does the fifth. -/
theorem sum_splitCardsToHandsKind5 (hp : LegalCounts p) (searchKicker : Bool) (r : Nat) :
    (splitCardsToHandsKind5 p searchKicker).sum r = p r := by
  have h0 := sound_start hp
  have h1 := h0.getBomb.getTrio
  refine (h1.getSoloChain ?_).sum hp searchKicker r
  rw [(getTrio_spec _).other _ (by decide), (getBomb_spec h0.nonneg).other _ (by decide)]
  rfl

end RobotDdz
