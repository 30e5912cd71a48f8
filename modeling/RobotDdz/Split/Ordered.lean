import RobotDdz.Split.ChainOrder

/-!
# The order of the hand vectors

Callers take `front()` of a vector as its lowest hand and `back()` as its
highest. Every scan pushes in the order of the ranks and the kicker pass keeps
the order (`Regrouped`), so two vectors can go wrong: `getBomb` pushes the
rocket before the bombs, and a solo chain may overtake another (`ChainOrder`).
`splitInto_ordered_iff` says that nothing else does.

The three parts of the argument:

- The scans for pair and trio chains move one index up the ranks and push
  behind it, so what they push is in order (`ScanOrdered`). The passes over
  single ranks have closed forms, and those are in order by `Split/Exact`.
- `Arranged` is what the passes hand on to `getNormalHand`: the vectors filled
  so far are in order, and if there are trios already then no rank is left that
  could push a lower one behind them.
- The kicker pass takes kickers out of vectors and moves bodies to the vectors
  of the kicked types, in the order it meets them. `Regrouped` says what this
  does to the order of each, and it composes.
-/

namespace RobotDdz

open Loops

/-- Non-decreasing by `keyPoint`. -/
def Ordered (hands : List Hand) : Prop := hands.Pairwise fun h h' => h.keyPoint ≤ h'.keyPoint

instance (hands : List Hand) : Decidable (Ordered hands) :=
  inferInstanceAs (Decidable (List.Pairwise _ _))

/-- Taking hands out keeps the order. -/
theorem Ordered.sublist {l l' : List Hand} (h : Ordered l) (hs : l'.Sublist l) : Ordered l' :=
  List.Pairwise.sublist hs h

/-- The order is a matter of the keys. -/
theorem ordered_keys {l l' : List Hand} (hk : l'.map Hand.keyPoint = l.map Hand.keyPoint) :
    Ordered l' ↔ Ordered l := by
  unfold Ordered
  rw [← List.pairwise_map (f := Hand.keyPoint) (R := (· ≤ ·)),
    ← List.pairwise_map (f := Hand.keyPoint) (R := (· ≤ ·)), hk]

/-- A scan for the ranks held exactly `k` times pushes them from the lowest on. -/
theorem exacts_ordered (c : Points) (k : Int) (t : HandType) (n : Nat) :
    Ordered (exacts c k t n) :=
  (exacts_pairwise c k t n).imp fun h => Nat.le_of_lt h

/-! ## Scans -/

/-- The hands pushed so far lie behind the scan, in order. -/
structure ScanOrdered (s : Scan) : Prop where
  ordered : Ordered s.pile.hands
  behind : ∀ h ∈ s.pile.hands, h.keyPoint < s.i

/-- A scan that moves on without a push. -/
theorem ScanOrdered.skip {s : Scan} (hI : ScanOrdered s) {i' : Nat} (hi : s.i ≤ i') :
    ScanOrdered ⟨i', s.pile⟩ :=
  ⟨hI.ordered, fun h hh => Nat.lt_of_lt_of_le (hI.behind h hh) hi⟩

/-- A scan that pushes between where it stands and where it goes on. -/
theorem ScanOrdered.push {s : Scan} (hI : ScanOrdered s) {i' : Nat} {c : Points} {hand : Hand}
    (hlow : s.i ≤ hand.keyPoint) (hhigh : hand.keyPoint < i') :
    ScanOrdered ⟨i', ⟨c, s.pile.hands ++ [hand]⟩⟩ := by
  have hlt : ∀ h ∈ s.pile.hands, h.keyPoint < hand.keyPoint := fun h hh =>
    Nat.lt_of_lt_of_le (hI.behind h hh) hlow
  refine ⟨List.pairwise_append.mpr ⟨hI.ordered, List.pairwise_singleton _ _,
    fun h hh h' hh' => ?_⟩, fun h hh => ?_⟩
  · rw [List.mem_singleton.mp hh']
    exact Nat.le_of_lt (hlt h hh)
  · rw [List.mem_append, List.mem_singleton] at hh
    rcases hh with hh | rfl
    · exact (hlt h hh).trans hhigh
    · exact hhigh

/-- One round of the scan for trio chains: a chain is keyed by its lowest rank,
and the scan goes on above its highest. -/
theorem trioChainStep_ordered {s : Scan} (hI : ScanOrdered s) (hi : s.i ≤ cardK) :
    ScanOrdered (trioChainStep s) := by
  unfold trioChainStep
  simp only []
  split
  next h3 =>
    have hle := (runEnd_spec s.pile.cards 3 (i := s.i)
      (by simp only [cardK, cardA] at hi ⊢; omega) h3).1
    split
    next => exact hI.push (Nat.le_refl _) (by simp only; omega)
    next => exact hI.skip (by omega)
  next => exact hI.skip (Nat.le_succ _)

/-- One round of the scan for pair chains. -/
theorem pairChainStep_ordered {s : Scan} (hI : ScanOrdered s) (hi : s.i ≤ cardQ) :
    ScanOrdered (pairChainStep s) := by
  unfold pairChainStep
  simp only []
  split
  next h2 =>
    have hle := (runEnd_spec s.pile.cards 2 (i := s.i)
      (by simp only [cardQ, cardA] at hi ⊢; omega) h2).1
    split
    next hlong =>
      -- the chain stays inside its run
      obtain ⟨-, hlow, hlen, hend⟩ := pairChainOf_spec s.pile.cards
        (a := s.i) (b := runEnd s.pile.cards 2 s.i) (by omega)
      unfold overrun at hend
      unfold pairChainOf at hlow hlen hend
      exact hI.push hlow (by omega)
    next => exact hI.skip (by omega)
  next => exact hI.skip (Nat.le_succ _)

theorem scanOrdered_start (c : Points) : ScanOrdered ⟨card3, ⟨c, []⟩⟩ :=
  ⟨List.Pairwise.nil, fun _ hh => absurd hh List.not_mem_nil⟩

/-- The vector of the trio chains after its scan. -/
theorem getTrioChain_ordered {s : Split} (hv : s.handMap.vec .trioChain = []) :
    Ordered ((getTrioChain s).handMap.vec .trioChain) := by
  rw [getTrioChain, overVector_vec, hv]
  exact (whileLoop_inv ScanOrdered
    (fun s hs hc => trioChainStep_ordered hs (of_decide_eq_true hc)) cardPointNum
    (scanOrdered_start s.cards)).ordered

/-- The vector of the pair chains after its scan. -/
theorem getPairChain_ordered {s : Split} (hv : s.handMap.vec .pairChain = []) :
    Ordered ((getPairChain s).handMap.vec .pairChain) := by
  rw [getPairChain, overVector_vec, hv]
  exact (whileLoop_inv ScanOrdered
    (fun s hs hc => pairChainStep_ordered hs (of_decide_eq_true hc)) cardPointNum
    (scanOrdered_start s.cards)).ordered

/-! ## Before the last pass -/

/-- The types the passes before `getNormalHand` push. -/
def pushed : List HandType := [.bomb, .soloChain, .pairChain, .trioChain, .trio]

/-- The vectors a splitter fills before `getNormalHand`, bombs and solo chains
apart. Where there are trios already, no rank is held three times. -/
structure Arranged (s : Split) : Prop where
  pairChain : Ordered (s.handMap.vec .pairChain)
  trioChain : Ordered (s.handMap.vec .trioChain)
  trio : Ordered (s.handMap.vec .trio)
  trioOnce : s.handMap.vec .trio = [] ∨ ∀ r, s.cards r ≤ 2
  other : ∀ t, t ∉ pushed → s.handMap.vec t = []

/-- Before the first pass every vector is empty. -/
theorem arranged_start (p : Points) : Arranged ⟨p, .empty⟩ :=
  ⟨List.Pairwise.nil, List.Pairwise.nil, List.Pairwise.nil, Or.inl rfl, fun _ _ => rfl⟩

/-- A pass keeps it that leaves trios alone and pushes chains in order; where
the counts only fall, no rank is held three times that was not before. -/
theorem Arranged.pass {s s' : Split} {t : HandType} (hs : Arranged s) (hp : PassSpec t s s')
    (ht : t = .bomb ∨ t = .soloChain ∨ t = .pairChain ∨ t = .trioChain)
    (hnew : t = .pairChain ∨ t = .trioChain → Ordered (s'.handMap.vec t)) : Arranged s' := by
  have htrio : s'.handMap.vec .trio = s.handMap.vec .trio :=
    hp.other _ (by rcases ht with rfl | rfl | rfl | rfl <;> decide)
  refine ⟨?_, ?_, by rw [htrio]; exact hs.trio, ?_, fun t' ht' => ?_⟩
  · by_cases h : .pairChain = t
    · rw [h]
      exact hnew (Or.inl h.symm)
    · rw [hp.other _ h]
      exact hs.pairChain
  · by_cases h : .trioChain = t
    · rw [h]
      exact hnew (Or.inr h.symm)
    · rw [hp.other _ h]
      exact hs.trioChain
  · rw [htrio]
    exact hs.trioOnce.imp_right fun h r => Int.le_trans (hp.le r) (h r)
  · rw [hp.other t' fun h => ht' (by
      rw [h]
      rcases ht with rfl | rfl | rfl | rfl <;> decide)]
    exact hs.other t' ht'

section Passes

variable {p : Points} (hp : LegalCounts p)

include hp

/-- After `getBomb` and `getTrio` no rank is held three times, so no trio is
found a second time by `getNormalHand`. -/
theorem getTrio_arranged : Arranged (getTrio (getBomb ⟨p, .empty⟩)) := by
  have h0 := sound_start hp
  have hbomb := (arranged_start p).pass (getBomb_spec h0.nonneg) (Or.inl rfl)
    fun h => absurd h (by decide)
  have hspec := getTrio_spec (getBomb ⟨p, .empty⟩)
  have htrio : (getTrio (getBomb ⟨p, .empty⟩)).handMap.vec .trio
      = exacts (getBomb ⟨p, .empty⟩).cards 3 .trio (card2 + 1) := by
    rw [getTrio_vec, (getBomb_spec h0.nonneg).other _ (by decide)]
    rfl
  refine ⟨?_, ?_, by rw [htrio]; exact exacts_ordered .., Or.inr fun r => ?_, fun t ht => ?_⟩
  · rw [hspec.other _ (by decide)]
    exact hbomb.pairChain
  · rw [hspec.other _ (by decide)]
    exact hbomb.trioChain
  · rw [getTrio_cards]
    have h3 := getBomb_three hp h0 r
    have hle := (getBomb_spec h0.nonneg).le r
    have hj := hp.joker r
    have ht := hp.top r
    simp only [card2, blackJoker, redJoker] at h3 hj ht ⊢
    simp only at hle
    split <;> omega
  · rw [hspec.other t fun h => ht (by rw [h]; decide)]
    exact hbomb.other t ht

/-- What is handed to `getNormalHand`, splitter by splitter. Each vector of
chains is empty when its own pass begins, because the other passes leave it
alone. -/
theorem beforeNormal_arranged (x : Splitter) : Arranged (beforeNormal x p) := by
  have h0 := sound_start hp
  have hstart := arranged_start p
  have hbomb : ∀ {s}, Sound p s → Arranged s → Arranged (getBomb s) := fun h ha =>
    ha.pass (getBomb_spec h.nonneg) (Or.inl rfl) fun h => absurd h (by decide)
  have hsolo : ∀ {s}, Sound p s → s.handMap.vec .soloChain = [] → Arranged s →
      Arranged (getSoloChain s) := fun h hv ha =>
    ha.pass (getSoloChain_spec h.nonneg hv) (Or.inr (Or.inl rfl)) fun h => absurd h (by decide)
  have hpair : ∀ {s}, s.handMap.vec .pairChain = [] → Arranged s → Arranged (getPairChain s) :=
    fun hv ha => ha.pass (getPairChain_spec _) (Or.inr (Or.inr (Or.inl rfl)))
      fun _ => getPairChain_ordered hv
  have htrio : ∀ {s}, s.handMap.vec .trioChain = [] → Arranged s → Arranged (getTrioChain s) :=
    fun hv ha => ha.pass (getTrioChain_spec _) (Or.inr (Or.inr (Or.inr rfl)))
      fun _ => getTrioChain_ordered hv
  -- a pass over another vector leaves an empty one empty
  have hz : ∀ {t t' : HandType} {s s' : Split}, PassSpec t s s' → t' ≠ t →
      s.handMap.vec t' = [] → s'.handMap.vec t' = [] := fun hs h hv => (hs.other _ h).trans hv
  have hchains : ∀ t, t ≠ .soloChain → t ≠ .bomb →
      (getBomb (getSoloChain ⟨p, .empty⟩)).handMap.vec t = [] := fun t h1 h2 =>
    hz (getBomb_spec (h0.getSoloChain rfl).nonneg) h2 (hz (getSoloChain_spec h0.nonneg rfl) h1 rfl)
  have h1 := hbomb (h0.getSoloChain rfl) (hsolo h0 rfl hstart)
  rcases x with (_ | _ | _) | _ | _
  · refine hpair ?_ (htrio (hchains _ (by decide) (by decide)) h1)
    exact hz (getTrioChain_spec _) (by decide) (hchains _ (by decide) (by decide))
  · obtain ⟨hsound, hv⟩ := beforeSoloChain_sound hp (.kind .kind2)
    have hfirst : ∀ t, t ≠ .bomb → (getBomb ⟨p, .empty⟩).handMap.vec t = [] := fun t h =>
      hz (getBomb_spec h0.nonneg) h rfl
    refine hpair ?_ (hsolo hsound hv (htrio (hfirst _ (by decide)) (hbomb h0 hstart)))
    exact hz (getSoloChain_spec hsound.nonneg hv) (by decide)
      (hz (getTrioChain_spec _) (by decide) (hfirst _ (by decide)))
  · refine htrio ?_ (hpair (hchains _ (by decide) (by decide)) h1)
    exact hz (getPairChain_spec _) (by decide) (hchains _ (by decide) (by decide))
  · exact h1
  · obtain ⟨hsound, hv⟩ := beforeSoloChain_sound hp .kind5
    exact hsolo hsound hv (getTrio_arranged hp)

end Passes

/-! ## Bombs -/

/-- No rank is held four times, and not both jokers. -/
structure NoBomb (c : Points) : Prop where
  three : ∀ r, c r ≤ 3
  jokers : ¬(1 ≤ c blackJoker ∧ 1 ≤ c redJoker)

/-- Fewer cards make no bomb. -/
theorem NoBomb.le {c c' : Points} (h : NoBomb c) (hle : ∀ r, c' r ≤ c r) : NoBomb c' :=
  ⟨fun r => Int.le_trans (hle r) (h.three r), fun hj => h.jokers
    ⟨Int.le_trans hj.1 (hle _), Int.le_trans hj.2 (hle _)⟩⟩

/-- `getBomb` leaves no bomb and no rocket, from the legal counts of a sound
split. -/
theorem getBomb_noBomb {p : Points} (hp : LegalCounts p) {s : Split} (h : Sound p s) :
    NoBomb (getBomb s).cards := by
  refine ⟨fun r => ?_, fun hj => ?_⟩
  · have h3 := getBomb_three hp h r
    have hle := (getBomb_spec h.nonneg).le r
    have hf := h.frame.le r
    have hj := hp.joker r
    have ht := hp.top r
    simp only [card2, blackJoker, redJoker] at h3 hj ht
    omega
  · have h1 := h.frame.le blackJoker
    have h2 := h.frame.le redJoker
    have h1' := hp.joker blackJoker (Or.inl rfl)
    have h2' := hp.joker redJoker (Or.inr rfl)
    have hle1 := (getBomb_spec h.nonneg).le blackJoker
    have hle2 := (getBomb_spec h.nonneg).le redJoker
    -- with one of each there is a rocket, which takes them
    have hboth : s.cards blackJoker = 1 ∧ s.cards redJoker = 1 := ⟨by omega, by omega⟩
    have hgone : (getBomb s).cards blackJoker = 0 := by
      rw [getBomb_cards, if_neg fun h => absurd h.1 (by decide), deNuked,
        if_pos ⟨hboth, Or.inl rfl⟩]
    omega

/-- Nothing is left for `getNormalHand` to make a bomb of. -/
theorem NoBomb.bombs {s : Split} (h : NoBomb s.cards) :
    (getNormalHand s).handMap.vec .bomb = s.handMap.vec .bomb := by
  have hnukes : nukes s.cards = [] := if_neg fun hj => h.jokers ⟨by omega, by omega⟩
  have hnormals : normals (deNuked s.cards) .bomb (redJoker + 1) = [] := by
    rw [List.eq_nil_iff_forall_not_mem]
    intro x hx
    obtain ⟨-, i, -, hi, -⟩ := mem_normals.mp hx
    have h4 : HandType.bomb.mult = 4 := rfl
    have := deNuked_pos (c := s.cards) (r := i) (by omega)
    have := h.three i
    omega
  rw [getNormalHand_vec, if_pos rfl, hnukes, hnormals, List.append_nil, List.append_nil]

/-- What a splitter hands to `getBomb`. -/
def beforeBomb : Splitter → Points → Points
  | .kind .kind2, cards => cards
  | .kind5, cards => cards
  | _, cards => (getSoloChain ⟨cards, .empty⟩).cards

/-- The rocket, then the bombs. -/
def bombsOf (c : Points) : List Hand := nukes c ++ exacts (deNuked c) 4 .bomb (card2 + 1)

/-- Each splitter calls `getBomb` once. The passes after it cannot make a bomb,
so the vector of the bombs is what that call made of the counts before it. -/
theorem beforeNormal_bombs {p : Points} (hp : LegalCounts p) (x : Splitter) :
    (beforeNormal x p).handMap.vec .bomb = bombsOf (beforeBomb x p) ∧
      NoBomb (beforeNormal x p).cards := by
  have h0 := sound_start hp
  have h1 := h0.getSoloChain rfl
  have hvec : ∀ {s : Split}, s.handMap.vec .bomb = [] →
      (getBomb s).handMap.vec .bomb = bombsOf s.cards := by
    intro s hv
    rw [getBomb_vec, hv]
    rfl
  have hkeep : ∀ {t : HandType} {s s' : Split} {b : List Hand}, PassSpec t s s' → .bomb ≠ t →
      s.handMap.vec .bomb = b ∧ NoBomb s.cards → s'.handMap.vec .bomb = b ∧ NoBomb s'.cards :=
    fun hs ht hb => ⟨(hs.other _ ht).trans hb.1, hb.2.le hs.le⟩
  have hchains : (getBomb (getSoloChain ⟨p, .empty⟩)).handMap.vec .bomb
      = bombsOf (getSoloChain ⟨p, .empty⟩).cards ∧
      NoBomb (getBomb (getSoloChain ⟨p, .empty⟩)).cards :=
    ⟨hvec ((getSoloChain_spec h0.nonneg rfl).other _ (by decide)), getBomb_noBomb hp h1⟩
  have hfirst : (getBomb ⟨p, .empty⟩).handMap.vec .bomb = bombsOf p ∧
      NoBomb (getBomb ⟨p, .empty⟩).cards := ⟨hvec rfl, getBomb_noBomb hp h0⟩
  rcases x with (_ | _ | _) | _ | _
  · exact hkeep (getPairChain_spec _) (by decide)
      (hkeep (getTrioChain_spec _) (by decide) hchains)
  · obtain ⟨hsound, hv⟩ := beforeSoloChain_sound hp (.kind .kind2)
    exact hkeep (getPairChain_spec _) (by decide) (hkeep (getSoloChain_spec hsound.nonneg hv)
      (by decide) (hkeep (getTrioChain_spec _) (by decide) hfirst))
  · exact hkeep (getTrioChain_spec _) (by decide)
      (hkeep (getPairChain_spec _) (by decide) hchains)
  · exact hchains
  · obtain ⟨hsound, hv⟩ := beforeSoloChain_sound hp .kind5
    exact hkeep (getSoloChain_spec hsound.nonneg hv) (by decide)
      (hkeep (getTrio_spec _) (by decide) hfirst)

/-- The pile has a rocket and a bomb. -/
def RocketAndBomb (c : Points) : Prop :=
  (c blackJoker = 1 ∧ c redJoker = 1) ∧ ∃ r, r ≤ card2 ∧ c r = 4

/-- The rocket comes before the bombs, and has a higher key than any, so with
both the vector is out of order and with one kind it is in order. -/
theorem bombsOf_ordered (c : Points) : Ordered (bombsOf c) ↔ ¬RocketAndBomb c := by
  unfold bombsOf Ordered
  rw [List.pairwise_append]
  constructor
  · intro h hrb
    obtain ⟨hnuke, r, hr, h4⟩ := hrb
    have hmem : single .nuke blackJoker ∈ nukes c := by
      rw [nukes, if_pos hnuke]
      exact List.mem_cons_self
    have hbomb : single .bomb r ∈ exacts (deNuked c) 4 .bomb (card2 + 1) :=
      mem_exacts.mpr ⟨r, Nat.lt_succ_of_le hr, by rw [deNuked_eq hr]; exact h4, rfl⟩
    have hle : blackJoker ≤ r := h.2.2 _ hmem _ hbomb
    simp only [blackJoker, card2] at hle hr
    omega
  · intro h
    refine ⟨?_, exacts_ordered .., fun x hx y hy => ?_⟩
    · unfold nukes
      split
      · exact List.pairwise_singleton _ _
      · exact List.Pairwise.nil
    · exfalso
      obtain ⟨i, hi, h4, -⟩ := mem_exacts.mp hy
      have hi' : i ≤ card2 := Nat.lt_succ_iff.mp hi
      rw [deNuked_eq hi'] at h4
      refine h ⟨?_, i, hi', h4⟩
      by_contra hno
      rw [nukes, if_neg hno] at hx
      exact List.not_mem_nil hx

/-! ## The kicker pass -/

/-- The types the kicker pass changes the vectors of. -/
def kickTypes : List HandType :=
  [.solo, .pair, .trio, .trioChain, .trioSolo, .trioPair, .trioChainSolo, .trioChainPair]

/-- The kicked hands and the bodies still to come are in order. -/
def KicksOrdered (m : HandsMap) : Prop := ∀ bt t, Kicks bt t → Ordered (m.vec t ++ m.vec bt)

/-- What the kicker pass does to the order: it takes kickers out and moves
bodies over. -/
structure Regrouped (m m' : HandsMap) : Prop where
  kicks : KicksOrdered m → KicksOrdered m'
  single : ∀ t, t = .solo ∨ t = .pair → (m'.vec t).Sublist (m.vec t)
  other : ∀ t, t ∉ kickTypes → m'.vec t = m.vec t

namespace Regrouped

/-- Maps with the same vectors. -/
theorem of_vec {m m' : HandsMap} (h : ∀ t, m'.vec t = m.vec t) : Regrouped m m' := by
  refine ⟨fun hk bt t ht => ?_, fun t _ => ?_, fun t _ => h t⟩
  · rw [h t, h bt]
    exact hk bt t ht
  · rw [h t]

/-- The insertion of an empty vector. -/
theorem touch (m : HandsMap) (t : HandType) : Regrouped m (m.touch t) :=
  of_vec fun t' => HandsMap.vec_touch m t t'

/-- The pass is a sequence of attachments, and their effects compose. -/
theorem trans {m m' m'' : HandsMap} (h : Regrouped m m') (h' : Regrouped m' m'') :
    Regrouped m m'' :=
  ⟨fun hk => h'.kicks (h.kicks hk), fun t ht => (h'.single t ht).trans (h.single t ht),
    fun t ht => (h'.other t ht).trans (h.other t ht)⟩

/-- One attachment: the first body goes over to the kicked type behind those
there, and of the kickers' vector a part is left in its order. -/
theorem kick {m : HandsMap} {b : Hand} {rest l : List Hand} {bt st t : HandType} {ks : List Nat}
    (hst : st = .solo ∨ st = .pair) (hkick : Kicks bt t) (hb : m.vec bt = b :: rest)
    (hl : l.Sublist (m.vec st)) :
    Regrouped m (((m.put st l).push t { b with type := t, kicker := ks }).put bt rest) := by
  have hne : bt ≠ st ∧ t ≠ st ∧ bt ≠ t := by
    cases hkick <;> rcases hst with rfl | rfl <;> decide
  obtain ⟨hbst, htst, hbtt⟩ := hne
  have hvec : ∀ t', (((m.put st l).push t { b with type := t, kicker := ks }).put bt rest).vec t'
      = if t' = bt then rest
        else if t' = t then m.vec t ++ [{ b with type := t, kicker := ks }]
        else if t' = st then l else m.vec t' := by
    intro t'
    rw [HandsMap.vec_put, HandsMap.vec_push, HandsMap.vec_put_ne htst, HandsMap.vec_put]
  refine ⟨fun hk bt' t' ht' => ?_, fun t' ht' => ?_, fun t' ht' => ?_⟩
  · -- a body type and a kicked type are never each other, nor the type of the kickers
    have hne' : t' ≠ bt ∧ t' ≠ st ∧ bt' ≠ t ∧ bt' ≠ st ∧ (t' = t → bt' = bt) := by
      cases hkick <;> cases ht' <;> rcases hst with rfl | rfl <;> decide
    obtain ⟨h1, h2, h3, h4, h5⟩ := hne'
    have hold := hk bt' t' ht'
    rw [hvec, hvec, if_neg h1, if_neg h2, if_neg h3, if_neg h4]
    by_cases hbt : bt' = bt
    · subst hbt
      rw [hb] at hold
      rw [if_pos rfl]
      by_cases htt : t' = t
      · subst htt
        rw [if_pos rfl, List.append_assoc]
        exact (ordered_keys (by
          simp only [List.map_append, List.map_cons, List.singleton_append])).mp hold
      · rw [if_neg htt]
        exact hold.sublist ((List.Sublist.refl _).append (List.sublist_cons_self _ _))
    · rw [if_neg hbt, if_neg fun h => hbt (h5 h)]
      exact hold
  · have hne' : t' ≠ bt ∧ t' ≠ t := by
      cases hkick <;> rcases ht' with rfl | rfl <;> decide
    rw [hvec, if_neg hne'.1, if_neg hne'.2]
    split
    next h =>
      rw [h]
      exact hl
    next => exact List.Sublist.refl _
  · have hmem : bt ∈ kickTypes ∧ t ∈ kickTypes ∧ st ∈ kickTypes := by
      cases hkick <;> rcases hst with rfl | rfl <;> decide
    obtain ⟨h1, h2, h3⟩ := hmem
    have hne' : t' ≠ bt ∧ t' ≠ t ∧ t' ≠ st :=
      ⟨fun h => ht' (by rwa [h]), fun h => ht' (by rwa [h]), fun h => ht' (by rwa [h])⟩
    rw [hvec, if_neg hne'.1, if_neg hne'.2.1, if_neg hne'.2.2]

end Regrouped

/-- The loop over the trio chains, by induction on its rounds, each of which is
an attachment from the solos or from the pairs. -/
theorem kickTrioChains_regrouped (fuel : Nat) : ∀ m : HandsMap,
    Regrouped m (kickTrioChains fuel m) := by
  induction fuel with
  | zero => exact fun m => Regrouped.of_vec fun _ => rfl
  | succ fuel ih =>
    intro m
    unfold kickTrioChains
    split
    next => exact Regrouped.of_vec fun _ => rfl
    next tChain rest hv =>
      simp only []
      have h1 := Regrouped.touch m .solo
      have hv1 : (m.touch .solo).vec .trioChain = tChain :: rest := by rw [HandsMap.vec_touch, hv]
      generalize m.touch .solo = m₁ at *
      split
      next =>
        exact (h1.trans (Regrouped.kick (Or.inl rfl) Kicks.trioChainSolo hv1
          (pickKickers_sub ..).1)).trans (ih _)
      next =>
        have h2 := Regrouped.touch m₁ .pair
        have hv2 : (m₁.touch .pair).vec .trioChain = tChain :: rest := by
          rw [HandsMap.vec_touch, hv1]
        generalize m₁.touch .pair = m₂ at *
        split
        next =>
          exact ((h1.trans h2).trans (Regrouped.kick (Or.inr rfl) Kicks.trioChainPair hv2
            (pickKickers_sub ..).1)).trans (ih _)
        next => exact h1.trans h2

/-- The loop over the trios, likewise; a trio without kickers stays in its
vector and ends the loop. -/
theorem kickTrios_regrouped (fuel : Nat) : ∀ m : HandsMap, Regrouped m (kickTrios fuel m) := by
  induction fuel with
  | zero => exact fun m => Regrouped.of_vec fun _ => rfl
  | succ fuel ih =>
    intro m
    unfold kickTrios
    split
    next => exact Regrouped.of_vec fun _ => rfl
    next trio rest hv =>
      simp only []
      have h1 := (Regrouped.touch m .solo).trans (Regrouped.touch _ .pair)
      have hv1 : ((m.touch .solo).touch .pair).vec .trio = trio :: rest := by
        rw [HandsMap.vec_touch, HandsMap.vec_touch, hv]
      generalize (m.touch .solo).touch .pair = m₁ at *
      have htake : ∀ {st t : HandType} {s : Hand} {l : List Hand}, st = .solo ∨ st = .pair →
          Kicks .trio t → m₁.vec st = s :: l →
          Regrouped m (kickTrios fuel (((m₁.put st l).push t
            { trio with type := t, kicker := [s.keyPoint] }).put .trio rest)) := by
        intro st t s l hst hk hs
        exact (h1.trans (Regrouped.kick hst hk hv1
          (by rw [hs]; exact List.sublist_cons_self _ _))).trans (ih _)
      split
      next => exact h1
      next p pairs _ hp => exact htake (Or.inr rfl) Kicks.trioPair hp
      next s solos hs _ => exact htake (Or.inl rfl) Kicks.trioSolo hs
      next s solos p pairs hs hp =>
        split
        · exact htake (Or.inr rfl) Kicks.trioPair hp
        · exact htake (Or.inl rfl) Kicks.trioSolo hs

/-- The kicker pass as a whole, or nothing where it is not asked for. -/
theorem withKickers_regrouped (searchKicker : Bool) (s : Split) :
    Regrouped s.handMap (withKickers searchKicker s) := by
  unfold withKickers
  split
  · unfold findKickerForTrioOrTrioChain
    exact (((Regrouped.touch _ .trioChain).trans (kickTrioChains_regrouped _ _)).trans
      (Regrouped.touch _ .trio)).trans (kickTrios_regrouped _ _)
  · exact Regrouped.of_vec fun _ => rfl

/-! ## The vectors of a splitter -/

section Splitters

variable {p : Points}

/-- The hands of the last pass are pushed from the lowest rank on. -/
theorem normals_ordered (c : Points) (t : HandType) (n : Nat) : Ordered (normals c t n) := by
  unfold normals
  split
  · exact exacts_ordered ..
  · exact List.Pairwise.nil

/-- What `getNormalHand` leaves in the vectors other than the bombs' and the
solo chains'. -/
theorem Arranged.normal {s : Split} (hs : Arranged s) :
    KicksOrdered (getNormalHand s).handMap ∧
      ∀ t, t ≠ .bomb → t ≠ .soloChain → Ordered ((getNormalHand s).handMap.vec t) := by
  have hvec : ∀ t, t ≠ .bomb → (getNormalHand s).handMap.vec t
      = s.handMap.vec t ++ normals (deNuked s.cards) t (redJoker + 1) := by
    intro t ht
    rw [getNormalHand_vec, if_neg ht, List.append_nil]
  have hkept : ∀ t, t ≠ .bomb → t.isSingle = false →
      (getNormalHand s).handMap.vec t = s.handMap.vec t := by
    intro t ht hs'
    rw [hvec t ht, normals, hs']
    exact List.append_nil _
  have hord : ∀ t, t ≠ .bomb → t ≠ .soloChain → Ordered ((getNormalHand s).handMap.vec t) := by
    intro t hb hc
    by_cases hmem : t ∈ pushed
    · simp only [pushed, List.mem_cons, List.not_mem_nil, or_false] at hmem
      rcases hmem with rfl | rfl | rfl | rfl | rfl
      · exact absurd rfl hb
      · exact absurd rfl hc
      · rw [hkept _ hb rfl]
        exact hs.pairChain
      · rw [hkept _ hb rfl]
        exact hs.trioChain
      · rw [hvec _ hb]
        rcases hs.trioOnce with hnone | hfew
        · rw [hnone, List.nil_append]
          exact normals_ordered ..
        · -- the trios are all there already
          have hnil : normals (deNuked s.cards) .trio (redJoker + 1) = [] := by
            rw [List.eq_nil_iff_forall_not_mem]
            intro h hh
            obtain ⟨-, i, -, hi, -⟩ := mem_normals.mp hh
            have h3 : HandType.trio.mult = 3 := rfl
            have := deNuked_pos (c := s.cards) (r := i) (by omega)
            have := hfew i
            omega
          rw [hnil, List.append_nil]
          exact hs.trio
    · rw [hvec t hb, hs.other t hmem, List.nil_append]
      exact normals_ordered ..
  refine ⟨fun bt t hk => ?_, hord⟩
  -- nothing is kicked yet
  have hnone : (getNormalHand s).handMap.vec t = [] := by
    have hplain : t ≠ .bomb ∧ t.isSingle = false ∧ t ∉ pushed := by cases hk <;> decide
    rw [hkept t hplain.1 hplain.2.1, hs.other t hplain.2.2]
  have hbody : bt ≠ .bomb ∧ bt ≠ .soloChain := by cases hk <;> decide
  rw [hnone]
  exact hord bt hbody.1 hbody.2

/-- Apart from bombs and solo chains a splitter's vectors are in order: the
bodies and the hands they are kicked to are parts of one ordered vector, and so
are the kickers that are left. -/
theorem splitInto_ordered_other (hp : LegalCounts p) (x : Splitter) (searchKicker : Bool)
    {t : HandType} (hb : t ≠ .bomb) (hc : t ≠ .soloChain) :
    Ordered ((splitInto x p searchKicker).vec t) := by
  obtain ⟨hkicks, hord⟩ := (beforeNormal_arranged hp x).normal
  have hre := withKickers_regrouped searchKicker (getNormalHand (beforeNormal x p))
  have hkicks' := hre.kicks hkicks
  rw [splitInto_eq]
  have hbody : ∀ {bt kt : HandType}, Kicks bt kt →
      Ordered ((withKickers searchKicker (getNormalHand (beforeNormal x p))).vec bt) ∧
        Ordered ((withKickers searchKicker (getNormalHand (beforeNormal x p))).vec kt) := fun hk =>
    ⟨(hkicks' _ _ hk).sublist (List.sublist_append_right ..),
      (hkicks' _ _ hk).sublist (List.sublist_append_left ..)⟩
  by_cases hmem : t ∈ kickTypes
  · simp only [kickTypes, List.mem_cons, List.not_mem_nil, or_false] at hmem
    rcases hmem with rfl | rfl | rfl | rfl | rfl | rfl | rfl | rfl
    · exact (hord _ hb hc).sublist (hre.single _ (Or.inl rfl))
    · exact (hord _ hb hc).sublist (hre.single _ (Or.inr rfl))
    · exact (hbody Kicks.trioSolo).1
    · exact (hbody Kicks.trioChainSolo).1
    · exact (hbody Kicks.trioSolo).2
    · exact (hbody Kicks.trioPair).2
    · exact (hbody Kicks.trioChainSolo).2
    · exact (hbody Kicks.trioChainPair).2
  · rw [hre.other t hmem]
    exact hord t hb hc

/-- The bombs are in order unless there is a rocket beside them. -/
theorem splitInto_bombs_iff (hp : LegalCounts p) (x : Splitter) (searchKicker : Bool) :
    Ordered ((splitInto x p searchKicker).vec .bomb) ↔ ¬RocketAndBomb (beforeBomb x p) := by
  obtain ⟨hvec, hno⟩ := beforeNormal_bombs hp x
  have hre := withKickers_regrouped searchKicker (getNormalHand (beforeNormal x p))
  rw [splitInto_eq, hre.other _ (by decide), hno.bombs, hvec, bombsOf_ordered]

/-- The chains found before the trimming loops, with the cards beside them. -/
def foundIn (x : Splitter) (p : Points) : Pile := chainsFound (beforeSoloChain x p).cards

/-- The solo chains are in order unless one overtakes another. -/
theorem splitInto_soloChains_iff (hp : LegalHolding p) (x : Splitter) (searchKicker : Bool) :
    Ordered ((splitInto x p searchKicker).vec .soloChain) ↔
      (foundIn x p).hands.Pairwise fun h h' => ¬Overtakes (foundIn x p).cards h h' := by
  obtain ⟨hs, hv⟩ := beforeSoloChain_sound hp.toLegalCounts x
  have hfound := chainsFound_found hs.nonneg
  have hle := hs.frame.le
  rw [splitInto_soloChain hp.toLegalCounts, getSoloChain, overVector_vec, hv]
  exact hfound.ordered_iff (fun r => Int.le_trans (hle r) (hp.four r))
    (Int.le_trans (Points.total_mono fun r _ => hle r) hp.size)

/-- A splitter's vectors are in order when it does not find both a rocket and a
bomb, and no solo chain overtakes a later one, and only then. -/
theorem splitInto_ordered_iff (hp : LegalHolding p) (x : Splitter) (searchKicker : Bool) :
    (∀ t, Ordered ((splitInto x p searchKicker).vec t)) ↔
      ¬RocketAndBomb (beforeBomb x p) ∧
        (foundIn x p).hands.Pairwise fun h h' => ¬Overtakes (foundIn x p).cards h h' := by
  rw [← splitInto_bombs_iff hp.toLegalCounts x searchKicker,
    ← splitInto_soloChains_iff hp x searchKicker]
  refine ⟨fun h => ⟨h .bomb, h .soloChain⟩, fun h t => ?_⟩
  by_cases hb : t = .bomb
  · rw [hb]
    exact h.1
  · by_cases hc : t = .soloChain
    · rw [hc]
      exact h.2
    · exact splitInto_ordered_other hp.toLegalCounts x searchKicker hb hc

end Splitters

/-! ## A rocket beside a bomb, and a chain overtaken -/

/-- Four threes and the two jokers. -/
def threesAndJokers : Points := Points.ofList [4, 0, 0, 0, 0, 0, 0, 0, 0, 0, 0, 0, 0, 1, 1]

theorem legalHolding_threesAndJokers : LegalHolding threesAndJokers :=
  legalHolding_ofList (by decide) (by decide) (by decide)

theorem splitInto_ordered_iff_jokers :
    (∀ t, Ordered ((splitInto .kind4 threesAndJokers true).vec t)) ↔
      ¬RocketAndBomb (beforeBomb .kind4 threesAndJokers) ∧
        (foundIn .kind4 threesAndJokers).hands.Pairwise fun h h' =>
          ¬Overtakes (foundIn .kind4 threesAndJokers).cards h h' :=
  splitInto_ordered_iff legalHolding_threesAndJokers .kind4 true

/-- Four nines, three tens, three jacks, four queens, two kings and an ace. -/
def nineToAce : Points := Points.ofList [0, 0, 0, 0, 0, 0, 4, 3, 3, 4, 2, 1]

/-- The rocket stands before the bomb, and the chain from the ten before the
one from the nine. -/
theorem splitInto_unordered :
    (LegalHolding threesAndJokers ∧ ¬Ordered ((splitInto .kind4 threesAndJokers true).vec .bomb)) ∧
      LegalHolding nineToAce ∧ ¬Ordered ((splitInto .kind4 nineToAce true).vec .soloChain) :=
  ⟨⟨legalHolding_threesAndJokers, by decide +kernel⟩,
    legalHolding_ofList (by decide) (by decide) (by decide), by decide +kernel⟩

end RobotDdz
