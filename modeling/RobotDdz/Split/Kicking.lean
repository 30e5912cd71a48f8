import RobotDdz.Split.Kinds
import RobotDdz.Split.Chains

/-!
# What the kicker pass does

`findKickerForTrioOrTrioChain` only regroups: `KickStep` is the frame of one
attachment and of the whole pass, with equal sums and every new hand of a shape
`getHand` recognises. It needs what `KickReady` says of the map before it: the
solos and pairs in increasing order, and none of them on a rank of a trio or a
trio chain. Without the order `handToPointsArray` would overwrite where the
account adds.

One attachment takes the first body of a vector, picks as many kickers as the
body is wide from the solos or the pairs, and pushes the two together under the
kicked type. `KickReady.kicked` shows that the result is a hand of the game,
and `kick_step` that nothing is lost. The loops repeat this: over the trio
chains until one finds no kickers, then over the trios. Both are by induction
on their fuel, and what the next round relies on survives by `KickReady.step`.

Mirroring notes vs `AIUtils.cpp`:
- A chain is given solos if enough of them lie outside its ranks, two jokers
  together not counted; pairs if not, and nothing if there are too few of both.
  The loop then ends, also for the chains behind it.
- The hands picked are erased from their vectors one by one. `pickKickers`
  returns them and what is left.
-/

namespace RobotDdz

/-- What the kicker pass relies on. -/
structure KickReady (m : HandsMap) : Prop where
  bare : ∀ t, t = .solo ∨ t = .pair ∨ t = .trio ∨ t = .trioChain → ∀ h ∈ m.vec t, Bare t h
  soloUp : (m.vec .solo).Pairwise fun h h' => h.keyPoint < h'.keyPoint
  pairUp : (m.vec .pair).Pairwise fun h h' => h.keyPoint < h'.keyPoint
  apart : ∀ t, t = .trio ∨ t = .trioChain → ∀ b ∈ m.vec t, ∀ t', t' = .solo ∨ t' = .pair →
    ∀ h ∈ m.vec t', h.keyPoint < b.keyPoint ∨ b.keyPoint + b.width ≤ h.keyPoint
  jokers : ¬((∃ h ∈ m.vec .solo, h.keyPoint = blackJoker) ∧
    ∃ h ∈ m.vec .solo, h.keyPoint = redJoker)

/-- The frame of the kicker pass. -/
structure KickStep (m m' : HandsMap) : Prop where
  sum : ∀ r, m'.sum r = m.sum r
  shrinks : ∀ t, t = .solo ∨ t = .pair ∨ t = .trio ∨ t = .trioChain →
    (m'.vec t).Sublist (m.vec t)
  new : ∀ t, ∀ h ∈ m'.vec t, h ∈ m.vec t ∨ h.Shaped ∧ h.type = t
  kept : m'.vec .soloChain = m.vec .soloChain

namespace KickStep

/-- The insertion of an empty vector regroups nothing. -/
theorem touch (m : HandsMap) (t : HandType) : KickStep m (m.touch t) :=
  ⟨fun r => HandsMap.sum_touch m t r, fun t' _ => by rw [HandsMap.vec_touch],
    fun t' h hh => Or.inl (by rwa [HandsMap.vec_touch] at hh), HandsMap.vec_touch ..⟩

/-- A pass that does nothing. -/
theorem refl (m : HandsMap) : KickStep m m :=
  ⟨fun _ => rfl, fun _ _ => List.Sublist.refl _, fun _ _ hh => Or.inl hh, rfl⟩

/-- Two attachments, one after the other. -/
theorem trans {m m' m'' : HandsMap} (h : KickStep m m') (h' : KickStep m' m'') :
    KickStep m m'' := by
  refine ⟨fun r => (h'.sum r).trans (h.sum r), fun t ht => (h'.shrinks t ht).trans (h.shrinks t ht),
    fun t x hx => ?_, h'.kept.trans h.kept⟩
  rcases h'.new t x hx with hx' | hx'
  · exact h.new t x hx'
  · exact Or.inr hx'

end KickStep

/-- What the pass relies on survives the pass. -/
theorem KickReady.step {m m' : HandsMap} (hr : KickReady m) (hs : KickStep m m') :
    KickReady m' := by
  have hsolo := hs.shrinks .solo (by simp)
  have hpair := hs.shrinks .pair (by simp)
  refine ⟨fun t ht h hh => hr.bare t ht h ((hs.shrinks t ht).subset hh), hr.soloUp.sublist hsolo,
    hr.pairUp.sublist hpair, fun t ht b hb t' ht' h hh => ?_, fun ⟨⟨x, hx, ex⟩, ⟨y, hy, ey⟩⟩ => ?_⟩
  · exact hr.apart t ht b ((hs.shrinks t (by tauto)).subset hb) t' ht' h
      ((hs.shrinks t' (by tauto)).subset hh)
  · exact hr.jokers ⟨⟨x, hsolo.subset hx, ex⟩, ⟨y, hsolo.subset hy, ey⟩⟩

/-! ## Picking kickers -/

/-- `pickKickers` splits off the first hands that pass, in order. -/
theorem pickKickers_sub (ok : Hand → Bool) (n : Nat) (hands : List Hand) :
    (pickKickers ok n hands).2.Sublist hands ∧
      (pickKickers ok n hands).1.Sublist (hands.map Hand.keyPoint) ∧
      ∀ k ∈ (pickKickers ok n hands).1, ∃ h ∈ hands, ok h = true ∧ h.keyPoint = k := by
  fun_induction pickKickers ok n hands with
  | case1 hands => simp
  | case2 n => simp
  | case3 n h hands hok r ih =>
    obtain ⟨h1, h2, h3⟩ := ih
    refine ⟨h1.cons h, h2.cons_cons _, fun k hk => ?_⟩
    rcases List.mem_cons.mp hk with rfl | hk
    · exact ⟨h, List.mem_cons_self, hok, rfl⟩
    · obtain ⟨x, hx, hx'⟩ := h3 k hk
      exact ⟨x, List.mem_cons_of_mem _ hx, hx'⟩
  | case4 n h hands hok r ih =>
    obtain ⟨h1, h2, h3⟩ := ih
    refine ⟨h1.cons_cons h, h2.cons _, fun k hk => ?_⟩
    obtain ⟨x, hx, hx'⟩ := h3 k hk
    exact ⟨x, List.mem_cons_of_mem _ hx, hx'⟩

/-- It finds as many as it is asked for, when there are that many. -/
theorem pickKickers_length (ok : Hand → Bool) (n : Nat) (hands : List Hand)
    (hn : n ≤ hands.countP ok) : (pickKickers ok n hands).1.length = n := by
  fun_induction pickKickers ok n hands with
  | case1 hands => rfl
  | case2 n hne => simp at hn; exact (hne hn).elim
  | case3 n h hands hok r ih =>
    rw [List.countP_cons, if_pos hok] at hn
    rw [List.length_cons, ih (by omega)]
  | case4 n h hands hok r ih =>
    rw [List.countP_cons, if_neg hok] at hn
    exact ih hn

/-- The cards of the picked hands, rank by rank: a picked hand is gone and its
rank is among the kickers, once, because the keys increase. -/
theorem pickKickers_sum {t : HandType} (ht : t.isSingle = true) (ok : Hand → Bool) (n : Nat)
    (hands : List Hand) (htype : ∀ h ∈ hands, h.type = t)
    (hup : hands.Pairwise fun h h' => h.keyPoint < h'.keyPoint) (r : Nat) :
    handsSum hands r = handsSum (pickKickers ok n hands).2 r
      + if r ∈ (pickKickers ok n hands).1 then t.mult else 0 := by
  fun_induction pickKickers ok n hands with
  | case1 hands => simp
  | case2 n => simp
  | case3 n h hands hok r' ih =>
    obtain ⟨hlt, hup'⟩ := List.pairwise_cons.mp hup
    have hi := ih (fun x hx => htype x (List.mem_cons_of_mem _ hx)) hup'
    have hh := htype h List.mem_cons_self
    -- the keys increase, so the later picks have other ranks
    have hnot : h.keyPoint ∉ r'.1 := fun hk => by
      obtain ⟨x, hx, -, hx'⟩ := (pickKickers_sub ok n hands).2.2 _ hk
      have := hlt x hx
      omega
    rw [handsSum_cons, hi, handToPointsArray_ofSingle (by rw [hh]; exact ht), hh]
    by_cases hr : r = h.keyPoint
    · subst hr
      simp only [r'] at hnot
      simp only [r', if_neg hnot, List.mem_cons, true_or, if_true]
      omega
    · simp only [r', List.mem_cons, hr, false_or, if_false]
      omega
  | case4 n h hands hok r' ih =>
    obtain ⟨-, hup'⟩ := List.pairwise_cons.mp hup
    have hi := ih (fun x hx => htype x (List.mem_cons_of_mem _ hx)) hup'
    rw [handsSum_cons, handsSum_cons, hi]
    simp only [r']
    omega

/-! ## Attaching kickers -/

/-- The bare types and the kicked types they become. -/
inductive Kicks : HandType → HandType → Prop
  | trioSolo : Kicks .trio .trioSolo
  | trioPair : Kicks .trio .trioPair
  | trioChainSolo : Kicks .trioChain .trioChainSolo
  | trioChainPair : Kicks .trioChain .trioChainPair

/-- A body with kickers outside it has the shape of its new type, and its cards
are those of the body and the kickers. -/
theorem kick_shaped {b : Hand} {t : HandType} {ks : List Nat} (hk : Kicks b.type t)
    (hb : b.type.BodyOk b.keyPoint b.len) (hlen : ks.length = b.width)
    (hup : ks.Pairwise (· < ·)) (hout : ∀ k ∈ ks, k < b.keyPoint ∨ b.keyPoint + b.width ≤ k)
    (htop : ∀ k ∈ ks, k ≤ redJoker) (hjok : ¬(blackJoker ∈ ks ∧ redJoker ∈ ks)) :
    Hand.Shaped { b with type := t, kicker := ks } ∧
      ∀ r, handToPointsArray { b with type := t, kicker := ks } r
        = handToPointsArray b r + if r ∈ ks then t.kickMult else 0 := by
  obtain ⟨type, key, len, kicker⟩ := b
  have hwidth : Hand.width ⟨t, key, len, ks⟩ = Hand.width ⟨type, key, len, kicker⟩ := by
    cases hk <;> rfl
  -- a kicked type uses as many kickers as its body has ranks, here all of them
  have hks : Hand.kickers ⟨t, key, len, ks⟩ = ks := by
    rw [Hand.kickers]
    refine List.take_of_length_le (Nat.le_of_eq ?_)
    cases hk <;> exact hlen
  have hcount : Hand.kickerCount ⟨t, key, len, ks⟩ = ks.length := by
    cases hk <;> exact hlen.symm
  have hsh : Hand.Shaped ⟨t, key, len, ks⟩ := by
    refine ⟨?_, by rw [hks, hcount], by rwa [hks], ?_, by rwa [hks], by rwa [hks]⟩
    · cases hk <;> simp only [HandType.BodyOk, card2, redJoker] at hb ⊢ <;> omega
    · rw [hks, hwidth]
      exact hout
  have hk0 : Hand.kickers ⟨type, key, len, kicker⟩ = [] := by
    cases hk <;> rfl
  have hplain : Hand.Placed ⟨type, key, len, kicker⟩ := by
    refine ⟨fun ht => ?_, ?_, by simp [hk0]⟩
    · cases hk <;> exact absurd ht (by simp)
    · cases hk <;> exact Nat.zero_le _
  have hmult : t.mult = type.mult := by cases hk <;> rfl
  refine ⟨hsh, fun r => ?_⟩
  rw [handToPointsArray_apply hsh.placed, handToPointsArray_apply hplain, hks, hk0, hwidth]
  simp only [List.not_mem_nil, if_false, hmult]
  by_cases hin : key ≤ r ∧ r < key + Hand.width ⟨type, key, len, kicker⟩
  · -- on the body no kicker adds anything
    have hr : r ∉ ks := fun h => by
      have := hout r h
      simp only at this
      omega
    rw [if_pos hin, if_pos hin, if_neg hr]
    omega
  · rw [if_neg hin, if_neg hin]
    omega

section Attach

variable {m : HandsMap} (hr : KickReady m) {b : Hand} {rest : List Hand} {bt st t : HandType}

include hr

/-- A body to be kicked has its vector's type, and the shape of it. -/
theorem KickReady.body (hbt : bt = .trio ∨ bt = .trioChain) (hb : b ∈ m.vec bt) :
    b.type = bt ∧ b.type.BodyOk b.keyPoint b.len := by
  have hbare := hr.bare bt (by tauto) b hb
  have htype : b.type = bt := by
    rcases hbare.type with h | ⟨h, -⟩
    · exact h
    · rcases hbt with rfl | rfl <;> exact HandType.noConfusion h
  refine ⟨htype, ?_⟩
  rcases hbare.body with h | rfl
  · exact h
  · rw [← htype] at hbt
    exact absurd hbt (by decide)

/-- A hand that may become a kicker has its vector's type. -/
theorem KickReady.kicker_type (hst : st = .solo ∨ st = .pair) {h : Hand} (hh : h ∈ m.vec st) :
    h.type = st := by
  rcases (hr.bare st (by tauto) h hh).type with h' | ⟨h', -⟩
  · exact h'
  · rcases hst with rfl | rfl <;> exact HandType.noConfusion h'

/-- The hands that may become kickers are in strictly increasing order. -/
theorem KickReady.kicker_up (hst : st = .solo ∨ st = .pair) :
    (m.vec st).Pairwise fun h h' => h.keyPoint < h'.keyPoint := by
  rcases hst with rfl | rfl
  · exact hr.soloUp
  · exact hr.pairUp

/-- Their ranks are those of cards. -/
theorem KickReady.kicker_top (hst : st = .solo ∨ st = .pair) {h : Hand} (hh : h ∈ m.vec st) :
    h.keyPoint ≤ redJoker := by
  rcases (hr.bare st (by tauto) h hh).shaped with hs | rfl
  · have htop := hs.top
    have hw : h.width = 1 := by
      rw [Hand.width, hr.kicker_type hst hh]
      rcases hst with rfl | rfl <;> rfl
    omega
  · decide

/-- The jokers are never both kickers: there is no pair of jokers, and of the
solos at most one is a joker. -/
theorem KickReady.kicker_jokers (hst : st = .solo ∨ st = .pair) :
    ¬((∃ h ∈ m.vec st, h.keyPoint = blackJoker) ∧ ∃ h ∈ m.vec st, h.keyPoint = redJoker) := by
  intro hboth
  obtain ⟨⟨h, hh, ex⟩, h', hh', ey⟩ := hboth
  rcases hst with rfl | rfl
  · exact hr.jokers ⟨⟨h, hh, ex⟩, ⟨h', hh', ey⟩⟩
  · rcases (hr.bare .pair (by simp) h hh).body with hbo | rfl
    · rw [hr.kicker_type (Or.inr rfl) hh, ex] at hbo
      exact absurd hbo (by simp [HandType.BodyOk])
    · exact absurd ex (by decide)

/-- A body and kickers picked from the vector of type `st` make a shaped hand:
they are in order, off the body and not both jokers, and the array has the
cards of both. -/
theorem KickReady.kicked (hst : st = .solo ∨ st = .pair) (hkick : Kicks bt t)
    (hb : b ∈ m.vec bt) {ks : List Nat} (hlen : ks.length = b.width)
    (hsub : ks.Sublist ((m.vec st).map Hand.keyPoint)) :
    Hand.Shaped { b with type := t, kicker := ks } ∧
      ∀ r, handToPointsArray { b with type := t, kicker := ks } r
        = handToPointsArray b r + if r ∈ ks then t.kickMult else 0 := by
  have hbt : bt = .trio ∨ bt = .trioChain := by
    cases hkick <;> simp
  obtain ⟨htype, hbody⟩ := hr.body hbt hb
  have hmem : ∀ k ∈ ks, ∃ h ∈ m.vec st, h.keyPoint = k := fun k hk =>
    List.mem_map.mp (hsub.subset hk)
  refine kick_shaped (by rwa [htype]) hbody hlen
    ((List.pairwise_map.mpr (hr.kicker_up hst)).sublist hsub) ?_ ?_ ?_
  · intro k hk
    obtain ⟨h, hh, rfl⟩ := hmem k hk
    exact hr.apart bt hbt b hb st hst h hh
  · intro k hk
    obtain ⟨h, hh, rfl⟩ := hmem k hk
    exact hr.kicker_top hst hh
  · intro hboth
    exact hr.kicker_jokers hst ⟨hmem _ hboth.1, hmem _ hboth.2⟩

/-- One attachment: kickers from the vector of type `st` to the first body of
the vector of type `bt`. -/
theorem kick_step (hst : st = .solo ∨ st = .pair) (hkick : Kicks bt t)
    (hmult : t.kickMult = st.mult) (hb : m.vec bt = b :: rest) (ok : Hand → Bool)
    (hn : b.width ≤ (m.vec st).countP ok) :
    KickStep m (((m.put st (pickKickers ok b.width (m.vec st)).2).push t
      { b with type := t, kicker := (pickKickers ok b.width (m.vec st)).1 }).put bt rest) := by
  have hbmem : b ∈ m.vec bt := by rw [hb]; exact List.mem_cons_self
  obtain ⟨hsub, hsubk, -⟩ := pickKickers_sub ok b.width (m.vec st)
  have hlen := pickKickers_length ok b.width (m.vec st) hn
  have hsum := pickKickers_sum (t := st) (by rcases hst with rfl | rfl <;> rfl) ok b.width
    (m.vec st) (fun _ hh => hr.kicker_type hst hh) (hr.kicker_up hst)
  generalize pickKickers ok b.width (m.vec st) = k at *
  obtain ⟨hshaped, harray⟩ := hr.kicked hst hkick hbmem hlen hsubk
  -- the body's vector, the kickers' and the new hand's are three different ones
  have hne : t ≠ .solo ∧ t ≠ .pair ∧ t ≠ .trio ∧ t ≠ .trioChain ∧ bt ≠ st ∧ t ≠ st ∧ bt ≠ t := by
    cases hkick <;> rcases hst with rfl | rfl <;> decide
  obtain ⟨ht1, ht2, ht3, ht4, hbst, htst, htbt⟩ := hne
  refine ⟨fun r => ?_, fun t' ht' => ?_, fun t' h hh => ?_, ?_⟩
  · -- the cards: what leaves the two vectors is in the new hand
    have h1 := hsum r
    have h2 := harray r
    rw [hmult] at h2
    rw [HandsMap.sum_put, HandsMap.sum_push, HandsMap.sum_put, h2, HandsMap.vec_push,
      if_neg htbt, HandsMap.vec_put_ne hbst, hb, handsSum_cons, h1]
    omega
  · have htt' : t' ≠ t := by
      intro heq
      subst heq
      tauto
    rw [HandsMap.vec_put, HandsMap.vec_push, if_neg htt', HandsMap.vec_put]
    split
    next h => rw [h, hb]; exact List.sublist_cons_self _ _
    next =>
      split
      next h => rw [h]; exact hsub
      next => exact List.Sublist.refl _
  · -- a hand of the new map was there, or is the new one
    rw [HandsMap.vec_put, HandsMap.vec_push, HandsMap.vec_put_ne htst, HandsMap.vec_put] at hh
    split at hh
    next h' => left; rw [h', hb]; exact List.mem_cons_of_mem _ hh
    next =>
      split at hh
      next h' =>
        rw [List.mem_append, List.mem_singleton] at hh
        rcases hh with hh | rfl
        · left; rwa [h']
        · right; exact ⟨hshaped, h'.symm⟩
      next =>
        split at hh
        next h' => left; rw [h']; exact hsub.subset hh
        next => exact Or.inl hh
  · have hchain : .soloChain ≠ bt ∧ .soloChain ≠ t ∧ .soloChain ≠ st := by
      cases hkick <;> rcases hst with rfl | rfl <;> decide
    rw [HandsMap.vec_put_ne hchain.1, HandsMap.vec_push, if_neg hchain.2.1,
      HandsMap.vec_put_ne hchain.2.2]

end Attach

/-! ## The two loops -/

/-- A chain is only given solos when enough of them lie outside it. -/
theorem le_countP_of_useful {tChain : Hand} {solos : List Hand}
    (h : (tChain.len : Int) ≤ usefulSoloCount tChain solos) :
    tChain.len ≤ solos.countP (outsideChain tChain) := by
  unfold usefulSoloCount at h
  simp only [] at h
  split at h <;> omega

/-- The loop over the trio chains, by induction on its rounds: a chain gets
solos off its body or pairs, or the loop stops there. -/
theorem kickTrioChains_step (fuel : Nat) : ∀ {m : HandsMap}, KickReady m →
    KickStep m (kickTrioChains fuel m) := by
  induction fuel with
  | zero => intro m _; exact KickStep.refl m
  | succ fuel ih =>
    intro m hr
    unfold kickTrioChains
    split
    next => exact KickStep.refl m
    next tChain rest hv =>
      simp only []
      have h1 := KickStep.touch m .solo
      have hr1 := hr.step h1
      have hv1 : (m.touch .solo).vec .trioChain = tChain :: rest := by rw [HandsMap.vec_touch, hv]
      generalize m.touch .solo = m₁ at *
      have hw : tChain.width = tChain.len := by
        have hb := hr1.bare .trioChain (by simp) tChain (by rw [hv1]; exact List.mem_cons_self)
        rcases hb.type with h | ⟨h, -⟩
        · rw [Hand.width, h]
        · exact HandType.noConfusion h
      -- solos when enough of them lie outside the chain, else pairs, else the loop stops
      split
      next huse =>
        have h2 := kick_step hr1 (Or.inl rfl) Kicks.trioChainSolo rfl hv1 (outsideChain tChain)
          (by rw [hw]; exact le_countP_of_useful huse)
        rw [hw] at h2
        exact (h1.trans h2).trans (ih (hr1.step h2))
      next =>
        have h2 := KickStep.touch m₁ .pair
        have hr2 := hr1.step h2
        have hv2 : (m₁.touch .pair).vec .trioChain = tChain :: rest := by
          rw [HandsMap.vec_touch, hv1]
        generalize m₁.touch .pair = m₂ at *
        split
        next huse =>
          have h3 := kick_step hr2 (Or.inr rfl) Kicks.trioChainPair rfl hv2 (fun _ => true)
            (by rw [hw, List.countP_true]; exact huse)
          rw [hw] at h3
          exact ((h1.trans h2).trans h3).trans (ih (hr2.step h3))
        next => exact h1.trans h2

/-- The loop over the trios, likewise: a trio gets the lower of the first solo
and the first pair, or stays as it is when there is neither. -/
theorem kickTrios_step (fuel : Nat) : ∀ {m : HandsMap}, KickReady m →
    KickStep m (kickTrios fuel m) := by
  induction fuel with
  | zero => intro m _; exact KickStep.refl m
  | succ fuel ih =>
    intro m hr
    unfold kickTrios
    split
    next => exact KickStep.refl m
    next trio rest hv =>
      simp only []
      have h1 := (KickStep.touch m .solo).trans (KickStep.touch _ .pair)
      have hr1 := hr.step h1
      have hv1 : ((m.touch .solo).touch .pair).vec .trio = trio :: rest := by
        rw [HandsMap.vec_touch, HandsMap.vec_touch, hv]
      generalize (m.touch .solo).touch .pair = m₁ at *
      have hw : trio.width = 1 := by
        have hb := hr1.bare .trio (by simp) trio (by rw [hv1]; exact List.mem_cons_self)
        rcases hb.type with h | ⟨h, -⟩
        · rw [Hand.width, h]
        · exact HandType.noConfusion h
      -- taking the first hand of a vector is picking one kicker that passes
      have htake : ∀ {st t : HandType} {s : Hand} {l : List Hand}, st = .solo ∨ st = .pair →
          Kicks .trio t → t.kickMult = st.mult → m₁.vec st = s :: l →
          KickStep m₁ (((m₁.put st l).push t
            { trio with type := t, kicker := [s.keyPoint] }).put .trio rest) := by
        intro st t s l hst hk hmult hs
        have h2 := kick_step hr1 hst hk hmult hv1 (fun _ => true)
          (by rw [hw, List.countP_true, hs]; simp)
        rw [hw, hs] at h2
        simpa [pickKickers] using h2
      have hsolo : ∀ {s : Hand} {l : List Hand}, m₁.vec .solo = s :: l →
          KickStep m (kickTrios fuel (((m₁.put .solo l).push .trioSolo
            { trio with type := .trioSolo, kicker := [s.keyPoint] }).put .trio rest)) := by
        intro s l hs
        have h2 := htake (Or.inl rfl) Kicks.trioSolo rfl hs
        exact (h1.trans h2).trans (ih (hr1.step h2))
      have hpair : ∀ {s : Hand} {l : List Hand}, m₁.vec .pair = s :: l →
          KickStep m (kickTrios fuel (((m₁.put .pair l).push .trioPair
            { trio with type := .trioPair, kicker := [s.keyPoint] }).put .trio rest)) := by
        intro s l hs
        have h2 := htake (Or.inr rfl) Kicks.trioPair rfl hs
        exact (h1.trans h2).trans (ih (hr1.step h2))
      split
      next => exact h1
      next p pairs _ hp => exact hpair hp
      next s solos hs _ => exact hsolo hs
      next s solos p pairs hs hp =>
        split
        · exact hpair hp
        · exact hsolo hs

/-- The kicker pass regroups and nothing else. -/
theorem findKickerForTrioOrTrioChain_step {m : HandsMap} (hr : KickReady m) :
    KickStep m (findKickerForTrioOrTrioChain m) := by
  unfold findKickerForTrioOrTrioChain
  simp only []
  have h1 := KickStep.touch m .trioChain
  have h2 := h1.trans (kickTrioChains_step
    ((m.touch .trioChain).vec .trioChain).length (hr.step h1))
  have h3 := h2.trans (KickStep.touch _ .trio)
  exact h3.trans (kickTrios_step _ (hr.step h3))

end RobotDdz
