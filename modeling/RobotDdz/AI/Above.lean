import RobotDdz.AI.Playable

/-!
# The hands found above the one on the table

`findBestHigherHandFromPoints` goes from the hand on the table to the next
higher one in the points, and from that to the next, as long as there is one
(`Found`). All of them have the type and the length of the hand on the table
(`Above`), but for the chains with pairs: from the first one on the search goes
for solos.

What a round finds is complete and held (`found_playable`), with two
exceptions, and `HigherFits` excludes these: a four with kickers is returned
without any, and the kickers of a trio chain are the first that are offered,
whether they fit or not.

How the loop is followed: `FoundWell` is what one round gives, by cases on the
type of the hand it starts from, and `found_playable` is the induction over the
rounds. The first round starts from the hand on the table, which was played and
so is of a shape `getHand` recognises; each later one starts from what the
round before has found. Only keys grow, so the length asked for is the same in
all rounds.
-/

namespace RobotDdz

namespace AI

/-- A hand that was played has the key and the length its type asks for. -/
theorem PlayedHand.bodyOk {hand : Hand} (h : PlayedHand hand) :
    hand.type.BodyOk hand.keyPoint hand.len := by
  obtain ⟨cards, hnodup, hvalid, hsome, hagree⟩ := h
  have hlegal := legalCounts_of_nodup hnodup hvalid
  have hne : (getHand (cardVecToPointArr cards)).type ≠ .nothing := by
    rw [hagree.type]
    exact hsome
  have hbody := (getHand_recognised hlegal hne).bodyOk hlegal
  have hlen := hagree.len
  rw [hagree.type, hagree.keyPoint] at hbody
  -- only a chain's length counts
  cases ht : hand.type <;> rw [ht] at hbody hlen <;> first
    | exact hbody
    | (rw [← hlen rfl]; exact hbody)

section Above

variable (u : Undef) (s : AI)

/-- Whatever body the cards hold above the hand on the table: it is none of a
four with kickers, and where it is a trio chain that gets kickers, too few of
them are offered or the first fit it. -/
def HigherFits : Prop :=
  ∀ k, HigherKey (bodyNumber s.curHand.type) s.curHand s.aiPoints k →
    match s.curHand.type with
    | .fourDualSolo | .fourDualPair => False
    | .trioChainSolo | .trioChainPair =>
      let rest := s.aiPoints.addRange k s.curHand.len (-3)
      let sources := kickerSources u rest
        (kickerMap u s.lowestControl s.maxOppNumber s.otherPoints rest)
        (chainBody k s.curHand.len)
      sources.length < s.curHand.len ∨ KickersFit k s.curHand.len (sources.take s.curHand.len)
    | _ => True

/-- A hand of the type and the length of the one on the table, and no lower. -/
structure Above (hand : Hand) : Prop where
  type : hand.type = s.curHand.type ∨
    s.curHand.type = .trioChainPair ∧ hand.type = .trioChainSolo
  len : isChain s.curHand.type = true → hand.len = s.curHand.len
  key : s.curHand.keyPoint ≤ hand.keyPoint

variable {u s} {now higher : Hand}

theorem above_curHand : s.Above s.curHand := ⟨.inl rfl, fun _ => rfl, Nat.le_refl _⟩

theorem Above.isChain (h : s.Above now) : isChain now.type = isChain s.curHand.type := by
  rcases h.type with heq | ⟨hpair, hsolo⟩
  · rw [heq]
  · rw [hpair, hsolo]
    rfl

/-- A key above such a hand is one above the hand on the table. -/
theorem Above.higherKey (h : s.Above now) {k : Nat}
    (hk : HigherKey (bodyNumber now.type) now s.aiPoints k) :
    HigherKey (bodyNumber s.curHand.type) s.curHand s.aiPoints k := by
  have hnumber : bodyNumber now.type = bodyNumber s.curHand.type := by
    rcases h.type with heq | ⟨hpair, hsolo⟩
    · rw [heq]
    · rw [hpair, hsolo]
      rfl
  obtain ⟨hgt, hbody⟩ := hk
  rw [h.isChain, hnumber] at hbody
  refine ⟨Nat.lt_of_le_of_lt h.key hgt, ?_⟩
  by_cases hc : RobotDdz.isChain s.curHand.type = true
  · rw [if_pos hc] at hbody ⊢
    rwa [h.len hc] at hbody
  · rw [if_neg hc] at hbody ⊢
    exact hbody

/-- Its length is one its type asks for. -/
theorem Above.long (h : s.Above now) (hcur : s.curHand.type.BodyOk s.curHand.keyPoint s.curHand.len)
    (hc : RobotDdz.isChain now.type = true) : 2 ≤ now.len := by
  rw [h.len (h.isChain ▸ hc)]
  rw [h.isChain] at hc
  cases ht : s.curHand.type <;> rw [ht] at hcur hc <;> first
    | exact Bool.noConfusion hc
    | exact Nat.le_trans (by decide) hcur.1

variable (hp : LegalCounts s.aiPoints)
  (hcur : s.curHand.type.BodyOk s.curHand.keyPoint s.curHand.len) (hnow : s.Above now)

/-- What a round finds: it is like the hand on the table, and it is of one rank
or held whole. -/
structure FoundWell (found : Hand) : Prop where
  above : s.Above found
  playable : found.type ∈ HandType.plain ∨ found.Held s.aiPoints

include hp hcur hnow

/-- A body without kickers is what the points hold: the search found the key in
the robot's own counts, so every rank of the body is held as often as the type
takes it, and there is nothing else to check. -/
theorem foundWell_bare (hbare : now.type ∈ HandType.bare)
    (hsome : (s.nextHigher u now higher).type ≠ .nothing) :
    FoundWell (s := s) (s.nextHigher u now higher) := by
  have hfound := findHigherHandFromPoints_bare u s.lowestControl s.maxOppNumber s.otherPoints
    now s.aiPoints higher hbare (hnow.long hcur)
  have hround : findHigherHandFromPoints u s.lowestControl s.maxOppNumber s.otherPoints now
    s.aiPoints higher = s.nextHigher u now higher := rfl
  rw [hround] at hfound
  obtain ⟨htype, hlen, ⟨hgt, hbody⟩, -⟩ := hfound.resolve_right fun h => hsome h.1
  generalize s.nextHigher u now higher = found at *
  refine ⟨⟨?_, fun hc => ?_, Nat.le_of_lt (Nat.lt_of_le_of_lt hnow.key hgt)⟩, ?_⟩
  · rw [htype]
    exact hnow.type
  · rw [hlen, if_pos (hnow.isChain ▸ hc)]
    exact hnow.len hc
  by_cases hc : RobotDdz.isChain now.type = true
  · right
    rw [if_pos hc] at hbody hlen
    obtain ⟨htop, hrun⟩ := hbody
    have hnokick : found.type.kickMult = 0 ∧ found.kickerCount = 0 := by
      have hnone : ∀ t ∈ HandType.bare, RobotDdz.isChain t = true → t.kickMult = 0 ∧
          t ∈ [HandType.soloChain, .pairChain, .trioChain] := by decide
      obtain ⟨hmult, hmem⟩ := hnone now.type hbare hc
      rw [← htype] at hmult hmem
      refine ⟨hmult, ?_⟩
      simp only [List.mem_cons, List.not_mem_nil, or_false] at hmem
      unfold Hand.kickerCount
      rcases hmem with h | h | h <;> rw [h]
    have hkickers := kickers_of_kickMult_zero hnokick.1
    have hw : found.width = found.len := Hand.width_of_isChain (by rw [htype]; exact hc)
    have hcomplete : found.Complete := by
      refine ⟨?_, ?_, ?_, ?_⟩
      · have hsame : s.curHand.type = now.type := by
          rcases hnow.type with heq | ⟨-, hsolo⟩
          · exact heq.symm
          · rw [hsolo] at hbare
            exact absurd hbare (by decide)
        have hsamelen : now.len = s.curHand.len := hnow.len (hsame ▸ hc)
        rw [hsame, ← hsamelen] at hcur
        rw [htype, hlen]
        cases ht : now.type <;> rw [ht] at hcur hc hbare <;> first
          | exact absurd hbare (by decide)
          | exact Bool.noConfusion hc
          | exact ⟨hcur.1, htop⟩
      · rw [hkickers, hnokick.2]
        rfl
      · rw [hkickers]
        exact ⟨List.nodup_nil, fun _ hk => absurd hk List.not_mem_nil,
          fun hboth => absurd hboth.1 List.not_mem_nil⟩
      · rw [hkickers]
        exact fun _ hk => absurd hk List.not_mem_nil
    refine ⟨hcomplete, fun r => ?_⟩
    rw [handToPointsArray_apply hcomplete.placed, hkickers, hw, hlen]
    split
    next hin =>
      rw [htype]
      exact hrun r hin.1 hin.2
    next =>
      rw [if_neg List.not_mem_nil]
      exact hp.nonneg r
  · left
    have hplain : ∀ t ∈ HandType.bare, ¬RobotDdz.isChain t = true → t ∈ HandType.plain := by decide
    rw [htype]
    exact hplain _ hbare hc

omit hp hcur hnow in
/-- Without a body there is no hand. -/
theorem nextHigher_nothing (hnone : findHigherBody now s.aiPoints higher.clear
    = (higher.clear, s.aiPoints)) : (s.nextHigher u now higher).type = .nothing := by
  have hfound : s.nextHigher u now higher = higher.clear := by
    show findHigherHandFromPoints .. = _
    unfold findHigherHandFromPoints
    rw [hnone]
    rfl
  rw [hfound]
  rfl

omit hcur in
/-- A trio gets a kicker that fits it, or is not found. The kicker comes from
the split of what the trio leaves, whose hands offer held ranks only
(`kickerMap_offers`), and it is off the trio. -/
theorem foundWell_trio (ht : now.type = .trioSolo ∨ now.type = .trioPair)
    (hsome : (s.nextHigher u now higher).type ≠ .nothing) :
    FoundWell (s := s) (s.nextHigher u now higher) := by
  have hmem : now.type ∈ HandType.trioKicked := by rcases ht with h | h <;> rw [h] <;> decide
  have hchain : ¬RobotDdz.isChain now.type = true := by
    rcases ht with h | h <;> rw [h] <;> decide
  have hspec := findHigherBody_spec now s.aiPoints higher.clear fun hc => absurd hc hchain
  rcases hspec with hbody | ⟨-, hnone⟩
  · obtain ⟨body, rest, hr⟩ :
        ∃ body rest, findHigherBody now s.aiPoints higher.clear = (body, rest) := ⟨_, _, rfl⟩
    rw [hr] at hbody
    have htaken := hbody.trioTaken hmem fun hc => absurd hc hchain
    have hbt : body.type = .trioSolo ∨ body.type = .trioPair := by rwa [htaken.type]
    have ho := kickerMap_offers u s.lowestControl s.maxOppNumber s.otherPoints
      (htaken.legalRest hp)
    have hfound : s.nextHigher u now higher = _ :=
      found_eq u s.lowestControl s.maxOppNumber s.otherPoints now s.aiPoints higher
        (by rw [hr, htaken.type]; exact hmem)
    rw [hr, findKickerFromPoints_trio _ _ _ _ _ hbt] at hfound
    dsimp only at hfound
    cases hk : trioKicker rest
        (kickerMap u s.lowestControl s.maxOppNumber s.otherPoints rest) body with
    | none =>
      rw [hk] at hfound
      rw [hfound] at hsome
      exact absurd rfl hsome
    | some x =>
      rw [hk] at hfound
      obtain ⟨hw, hfit, hheld⟩ := htaken.trioKicker_fits hp ht ho hk
      obtain ⟨hcomplete, hcards⟩ := htaken.complete hp hmem [x] hw.symm (fun k hkm => by
        rw [List.mem_singleton.mp hkm]
        exact hheld) hfit
      rw [hfound]
      refine ⟨⟨?_, fun hc => ?_, ?_⟩, .inr ⟨hcomplete, hcards⟩⟩
      · show body.type = _ ∨ _ ∧ body.type = _
        rw [htaken.type]
        exact hnow.type
      · exact absurd (hnow.isChain ▸ hc) hchain
      · exact Nat.le_of_lt (Nat.lt_of_le_of_lt hnow.key htaken.above)
  · exact absurd (nextHigher_nothing hnone) hsome

/-- A chain gets the first solos that are offered, which fit it. Whichever
kickers were asked for, the body goes on as a chain with solos, so the
condition on the sources is about solos alone. -/
theorem foundWell_chain (hfit : s.HigherFits u)
    (ht : now.type = .trioChainSolo ∨ now.type = .trioChainPair)
    (hsome : (s.nextHigher u now higher).type ≠ .nothing) :
    FoundWell (s := s) (s.nextHigher u now higher) := by
  have hmem : now.type ∈ HandType.trioKicked := by rcases ht with h | h <;> rw [h] <;> decide
  have hchain : RobotDdz.isChain now.type = true := by rcases ht with h | h <;> rw [h] <;> rfl
  have hlong := hnow.long hcur hchain
  have hspec := findHigherBody_spec now s.aiPoints higher.clear fun _ =>
    Nat.le_trans (by decide) hlong
  rcases hspec with hbody | ⟨-, hnone⟩
  · obtain ⟨body, rest, hr⟩ :
        ∃ body rest, findHigherBody now s.aiPoints higher.clear = (body, rest) := ⟨_, _, rfl⟩
    rw [hr] at hbody
    have htaken := hbody.trioTaken hmem fun _ => hlong
    have hbt : body.type = .trioChainSolo ∨ body.type = .trioChainPair := by rwa [htaken.type]
    have hblen := htaken.len hchain
    have hw : body.width = body.len := Hand.width_of_isChain (by rw [htaken.type]; exact hchain)
    have hclen : body.len = s.curHand.len := hblen.trans (hnow.len (hnow.isChain ▸ hchain))
    -- whatever was asked for, the body goes on with solos
    have hsolo : TrioTaken { now with type := .trioChainSolo } s.aiPoints
        { body with type := .trioChainSolo } rest := by
      refine ⟨rfl, htaken.above, fun _ => hblen, ?_, ?_, ?_⟩
      · have hok := htaken.bodyOk
        rcases ht with h | h <;> rw [h] at hok <;> exact hok
      · have hheld := htaken.held
        rw [hw] at hheld
        exact hheld
      · have hrest := htaken.rest_eq
        rw [hw] at hrest
        exact hrest
    have hsources := kickerSources_held (u := u) (kickerMap_offers u s.lowestControl
      s.maxOppNumber s.otherPoints (htaken.legalRest hp)) (chainBody body.keyPoint body.len)
    have hfound : s.nextHigher u now higher = _ :=
      found_eq u s.lowestControl s.maxOppNumber s.otherPoints now s.aiPoints higher
        (by rw [hr, htaken.type]; exact hmem)
    rw [hr, findKickerFromPoints_sources u s.lowestControl s.maxOppNumber s.otherPoints rest hbt
      rfl] at hfound
    have hkeyfit : (kickerSources u rest
          (kickerMap u s.lowestControl s.maxOppNumber s.otherPoints rest)
          (chainBody body.keyPoint body.len)).length < body.len ∨
        KickersFit body.keyPoint body.len ((kickerSources u rest
          (kickerMap u s.lowestControl s.maxOppNumber s.otherPoints rest)
          (chainBody body.keyPoint body.len)).take body.len) := by
      have hcond := hfit body.keyPoint (hnow.higherKey hbody.least.1)
      have hrest := htaken.rest_eq
      rw [hw] at hrest
      rw [← hclen] at hcond
      dsimp only at hcond
      rw [← hrest] at hcond
      have hctype : s.curHand.type = .trioChainSolo ∨ s.curHand.type = .trioChainPair := by
        rcases hnow.type with heq | ⟨hpair, -⟩
        · rwa [← heq]
        · exact .inr hpair
      rcases hctype with h | h <;> rw [h] at hcond <;> exact hcond
    generalize kickerSources u rest
      (kickerMap u s.lowestControl s.maxOppNumber s.otherPoints rest)
      (chainBody body.keyPoint body.len) = sources at hfound hsources hkeyfit
    by_cases hmany : body.len ≤ sources.length
    · have hks : (sources.take body.len).length = body.len := by
        rw [List.length_take, min_eq_left hmany]
      obtain ⟨hcomplete, hcards⟩ := hsolo.complete hp
        (show HandType.trioChainSolo ∈ HandType.trioKicked by decide) (sources.take body.len) hks
        (fun k hkm => hsources k (List.mem_of_mem_take hkm))
        (hkeyfit.resolve_left (Nat.not_lt.mpr hmany))
      rw [if_pos hmany] at hfound
      rw [hfound]
      refine ⟨⟨?_, fun _ => hclen, Nat.le_of_lt (Nat.lt_of_le_of_lt hnow.key htaken.above)⟩,
        .inr ⟨hcomplete, hcards⟩⟩
      show HandType.trioChainSolo = _ ∨ _ ∧ HandType.trioChainSolo = _
      rcases hnow.type with heq | ⟨hpair, -⟩
      · rcases ht with h | h
        · exact .inl (h.symm.trans heq)
        · exact .inr ⟨heq.symm.trans h, rfl⟩
      · exact .inr ⟨hpair, rfl⟩
    · rw [if_neg hmany] at hfound
      rw [hfound] at hsome
      exact absurd rfl hsome
  · exact absurd (nextHigher_nothing hnone) hsome

omit hp hcur hnow in
/-- A body that gets no kickers here is what the search returns. -/
theorem nextHigher_type (hnot : now.type ∉ HandType.trioKicked)
    (hchain : ¬RobotDdz.isChain now.type = true)
    (hsome : (s.nextHigher u now higher).type ≠ .nothing) :
    (s.nextHigher u now higher).type = now.type ∧
      HigherKey (bodyNumber now.type) now s.aiPoints (s.nextHigher u now higher).keyPoint := by
  rcases findHigherBody_spec now s.aiPoints higher.clear fun hc => absurd hc hchain with
    hbody | ⟨-, hnone⟩
  · have htype : (findHigherBody now s.aiPoints higher.clear).1.type = now.type := by
      rw [hbody.hand_eq]
    have hfound : s.nextHigher u now higher
        = (findHigherBody now s.aiPoints higher.clear).1 := by
      show findHigherHandFromPoints .. = _
      unfold findHigherHandFromPoints
      dsimp only
      rw [htype, if_neg]
      simpa only [HandType.trioKicked, List.mem_cons, List.not_mem_nil, or_false] using hnot
    rw [hfound]
    exact ⟨htype, hbody.least.1⟩
  · exact absurd (nextHigher_nothing hnone) hsome

/-- One round, by the type of the hand it starts from: a body without kickers,
a trio with a kicker, a chain with solos or pairs, and the types the search
does nothing for. -/
theorem foundWell_next (hfit : s.HigherFits u)
    (hsome : (s.nextHigher u now higher).type ≠ .nothing) :
    FoundWell (s := s) (s.nextHigher u now higher) := by
  by_cases hbare : now.type ∈ HandType.bare
  · exact foundWell_bare hp hcur hnow hbare hsome
  by_cases htrio : now.type = .trioSolo ∨ now.type = .trioPair
  · exact foundWell_trio hp hnow htrio hsome
  by_cases hchain : now.type = .trioChainSolo ∨ now.type = .trioChainPair
  · exact foundWell_chain hp hcur hnow hfit hchain hsome
  -- the rocket, a four with kickers, and the types no hand on the table has
  have hrest : ∀ t : HandType, t ∉ HandType.bare → ¬(t = .trioSolo ∨ t = .trioPair) →
      ¬(t = .trioChainSolo ∨ t = .trioChainPair) →
      t ∉ HandType.trioKicked ∧ ¬RobotDdz.isChain t = true := by
    intro t h1 h2 h3
    cases t <;> first
      | exact absurd (by decide) h1
      | exact absurd (by decide) h2
      | exact absurd (by decide) h3
      | decide
  obtain ⟨hnot, hline⟩ := hrest now.type hbare htrio hchain
  obtain ⟨htype, hkey⟩ := nextHigher_type hnot hline hsome
  have habove : s.Above (s.nextHigher u now higher) := by
    refine ⟨?_, fun hc => absurd (hnow.isChain ▸ hc) hline,
      Nat.le_of_lt (Nat.lt_of_le_of_lt hnow.key hkey.1)⟩
    rw [htype]
    exact hnow.type
  refine ⟨habove, .inl ?_⟩
  have hcond := hfit _ (hnow.higherKey hkey)
  have hsame : s.curHand.type = now.type := by
    rcases hnow.type with heq | ⟨-, hsolo⟩
    · exact heq.symm
    · exact absurd (.inl hsolo) hchain
  rw [htype]
  rw [hsame] at hcond hcur
  generalize now.type = t at hbare htrio hchain hcur hcond ⊢
  cases t <;> first
    | decide
    | exact absurd hcur id
    | exact absurd hcond id
    | exact absurd (by decide) hbare
    | exact absurd (by decide) htrio
    | exact absurd (by decide) hchain

omit hnow in
/-- What the loop goes through, by induction on its rounds. -/
theorem found_playable (hfit : s.HigherFits u) {hand : Hand} (hfound : s.Found u hand) :
    FoundWell (s := s) hand := by
  induction hfound with
  | first hsome => exact foundWell_next hp hcur above_curHand hfit hsome
  | next _ hsome ih => exact foundWell_next hp hcur ih.above hfit hsome

end Above

end AI

end RobotDdz
