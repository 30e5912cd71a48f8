import RobotDdz.AI.SortLvl
import Mathlib.Algebra.Order.BigOperators.Group.List

/-!
# Judging a map twice

From the second splitter on, `sortHandMapLvl` does not look at the split it has
just made: it counts and summarises `handsMap` once more, the map that the
first judging has already rewritten. This module says when that is harmless,
and what `sortHandMapLvl` then keeps.

A judging has three parts. The two loops hang kickers on the chains and the
trios. When they are done the map `Rests`: a body that got nothing is wider
than what is left of the solos and of the pairs, so that the loops of a second
judging find no kicker either and leave the map as it is
(`triosKicked_of_rests`). Then a high hand may be broken up. No trio can be,
since a trio that stayed means that the solos are gone, and these are what it
would be broken up for. A pair can be; that changes the map, and it is the one
thing excluded here (`KeepsPairs`). The summary is last.

Mirroring notes:
- The counts of the second judging start from empty maps, those of the first
  from the robot's own. `countHighHand` sets the entries of the keys it meets,
  so the two may differ only where the split has no key and the summary puts an
  empty vector in. There the first counts may be left over from an earlier
  turn. They then lower `effectiveHandsCount`, and never raise it
  (`effectiveCount_le`).
- So the second summary is the first one or a worse one, and neither test
  behind which a later split replaces the one before is passed.
  `sortHandMapLvl_keeps_first` is the outcome: the function stays with its
  first splitter, whatever the others would have given.
-/

namespace RobotDdz

open Runs

namespace AI

/-! ## A map at rest -/

/-- How many solos, or how many pairs, a round over the vector of type `t`
takes for a body. -/
def kickLen (t : HandType) (h : Hand) : Nat := if t = .trioChain then h.len else 1

/-- Neither the solos nor the pairs are `n`. -/
def OutOfKickers (m : HandsMap) (n : Nat) : Prop :=
  (m.vec .solo).length < n ∧ (m.vec .pair).length < n

/-- What the two loops leave: the keys they insert, and bodies too wide for
what is left of the solos and of the pairs. -/
structure Rests (m : HandsMap) : Prop where
  keys : ∀ t, t = .trioChain ∨ t = .trio ∨ t = .solo ∨ t = .pair → (m t).isSome
  chain : ∀ h ∈ m.vec .trioChain, OutOfKickers m (kickLen .trioChain h)
  trio : ∀ h ∈ m.vec .trio, OutOfKickers m (kickLen .trio h)

section Loops

variable {m m' : HandsMap} {c : HighCounts} {t withSolo withPair : HandType}

/-- With fewer solos and fewer pairs still nothing can be hung on the body. -/
theorem OutOfKickers.mono {n : Nat} (h : OutOfKickers m n)
    (hsolo : (m'.vec .solo).length ≤ (m.vec .solo).length)
    (hpair : (m'.vec .pair).length ≤ (m.vec .pair).length) : OutOfKickers m' n :=
  ⟨Nat.lt_of_le_of_lt hsolo h.1, Nat.lt_of_le_of_lt hpair h.2⟩

/-- A trio that stayed means that all solos are gone. -/
theorem Rests.solo_nil (h : Rests m) (htrio : m.vec .trio ≠ []) : m.vec .solo = [] := by
  obtain ⟨hand, hh⟩ := List.exists_mem_of_ne_nil _ htrio
  have hlt : (m.vec .solo).length < 1 := (h.trio hand hh).1
  exact List.eq_nil_of_length_eq_zero (by omega)

/-- The three tests behind `k` all fail just when there is too little of both:
the last of them takes nothing off the two sizes, so it alone decides. -/
theorem kickWith_eq_none_iff (hc : c.Nonneg) (n : Nat) :
    kickWith m c n = none ↔ OutOfKickers m n := by
  constructor
  · intro h
    unfold kickWith at h
    rw [Option.orElse_eq_none, Option.orElse_eq_none] at h
    obtain ⟨-, -, h⟩ := h
    unfold kickBy sizeOf at h
    split at h
    · cases h
    split at h
    · cases h
    next h1 h2 => exact ⟨by omega, by omega⟩
  · intro hout
    cases hk : kickWith m c n with
    | none => rfl
    | some k =>
      obtain ⟨hkind, hlen⟩ := kickWith_some hc hk
      rcases hkind with rfl | rfl
      · exact absurd hlen (Nat.not_le_of_lt hout.1)
      · exact absurd hlen (Nat.not_le_of_lt hout.2)

/-! A round finds no kicker and puts its body aside, or it takes from the solos or the pairs and
adds to a vector of hands with kickers. -/

theorem kickRound_none {x : HandsMap × List Hand} {h : Hand}
    (hk : kickWith x.1 c (kickLen t h) = none) :
    kickRound c t withSolo withPair x h = (x.1, x.2 ++ [h]) := by
  unfold kickRound
  dsimp only
  rw [show kickWith x.1 c ((if t = .trioChain then h.len else 1 : Nat) : Int) = none from hk]

/-- What rounds do to a map: no key goes, the solos and the pairs shrink, and
only the vectors of the hands with kickers grow. -/
structure Spends (withSolo withPair : HandType) (m m' : HandsMap) : Prop where
  keys : ∀ i, (m i).isSome → (m' i).isSome
  solo : (m'.vec .solo).length ≤ (m.vec .solo).length
  pair : (m'.vec .pair).length ≤ (m.vec .pair).length
  other : ∀ i, i ≠ .solo → i ≠ .pair → i ≠ withSolo → i ≠ withPair → m'.vec i = m.vec i

theorem Spends.refl (withSolo withPair : HandType) (m : HandsMap) :
    Spends withSolo withPair m m :=
  ⟨fun _ h => h, Nat.le_refl _, Nat.le_refl _, fun _ _ _ _ _ => rfl⟩

theorem Spends.trans {m'' : HandsMap} (h : Spends withSolo withPair m m')
    (h' : Spends withSolo withPair m' m'') : Spends withSolo withPair m m'' :=
  ⟨fun i hi => h'.keys i (h.keys i hi), Nat.le_trans h'.solo h.solo,
    Nat.le_trans h'.pair h.pair,
    fun i h1 h2 h3 h4 => (h'.other i h1 h2 h3 h4).trans (h.other i h1 h2 h3 h4)⟩

theorem kickRound_some {x : HandsMap × List Hand} {h : Hand} {k : HandType} (hc : c.Nonneg)
    (hsolo : Kicks t withSolo) (hpair : Kicks t withPair)
    (hk : kickWith x.1 c (kickLen t h) = some k) :
    (kickRound c t withSolo withPair x h).2 = x.2 ∧
      Spends withSolo withPair x.1 (kickRound c t withSolo withPair x h).1 := by
  have hkicked : ∀ i, i = .solo ∨ i = .pair → i ≠ withSolo ∧ i ≠ withPair := by
    intro i hi
    cases hsolo <;> cases hpair <;> rcases hi with rfl | rfl <;> decide
  obtain ⟨hkind, -⟩ := kickWith_some hc hk
  have hround : ∃ kicked t', (t' = withSolo ∨ t' = withPair) ∧
      kickRound c t withSolo withPair x h
        = ((x.1.put k ((x.1.vec k).drop (kickLen t h))).push t' kicked, x.2) := by
    unfold kickRound
    dsimp only
    rw [show kickWith x.1 c ((if t = .trioChain then h.len else 1 : Nat) : Int) = some k from hk]
    refine ⟨_, _, ?_, rfl⟩
    by_cases hs : k = .solo
    · exact .inl (if_pos hs)
    · exact .inr (if_neg hs)
  obtain ⟨kicked, t', ht', heq⟩ := hround
  rw [heq]
  have hne : ∀ i, i ≠ withSolo → i ≠ withPair → i ≠ t' := by
    rintro i h1 h2 rfl
    exact ht'.elim h1 h2
  -- a vector that no hand with kickers joins is the old one or what the kickers leave of it
  have hshort : ∀ i, i ≠ withSolo → i ≠ withPair →
      (((x.1.put k ((x.1.vec k).drop (kickLen t h))).push t' kicked).vec i).length
        ≤ (x.1.vec i).length := by
    intro i h1 h2
    rw [HandsMap.vec_push, if_neg (hne i h1 h2), HandsMap.vec_put]
    split
    next hik =>
      rw [hik, List.length_drop]
      exact Nat.sub_le _ _
    next => exact Nat.le_refl _
  refine ⟨rfl, fun i hi => HandsMap.isSome_put _ _ (HandsMap.isSome_put _ _ hi), ?_, ?_,
    fun i h1 h2 h3 h4 => ?_⟩
  · obtain ⟨h1, h2⟩ := hkicked .solo (.inl rfl)
    exact hshort .solo h1 h2
  · obtain ⟨h1, h2⟩ := hkicked .pair (.inr rfl)
    exact hshort .pair h1 h2
  · have hik : i ≠ k := by
      rintro rfl
      exact hkind.elim h1 h2
    rw [HandsMap.vec_push, if_neg (hne i h3 h4), HandsMap.vec_put_ne hik]

/-- Over a run of rounds: the map is spent, and the bodies put aside are too
wide for what is left. They are all of them only if no round found a kicker. -/
theorem kickRun_spends (hc : c.Nonneg) (hsolo : Kicks t withSolo) (hpair : Kicks t withPair) :
    ∀ (hands : List Hand) (x : HandsMap × List Hand),
      (∀ h ∈ x.2, OutOfKickers x.1 (kickLen t h)) →
      Spends withSolo withPair x.1 (run (kickRound c t withSolo withPair) x hands).1 ∧
      (∀ h ∈ (run (kickRound c t withSolo withPair) x hands).2,
        OutOfKickers (run (kickRound c t withSolo withPair) x hands).1 (kickLen t h)) ∧
      (run (kickRound c t withSolo withPair) x hands).2.length ≤ x.2.length + hands.length ∧
      ((run (kickRound c t withSolo withPair) x hands).2.length = x.2.length + hands.length →
        run (kickRound c t withSolo withPair) x hands = (x.1, x.2 ++ hands)) := by
  intro hands
  induction hands with
  | nil =>
    intro x hx
    exact ⟨.refl _ _ _, hx, Nat.le_refl _, fun _ => by rw [List.append_nil]; rfl⟩
  | cons h hands ih =>
    intro x hx
    rw [run_cons, List.length_cons]
    cases hk : kickWith x.1 c (kickLen t h) with
    | none =>
      rw [kickRound_none hk]
      obtain ⟨hspend, hout, hle, hall⟩ := ih (x.1, x.2 ++ [h]) fun h' hh' => by
        rcases List.mem_append.mp hh' with hold | hnew
        · exact hx h' hold
        · rw [List.mem_singleton.mp hnew]
          exact (kickWith_eq_none_iff hc _).mp hk
      rw [List.length_append, List.length_singleton] at hle hall
      refine ⟨hspend, hout, by omega, fun hlen => ?_⟩
      rw [hall (by omega), List.append_assoc]
      rfl
    | some k =>
      obtain ⟨hkept, hround⟩ := kickRound_some (h := h) hc hsolo hpair hk
      generalize kickRound c t withSolo withPair x h = y at hkept hround
      obtain ⟨hspend, hout, hle, -⟩ := ih y fun h' hh' => by
        rw [hkept] at hh'
        exact (hx h' hh').mono hround.solo hround.pair
      rw [hkept] at hle
      exact ⟨hround.trans hspend, hout, by omega, fun hlen => by omega⟩

/-- A loop: what it leaves of the map, the bodies it leaves as they are, and
what the flag says when it is down. -/
theorem kickLoop_spends (hc : c.Nonneg) (hsolo : Kicks t withSolo) (hpair : Kicks t withPair) :
    (∀ i, (m i).isSome → ((kickLoop m c t withSolo withPair).1 i).isSome) ∧
      ((kickLoop m c t withSolo withPair).1.vec .solo).length ≤ (m.vec .solo).length ∧
      ((kickLoop m c t withSolo withPair).1.vec .pair).length ≤ (m.vec .pair).length ∧
      (∀ i, i ≠ t → i ≠ .solo → i ≠ .pair → i ≠ withSolo → i ≠ withPair →
        (kickLoop m c t withSolo withPair).1.vec i = m.vec i) ∧
      (∀ h ∈ (kickLoop m c t withSolo withPair).1.vec t,
        OutOfKickers (kickLoop m c t withSolo withPair).1 (kickLen t h)) ∧
      ((kickLoop m c t withSolo withPair).2 = false →
        (kickLoop m c t withSolo withPair).1 = m.touch t) := by
  obtain ⟨hspend, hout, -, hall⟩ := kickRun_spends hc hsolo hpair (m.vec t) (m, [])
    fun _ hh => absurd hh List.not_mem_nil
  have hloop : kickLoop m c t withSolo withPair
      = ((run (kickRound c t withSolo withPair) (m, []) (m.vec t)).1.put t
          (run (kickRound c t withSolo withPair) (m, []) (m.vec t)).2,
        decide ((run (kickRound c t withSolo withPair) (m, []) (m.vec t)).2.length
          ≠ (m.vec t).length)) := rfl
  rw [hloop]
  generalize run (kickRound c t withSolo withPair) (m, []) (m.vec t) = x at *
  dsimp only at hspend hall ⊢
  have hs : HandType.solo ≠ t := by cases hsolo <;> decide
  have hp : HandType.pair ≠ t := by cases hsolo <;> decide
  refine ⟨fun i hi => HandsMap.isSome_put _ _ (hspend.keys i hi), ?_, ?_,
    fun i ht h1 h2 h3 h4 => ?_, fun h hh => ?_, fun hflag => ?_⟩
  · rw [HandsMap.vec_put_ne hs]
    exact hspend.solo
  · rw [HandsMap.vec_put_ne hp]
    exact hspend.pair
  · rw [HandsMap.vec_put_ne ht]
    exact hspend.other i h1 h2 h3 h4
  · rw [HandsMap.vec_put_self] at hh
    refine (hout h hh).mono ?_ ?_
    · rw [HandsMap.vec_put_ne hs]
    · rw [HandsMap.vec_put_ne hp]
  · have hlen : x.2.length = (m.vec t).length := of_not_not (of_decide_eq_false hflag)
    rw [hall (by rw [hlen, List.length_nil, Nat.zero_add])]
    rfl

/-- A loop over bodies none of which finds a kicker leaves the map as it is,
with the flag down: the bodies come back in the order they had. -/
theorem kickLoop_of_out (hc : c.Nonneg) (hkey : (m t).isSome)
    (hout : ∀ h ∈ m.vec t, OutOfKickers m (kickLen t h)) :
    kickLoop m c t withSolo withPair = (m, false) := by
  have hrun : ∀ (hands kept : List Hand), (∀ h ∈ hands, OutOfKickers m (kickLen t h)) →
      hands.foldl (kickRound c t withSolo withPair) (m, kept) = (m, kept ++ hands) := by
    intro hands
    induction hands with
    | nil =>
      intro kept _
      rw [List.append_nil]
      rfl
    | cons h hands ih =>
      intro kept hall
      rw [List.foldl_cons, kickRound_none (x := (m, kept))
        ((kickWith_eq_none_iff hc _).mpr (hall h List.mem_cons_self)),
        ih _ fun h' hh' => hall h' (List.mem_cons_of_mem _ hh'), List.append_assoc]
      rfl
  unfold kickLoop
  dsimp only
  rw [hrun _ [] hout, List.nil_append]
  exact congrArg₂ Prod.mk (HandsMap.touch_of_isSome hkey) (decide_eq_false fun hne => hne rfl)

/-! ## After the loops -/

/-- After both loops the map rests. -/
theorem triosKicked_rests (hc : c.Nonneg) (m : HandsMap) : Rests (triosKicked m c).1 := by
  obtain ⟨hkeys, -, -, -, hchain, -⟩ :=
    kickLoop_spends (m := lvlStart m) hc .trioChainSolo .trioChainPair
  obtain ⟨hkeys', hsolo, hpair, hother, htrio, -⟩ :=
    kickLoop_spends (m := (chainsKicked m c).1) hc .trioSolo .trioPair
  change ∀ i, (lvlStart m i).isSome → ((chainsKicked m c).1 i).isSome at hkeys
  refine ⟨fun t ht => hkeys' t (hkeys t ?_), fun h hh => ?_, htrio⟩
  · unfold lvlStart HandsMap.touch
    rcases ht with rfl | rfl | rfl | rfl <;> rfl
  · have hvec : (triosKicked m c).1.vec .trioChain = (chainsKicked m c).1.vec .trioChain :=
      hother .trioChain (by decide) (by decide) (by decide) (by decide) (by decide)
    rw [hvec] at hh
    exact (hchain h hh).mono hsolo hpair

/-- The loops leave a map at rest as it is, and nothing is counted again. -/
theorem triosKicked_of_rests (s : AI) (hc : c.Nonneg) (hr : Rests m) :
    (triosKicked m c).1 = m ∧ s.recounted m c = c := by
  have hstart : lvlStart m = m := by
    unfold lvlStart
    rw [HandsMap.touch_of_isSome (hr.keys .trioChain (by decide)),
      HandsMap.touch_of_isSome (hr.keys .trio (by decide)),
      HandsMap.touch_of_isSome (hr.keys .solo (by decide)),
      HandsMap.touch_of_isSome (hr.keys .pair (by decide))]
  have hchains : chainsKicked m c = (m, false) := by
    unfold chainsKicked
    rw [hstart]
    exact kickLoop_of_out hc (hr.keys .trioChain (by decide)) hr.chain
  have htrios : triosKicked m c = (m, false) := by
    unfold triosKicked
    rw [hchains]
    exact kickLoop_of_out hc (hr.keys .trio (by decide)) hr.trio
  unfold recounted
  rw [hchains, htrios]
  exact ⟨rfl, rfl⟩

end Loops

end AI

/-! ## What the counts are -/

/-- The three counts of one type. -/
def HighCounts.triple (c : HighCounts) (t : HandType) : Int × Int × Int :=
  (c.uniHigh t, c.high t, c.goodLow t)

/-- What the hands of one type add to `handsTrioCount`: a chain its length, a
trio one. -/
def HandsMap.trioPart (m : HandsMap) (t : HandType) : Int :=
  if t = .trioChain then ((m.vec t).map Hand.len).sum
  else if t = .trio then (m.vec t).length
  else 0

namespace AI

section Counts

variable (s : AI) {m : HandsMap} {c d : HighCounts} {t : HandType}

/-- The counts of the hands of one type, as `countHighHand` computes them. -/
def countsOf (m : HandsMap) (t : HandType) : Int × Int × Int :=
  if isChain t then s.chainCounts t (m.vec t) else s.otherCounts t (m.vec t)

/-- One key sets its own entries, unless it is that of the bombs, whose hands
are not counted here. A key the map does not have sets nothing. -/
theorem countKey_triple (m : HandsMap) (c : HighCounts) (k t : HandType) :
    (s.countKey m c k).triple t
      = if t = k ∧ (m t).isSome ∧ t ≠ .bomb then s.countsOf m t else c.triple t := by
  have hset : ∀ x : Int × Int × Int, ∀ n : Int,
      ({ c.set k x.1 x.2.1 x.2.2 with trioCount := n } : HighCounts).triple t
        = if t = k then x else c.triple t := by
    intro x n
    unfold HighCounts.triple HighCounts.set
    dsimp only
    rw [Function.update_apply, Function.update_apply, Function.update_apply]
    split <;> rfl
  unfold countKey
  split
  next hnone =>
    rw [if_neg]
    rintro ⟨rfl, hsome, -⟩
    rw [hnone] at hsome
    cases hsome
  next hands hsome =>
    split
    next hbomb =>
      rw [if_neg]
      rintro ⟨rfl, -, hne⟩
      exact hne hbomb
    next hbomb =>
      have hvec : m.vec k = hands := by
        unfold HandsMap.vec
        rw [hsome]
        rfl
      have hmine : (t = k ∧ (m t).isSome ∧ t ≠ .bomb) ↔ t = k := by
        refine ⟨fun h => h.1, ?_⟩
        rintro rfl
        exact ⟨rfl, by rw [hsome]; rfl, hbomb⟩
      rw [if_congr hmine rfl rfl]
      unfold countsOf
      split
      next hchain =>
        rw [hset]
        split
        next heq => rw [heq, if_pos hchain, hvec]
        next => rfl
      next hchain =>
        rw [hset]
        split
        next heq => rw [heq, if_neg hchain, hvec]
        next => rfl

/-- Counting sets the entries of the keys of the map, and leaves the others:
this is where counts of an earlier map can stay on. -/
theorem countHighHand_triple (m : HandsMap) (c : HighCounts) (t : HandType) :
    (s.countHighHand m c).triple t
      = if (m t).isSome ∧ t ≠ .bomb then s.countsOf m t else c.triple t := by
  have hfold : ∀ (ks : List HandType) (c : HighCounts),
      (ks.foldl (s.countKey m) c).triple t
        = if t ∈ ks ∧ (m t).isSome ∧ t ≠ .bomb then s.countsOf m t else c.triple t := by
    intro ks
    induction ks with
    | nil => exact fun c => (if_neg fun h => List.not_mem_nil h.1).symm
    | cons k ks ih =>
      intro c
      rw [List.foldl_cons, ih, countKey_triple]
      -- the entry depends on the map alone, so that it is the same whoever sets it
      by_cases hkey : (m t).isSome ∧ t ≠ .bomb
      · by_cases hk : t = k
        · have hmem : t ∈ k :: ks := List.mem_cons.mpr (.inl hk)
          rw [if_pos (show t = k ∧ _ from ⟨hk, hkey⟩), ite_self, if_pos ⟨hmem, hkey⟩]
        · rw [if_neg fun h : t = k ∧ _ => hk h.1]
          refine if_congr ?_ rfl rfl
          rw [List.mem_cons, or_iff_right hk]
      · rw [if_neg fun h => hkey h.2, if_neg fun h => hkey h.2, if_neg fun h => hkey h.2]
  unfold countHighHand
  rw [hfold]
  exact if_congr (and_iff_right (HandType.mem_all t)) rfl rfl

/-- The trio count is that of the map, whatever it was before, since it starts
from 0 and every key of the map adds its part. -/
theorem countHighHand_trioCount (m : HandsMap) (c : HighCounts) :
    (s.countHighHand m c).trioCount = (HandType.all.map m.trioPart).sum := by
  have hkey : ∀ (c : HighCounts) (k : HandType),
      (s.countKey m c k).trioCount = c.trioCount + m.trioPart k := by
    intro c k
    unfold countKey HandsMap.trioPart HandsMap.vec
    cases hk : m k with
    | none =>
      rw [Option.getD_none]
      cases k <;> exact (Int.add_zero _).symm
    | some hands =>
      rw [Option.getD_some]
      cases k <;> first | rfl | exact (Int.add_zero _).symm
  have hfold : ∀ (ks : List HandType) (c : HighCounts),
      (ks.foldl (s.countKey m) c).trioCount = c.trioCount + (ks.map m.trioPart).sum := by
    intro ks
    induction ks with
    | nil => exact fun c => (Int.add_zero _).symm
    | cons k ks ih =>
      intro c
      rw [List.foldl_cons, ih, hkey, List.map_cons, List.sum_cons, Int.add_assoc]
  unfold countHighHand
  rw [hfold]
  exact Int.zero_add _

/-- An empty vector has no low hand. -/
theorem lowCount_nonpos (hc : c.Nonneg) (h : m.vec t = []) : lowCount m c t ≤ 0 := by
  have h1 := hc.uniHigh t
  have h2 := hc.high t
  have h3 := hc.goodLow t
  unfold lowCount sizeOf
  rw [h]
  change ((0 : Nat) : Int) - _ - _ - _ ≤ 0
  omega

theorem countsOf_nil (h : m.vec t = []) : s.countsOf m t = (0, 0, 0) := by
  unfold countsOf
  rw [h]
  split <;> rfl

/-- The counts of a map that was counted: the entries of a key are those of its
hands, unless the key came later with an empty vector and has what an earlier
map left there. -/
structure Tallied (m : HandsMap) (c : HighCounts) : Prop where
  nonneg : c.Nonneg
  trioCount : c.trioCount = (HandType.all.map m.trioPart).sum
  triple : ∀ t, (m t).isSome → t ≠ .bomb → m.vec t ≠ [] → c.triple t = s.countsOf m t

theorem tallied_countHighHand (hc : c.Nonneg) (m : HandsMap) :
    s.Tallied m (s.countHighHand m c) := by
  refine ⟨s.countHighHand_nonneg hc m, s.countHighHand_trioCount m c, fun t hkey hbomb _ => ?_⟩
  rw [countHighHand_triple, if_pos ⟨hkey, hbomb⟩]

/-- The counts a first judging ends with are counts of the map its loops leave:
they are taken again when a kicker was hung, and if none was every vector is
what it was. -/
theorem tallied_recounted (hc : c.Nonneg) (m : HandsMap) :
    s.Tallied (triosKicked m (s.countHighHand m c)).1 (s.recounted m (s.countHighHand m c)) := by
  have hcount := s.tallied_countHighHand hc m
  generalize s.countHighHand m c = c' at hcount
  unfold recounted
  split
  next => exact s.tallied_countHighHand hcount.nonneg _
  next hflag =>
    -- no kicker was hung on anything: every vector is what it was
    rw [Bool.or_eq_true, not_or, Bool.not_eq_true, Bool.not_eq_true] at hflag
    obtain ⟨-, -, -, -, -, hchain⟩ :=
      kickLoop_spends (m := lvlStart m) hcount.nonneg .trioChainSolo .trioChainPair
    obtain ⟨-, -, -, -, -, htrio⟩ :=
      kickLoop_spends (m := (chainsKicked m c').1) hcount.nonneg .trioSolo .trioPair
    have hchains : (chainsKicked m c').1 = (lvlStart m).touch .trioChain := hchain hflag.1
    have htrios : (triosKicked m c').1 = (chainsKicked m c').1.touch .trio := htrio hflag.2
    have hvec : (triosKicked m c').1.vec = m.vec := by
      funext t
      rw [htrios, HandsMap.vec_touch, hchains, HandsMap.vec_touch, lvlStart_vec]
    have hparts : (triosKicked m c').1.trioPart = m.trioPart := by
      funext t
      unfold HandsMap.trioPart
      rw [hvec]
    refine ⟨hcount.nonneg, by rw [hcount.trioCount, hparts], fun t _ hbomb hne => ?_⟩
    rw [hvec] at hne
    have hkey : (m t).isSome := HandsMap.isSome_of_vec hne
    have hof : s.countsOf (triosKicked m c').1 t = s.countsOf m t := by
      unfold countsOf
      rw [hvec]
    rw [hcount.triple t hkey hbomb hne, hof]

theorem lowCount_congr (h : c.triple t = d.triple t) : lowCount m c t = lowCount m d t := by
  obtain ⟨h1, h23⟩ := Prod.mk.inj h
  obtain ⟨h2, h3⟩ := Prod.mk.inj h23
  unfold lowCount
  rw [h1, h2, h3]

/-- Where there are hands, counting them again gives the same. -/
theorem Tallied.triple_eq (h : s.Tallied m c) (d : HighCounts) (hbomb : t ≠ .bomb)
    (hne : m.vec t ≠ []) : c.triple t = (s.countHighHand m d).triple t := by
  have hkey : (m t).isSome := HandsMap.isSome_of_vec hne
  rw [h.triple t hkey hbomb hne, countHighHand_triple, if_pos ⟨hkey, hbomb⟩]

/-- What is left over for an empty vector makes it count for less than nothing,
never for more. -/
theorem Tallied.lowCount_le (h : s.Tallied m c) (d : HighCounts) (hkey : (m t).isSome)
    (hbomb : t ≠ .bomb) : lowCount m c t ≤ lowCount m (s.countHighHand m d) t := by
  by_cases hvec : m.vec t = []
  · have hzero : (s.countHighHand m d).triple t = HighCounts.triple {} t := by
      rw [countHighHand_triple, if_pos ⟨hkey, hbomb⟩, s.countsOf_nil hvec]
      rfl
    have hnone : lowCount m {} t = 0 := by
      unfold lowCount sizeOf
      rw [hvec]
      rfl
    rw [lowCount_congr hzero, hnone]
    exact lowCount_nonpos h.nonneg hvec
  · exact le_of_eq (lowCount_congr (h.triple_eq s d hbomb hvec))

end Counts

/-! ## The summary of a map at rest -/

section Summary

variable (s : AI) {m : HandsMap} {c d : HighCounts}

/-- The summary where nothing is broken up. -/
def plainSummary (m : HandsMap) (c : HighCounts) : HandsMapSummary :=
  let summary := HandType.all.foldl (summariseKeyLvl m) {}
  soloSummary m c.trioCount { summary with
    effectiveHandsCount := effectiveCount m c (lowCount m c .solo) (lowCount m c .pair)
      - summary.extraBombCount }

/-- On a map at rest no trio is broken up: without a pair to break up it stays
as it is. -/
theorem breakHigh_of_rests (hr : Rests m) (hc : c.Nonneg) (hno : ¬s.BreaksPair m c) :
    s.breakHigh m c = (m, lowCount m c .solo, lowCount m c .pair) := by
  unfold breakHigh
  dsimp only
  split
  next hlow =>
    have htrio : ¬s.BreaksTrio m c := by
      rintro ⟨⟨h, hlast, -⟩, -⟩
      have hnil := hr.solo_nil fun hnil => by
        rw [hnil] at hlast
        cases hlast
      exact absurd hlow (Int.not_lt.mpr (lowCount_nonpos hc hnil))
    split
    next h hback =>
      obtain ⟨hh, hmany⟩ := s.highBack_eq_some_iff.mp hback
      exact absurd ⟨⟨h, hh⟩, decide_eq_true_iff.mp hmany⟩ htrio
    next =>
      split
      next h hback =>
        obtain ⟨hh, hmany⟩ := s.highBack_eq_some_iff.mp hback
        exact absurd ⟨hlow, htrio, ⟨h, hh⟩, by simpa using hmany⟩ hno
      next => rfl
  next => rfl

/-- A judging whose loops leave a map at rest, and which breaks up no pair. -/
theorem getHandsMapSummaryLvl_of_keeps (hc : c.Nonneg) (m : HandsMap)
    (hno : ¬s.BreaksPair (triosKicked m c).1 (s.recounted m c))
    (hcount : (s.recounted m c).Nonneg) :
    s.getHandsMapSummaryLvl m c = ((triosKicked m c).1,
      { s.recounted m c with trioCount := c.trioCount },
      plainSummary (triosKicked m c).1 (s.recounted m c)) := by
  have hbreak := s.breakHigh_of_rests (triosKicked_rests hc m) hcount hno
  have hjudge : s.getHandsMapSummaryLvl m c
      = (let r := s.breakHigh (triosKicked m c).1 (s.recounted m c)
        let summary := HandType.all.foldl (summariseKeyLvl r.1) {}
        (r.1, { s.recounted m c with trioCount := c.trioCount },
          soloSummary r.1 (s.recounted m c).trioCount { summary with
            effectiveHandsCount := effectiveCount r.1 (s.recounted m c) r.2.1 r.2.2
              - summary.extraBombCount })) := by
    unfold getHandsMapSummaryLvl recounted triosKicked chainsKicked lvlStart
    rfl
  rw [hjudge, hbreak]
  rfl

/-! ## The second judging -/

/-- A pair the second judging would break up is one the first would have broken
up. -/
theorem Tallied.keeps_pairs (h : s.Tallied m c) (hr : Rests m) (d : HighCounts)
    (hd : (s.countHighHand m d).Nonneg) (hno : ¬s.BreaksPair m c) :
    ¬s.BreaksPair m (s.countHighHand m d) := by
  rintro ⟨hlow, -, ⟨hand, hback⟩, hmany⟩
  have hsolo : m.vec .solo ≠ [] := fun hnil =>
    absurd hlow (Int.not_lt.mpr (lowCount_nonpos hd hnil))
  have hpair : m.vec .pair ≠ [] := by
    intro hnil
    have hlast := hback.1
    rw [hnil] at hlast
    cases hlast
  have heq : lowCount m c .solo = lowCount m (s.countHighHand m d) .solo :=
    lowCount_congr (h.triple_eq s d (by decide) hsolo)
  obtain ⟨huni, hrest⟩ := Prod.mk.inj (h.triple_eq s d (by decide) hpair)
  obtain ⟨-, hgood⟩ := Prod.mk.inj hrest
  refine hno ⟨by rwa [heq], ?_, ⟨hand, hback⟩, by rwa [heq, huni, hgood]⟩
  -- a trio would mean that there is no solo
  rintro ⟨⟨trio, hlast, -⟩, -⟩
  refine hsolo (hr.solo_nil fun hnil => ?_)
  rw [hnil] at hlast
  cases hlast

/-- The hands the second judging counts are no fewer: a type with hands has the
same entries in both, and one without counts for nothing in the second and at
most for that in the first. -/
theorem Tallied.effectiveCount_le (h : s.Tallied m c) (d : HighCounts) :
    effectiveCount m c (lowCount m c .solo) (lowCount m c .pair)
      ≤ effectiveCount m (s.countHighHand m d) (lowCount m (s.countHighHand m d) .solo)
        (lowCount m (s.countHighHand m d) .pair) := by
  unfold effectiveCount
  refine List.sum_le_sum fun t _ => ?_
  split
  next => exact Int.le_refl 0
  next hkey =>
    rw [not_or, Option.isNone_iff_eq_none, ← ne_eq, Option.ne_none_iff_isSome] at hkey
    have hle := h.lowCount_le s d hkey.1 hkey.2
    split
    next heq =>
      rw [heq] at hle
      exact hle
    next =>
      split
      next heq =>
        rw [heq] at hle
        exact hle
      next => exact hle

/-- A summary that differs in more effective hands only is not better. -/
theorem better_of_effective {a : HandsMapSummary} {n : Int} (hle : a.effectiveHandsCount ≤ n) :
    s.better a { a with effectiveHandsCount := n } = false := by
  unfold better
  split
  next =>
    dsimp only
    rw [decide_eq_false (Int.lt_irrefl _), decide_eq_false (Nat.lt_irrefl _), Bool.and_false]
    rfl
  next =>
    unfold compareHandMapSummary
    dsimp only
    rw [if_neg (Int.not_lt.mpr hle), if_neg (Int.lt_irrefl _), if_neg (Int.lt_irrefl _),
      if_neg (Int.lt_irrefl _), if_neg (Int.lt_irrefl _)]
    split
    · rfl
    · rw [decide_eq_true (Nat.le_refl _)]
      rfl

/-- So the second summary of a map at rest is not better than the first: its
effective hands are no fewer and it differs in nothing else. -/
theorem Tallied.not_better (h : s.Tallied m c) (hd : d.Nonneg) :
    s.better (plainSummary m c) (plainSummary m (s.countHighHand m d)) = false := by
  have htrio : (s.countHighHand m d).trioCount = c.trioCount :=
    (s.tallied_countHighHand hd m).trioCount.trans h.trioCount.symm
  have hsolo : ∀ (n : Int) (summary : HandsMapSummary) (e : Int),
      soloSummary m n { summary with effectiveHandsCount := e }
        = { soloSummary m n summary with effectiveHandsCount := e } := by
    intro n summary e
    unfold soloSummary
    dsimp only
    split <;> rfl
  have hle := h.effectiveCount_le s d
  unfold plainSummary
  rw [htrio]
  generalize HandType.all.foldl (summariseKeyLvl m) {} = summary
  generalize effectiveCount m c _ _ = n at hle ⊢
  generalize effectiveCount m _ _ _ = n' at hle ⊢
  dsimp only
  rw [hsolo, hsolo _ _ (n' - _)]
  exact s.better_of_effective (Int.sub_le_sub_right hle _)

/-- Judged again, a map at rest is left as it is. -/
theorem Tallied.evaluate_again (h : s.Tallied m c) (hr : Rests m) (hno : ¬s.BreaksPair m c)
    (hd : d.Nonneg) :
    s.evaluate m d = (m, s.countHighHand m d, plainSummary m (s.countHighHand m d)) := by
  have hd' := s.countHighHand_nonneg hd m
  obtain ⟨hmap, hcounts⟩ := triosKicked_of_rests s hd' hr
  unfold evaluate
  rw [s.getHandsMapSummaryLvl_of_keeps hd' m ?_ ?_, hmap, hcounts]
  · rw [hmap, hcounts]
    exact h.keeps_pairs s hr d hd' hno
  · rw [hcounts]
    exact hd'

end Summary

/-! ## The split that is kept -/

section Kept

variable (s : AI)

/-- The first split's own judging breaks up no pair. -/
def KeepsPairs : Prop :=
  let split := s.splitOf s.firstSplitter
  let c := s.countHighHand split s.counts
  ¬s.BreaksPair (triosKicked split c).1 (s.recounted split c)

/-- The first splitter's map is evaluated like any candidate's. -/
theorem own_first : s.own s.firstSplitter = s.evaluate (s.splitOf s.firstSplitter) s.counts := by
  unfold firstSplitter
  split <;> rfl

/-- Where the first split's judging breaks up no pair, `sortHandMapLvl` stays
with that split. Then it keeps what it evaluated; and the split is the best one
when no other candidate is better, which the function does not look at. -/
theorem sortHandMapLvl_keeps_first (hc : s.counts.Nonneg) (hpairs : s.KeepsPairs) :
    s.kept = s.firstSplitter ∧ (s.SortedBy s.kept ↔ s.Best s.firstSplitter) := by
  have hcount := s.tallied_recounted hc (s.splitOf s.firstSplitter)
  have hc1 := s.countHighHand_nonneg hc (s.splitOf s.firstSplitter)
  have hr := triosKicked_rests hc1 (s.splitOf s.firstSplitter)
  have hown := s.getHandsMapSummaryLvl_of_keeps hc1 _ hpairs hcount.nonneg
  change s.evaluate (s.splitOf s.firstSplitter) s.counts = _ at hown
  rw [← own_first] at hown
  have hno : ¬s.BreaksPair _ _ := hpairs
  generalize s.recounted _ _ = c at hcount hown hno
  generalize (triosKicked _ _).1 = m at hcount hr hown hno
  -- the second judging finds the first one's map and nothing better
  have hempty := HighCounts.nonneg_empty
  have hagain : s.again = (m, s.countHighHand m {}, plainSummary m (s.countHighHand m {})) := by
    unfold again
    rw [hown]
    exact hcount.evaluate_again s hr hno hempty
  have hsecond : ¬s.TakesSecond := by
    unfold TakesSecond
    rw [hown, hagain, hcount.not_better s hempty]
    exact Bool.false_ne_true
  have hheld : s.heldMap = m := by
    unfold heldMap
    rw [if_neg hsecond, hagain]
  have hstanding : s.standing = s.own s.firstSplitter := if_neg hsecond
  -- and so does the third
  have hd := s.countHighHand_nonneg hempty m
  have hthirdMap : s.againThird = (m, s.countHighHand m (s.countHighHand m {}),
      plainSummary m (s.countHighHand m (s.countHighHand m {}))) := by
    unfold againThird
    rw [hheld, hagain]
    exact hcount.evaluate_again s hr hno hd
  have hthird : ¬s.TakesThird := by
    rintro ⟨-, hbetter⟩
    rw [hstanding, hown, hthirdMap, hcount.not_better s hd] at hbetter
    cases hbetter
  have hkept : s.kept = s.firstSplitter := by
    unfold kept
    rw [if_neg hthird, if_neg hsecond]
  refine ⟨hkept, ?_⟩
  have hleft : s.leftMap = (s.own s.firstSplitter).1 := by
    unfold leftMap
    rw [if_neg hthird, hheld, hthirdMap, hown, ite_self]
  rw [s.sortedBy_kept_iff]
  constructor
  · rintro (h | h)
    · exact h.best
    · exact absurd h.taken (not_or.mpr ⟨hsecond, hthird⟩)
  · exact fun hbest => .inl ⟨hsecond, hthird, fun t => by rw [hleft], hbest⟩

/-- A farmer with three threes, a five and two sevens; the lord holds an eight
and a two. -/
def farmerWithThrees : AI :=
  { level := 2
    aiSeat := 0
    lordSeat := 1
    downSeat := 1
    upSeat := 2
    aiPosition := .upFarmer
    playerInfo := fun seat =>
      if seat = 0 then ⟨Points.ofList [3, 0, 1, 0, 2], 6⟩
      else if seat = 1 then ⟨Points.ofList [0, 0, 0, 0, 0, 1, 0, 0, 0, 0, 0, 0, 1], 2⟩
      else ⟨Points.ofList [0, 1], 1⟩ }

/-- The five goes with the threes, the sevens are no high pair, and no other
split is better. -/
theorem sortHandMapLvl_keeps_first_threes :
    farmerWithThrees.kept = .kind .kind1 ∧ farmerWithThrees.SortedBy farmerWithThrees.kept := by
  have hpairs : farmerWithThrees.KeepsPairs := fun h => absurd h.1 (by decide +kernel)
  have hbest : farmerWithThrees.Best farmerWithThrees.firstSplitter := by
    unfold Best
    decide +kernel
  have hkeep := sortHandMapLvl_keeps_first farmerWithThrees HighCounts.nonneg_empty hpairs
  exact ⟨hkeep.1, hkeep.2.mpr hbest⟩

end Kept

end AI

end RobotDdz
