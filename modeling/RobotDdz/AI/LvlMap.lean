import RobotDdz.AI.Playable
import RobotDdz.AI.Rejudge

/-!
# The map the high level plays from

Above level 1 the robot does not play from a split as it comes:
`getHandsMapSummaryLvl` hangs kickers on the trios of the map it judges and may
break a pair up, and `sortHandMapLvl` has the map it keeps judged two or three
times. `LvlMap` is what all this preserves. Every hand is a complete one of
held cards. The solos are some of those of the split, the bombs all of them. A
hand among the pairs, be it a pair or the solo that `BreaksPair` leaves there,
has a rank that is held twice.

A round preserves it when the kickers fit (`LvlMap.round`), the loops by
induction on the rounds. The high trio is never broken up after the loops
(`Rests.solo_nil`): a trio that got no kicker means that there are no solos
left, and these are what it would be broken up for.

On a split the kickers fit. On the map as an earlier judging left it they may
not: the solo among the pairs has the rank of a pair, and a chain that takes
both has one kicker twice. `KickersLast` excludes that, and `leftMap_playsFrom`
is the outcome.

Mirroring notes vs `OGLordRobotAI.cpp`:
- From the second splitter on `sortHandMapLvl` fills `tmpMap` and judges
  `handsMap`. So the map it keeps may be a later split as it comes, or the
  first one as two or three judgings have left it.
- `getHandsMapSummaryLvl` takes the map by reference and hangs the kickers on
  in place, so that the second judging starts from what the first has made of
  it.
-/

namespace RobotDdz

open Runs

namespace AI

/-- What rounds and broken pairs leave of the map of a holding that was
`split`. -/
structure LvlMap (p : Points) (split m : HandsMap) : Prop where
  held : ∀ t, ∀ hand ∈ m.vec t, hand.Held p
  solo : (m.vec .solo).Sublist (split.vec .solo)
  pair : ∀ hand ∈ m.vec .pair, 2 ≤ p hand.keyPoint
  body : ∀ t, t = .trio ∨ t = .trioChain → ∀ hand ∈ m.vec t, hand.type = t
  bomb : m.vec .bomb = split.vec .bomb

section LvlMap

variable {p : Points} {split m : HandsMap}

theorem LvlMap.congr {m' : HandsMap} (h : LvlMap p split m) (hvec : ∀ t, m'.vec t = m.vec t) :
    LvlMap p split m' := by
  refine ⟨fun t => ?_, ?_, ?_, fun t ht => ?_, ?_⟩
  · rw [hvec]
    exact h.held t
  · rw [hvec]
    exact h.solo
  · rw [hvec]
    exact h.pair
  · rw [hvec]
    exact h.body t ht
  · rw [hvec]
    exact h.bomb

/-- Such a map is one to play from if the split is. -/
theorem LvlMap.playsFrom (h : LvlMap p split m) (hs : PlaysFrom p split)
    (hsome : ∃ t, m.vec t ≠ []) : PlaysFrom p m := by
  refine ⟨h.held, hsome, fun hand hh => hs.solo hand (h.solo.subset hh),
    hs.soloUp.sublist h.solo, fun hboth => hs.jokers ?_, ?_, ?_⟩
  · obtain ⟨⟨hand, hh, hk⟩, hand', hh', hk'⟩ := hboth
    exact ⟨⟨hand, h.solo.subset hh, hk⟩, hand', h.solo.subset hh', hk'⟩
  · rw [h.bomb]
    exact hs.bomb
  · rw [h.bomb]
    exact fun bomb hb ht hand hh => hs.apart bomb hb ht hand (h.solo.subset hh)

/-- A typed split is where it starts. -/
theorem LvlMap.start (hs : PlaysFrom p split) (htyped : split.Typed) : LvlMap p split split := by
  refine ⟨hs.held, List.Sublist.refl _, fun hand hh => ?_, fun t ht hand hh => ?_, rfl⟩
  · have htype := htyped.type_eq (by decide) hh
    have hcards := (hs.held .pair hand hh).held hand.keyPoint
    rwa [handToPointsArray_ofSingle (by rw [htype]; rfl), if_pos rfl, htype] at hcards
  · exact htyped.type_eq (by rcases ht with rfl | rfl <;> decide) hh

/-! ## A round -/

/-- The bodies a loop over the vector of type `t` has put aside. -/
structure LvlRound (p : Points) (split : HandsMap) (t : HandType) (x : HandsMap × List Hand) :
    Prop where
  map : LvlMap p split x.1
  kept : ∀ hand ∈ x.2, hand.type = t ∧ hand.Held p

variable {c : HighCounts} {t withSolo withPair : HandType} {x : HandsMap × List Hand} {h : Hand}

/-- The kickers a round hangs on a body are held, and they are not both jokers:
the solos are those of the split, which puts a rocket into the bombs. -/
theorem LvlMap.kickers (hm : LvlMap p split m) (hp : LegalCounts p) (hs : PlaysFrom p split)
    {k : HandType} (hk : k = .solo ∨ k = .pair) (n : Nat) :
    (∀ r ∈ ((m.vec k).take n).map Hand.keyPoint, r ≤ redJoker ∧ k.mult ≤ p r) ∧
      ¬(blackJoker ∈ ((m.vec k).take n).map Hand.keyPoint ∧
        redJoker ∈ ((m.vec k).take n).map Hand.keyPoint) := by
  have hheld : ∀ r ∈ ((m.vec k).take n).map Hand.keyPoint, k.mult ≤ p r := by
    intro r hr
    obtain ⟨hand, hh, rfl⟩ := List.mem_map.mp hr
    have hh := List.mem_of_mem_take hh
    rcases hk with rfl | rfl
    · have hh := hm.solo.subset hh
      have htype := hs.solo hand hh
      have hcards := (hs.held .solo hand hh).held hand.keyPoint
      rwa [handToPointsArray_ofSingle (by rw [htype]; rfl), if_pos rfl, htype] at hcards
    · exact hm.pair hand hh
  refine ⟨fun r hr => ⟨le_redJoker_of_pos hp ?_, hheld r hr⟩, fun hboth => ?_⟩
  · refine Int.lt_of_lt_of_le ?_ (hheld r hr)
    rcases hk with rfl | rfl <;> decide
  rcases hk with rfl | rfl
  · have hone : ∀ j, j ∈ ((m.vec .solo).take n).map Hand.keyPoint →
        ∃ hand ∈ split.vec .solo, hand.keyPoint = j := by
      intro j hj
      obtain ⟨hand, hh, hkey⟩ := List.mem_map.mp hj
      exact ⟨hand, hm.solo.subset (List.mem_of_mem_take hh), hkey⟩
    exact hs.jokers ⟨hone _ hboth.1, hone _ hboth.2⟩
  · have := le_card2_of_pair hp (hheld _ hboth.1)
    exact absurd this (by decide)

/-- The kickers leave their vector and the hand joins that of its type. The
vectors that are not of a kicked type are the old ones or what is left of them. -/
theorem LvlMap.hang (hm : LvlMap p split m) {k t' : HandType} (hk : k = .solo ∨ k = .pair)
    (ht' : t' ∈ HandType.trioKicked) (n : Nat) {kicked : Hand} (hh : kicked.Held p) :
    LvlMap p split ((m.put k ((m.vec k).drop n)).push t' kicked) := by
  have hvec : ∀ i, i ∉ HandType.trioKicked →
      (((m.put k ((m.vec k).drop n)).push t' kicked).vec i).Sublist (m.vec i) ∧
        (i ≠ k → ((m.put k ((m.vec k).drop n)).push t' kicked).vec i = m.vec i) := by
    intro i hi
    have hne : i ≠ t' := fun heq => hi (heq ▸ ht')
    rw [HandsMap.vec_push, if_neg hne, HandsMap.vec_put]
    split
    next heq =>
      rw [heq]
      exact ⟨List.drop_sublist _ _, fun hno => absurd rfl hno⟩
    next => exact ⟨List.Sublist.refl _, fun _ => rfl⟩
  refine ⟨fun i hand hmem => ?_, (hvec .solo (by decide)).1.trans hm.solo,
    fun hand hmem => hm.pair hand ((hvec .pair (by decide)).1.subset hmem),
    fun i hi hand hmem => hm.body i hi hand ?_, ?_⟩
  · rw [HandsMap.vec_push] at hmem
    split at hmem
    · rcases List.mem_append.mp hmem with hold | hnew
      · rw [HandsMap.vec_put] at hold
        split at hold
        · exact hm.held k hand (List.mem_of_mem_drop hold)
        · exact hm.held _ hand hold
      · rw [List.mem_singleton.mp hnew]
        exact hh
    · rw [HandsMap.vec_put] at hmem
      split at hmem
      · exact hm.held k hand (List.mem_of_mem_drop hmem)
      · exact hm.held i hand hmem
  · exact (hvec i (by rcases hi with rfl | rfl <;> decide)).1.subset hmem
  · rw [(hvec .bomb (by decide)).2 (by rcases hk with rfl | rfl <;> decide)]
    exact hm.bomb

/-- One round, with kickers that fit. Without kickers the body is put aside as
it is; with them the hand is complete, since as many are taken as the body is
wide. -/
theorem LvlRound.round (hx : LvlRound p split t x) (hp : LegalCounts p) (hs : PlaysFrom p split)
    (hc : c.Nonneg) (hsolo : Kicks t withSolo) (hpair : Kicks t withPair)
    (hms : withSolo.kickMult = 1) (hmp : withPair.kickMult = 2) (hh : h.type = t ∧ h.Held p)
    (hfit : Fits c x h) : LvlRound p split t (kickRound c t withSolo withPair x h) := by
  rw [kickRound_eq hsolo hh.1]
  split
  next =>
    refine ⟨hx.map, fun hand hmem => ?_⟩
    rcases List.mem_append.mp hmem with hold | hnew
    · exact hx.kept hand hold
    · rw [List.mem_singleton.mp hnew]
      exact hh
  next k hsome =>
    obtain ⟨hk, hlen⟩ := kickWith_some hc hsome
    obtain ⟨hnodup, hout⟩ := hfit k hsome
    obtain ⟨hheld, hjokers⟩ := hx.map.kickers hp hs hk h.width
    have htake : (((x.1.vec k).take h.width).map Hand.keyPoint).length = h.width := by
      rw [List.length_map, List.length_take, min_eq_left hlen]
    obtain ⟨t', ht', hkick, hmult⟩ : ∃ t', (if k = .solo then withSolo else withPair) = t' ∧
        Kicks h.type t' ∧ t'.kickMult = k.mult := by
      rw [hh.1]
      rcases hk with rfl | rfl
      · exact ⟨withSolo, rfl, hsolo, hms⟩
      · exact ⟨withPair, rfl, hpair, hmp⟩
    dsimp only
    rw [ht']
    generalize ((x.1.vec k).take h.width).map Hand.keyPoint = ks at hnodup hout hheld hjokers htake
    have hbody : t'.BodyOk h.keyPoint h.len := by
      have hok := hh.2.body
      generalize h.type = b at hkick hok
      cases hkick
      · exact Nat.le_trans hok (by decide)
      · exact Nat.le_trans hok (by decide)
      · exact hok
      · exact hok
    have hmem : t' ∈ HandType.trioKicked := by
      generalize h.type = b at hkick
      cases hkick <;> decide
    obtain ⟨hcomplete, hcards⟩ := complete_kicked hkick hp.nonneg hbody htake
      ⟨hnodup, hout, hjokers⟩ (fun r hlo hhi => by
        have hcard := hh.2.held r
        rwa [handToPointsArray_body hkick, if_pos ⟨hlo, hhi⟩] at hcard)
      (fun r hr => ⟨(hheld r hr).1, hmult ▸ (hheld r hr).2⟩)
    exact ⟨hx.map.hang hk hmem h.width ⟨hcomplete, hcards⟩, hx.kept⟩

/-! ## A loop -/

/-- A loop all of whose kickers fit, by induction on the bodies of the vector.
At the end the bodies that were put aside are put back under their own type. -/
theorem LvlMap.loop (hm : LvlMap p split m) (hp : LegalCounts p) (hs : PlaysFrom p split)
    (hc : c.Nonneg) (ht : t = .trio ∨ t = .trioChain) (hsolo : Kicks t withSolo)
    (hpair : Kicks t withPair) (hms : withSolo.kickMult = 1) (hmp : withPair.kickMult = 2)
    (hfit : Along (kickRound c t withSolo withPair) (Fits c) (m, []) (m.vec t)) :
    LvlMap p split (kickLoop m c t withSolo withPair).1 := by
  have hbodies : ∀ h ∈ m.vec t, h.type = t ∧ h.Held p :=
    fun h hh => ⟨hm.body t ht h hh, hm.held t h hh⟩
  -- every round meets a body of the vector
  have hrun : ∀ (hands : List Hand) (x : HandsMap × List Hand),
      (∀ h ∈ hands, h.type = t ∧ h.Held p) → LvlRound p split t x →
      Along (kickRound c t withSolo withPair) (Fits c) x hands →
      LvlRound p split t (run (kickRound c t withSolo withPair) x hands) := by
    intro hands
    induction hands with
    | nil => exact fun x _ hx _ => hx
    | cons h hands ih =>
      intro x hall hx halong
      exact ih _ (fun h' hh' => hall h' (List.mem_cons_of_mem _ hh'))
        (hx.round hp hs hc hsolo hpair hms hmp (hall h List.mem_cons_self) halong.1) halong.2
  have hend := hrun (m.vec t) (m, []) hbodies ⟨hm, fun _ hh => absurd hh List.not_mem_nil⟩ hfit
  change LvlMap p split ((run (kickRound c t withSolo withPair) (m, []) (m.vec t)).1.put t
    (run (kickRound c t withSolo withPair) (m, []) (m.vec t)).2)
  generalize run (kickRound c t withSolo withPair) (m, []) (m.vec t) = x at hend
  have hne : ∀ i, i ≠ .trio → i ≠ .trioChain → i ≠ t := by
    intro i h1 h2 heq
    rcases ht with rfl | rfl
    · exact h1 heq
    · exact h2 heq
  refine ⟨fun i hand hh => ?_, ?_, ?_, fun i hi hand hh => ?_, ?_⟩
  · rw [HandsMap.vec_put] at hh
    split at hh
    · exact (hend.kept hand hh).2
    · exact hend.map.held i hand hh
  · rw [HandsMap.vec_put_ne (hne _ (by decide) (by decide))]
    exact hend.map.solo
  · rw [HandsMap.vec_put_ne (hne _ (by decide) (by decide))]
    exact hend.map.pair
  · rw [HandsMap.vec_put] at hh
    split at hh
    next heq =>
      rw [heq]
      exact (hend.kept hand hh).1
    next => exact hend.map.body i hi hand hh
  · rw [HandsMap.vec_put_ne (hne _ (by decide) (by decide))]
    exact hend.map.bomb

/-- A body with its kickers or without is a hand of the map: no loop leaves a
map empty. -/
theorem kickLoop_nonempty (hsolo : Kicks t withSolo) (hpair : Kicks t withPair)
    (htype : ∀ h ∈ m.vec t, h.type = t) (hsome : ∃ i, m.vec i ≠ []) :
    ∃ i, (kickLoop m c t withSolo withPair).1.vec i ≠ [] := by
  have hne : ∀ t', Kicks t t' → t' ≠ t := fun t' hk => by cases hk <;> decide
  -- whatever the round did, its body is there afterwards
  have hround : ∀ (x : HandsMap × List Hand) (h : Hand), h.type = t →
      (kickRound c t withSolo withPair x h).2 ≠ [] ∨
        ∃ i, i ≠ t ∧ (kickRound c t withSolo withPair x h).1.vec i ≠ [] := by
    intro x h hh
    rw [kickRound_eq hsolo hh]
    split
    next => exact .inl (List.append_ne_nil_of_right_ne_nil _ (List.cons_ne_nil _ _))
    next k _ =>
      refine .inr ⟨if k = .solo then withSolo else withPair, ?_, ?_⟩
      · split
        · exact hne _ hsolo
        · exact hne _ hpair
      · dsimp only
        rw [HandsMap.vec_push, if_pos rfl]
        exact List.append_ne_nil_of_right_ne_nil _ (List.cons_ne_nil _ _)
  have hrun : ∀ (hands : List Hand) (x : HandsMap × List Hand), (∀ h ∈ hands, h.type = t) →
      (x.2 ≠ [] ∨ ∃ i, i ≠ t ∧ x.1.vec i ≠ []) →
      ((run (kickRound c t withSolo withPair) x hands).2 ≠ [] ∨
        ∃ i, i ≠ t ∧ (run (kickRound c t withSolo withPair) x hands).1.vec i ≠ []) := by
    intro hands
    induction hands with
    | nil => exact fun x _ hx => hx
    | cons h hands ih =>
      intro x hall _
      exact ih _ (fun h' hh' => hall h' (List.mem_cons_of_mem _ hh'))
        (hround x h (hall h List.mem_cons_self))
  have hend : (run (kickRound c t withSolo withPair) (m, []) (m.vec t)).2 ≠ [] ∨
      ∃ i, i ≠ t ∧ (run (kickRound c t withSolo withPair) (m, []) (m.vec t)).1.vec i ≠ [] := by
    cases hv : m.vec t with
    | nil =>
      obtain ⟨i, hi⟩ := hsome
      exact .inr ⟨i, fun heq => hi (heq ▸ hv), hi⟩
    | cons h hands =>
      rw [hv] at htype
      exact hrun hands _ (fun h' hh' => htype h' (List.mem_cons_of_mem _ hh'))
        (hround _ h (htype h List.mem_cons_self))
  change ∃ i, ((run (kickRound c t withSolo withPair) (m, []) (m.vec t)).1.put t
    (run (kickRound c t withSolo withPair) (m, []) (m.vec t)).2).vec i ≠ []
  rcases hend with hkept | ⟨i, hi, hvec⟩
  · exact ⟨t, by rwa [HandsMap.vec_put, if_pos rfl]⟩
  · exact ⟨i, by rwa [HandsMap.vec_put_ne hi]⟩

end LvlMap

/-! ## A judging -/

section Judge

variable (s : AI) {p : Points} {split m : HandsMap} {c : HighCounts}

/-- With no solos beside the trios a pair is all that is broken up, and what
that adds to the map is a solo of the pair's rank among the pairs. -/
theorem breakHigh_pairs (hc : c.Nonneg) (htrio : m.vec .trio ≠ [] → m.vec .solo = []) :
    (s.breakHigh m c).1 = m ∨ ∃ h ∈ m.vec .pair,
      (s.breakHigh m c).1 = m.push .pair { type := .solo, keyPoint := h.keyPoint, len := 1 } := by
  unfold breakHigh
  dsimp only
  split
  next hlow =>
    have hsolo : m.vec .solo ≠ [] := fun hnil =>
      absurd hlow (Int.not_lt.mpr (lowCount_nonpos hc hnil))
    split
    next h hback =>
      -- the high trio would have taken the solo along
      have hlast := (s.highBack_eq_some_iff.mp hback).1.1
      have hne : m.vec .trio ≠ [] := by
        intro hnil
        rw [hnil] at hlast
        cases hlast
      exact absurd (htrio hne) hsolo
    next =>
      split
      next h hback =>
        have hlast := (s.highBack_eq_some_iff.mp hback).1.1
        exact .inr ⟨h, List.mem_of_getLast? hlast, rfl⟩
      next => exact .inl rfl
  next => exact .inl rfl

/-- The chains of such a map are chains, and so the trios after the loop over
them. -/
theorem LvlMap.chains (hm : LvlMap p split m) (hp : LegalCounts p) (hs : PlaysFrom p split)
    (hc : c.Nonneg) (hfit : KicksFit m c) : LvlMap p split (chainsKicked m c).1 :=
  (hm.congr fun t => lvlStart_vec t).loop hp hs hc (.inr rfl) .trioChainSolo .trioChainPair rfl rfl
    (by
      rw [lvlStart_vec]
      exact hfit.1)

/-- The two loops, when the kickers of every round fit. -/
theorem LvlMap.kicked (hm : LvlMap p split m) (hp : LegalCounts p) (hs : PlaysFrom p split)
    (hc : c.Nonneg) (hfit : KicksFit m c) : LvlMap p split (triosKicked m c).1 :=
  (hm.chains hp hs hc hfit).loop hp hs hc (.inl rfl) .trioSolo .trioPair rfl rfl hfit.2

/-- A judging leaves what the loops leave, or that with a pair broken up. -/
theorem evaluate_pairs (hc : c.Nonneg) (m : HandsMap) :
    (s.evaluate m c).1 = (triosKicked m (s.countHighHand m c)).1 ∨
      ∃ h ∈ (triosKicked m (s.countHighHand m c)).1.vec .pair,
        (s.evaluate m c).1 = (triosKicked m (s.countHighHand m c)).1.push .pair
          { type := .solo, keyPoint := h.keyPoint, len := 1 } := by
  have hmap : (s.evaluate m c).1 = (s.breakHigh (triosKicked m (s.countHighHand m c)).1
      (s.recounted m (s.countHighHand m c))).1 := s.getHandsMapSummaryLvl_map m _
  rw [hmap]
  exact s.breakHigh_pairs (s.tallied_recounted hc m).nonneg
    (triosKicked_rests (s.countHighHand_nonneg hc m) m).solo_nil

/-- One judging of a map, when the kickers of every round fit. After the loops
at most one pair is broken up, and the solo that joins the pairs has the rank
of one of them. -/
theorem LvlMap.evaluate (hm : LvlMap p split m) (hp : LegalCounts p) (hs : PlaysFrom p split)
    (hc : c.Nonneg) (hfit : KicksFit m (s.countHighHand m c)) :
    LvlMap p split (s.evaluate m c).1 := by
  have hkicked := hm.kicked hp hs (s.countHighHand_nonneg hc m) hfit
  rcases s.evaluate_pairs hc m with heq | ⟨h, hh, heq⟩
  · rw [heq]
    exact hkicked
  rw [heq]
  generalize (triosKicked m (s.countHighHand m c)).1 = m' at hkicked hh
  -- the solo that joins the pairs has the rank of one
  have htwo := hkicked.pair h hh
  have hheld : Hand.Held p { type := .solo, keyPoint := h.keyPoint, len := 1 } :=
    held_ofSingle hp rfl (Int.le_trans (show (1 : Int) ≤ 2 by decide) htwo)
  have hvec : ∀ t, t ≠ .pair →
      (m'.push .pair { type := .solo, keyPoint := h.keyPoint, len := 1 }).vec t = m'.vec t :=
    fun t ht => by rw [HandsMap.vec_push, if_neg ht]
  refine ⟨fun t hand hmem => ?_, ?_, fun hand hmem => ?_, fun t ht => ?_, ?_⟩
  · rw [HandsMap.vec_push] at hmem
    split at hmem
    · rcases List.mem_append.mp hmem with hold | hnew
      · exact hkicked.held .pair hand hold
      · rw [List.mem_singleton.mp hnew]
        exact hheld
    · exact hkicked.held t hand hmem
  · rw [hvec _ (by decide)]
    exact hkicked.solo
  · rw [HandsMap.vec_push, if_pos rfl] at hmem
    rcases List.mem_append.mp hmem with hold | hnew
    · exact hkicked.pair hand hold
    · rw [List.mem_singleton.mp hnew]
      exact htwo
  · rw [hvec t (by rcases ht with rfl | rfl <;> decide)]
    exact hkicked.body t ht
  · rw [hvec _ (by decide)]
    exact hkicked.bomb

/-- No judging leaves a map empty. -/
theorem evaluate_nonempty (hm : LvlMap p split m) (hp : LegalCounts p) (hs : PlaysFrom p split)
    (hc : c.Nonneg) (hfit : KicksFit m (s.countHighHand m c)) (hsome : ∃ t, m.vec t ≠ []) :
    ∃ t, (s.evaluate m c).1.vec t ≠ [] := by
  have hchains := hm.chains hp hs (s.countHighHand_nonneg hc m) hfit
  have hkicked : ∃ t, (triosKicked m (s.countHighHand m c)).1.vec t ≠ [] := by
    refine kickLoop_nonempty .trioSolo .trioPair (hchains.body .trio (.inl rfl))
      (kickLoop_nonempty .trioChainSolo .trioChainPair (fun h hh => ?_) ?_)
    · rw [lvlStart_vec] at hh
      exact hm.body .trioChain (.inr rfl) h hh
    · obtain ⟨t, ht⟩ := hsome
      exact ⟨t, by rwa [lvlStart_vec]⟩
  rcases s.evaluate_pairs hc m with heq | ⟨h, -, heq⟩
  · rw [heq]
    exact hkicked
  · rw [heq]
    exact ⟨.pair, by
      rw [HandsMap.vec_push, if_pos rfl]
      exact List.append_ne_nil_of_right_ne_nil _ (List.cons_ne_nil _ _)⟩

/-- No count is negative after a judging. -/
theorem evaluate_counts_nonneg (hc : c.Nonneg) (m : HandsMap) : (s.evaluate m c).2.1.Nonneg := by
  obtain ⟨trioCount, heq⟩ : ∃ trioCount, (s.evaluate m c).2.1
      = { s.recounted m (s.countHighHand m c) with trioCount } := ⟨_, rfl⟩
  have hrecount := (s.tallied_recounted hc m).nonneg
  rw [heq]
  exact ⟨hrecount.uniHigh, hrecount.high, hrecount.goodLow⟩

end Judge

/-! ## The map that is kept -/

section Left

variable (s : AI)

/-- The kickers fit when the first split is judged again: as the first judging
left it, and, where a third splitter is tried, as the second left it. -/
structure KickersLast : Prop where
  second : KicksFit (s.own s.firstSplitter).1 (s.countHighHand (s.own s.firstSplitter).1 {})
  third : ¬s.FacesOne → KicksFit s.again.1 (s.countHighHand s.again.1 s.again.2.1)

variable {s} (hp : LegalHolding s.aiPoints) (hlong : ∀ x, ¬OverLong x s.aiPoints)
  {r : Nat} (hr : 0 < s.aiPoints r)

include hp hlong hr

theorem splitOf_playsFrom (x : Splitter) : PlaysFrom s.aiPoints (s.splitOf x) :=
  splitInto_playsFrom hp x false (hlong x) hr

/-- A split as it comes, judged for the first time. -/
theorem evaluate_split (x : Splitter) {c : HighCounts} (hc : c.Nonneg) :
    LvlMap s.aiPoints (s.splitOf x) (s.evaluate (s.splitOf x) c).1 ∧
      ∃ t, (s.evaluate (s.splitOf x) c).1.vec t ≠ [] := by
  have hplays := splitOf_playsFrom hp hlong hr x
  obtain ⟨htyped, hready⟩ := splitInto_ready hp.toLegalCounts x
  have hstart := LvlMap.start hplays htyped
  have hfit := kicksFit_of_ready hready htyped (s.countHighHand_nonneg hc (s.splitOf x))
  exact ⟨hstart.evaluate s hp.toLegalCounts hplays hc hfit,
    evaluate_nonempty s hstart hp.toLegalCounts hplays hc hfit hplays.nonempty⟩

/-- The map `sortHandMapLvl` leaves is one to play from: a later split always,
the first one when its kickers fit to the end. -/
theorem leftMap_playsFrom (hc : s.counts.Nonneg)
    (hlast : ¬s.TakesSecond → ¬s.TakesThird → s.KickersLast) :
    PlaysFrom s.aiPoints s.leftMap := by
  have hown := s.own_first
  have hplays := splitOf_playsFrom hp hlong hr
  have hempty := HighCounts.nonneg_empty
  have hagain : s.again.2.1.Nonneg := s.evaluate_counts_nonneg hempty _
  by_cases hthird : s.TakesThird
  · unfold leftMap
    rw [if_neg hthird.1, if_pos hthird]
    exact hplays _
  by_cases hsecond : s.TakesSecond
  · have hheld : s.heldMap = s.splitOf s.secondSplitter := if_pos hsecond
    unfold leftMap againThird
    rw [hheld, if_neg hthird]
    split
    · exact hplays _
    · obtain ⟨hmap, hsome⟩ := evaluate_split hp hlong hr s.secondSplitter hagain
      exact hmap.playsFrom (hplays _) hsome
  -- the first split stays, and is judged once or twice more
  have hfit := hlast hsecond hthird
  have hheld : s.heldMap = s.again.1 := if_neg hsecond
  obtain ⟨hmap, hsome⟩ := evaluate_split hp hlong hr s.firstSplitter hc
  rw [← hown] at hmap hsome
  have hmap' : LvlMap s.aiPoints (s.splitOf s.firstSplitter) s.again.1 :=
    hmap.evaluate s hp.toLegalCounts (hplays _) hempty hfit.second
  have hsome' : ∃ t, s.again.1.vec t ≠ [] :=
    evaluate_nonempty s hmap hp.toLegalCounts (hplays _) hempty hfit.second hsome
  unfold leftMap againThird
  rw [hheld, if_neg hthird]
  split
  · exact hmap'.playsFrom (hplays _) hsome'
  next hone =>
    exact (hmap'.evaluate s hp.toLegalCounts (hplays _) hagain (hfit.third hone)).playsFrom
      (hplays _) (evaluate_nonempty s hmap' hp.toLegalCounts (hplays _) hagain (hfit.third hone)
        hsome')

end Left

end AI

end RobotDdz
