import RobotDdz.Cards.Accept
import RobotDdz.Split.Legal

/-!
# Room for the kickers

`CardPoint kicker[5]` has one slot less than the longest trio chain has ranks.
`getHand` and the kicker pass write as many slots as the type of the hand uses
(`Hand.Filled`), and a hand with more than five kickers would have more than
twenty cards: `kicker_room`.

The writes are not modelled as an array with bounds but counted: `kicker` is
the list of the slots written, so that "stays inside" is a bound on its length,
and nothing is lost when it fails. Two functions write there. `getHand` copies
a bucket, and the conditions of `classify` say how long the bucket is
(`classify_filled`). The kicker pass pushes what it picked, as many as the body
is wide (`KicksFilled` through its two loops). The number of cards then bounds
the width: each rank of a trio chain costs four cards with a solo and five with
a pair.
-/

namespace RobotDdz

/-- The slots written are those a hand of the type uses. -/
def Hand.Filled (h : Hand) : Prop := h.kicker.length = h.kickerCount

/-- The writes of a hand stay in `kicker[0]` to `kicker[4]`, as they do when
the trio chains with solos have at most five ranks and those with pairs at most
four. -/
structure Hand.KickerRoom (h : Hand) : Prop where
  filled : h.Filled
  slots : ∀ i < h.kicker.length, i ≤ 4
  solos : h.type = .trioChainSolo → h.len ≤ 5
  pairs : h.type = .trioChainPair → h.len ≤ 4

/-- A filled hand of at most twenty cards has room. -/
theorem Hand.Filled.room {h : Hand} (hf : h.Filled) (hs : h.Shaped)
    (htotal : (handToPointsArray h).total ≤ 20) : h.KickerRoom := by
  have hcount : h.kickerCount ≤ 5 ∧ (h.type = .trioChainPair → h.kickerCount ≤ 4) := by
    rcases hs.kickers_le_total with hfew | ⟨hcards, hpairs⟩
    · exact ⟨by omega, fun _ => by omega⟩
    · exact ⟨by omega, fun ht => by have := hpairs ht; omega⟩
  have hchain : h.type = .trioChainSolo ∨ h.type = .trioChainPair → h.kickerCount = h.len := by
    rintro (ht | ht) <;> rw [Hand.kickerCount, ht]
  refine ⟨hf, fun i hi => ?_, fun ht => ?_, fun ht => ?_⟩
  · rw [hf] at hi
    omega
  · rw [← hchain (Or.inl ht)]
    exact hcount.1
  · rw [← hchain (Or.inr ht)]
    exact hcount.2 ht

/-- Without kickers there is nothing to write. -/
theorem Hand.Filled.room_of_none {h : Hand} (hf : h.Filled) (hn : h.kickerCount = 0)
    (ht : h.type ≠ .trioChainSolo ∧ h.type ≠ .trioChainPair) : h.KickerRoom := by
  refine ⟨hf, fun i hi => ?_, fun h1 => absurd h1 ht.1, fun h2 => absurd h2 ht.2⟩
  rw [hf, hn] at hi
  exact absurd hi (Nat.not_lt_zero i)

/-! ## The recogniser -/

/-- Each branch of the recogniser copies as many slots as its type uses. -/
theorem classify_filled (solos pairs trios bombs : List Nat) :
    (classify solos pairs trios bombs).Filled := by
  unfold classify Hand.Filled
  split_ifs <;> simp_all [Hand.kickerCount]

/-- The rocket has no slots; every other play goes through `classify`. -/
theorem getHand_filled (p : Points) : (getHand p).Filled := by
  unfold getHand
  split
  · split <;> rfl
  · exact classify_filled ..

/-- A play of at most twenty cards has room. A solo or a pair chain need not
stand for the cards it was read off, but has no kickers. -/
theorem getHand_kickerRoom {p : Points} (hp : LegalHolding p) : (getHand p).KickerRoom := by
  by_cases hplain : (getHand p).type = .nothing ∨ (getHand p).type = .soloChain
      ∨ (getHand p).type = .pairChain
  · refine (getHand_filled p).room_of_none ?_ ?_ <;>
      rcases hplain with ht | ht | ht <;> simp [Hand.kickerCount, ht]
  · obtain ⟨hn, hsolo, hpair⟩ := not_or.mp hplain |>.imp_right not_or.mp
    have hr := getHand_recognised hp.toLegalCounts hn
    have hexact : handToPointsArray (getHand p) = p :=
      (hr.exact_iff hp.toLegalCounts).mpr (hr.body_eq_run hsolo hpair)
    refine (getHand_filled p).room (hr.shaped hp.toLegalCounts) ?_
    rw [hexact]
    exact hp.size

/-! ## The kicker pass -/

/-- The hands under the kicked types are filled and of their type. -/
def KicksFilled (m : HandsMap) : Prop :=
  ∀ bt t, Kicks bt t → ∀ h ∈ m.vec t, h.type = t ∧ h.Filled

namespace KicksFilled

variable {m : HandsMap} (hm : KicksFilled m)

include hm

/-- An empty vector more. -/
theorem touch (t : HandType) : KicksFilled (m.touch t) := by
  intro bt t' hk h hh
  rw [HandsMap.vec_touch] at hh
  exact hm bt t' hk h hh

/-- One attachment. -/
theorem kick {b : Hand} {rest l : List Hand} {bt st t : HandType} {ks : List Nat}
    (hst : st = .solo ∨ st = .pair) (hkick : Kicks bt t)
    (hks : ks.length = Hand.kickerCount { b with type := t, kicker := ks }) :
    KicksFilled (((m.put st l).push t { b with type := t, kicker := ks }).put bt rest) := by
  intro bt' t' hk' h hh
  have hne : t' ≠ bt ∧ t' ≠ st ∧ t ≠ st := by
    cases hkick <;> cases hk' <;> rcases hst with rfl | rfl <;> decide
  rw [HandsMap.vec_put_ne hne.1, HandsMap.vec_push] at hh
  split at hh
  next ht =>
    rw [HandsMap.vec_put_ne hne.2.2] at hh
    rcases List.mem_append.mp hh with hh | hh
    · exact hm bt' t' hk' h (ht ▸ hh)
    · rw [List.mem_singleton.mp hh]
      exact ⟨ht.symm, hks⟩
  next =>
    rw [HandsMap.vec_put_ne hne.2.1] at hh
    exact hm bt' t' hk' h hh

end KicksFilled

/-- The loop over the trio chains. A round attaches as many kickers as the
chain is long or stops, so every hand it makes is full. -/
theorem kickTrioChains_filled (fuel : Nat) : ∀ {m : HandsMap}, KicksFilled m →
    KicksFilled (kickTrioChains fuel m) := by
  induction fuel with
  | zero => exact fun hm => hm
  | succ fuel ih =>
    intro m hm
    unfold kickTrioChains
    split
    next => exact hm
    next tChain rest hv =>
      simp only []
      have hsolo := hm.touch .solo
      split
      next huse =>
        -- as many solos are picked as the chain has ranks
        refine ih (hsolo.kick (Or.inl rfl) Kicks.trioChainSolo ?_)
        exact pickKickers_length _ _ _ (le_countP_of_useful huse)
      next =>
        split
        next huse =>
          refine ih ((hsolo.touch .pair).kick (Or.inr rfl) Kicks.trioChainPair ?_)
          exact pickKickers_length _ _ _ (by rw [List.countP_true]; exact huse)
        next => exact hsolo.touch .pair

/-- The loop over the trios, where a round attaches one kicker or none. -/
theorem kickTrios_filled (fuel : Nat) : ∀ {m : HandsMap}, KicksFilled m →
    KicksFilled (kickTrios fuel m) := by
  induction fuel with
  | zero => exact fun hm => hm
  | succ fuel ih =>
    intro m hm
    unfold kickTrios
    split
    next => exact hm
    next trio rest hv =>
      simp only []
      have htouched := (hm.touch .solo).touch .pair
      split
      next => exact htouched
      next p pairs _ hp => exact ih (htouched.kick (Or.inr rfl) Kicks.trioPair rfl)
      next s solos hs _ => exact ih (htouched.kick (Or.inl rfl) Kicks.trioSolo rfl)
      next s solos p pairs hs hp =>
        split
        · exact ih (htouched.kick (Or.inr rfl) Kicks.trioPair rfl)
        · exact ih (htouched.kick (Or.inl rfl) Kicks.trioSolo rfl)

/-- The kicker pass as a whole. -/
theorem findKickerForTrioOrTrioChain_filled {m : HandsMap} (hm : KicksFilled m) :
    KicksFilled (findKickerForTrioOrTrioChain m) := by
  unfold findKickerForTrioOrTrioChain
  exact kickTrios_filled _ ((kickTrioChains_filled _ (hm.touch .trioChain)).touch .trio)

/-- The kicker pass starts without kicked hands. -/
theorem withKickers_filled {s : Split} (hbare : ∀ t, ∀ h ∈ s.handMap.vec t, Bare t h)
    (searchKicker : Bool) : KicksFilled (withKickers searchKicker (getNormalHand s)) := by
  have hnormal : KicksFilled (getNormalHand s).handMap := by
    intro bt t hk h hh
    have hplain : t ≠ .bomb ∧ t.isSingle = false ∧ t.kickMult ≠ 0 := by cases hk <;> decide
    rw [getNormalHand_vec, if_neg hplain.1, List.append_nil, normals, hplain.2.1] at hh
    have hb := hbare t h (by simpa using hh)
    rcases hb.type with htype | ⟨htype, -⟩
    · exact absurd (htype ▸ hb.plain) hplain.2.2
    · exact absurd htype hplain.1
  unfold withKickers
  split
  · exact findKickerForTrioOrTrioChain_filled hnormal
  · exact hnormal

/-! ## The splitters -/

section Splitters

variable {p : Points}

/-- The kicked hands of a splitter have room. -/
theorem splitInto_kickerRoom (hp : LegalHolding p) (x : Splitter) (searchKicker : Bool) {h : Hand}
    (hh : h ∈ (splitInto x p searchKicker).hands) {bt : HandType} (hk : Kicks bt h.type) :
    h.KickerRoom := by
  obtain ⟨t, ht⟩ := HandsMap.mem_hands.mp hh
  rcases mem_splitInto hp.toLegalCounts x searchKicker ht with ⟨hs, htype⟩ | ⟨-, rfl, -⟩
  · have hunder : h.type = t := by
      rcases htype with htype | ⟨-, hnuke⟩
      · exact htype
      · rw [hnuke] at hk
        exact nomatch hk
    have hfilled : KicksFilled (splitInto x p searchKicker) := by
      rw [splitInto_eq]
      exact withKickers_filled (beforeNormal_frame hp.toLegalCounts x).1.bare searchKicker
    refine (hfilled bt t (hunder ▸ hk) h ht).2.room hs ?_
    refine Int.le_trans (Points.total_mono fun r _ => ?_) hp.size
    exact Int.le_trans (le_handsSum hh r) (splitInto_sum_le hp.toLegalCounts x searchKicker r)
  · exact nomatch hk

end Splitters

/-- No write of a kicker leaves the array, neither by the recogniser nor by the
kicker pass of any splitter. -/
theorem kicker_room {cards : List Int} (hnodup : cards.Nodup) (hvalid : ∀ c ∈ cards, ValidCard c)
    (hsize : cards.length ≤ 20) : (getHand (cardVecToPointArr cards)).KickerRoom ∧
      ∀ x, ∀ h ∈ (splitInto x (cardVecToPointArr cards) true).hands, ∀ bt, Kicks bt h.type →
        h.KickerRoom := by
  have hp : LegalHolding (cardVecToPointArr cards) := by
    refine ⟨legalCounts_of_nodup hnodup hvalid, ?_⟩
    rw [total_cardVecToPointArr hvalid]
    exact_mod_cast hsize
  exact ⟨getHand_kickerRoom hp, fun x h hh bt hk => splitInto_kickerRoom hp x true hh hk⟩

/-- Three to seven, three of each, and five solos. -/
def fiveTriosAndSolos : List Int :=
  [0, 13, 26, 1, 14, 27, 2, 15, 28, 3, 16, 29, 4, 17, 30, 5, 20, 35, 24, 52]

theorem kicker_room_full :
    (getHand (cardVecToPointArr fiveTriosAndSolos)).KickerRoom ∧
      ∀ x, ∀ h ∈ (splitInto x (cardVecToPointArr fiveTriosAndSolos) true).hands,
        ∀ bt, Kicks bt h.type → h.KickerRoom :=
  kicker_room (by decide) (by decide) (by decide)

/-- They fill the array. -/
example : (getHand (cardVecToPointArr fiveTriosAndSolos)).kicker.length = 5 := by decide +kernel

end RobotDdz
