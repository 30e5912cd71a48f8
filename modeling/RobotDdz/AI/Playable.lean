import RobotDdz.AI.Picks
import RobotDdz.AI.Kickers

/-!
# What comes of a picked hand

`takeOutHand` takes out those cards of a hand that are held, and `Takes` says
that they are a hand or none at all. Of a hand of one rank, or of the rocket,
some part is always one (`takes_plain`), so that whatever a strategy asks for
by rank does no harm. A hand of several ranks has to be held whole (`Held`).

`PlaysFrom` collects what the strategies rely on of a map: its hands are held,
there is one, and the first two solos can be hung on a bomb (`PlaysFrom.four`).
The maps of the splitters are such maps unless the holding is over-long
(`splitInto_playsFrom`). Of the hands found above the one on the table, those
with kickers depend on what `chainKickers` collects and the fours have none
(`HigherFits`); all others are held whole.

Both notions are about the cards held and not about the map: a strategy may
pick a hand of another map than the one it sorted last, and may set up a hand
by rank alone. `Takes` is weaker than what the caller wants, which is that
something comes out for a leader; that is added where the turn is put together,
with the lowest hand of the map as the second choice.
-/

namespace RobotDdz

/-- The cards held of those a hand asks for. -/
def heldPart (p : Points) (hand : Hand) : Points := fun r => min (handToPointsArray hand r) (p r)

/-- What is taken out for a hand is a hand, or nothing is taken out. -/
def Takes (p : Points) (hand : Hand) : Prop :=
  (getHand (heldPart p hand)).type ≠ .nothing ∨ ∀ r, heldPart p hand r = 0

/-- A complete hand of held cards. -/
structure Hand.Held (p : Points) (hand : Hand) : Prop extends hand.Complete where
  held : ∀ r, handToPointsArray hand r ≤ p r

/-- It is taken out whole, and it is a hand. -/
theorem Hand.Held.recognised {p : Points} {hand : Hand} (h : hand.Held p) :
    (getHand (heldPart p hand)).type ≠ .nothing := by
  have hwhole : heldPart p hand = handToPointsArray hand := funext fun r => min_eq_left (h.held r)
  rw [hwhole, h.readsBack.1]
  intro hnone
  have hbody := h.body
  rw [hnone] at hbody
  exact hbody

theorem Hand.Held.takes {p : Points} {hand : Hand} (h : hand.Held p) : Takes p hand :=
  .inl h.recognised

/-! ## Hands of one rank -/

section Plain

variable {p : Points} (hp : LegalCounts p)

include hp

/-- The multiples of a rank are held by no joker. -/
theorem le_card2_of_pair {r : Nat} (h : 2 ≤ p r) : r ≤ card2 := by
  by_contra hgt
  simp only [card2] at hgt
  by_cases htop : redJoker < r
  · have := hp.top r htop
    omega
  · have := hp.joker r (by simp only [redJoker, blackJoker] at htop ⊢; omega)
    omega

theorem le_redJoker_of_pos {r : Nat} (h : 0 < p r) : r ≤ redJoker := by
  by_contra htop
  have := hp.top r (Nat.lt_of_not_le htop)
  omega

/-- Copies of one rank are held as a hand when there are as many as the type
takes: such a hand has neither a chain's length nor kickers. -/
theorem held_ofSingle {hand : Hand} (ht : hand.type.isSingle = true)
    (hr : hand.type.mult ≤ p hand.keyPoint) : hand.Held p := by
  have hnone : hand.kickers = [] ∧ hand.kickerCount = 0 ∧ 0 < hand.type.mult := by
    unfold Hand.kickers Hand.kickerCount
    cases h : hand.type <;> rw [h] at ht <;> first
      | exact Bool.noConfusion ht
      | exact ⟨List.take_zero, rfl, by decide⟩
  have hcomplete : hand.Complete := by
    refine ⟨?_, ?_, ?_, ?_⟩
    · cases h : hand.type <;> rw [h] at ht hr <;> first
        | exact Bool.noConfusion ht
        | exact le_redJoker_of_pos hp hr
        | exact le_card2_of_pair hp (Int.le_trans (by decide) hr)
    · rw [hnone.1, hnone.2.1]
      rfl
    · rw [hnone.1]
      exact ⟨List.nodup_nil, fun _ hk => absurd hk List.not_mem_nil,
        fun hboth => absurd hboth.1 List.not_mem_nil⟩
    · rw [hnone.1]
      exact fun _ hk => absurd hk List.not_mem_nil
  refine ⟨hcomplete, fun i => ?_⟩
  rw [handToPointsArray_ofSingle ht]
  split
  next heq => rw [heq]; exact hr
  next => exact hp.nonneg i

theorem held_single {t : HandType} (ht : t.isSingle = true) {r : Nat} (hr : t.mult ≤ p r) :
    (single t r).Held p :=
  have htype : (single t r).type.isSingle = true := ht
  held_ofSingle hp htype hr

/-- A count on a single rank is a hand or none: from one to four cards of a
rank are a solo, a pair, a trio or a bomb. -/
theorem takes_of_rank {hand : Hand} {r : Nat} (hother : ∀ i, i ≠ r → heldPart p hand i = 0) :
    Takes p hand := by
  by_cases hzero : heldPart p hand r = 0
  · refine .inr fun i => ?_
    by_cases hi : i = r
    · rw [hi]
      exact hzero
    · exact hother i hi
  · have hnonneg : 0 ≤ heldPart p hand r := le_min (handToPointsArray_nonneg hand r) (hp.nonneg r)
    have hle : heldPart p hand r ≤ p r := min_le_right _ _
    have h4 := hp.four r
    obtain ⟨t, ht, hcount⟩ := exists_single (k := heldPart p hand r) (by omega)
    have hsame : heldPart p hand = heldPart p (single t r) := by
      funext i
      by_cases hi : i = r
      · rw [hi, hcount]
        unfold heldPart
        rw [handToPointsArray_single ht, if_pos rfl, min_eq_left (by omega)]
      · rw [hother i hi]
        unfold heldPart
        rw [handToPointsArray_single ht, if_neg hi, min_eq_left (hp.nonneg i)]
    left
    rw [hsame]
    exact (held_single hp ht (by omega)).recognised

/-- Whatever is held of copies of a rank, or of the rocket, is a hand: fewer
copies are a smaller hand, and one joker is a solo. -/
theorem takes_plain {hand : Hand} (ht : hand.type ∈ HandType.plain) : Takes p hand := by
  have hrank : hand.type.isSingle = true → Takes p hand := fun hs =>
    takes_of_rank hp (r := hand.keyPoint) fun i hi => by
      unfold heldPart
      rw [handToPointsArray_ofSingle hs, if_neg hi, min_eq_left (hp.nonneg i)]
  have hnone : (∀ r, handToPointsArray hand r = 0) → Takes p hand := fun hz =>
    .inr fun r => by
      unfold heldPart
      rw [hz r, min_eq_left (hp.nonneg r)]
  simp only [HandType.plain, List.mem_cons, List.not_mem_nil, or_false] at ht
  rcases ht with h | h | h | h | h | h | h | h
  · exact hnone fun r => by simp only [handToPointsArray, h, Points.zero_apply]
  · exact hrank (by rw [h]; rfl)
  · exact hrank (by rw [h]; rfl)
  · exact hrank (by rw [h]; rfl)
  · exact hnone fun r => by simp only [handToPointsArray, h, Points.zero_apply]
  · exact hrank (by rw [h]; rfl)
  · -- one joker is a solo, both are the rocket
    have harray : ∀ r, handToPointsArray hand r
        = if r = blackJoker ∨ r = redJoker then 1 else 0 := by
      intro r
      rw [← handToPointsArray_nuke]
      simp only [handToPointsArray, h, single]
    by_cases hboth : p blackJoker = 1 ∧ p redJoker = 1
    · left
      have hrocket : heldPart p hand = handToPointsArray rocket := by
        funext r
        unfold heldPart
        rw [harray]
        have := handToPointsArray_nuke r
        change _ = handToPointsArray (single .nuke blackJoker) r
        rw [this]
        split
        next hr => rcases hr with rfl | rfl <;> omega
        next => exact min_eq_left (hp.nonneg r)
      rw [hrocket, getHand_eq_canonical rocket_shaped]
      exact HandType.noConfusion
    · have hb := hp.joker blackJoker (.inl rfl)
      have hr := hp.joker redJoker (.inr rfl)
      have hb0 := hp.nonneg blackJoker
      have hr0 := hp.nonneg redJoker
      by_cases hblack : p blackJoker = 0
      · refine takes_of_rank hp (r := redJoker) fun i hi => ?_
        unfold heldPart
        rw [harray]
        split
        next hj =>
          rw [hj.resolve_right hi, hblack]
          rfl
        next => exact min_eq_left (hp.nonneg i)
      · refine takes_of_rank hp (r := blackJoker) fun i hi => ?_
        unfold heldPart
        rw [harray]
        split
        next hj =>
          rw [hj.resolve_left hi, show p redJoker = 0 by omega]
          rfl
        next => exact min_eq_left (hp.nonneg i)
  · exact hnone fun r => by simp only [handToPointsArray, h, Points.zero_apply]

end Plain

/-! ## Maps to play from -/

/-- What the strategies rely on of the map of a holding. -/
structure PlaysFrom (p : Points) (m : HandsMap) : Prop where
  held : ∀ t, ∀ hand ∈ m.vec t, hand.Held p
  nonempty : ∃ t, m.vec t ≠ []
  solo : ∀ hand ∈ m.vec .solo, hand.type = .solo
  soloUp : (m.vec .solo).Pairwise fun h h' => h.keyPoint < h'.keyPoint
  jokers : ¬((∃ hand ∈ m.vec .solo, hand.keyPoint = blackJoker) ∧
    ∃ hand ∈ m.vec .solo, hand.keyPoint = redJoker)
  bomb : ∀ hand ∈ m.vec .bomb, hand.type = .bomb ∨ hand.type = .nuke
  apart : ∀ bomb ∈ m.vec .bomb, bomb.type = .bomb → ∀ hand ∈ m.vec .solo,
    hand.keyPoint ≠ bomb.keyPoint

namespace PlaysFrom

variable {p : Points} {m : HandsMap} (h : PlaysFrom p m)

include h

theorem congr {m' : HandsMap} (hvec : ∀ t, m'.vec t = m.vec t) : PlaysFrom p m' := by
  refine ⟨fun t => ?_, ?_, ?_, ?_, ?_, ?_, ?_⟩
  · rw [hvec]
    exact h.held t
  · obtain ⟨t, ht⟩ := h.nonempty
    exact ⟨t, by rwa [hvec]⟩
  · rw [hvec]
    exact h.solo
  · rw [hvec]
    exact h.soloUp
  · rw [hvec]
    exact h.jokers
  · rw [hvec]
    exact h.bomb
  · rw [hvec, hvec]
    exact h.apart

theorem type_ne_nothing (t : HandType) {hand : Hand} (hh : hand ∈ m.vec t) :
    hand.type ≠ .nothing := by
  intro hnone
  have hbody := (h.held t hand hh).body
  rw [hnone] at hbody
  exact hbody

/-- The lowest hand is one of the map. -/
theorem lowest {hand : Hand} (hclear : hand.type = .nothing) :
    (lowestOf m HandType.all hand).Held p := by
  obtain ⟨t, ht⟩ := h.nonempty
  obtain ⟨⟨t', ht'⟩, -⟩ := lowestOf_clear m ⟨t, HandType.mem_all t, ht⟩ hclear hclear
  exact h.held t' _ ht'

/-- A bomb that is not the rocket makes a four with the first two solos. They
are different because the vector is in order, off the bomb by `apart`, and not
both jokers. -/
theorem four {u : Undef} {bomb : Hand} (hb : bomb ∈ m.vec .bomb) (hkey : bomb.keyPoint < blackJoker)
    (htwo : 2 ≤ (m.vec .solo).length) (hand : Hand) :
    Hand.Held p ((hand.become .fourDualSolo bomb.keyPoint).setKickers
      [(vecAt u (m.vec .solo) 0).keyPoint, (vecAt u (m.vec .solo) 1).keyPoint]) := by
  have hbomb := h.held .bomb bomb hb
  have htype : bomb.type = .bomb := by
    refine (h.bomb bomb hb).resolve_right fun hn => ?_
    have hbody := hbomb.body
    rw [hn] at hbody
    change bomb.keyPoint = blackJoker at hbody
    omega
  have hfour : 4 ≤ p bomb.keyPoint := by
    have hcards := hbomb.held bomb.keyPoint
    rwa [handToPointsArray_ofSingle (by rw [htype]; rfl), if_pos rfl, htype] at hcards
  -- the two solos: lower and higher, held, and of other ranks than the bomb
  have hmem : ∀ i, i < 2 → vecAt u (m.vec .solo) i ∈ m.vec .solo := fun i hi =>
    AI.vecAt_mem (Nat.lt_of_lt_of_le hi htwo)
  have hsolo : ∀ solo ∈ m.vec .solo, solo.keyPoint ≤ redJoker ∧ 1 ≤ p solo.keyPoint ∧
      solo.keyPoint ≠ bomb.keyPoint := by
    intro solo hs
    have hheld := h.held .solo solo hs
    have hbody := hheld.body
    have hcards := hheld.held solo.keyPoint
    rw [h.solo solo hs] at hbody
    rw [handToPointsArray_ofSingle (by rw [h.solo solo hs]; rfl), if_pos rfl,
      h.solo solo hs] at hcards
    exact ⟨hbody, hcards, h.apart bomb hb htype solo hs⟩
  have hup : (vecAt u (m.vec .solo) 0).keyPoint < (vecAt u (m.vec .solo) 1).keyPoint := by
    unfold vecAt
    rw [List.getD_eq_getElem _ _ (by omega), List.getD_eq_getElem _ _ (by omega)]
    exact List.pairwise_iff_getElem.mp h.soloUp 0 1 (by omega) (by omega) (by decide)
  obtain ⟨hlow, hlow', hlow''⟩ := hsolo _ (hmem 0 (by decide))
  obtain ⟨hhigh, hhigh', hhigh''⟩ := hsolo _ (hmem 1 (by decide))
  have hjokers := h.jokers
  have hmem0 := hmem 0 (by decide)
  have hmem1 := hmem 1 (by decide)
  generalize vecAt u (m.vec .solo) 0 = low at *
  generalize vecAt u (m.vec .solo) 1 = high at *
  have hkickers : Hand.kickers ((hand.become .fourDualSolo bomb.keyPoint).setKickers
      [low.keyPoint, high.keyPoint]) = [low.keyPoint, high.keyPoint] := rfl
  have hcomplete : Hand.Complete ((hand.become .fourDualSolo bomb.keyPoint).setKickers
      [low.keyPoint, high.keyPoint]) := by
    refine ⟨?_, rfl, ?_, ?_⟩
    · show bomb.keyPoint ≤ redJoker
      simp only [blackJoker, redJoker] at hkey ⊢
      omega
    · rw [hkickers]
      refine ⟨by simp; omega, fun k hk => ?_, fun hboth => hjokers ?_⟩
      · show k < bomb.keyPoint ∨ bomb.keyPoint + 1 ≤ k
        simp only [List.mem_cons, List.not_mem_nil, or_false] at hk
        omega
      · have hone : ∀ j, j ∈ [low.keyPoint, high.keyPoint] →
            ∃ solo ∈ m.vec .solo, solo.keyPoint = j := by
          intro j hj
          simp only [List.mem_cons, List.not_mem_nil, or_false] at hj
          rcases hj with rfl | rfl
          · exact ⟨low, hmem0, rfl⟩
          · exact ⟨high, hmem1, rfl⟩
        exact ⟨hone _ hboth.1, hone _ hboth.2⟩
    · rw [hkickers]
      intro k hk
      simp only [List.mem_cons, List.not_mem_nil, or_false] at hk
      omega
  refine ⟨hcomplete, fun r => ?_⟩
  rw [handToPointsArray_apply hcomplete.placed, hkickers]
  split
  next hin =>
    have hr : r = bomb.keyPoint := by
      obtain ⟨hlo, hhi⟩ := hin
      change bomb.keyPoint ≤ r at hlo
      change r < bomb.keyPoint + 1 at hhi
      omega
    rw [hr]
    exact hfour
  next =>
    split
    next hr =>
      show 1 ≤ p r
      simp only [List.mem_cons, List.not_mem_nil, or_false] at hr
      rcases hr with rfl | rfl
      · exact hlow'
      · exact hhigh'
    next =>
      have hcards := hbomb.held r
      have h0 := handToPointsArray_nonneg bomb r
      omega

end PlaysFrom

/-! ### The maps of the splitters -/

section Split

variable {p : Points} (hp : LegalHolding p) (x : Splitter) (searchKicker : Bool)

include hp

/-- The kicker pass only takes solos away. -/
theorem splitInto_solo_sublist :
    ((splitInto x p searchKicker).vec .solo).Sublist ((splitInto x p false).vec .solo) := by
  have hready := splitInto_kickReady hp.toLegalCounts x
  have hnone : splitInto x p false = (getNormalHand (beforeNormal x p)).handMap := by
    rw [splitInto_eq]
    rfl
  rw [hnone] at hready ⊢
  rw [splitInto_eq]
  unfold withKickers
  split
  · exact (findKickerForTrioOrTrioChain_step hready).shrinks .solo (.inl rfl)
  · exact List.Sublist.refl _

/-- Every hand of the split is held. -/
theorem splitInto_held (hlong : ¬OverLong x p) {t : HandType} {hand : Hand}
    (hh : hand ∈ (splitInto x p searchKicker).vec t) :
    hand.Held p ∧ (hand.type = t ∨ t = .bomb ∧ hand.type = .nuke) := by
  rcases mem_splitInto hp.toLegalCounts x searchKicker hh with ⟨hs, ht⟩ | ⟨rfl, rfl, -⟩
  · refine ⟨⟨hs.complete, fun r => ?_⟩, ht⟩
    exact Int.le_trans (le_handsSum (HandsMap.mem_hands.mpr ⟨t, hh⟩) r)
      (splitInto_sum_le hp.toLegalCounts x searchKicker r)
  · exact absurd ((short_mem_iff x hp searchKicker).mp hh) hlong

/-- A holding with a card is split into at least one hand. -/
theorem splitInto_nonempty {r : Nat} (hr : 0 < p r) :
    ∃ t, (splitInto x p searchKicker).vec t ≠ [] := by
  have hexact : (splitInto x p searchKicker).sum r = p r →
      ∃ t, (splitInto x p searchKicker).vec t ≠ [] := by
    intro hsum
    by_contra hnone
    have hempty : (splitInto x p searchKicker).hands = [] :=
      List.flatMap_eq_nil_iff.mpr fun t _ => by_contra fun hne => hnone ⟨t, hne⟩
    rw [HandsMap.sum, hempty, handsSum_nil] at hsum
    omega
  cases x with
  | kind k =>
    obtain ⟨t, -, ht⟩ := splitCardsToHands_ne_nil hp.toLegalCounts k searchKicker hr
    exact ⟨t, ht⟩
  | kind4 => exact hexact (sum_splitCardsToHandsKind4 hp.toLegalCounts searchKicker r)
  | kind5 => exact hexact (sum_splitCardsToHandsKind5 hp.toLegalCounts searchKicker r)

/-- A bomb and a solo of one rank would be five cards. -/
theorem splitInto_apart {bomb hand : Hand} (hb : bomb ∈ (splitInto x p searchKicker).vec .bomb)
    (htype : bomb.type = .bomb) (hh : hand ∈ (splitInto x p searchKicker).vec .solo)
    (hsolo : hand.type = .solo) : hand.keyPoint ≠ bomb.keyPoint := by
  intro heq
  have hsum := splitInto_sum_le hp.toLegalCounts x searchKicker bomb.keyPoint
  have h4 := hp.four bomb.keyPoint
  -- the map without its bombs still has the solo
  have hput := HandsMap.sum_put (splitInto x p searchKicker) .bomb [] bomb.keyPoint
  have hbombs := le_handsSum hb bomb.keyPoint
  have hrest := le_handsSum (HandsMap.mem_hands.mpr (⟨.solo, by
    rwa [HandsMap.vec_put_ne (by decide)]⟩ :
      ∃ t, hand ∈ ((splitInto x p searchKicker).put .bomb []).vec t)) bomb.keyPoint
  rw [handToPointsArray_ofSingle (by rw [htype]; rfl), if_pos rfl, htype] at hbombs
  rw [handToPointsArray_ofSingle (by rw [hsolo]; rfl), if_pos heq.symm, hsolo] at hrest
  rw [handsSum_nil] at hput
  change 4 ≤ _ at hbombs
  change 1 ≤ ((splitInto x p searchKicker).put .bomb []).sum bomb.keyPoint at hrest
  omega

/-- The map of a splitter is one to play from, unless the holding is over-long. -/
theorem splitInto_playsFrom (hlong : ¬OverLong x p) {r : Nat} (hr : 0 < p r) :
    PlaysFrom p (splitInto x p searchKicker) := by
  have hsub := splitInto_solo_sublist hp x searchKicker
  have hready := splitInto_kickReady hp.toLegalCounts x
  have hsolo : ∀ hand ∈ (splitInto x p searchKicker).vec .solo, hand.type = .solo := by
    intro hand hh
    rcases (splitInto_held hp x searchKicker hlong hh).2 with ht | ⟨hb, -⟩
    · exact ht
    · exact HandType.noConfusion hb
  refine ⟨fun t hand hh => (splitInto_held hp x searchKicker hlong hh).1,
    splitInto_nonempty hp x searchKicker hr, hsolo, hready.soloUp.sublist hsub, fun hboth => ?_,
    fun hand hh => ?_, fun bomb hb ht hand hh =>
      splitInto_apart hp x searchKicker hb ht hh (hsolo hand hh)⟩
  · obtain ⟨⟨h, hh, hk⟩, h', hh', hk'⟩ := hboth
    exact hready.jokers ⟨⟨h, hsub.subset hh, hk⟩, h', hsub.subset hh', hk'⟩
  · rcases (splitInto_held hp x searchKicker hlong hh).2 with ht | ⟨-, ht⟩
    · exact .inl ht
    · exact .inr ht

end Split

end RobotDdz
