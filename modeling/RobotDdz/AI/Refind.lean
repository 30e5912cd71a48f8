import RobotDdz.AI.Kickers
import RobotDdz.AI.Turn
import RobotDdz.Lib.Lowest

/-!
# The second look at a trio

`refindForTrio` splits the cards beside a trio or trio chain once more and
takes a lower body and lower kickers from there, each for itself.
`refindForTrio_eq` says which.

The bodies and the solos of one split are apart (`standIn_spec`), so nothing
goes wrong where both are taken from it, or neither. The trouble is the
mixture: a kicker that is kept may lie on the new body, and a new solo on a
body that is kept. Either way four cards of one rank are involved, and the hand
no longer reads as what it was.

`refind_legal` has the condition on what the second look is given, the hand and
the split of the other cards. `staysLegal_iff_kickersClear` is the exact law in
terms of what it picks. The kickers themselves are the lowest of what is
offered (`refoundKickers`), and with these a complete hand stays complete
(`refindForTrio_complete`); the contract of a turn rests on that.
-/

namespace RobotDdz

open Lowest

namespace AI

/-- The types `takeOutLvl1` looks at twice. -/
def refoundTypes : List HandType := .trio :: HandType.trioKicked

section Refind

variable (u : Undef) (s : AI) (hand : Hand)

/-- The cards beside the hand. -/
def cardsBeside : Points := pointsSub s.aiPoints (handToPointsArray hand)

/-- Their split. -/
def splitBeside : HandsMap :=
  kickerMap u s.lowestControl s.maxOppNumber s.otherPoints (s.cardsBeside hand)

/-- Whether a body may stand in for that of the hand. -/
def standsIn (h : Hand) : Bool :=
  (s.isFree || s.curHand.keyPoint < h.keyPoint) && h.keyPoint < hand.keyPoint

/-- The first lower body of the split. -/
def lowerBody : Option Hand :=
  if isChain hand.type then
    ((s.splitBeside u hand).vec .trioChain).find? fun h => s.standsIn hand h && h.len = hand.len
  else ((s.splitBeside u hand).vec .trio).find? (s.standsIn hand)

/-- The key the hand ends with. -/
def refoundKey : Nat := ((s.lowerBody u hand).map Hand.keyPoint).getD hand.keyPoint

/-- The type of the hands whose ranks become kickers. -/
def kickerType : HandType :=
  if hand.type = .trioSolo ∨ hand.type = .trioChainSolo then .solo else .pair

/-- The kickers to choose from: those of the hand and, below the last of them,
those of the split. -/
def kickerPool : List Nat :=
  hand.kickers ++ (((s.splitBeside u hand).vec (kickerType hand)).filter fun h =>
    h.keyPoint < hand.kickerAt (hand.kickerCount - 1)).map Hand.keyPoint

/-- The kickers the hand ends with: the lowest to choose from, if that is more
than its own. -/
def refoundKickers : List Nat :=
  if 0 < hand.kickerCount ∧ hand.kickerCount < (ascending (s.kickerPool u hand)).length then
    lowest hand.kickerCount (s.kickerPool u hand)
  else hand.kickers

/-- The hand is what it was: of its type and length, of held cards, recognised,
and high enough. -/
structure StaysLegal (found : Hand) : Prop where
  type : found.type = hand.type
  len : found.len = hand.len
  held : ∀ r, handToPointsArray found r ≤ s.aiPoints r
  readsBack : found.ReadsBack
  higher : s.isFree = false → isHandHigherThan found s.curHand = true

/-- None of the lowest kickers to choose from lies on the body. It speaks of
what the second look picks; `SplitApart` is a condition on what it is given. -/
def KickersClear : Prop :=
  ∀ r ∈ s.kickerPool u hand,
    ((s.kickerPool u hand).toFinset.filter (· < r)).card < hand.kickerCount →
      r < s.refoundKey u hand ∨ s.refoundKey u hand + hand.width ≤ r

/-- The split of the rest keeps off the hand: no body in it that may stand in
for that of the hand has one of the hand's kickers, and no kicker in it below
the hand's last is of a rank of the hand's body. -/
structure SplitApart : Prop where
  bodies : ∀ f ∈ (s.splitBeside u hand).vec (if isChain hand.type then .trioChain else .trio),
    s.standsIn hand f = true → (isChain hand.type = true → f.len = hand.len) →
      ∀ r ∈ hand.kickers, r < f.keyPoint ∨ f.keyPoint + hand.width ≤ r
  kickers : ∀ h ∈ (s.splitBeside u hand).vec (kickerType hand),
    h.keyPoint < hand.kickerAt (hand.kickerCount - 1) →
      h.keyPoint < hand.keyPoint ∨ hand.keyPoint + hand.width ≤ h.keyPoint

end Refind

section Legal

variable {u : Undef} {s : AI} {hand : Hand}

/-- The split is that of one of the three kinds. -/
theorem splitBeside_vec (u : Undef) (s : AI) (hand : Hand) : ∃ k : Kind, ∀ t,
    (s.splitBeside u hand).vec t = (splitInto (.kind k) (s.cardsBeside hand) false).vec t :=
  kickerMap_vec ..

variable (hp : LegalCounts s.aiPoints) (hheld : ∀ r, handToPointsArray hand r ≤ s.aiPoints r)

include hp hheld

theorem cardsBeside_legal : LegalCounts (s.cardsBeside hand) := by
  refine hp.of_le (fun r => ?_) (fun r => ?_)
  · have := hheld r
    unfold cardsBeside pointsSub
    omega
  · have := handToPointsArray_nonneg hand r
    unfold cardsBeside pointsSub
    omega

theorem splitBeside_up {t : HandType} (ht : t = .solo ∨ t = .pair) :
    ((s.splitBeside u hand).vec t).Pairwise fun h h' => h.keyPoint < h'.keyPoint := by
  obtain ⟨k, hvec⟩ := splitBeside_vec u s hand
  rw [hvec]
  exact (splitInto_kickReady (cardsBeside_legal hp hheld) (.kind k)).kicker_up ht

omit hp hheld in
/-- The loop over the slots reads the kickers. -/
theorem range_kickerAt (hs : hand.Complete) :
    (List.range hand.kickerCount).map hand.kickerAt = hand.kickers := by
  have hlen : hand.kickerCount ≤ hand.kicker.length := by
    have hfill := hs.filled
    rw [Hand.kickers, List.length_take] at hfill
    omega
  refine List.ext_getElem ?_ fun i hi hi' => ?_
  · rw [List.length_map, List.length_range, hs.filled]
  · rw [List.length_map, List.length_range] at hi
    rw [List.getElem_map, List.getElem_range, Hand.kickerAt, List.getD_eq_getElem _ _ (by omega)]
    simp only [Hand.kickers, List.getElem_take]

/-- The lower body's key with the kickers chosen. Without a lower body the key
is the hand's own, and the kickers are chosen all the same. -/
theorem refindForTrio_eq (hs : hand.Complete) : refindForTrio u s hand
    = Hand.setKickers { hand with keyPoint := s.refoundKey u hand }
        (s.refoundKickers u hand) := by
  have hkind : kickerType hand = .solo ∨ kickerType hand = .pair := by
    unfold kickerType
    split
    · exact Or.inl rfl
    · exact Or.inr rfl
  have hpool : (List.range hand.kickerCount).map hand.kickerAt
      ++ (((s.splitBeside u hand).vec (kickerType hand)).takeWhile fun h =>
        h.keyPoint < hand.kickerAt (hand.kickerCount - 1)).map Hand.keyPoint
      = s.kickerPool u hand := by
    rw [range_kickerAt hs, takeWhile_eq_filter (splitBeside_up hp hheld hkind)]
    rfl
  have hrun : refindForTrio u s hand
      = if 0 < hand.kickerCount ∧ hand.kickerCount < (ascending (s.kickerPool u hand)).length then
          Hand.setKickers { hand with keyPoint := s.refoundKey u hand }
            (lowest hand.kickerCount (s.kickerPool u hand))
        else { hand with keyPoint := s.refoundKey u hand } := by
    rw [← hpool]
    rfl
  rw [hrun]
  unfold refoundKickers
  split
  · rfl
  next =>
    -- nothing to add: the kickers are written over themselves
    have hsame : hand.kickers ++ hand.kicker.drop hand.kickers.length = hand.kicker := by
      rw [hs.filled, Hand.kickers, List.take_append_drop]
    unfold Hand.setKickers
    rw [hsame]

omit hp hheld in
/-- Kickers in order are the lowest of all there is, if there is nothing to
add. -/
theorem refoundKickers_eq (hs : hand.Shaped) :
    s.refoundKickers u hand = lowest hand.kickerCount (s.kickerPool u hand) := by
  unfold refoundKickers
  split
  · rfl
  next hfew =>
    by_cases hzero : hand.kickerCount = 0
    · rw [hzero, List.eq_nil_of_length_eq_zero (hs.filled.trans hzero)]
      rfl
    · have hcard : (s.kickerPool u hand).toFinset.card ≤ hand.kickerCount := by
        rw [← length_ascending]
        omega
      rw [← hs.filled] at hcard ⊢
      exact (lowest_of_full hs.increasing hcard).symm

end Legal

/-! ## The body -/

/-- The type of the bodies that may stand in. -/
def bodyType (hand : Hand) : HandType := if isChain hand.type then .trioChain else .trio

section Body

variable {u : Undef} {s : AI} {hand f : Hand}

theorem lowerBody_mem (hf : s.lowerBody u hand = some f) :
    f ∈ (s.splitBeside u hand).vec (bodyType hand) ∧ s.standsIn hand f = true ∧
      (isChain hand.type = true → f.len = hand.len) := by
  unfold lowerBody at hf
  unfold bodyType
  split at hf
  next hc =>
    have hcond := List.find?_some hf
    rw [Bool.and_eq_true, decide_eq_true_iff] at hcond
    rw [if_pos hc]
    exact ⟨List.mem_of_find?_eq_some hf, hcond.1, fun _ => hcond.2⟩
  next hc =>
    rw [if_neg hc]
    exact ⟨List.mem_of_find?_eq_some hf, List.find?_some hf, fun h => absurd h hc⟩

theorem refoundTypes_cases {t : HandType} (ht : t ∈ refoundTypes) : t = .trio ∨
    t = .trioSolo ∨ t = .trioPair ∨ t = .trioChainSolo ∨ t = .trioChainPair := by
  simpa only [refoundTypes, HandType.trioKicked, List.mem_cons, List.not_mem_nil, or_false] using ht

/-- The widths of the types looked at. -/
theorem width_refound (ht : hand.type ∈ refoundTypes) :
    hand.width = if isChain hand.type then hand.len else 1 := by
  unfold Hand.width
  rcases refoundTypes_cases ht with h | h | h | h | h <;> rw [h] <;> rfl

/-- Kickers come from the solos or the pairs, with as many cards as a kicker
has. -/
theorem kickerType_spec (ht : hand.type ∈ refoundTypes) :
    (kickerType hand = .solo ∨ kickerType hand = .pair) ∧
      hand.type.kickMult ≤ (kickerType hand).mult := by
  unfold kickerType
  rcases refoundTypes_cases ht with h | h | h | h | h <;> rw [h] <;> decide

/-- A trio or trio chain is the body of every type looked at. -/
theorem bodyOk_refound {t : HandType} (ht : t ∈ refoundTypes) {k len len' : Nat}
    (hbody : (if isChain t then HandType.trioChain else HandType.trio).BodyOk k len')
    (hlen : isChain t = true → len' = len) : t.BodyOk k len := by
  rcases refoundTypes_cases ht with rfl | rfl | rfl | rfl | rfl
  · exact hbody
  · exact Nat.le_trans hbody (by decide)
  · exact Nat.le_trans hbody (by decide)
  · rw [← hlen rfl]
    exact hbody
  · rw [← hlen rfl]
    exact hbody

variable (hp : LegalCounts s.aiPoints) (hheld : ∀ r, handToPointsArray hand r ≤ s.aiPoints r)
  (ht : hand.type ∈ refoundTypes)

include hp hheld ht

/-- A body of the split of the right length can be the body of the hand: it has
a legal key, its ranks are held three times beside the hand, and no solo or
pair of the split lies on it. -/
theorem standIn_spec (hf : f ∈ (s.splitBeside u hand).vec (bodyType hand))
    (hlen : isChain hand.type = true → f.len = hand.len) :
    hand.type.BodyOk f.keyPoint hand.len ∧
      (∀ r, f.keyPoint ≤ r → r < f.keyPoint + hand.width → 3 ≤ s.cardsBeside hand r) ∧
      ∀ t, t = .solo ∨ t = .pair → ∀ h ∈ (s.splitBeside u hand).vec t,
        h.keyPoint < f.keyPoint ∨ f.keyPoint + hand.width ≤ h.keyPoint := by
  have hrest := cardsBeside_legal hp hheld
  have hle := fun r => kickerMap_le u s.lowestControl s.maxOppNumber s.otherPoints hrest hf r
  obtain ⟨k, hvec⟩ := splitBeside_vec u s hand
  have hready := splitInto_kickReady hrest (.kind k)
  rw [hvec] at hf
  -- the bodies of the split are trios or trio chains
  have hbt : bodyType hand = .trio ∧ isChain hand.type = false
      ∨ bodyType hand = .trioChain ∧ isChain hand.type = true := by
    unfold bodyType
    cases isChain hand.type
    · exact Or.inl ⟨rfl, rfl⟩
    · exact Or.inr ⟨rfl, rfl⟩
  obtain ⟨htype, hbody⟩ := hready.body (hbt.imp And.left And.left) hf
  have hw : f.width = hand.width := by
    rw [width_refound ht, Hand.width, htype]
    rcases hbt with ⟨hbt, hc⟩ | ⟨hbt, hc⟩
    · rw [hbt, hc]
      rfl
    · rw [hbt, hc]
      exact hlen hc
  have hkicks : ∃ t, Kicks f.type t := by
    rw [htype]
    rcases hbt with ⟨hbt, -⟩ | ⟨hbt, -⟩ <;> rw [hbt]
    · exact ⟨_, Kicks.trioSolo⟩
    · exact ⟨_, Kicks.trioChainSolo⟩
  refine ⟨?_, fun r hlo hhi => ?_, fun t ht' h hh => ?_⟩
  · rw [htype] at hbody
    exact bodyOk_refound ht hbody hlen
  · obtain ⟨t, hk⟩ := hkicks
    have hcards := hle r
    rw [handToPointsArray_body hk, hw, if_pos ⟨hlo, hhi⟩] at hcards
    exact hcards
  · rw [← hw]
    rw [hvec] at hh
    exact hready.apart _ (hbt.imp And.left And.left) f hf t ht' h hh

variable (hs : hand.Complete)

include hs

omit hp ht in
/-- The hand's own kickers are held beside its body. -/
theorem kickers_held {r : Nat} (hr : r ∈ hand.kickers) :
    r ≤ redJoker ∧ hand.type.kickMult ≤ s.aiPoints r ∧
      s.cardsBeside hand r = s.aiPoints r - hand.type.kickMult := by
  have hout := hs.fit.outside r hr
  have harray : handToPointsArray hand r = hand.type.kickMult := by
    rw [handToPointsArray_apply hs.placed, if_neg (by omega), if_pos hr]
  refine ⟨hs.top r hr, harray ▸ hheld r, ?_⟩
  unfold cardsBeside pointsSub
  rw [harray]

omit hp in
/-- Its body is held three times, beside the kickers. -/
theorem body_held {r : Nat} (hlo : hand.keyPoint ≤ r) (hhi : r < hand.keyPoint + hand.width) :
    3 ≤ s.aiPoints r ∧ s.cardsBeside hand r = s.aiPoints r - 3 := by
  have hmult : ∀ t ∈ refoundTypes, HandType.mult t = 3 := by decide
  have harray : handToPointsArray hand r = 3 := by
    rw [handToPointsArray_apply hs.placed, if_pos ⟨hlo, hhi⟩, hmult _ ht]
  refine ⟨harray ▸ hheld r, ?_⟩
  unfold cardsBeside pointsSub
  rw [harray]

/-- What is to choose from is held as often as a kicker needs. -/
theorem kickerPool_held {r : Nat} (hr : r ∈ s.kickerPool u hand) :
    r ≤ redJoker ∧ hand.type.kickMult ≤ s.aiPoints r := by
  rcases List.mem_append.mp hr with hr | hr
  · obtain ⟨htop, hmult, -⟩ := kickers_held hheld hs hr
    exact ⟨htop, hmult⟩
  · obtain ⟨h, hh, rfl⟩ := List.mem_map.mp hr
    have hkind := kickerType_spec ht
    have hoffers := kickerMap_offers u s.lowestControl s.maxOppNumber s.otherPoints
      (cardsBeside_legal hp hheld)
    obtain ⟨htop, hmult⟩ := hoffers.single _ hkind.1 h (List.mem_filter.mp hh).1
    have h0 := handToPointsArray_nonneg hand h.keyPoint
    refine ⟨htop, ?_⟩
    unfold cardsBeside pointsSub at hmult
    omega

/-- The body the hand ends with: of the hand's type and length, held, and high
enough. -/
theorem refoundKey_spec : hand.type.BodyOk (s.refoundKey u hand) hand.len ∧
    (∀ r, s.refoundKey u hand ≤ r → r < s.refoundKey u hand + hand.width → 3 ≤ s.aiPoints r) ∧
    (s.isFree = false → s.curHand.keyPoint < hand.keyPoint →
      s.curHand.keyPoint < s.refoundKey u hand) := by
  unfold refoundKey
  cases hf : s.lowerBody u hand with
  | none => exact ⟨hs.body, fun r hlo hhi => (body_held hheld ht hs hlo hhi).1, fun _ h => h⟩
  | some f =>
    obtain ⟨hmem, hstands, hlen⟩ := lowerBody_mem hf
    obtain ⟨hok, hheld', -⟩ := standIn_spec hp hheld ht hmem hlen
    refine ⟨hok, fun r hlo hhi => ?_, fun hfree _ => ?_⟩
    · have h3 := hheld' r hlo hhi
      have h0 := handToPointsArray_nonneg hand r
      unfold cardsBeside pointsSub at h3
      omega
    · unfold standsIn at hstands
      rw [hfree, Bool.false_or, Bool.and_eq_true, decide_eq_true_iff] at hstands
      exact hstands.1

/-- With the split off the hand, no rank to choose from lies on the body the
hand ends with, be it the hand's own or one of the split. -/
theorem kickerPool_off_body (hapart : s.SplitApart u hand) {r : Nat}
    (hr : r ∈ s.kickerPool u hand) :
    r < s.refoundKey u hand ∨ s.refoundKey u hand + hand.width ≤ r := by
  obtain ⟨hkind, -⟩ := kickerType_spec ht
  unfold refoundKey
  rcases List.mem_append.mp hr with hr | hr
  · cases hf : s.lowerBody u hand with
    | none => exact hs.fit.outside r hr
    | some f =>
      -- an old kicker on a new body
      obtain ⟨hmem, hstands, hlen⟩ := lowerBody_mem hf
      exact hapart.bodies f hmem hstands hlen r hr
  · obtain ⟨h, hh, rfl⟩ := List.mem_map.mp hr
    obtain ⟨hhv, hlow⟩ := List.mem_filter.mp hh
    cases hf : s.lowerBody u hand with
    | none =>
      -- a new kicker on the old body
      exact hapart.kickers h hhv (of_decide_eq_true hlow)
    | some f =>
      obtain ⟨hmem, -, hlen⟩ := lowerBody_mem hf
      obtain ⟨-, -, hoff⟩ := standIn_spec hp hheld ht hmem hlen
      exact hoff _ hkind h hhv

/-- Only a rank of the hand that is held four times gets in the way, and only
of solos: a body beside a kicker takes three cards more, a kicker beside a body
one or two. -/
theorem splitApart_of_few (hfew : ∀ r, hand.type.kickMult = 1 →
    0 < handToPointsArray hand r → s.aiPoints r ≤ 3) : s.SplitApart u hand := by
  refine ⟨fun f hmem _ hlen r hr => ?_, fun h hh _ => ?_⟩
  · by_contra hin
    obtain ⟨-, hthree, -⟩ := standIn_spec hp hheld ht hmem hlen
    obtain ⟨-, -, hbeside⟩ := kickers_held hheld hs hr
    have hcards : handToPointsArray hand r = hand.type.kickMult := by
      have hout := hs.fit.outside r hr
      rw [handToPointsArray_apply hs.placed, if_neg (by omega), if_pos hr]
    have hbody := hthree r (by omega) (by omega)
    have h4 := hp.four r
    have hone : hand.type.kickMult = 1 := by
      have hsome : hand.kickerCount ≠ 0 := by
        have := List.length_pos_of_mem hr
        rw [hs.filled] at this
        exact Nat.ne_of_gt this
      rcases refoundTypes_cases ht with h | h | h | h | h
      · -- a trio has no kickers
        exact absurd (by rw [Hand.kickerCount, h]) hsome
      all_goals
        rw [h] at hbeside ⊢
        first
          | rfl
          | (change _ = _ - 2 at hbeside; omega)
    have := hfew r hone (by omega)
    omega
  · by_contra hin
    obtain ⟨hkind, -⟩ := kickerType_spec ht
    have hoffers := kickerMap_offers u s.lowestControl s.maxOppNumber s.otherPoints
      (cardsBeside_legal hp hheld)
    have hcard := (hoffers.single _ hkind h hh).2
    have hbody := (body_held hheld ht hs (r := h.keyPoint) (by omega) (by omega)).2
    have h4 := hp.four h.keyPoint
    rcases hkind with hsolo | hpair
    · -- a solo is a kicker of the types with single ones
      have hone : hand.type.kickMult = 1 := by
        unfold kickerType at hsolo
        split at hsolo
        next h => rcases h with h | h <;> rw [h] <;> rfl
        · exact absurd hsolo (by decide)
      have hmine : handToPointsArray hand h.keyPoint = 3 := by
        unfold cardsBeside pointsSub at hbody
        omega
      have := hfew h.keyPoint hone (by omega)
      rw [hsolo] at hcard
      change (1 : Int) ≤ _ at hcard
      omega
    · rw [hpair] at hcard
      change (2 : Int) ≤ _ at hcard
      omega

/-! ## The kickers -/

/-- As many kickers as slots are chosen from the pool, no rank twice and not
the two jokers: with something to choose the greatest rank goes. -/
theorem refoundKickers_spec :
    (s.refoundKickers u hand).length = hand.kickerCount ∧
      (∀ r ∈ s.refoundKickers u hand, r ∈ s.kickerPool u hand) ∧ (s.refoundKickers u hand).Nodup ∧
      ¬(blackJoker ∈ s.refoundKickers u hand ∧ redJoker ∈ s.refoundKickers u hand) := by
  unfold refoundKickers
  split
  next hmore =>
    rw [length_ascending] at hmore
    refine ⟨length_lowest (Nat.le_of_lt hmore.2), fun r hr => (mem_lowest.mp hr).1,
      (lowest_sorted _ _).imp fun hlt => Nat.ne_of_lt hlt, fun hboth => ?_⟩
    exact ne_greatest hmore.2 (fun r hr => (kickerPool_held hp hheld ht hs hr).1) hboth.2
  next =>
    exact ⟨hs.filled, fun r hr => List.mem_append_left _ hr, hs.fit.nodup, hs.fit.jokers⟩

/-! ## The hand found -/

theorem kickers_refindForTrio :
    (refindForTrio u s hand).kickers = s.refoundKickers u hand := by
  rw [refindForTrio_eq hp hheld hs]
  exact List.take_left' (refoundKickers_spec hp hheld ht hs).1

/-- The hand found has no more cards than its body and its kickers. -/
theorem refindForTrio_le (r : Nat) : handToPointsArray (refindForTrio u s hand) r
    ≤ if s.refoundKey u hand ≤ r ∧ r < s.refoundKey u hand + hand.width then 3
      else if r ∈ s.refoundKickers u hand then hand.type.kickMult else 0 := by
  have hlen := (refoundKickers_spec (u := u) hp hheld ht hs).1
  rw [refindForTrio_eq hp hheld hs]
  generalize s.refoundKickers u hand = ks at hlen ⊢
  generalize s.refoundKey u hand = k
  obtain ⟨type, key, len, kicker⟩ := hand
  rcases refoundTypes_cases ht with rfl | rfl | rfl | rfl | rfl
  · rw [List.eq_nil_of_length_eq_zero hlen]
    exact (handToPointsArray_body (b := ⟨.trio, k, len, kicker⟩) Kicks.trioSolo r).le
  · exact kicked_le (b := ⟨.trio, k, len, kicker⟩) Kicks.trioSolo hlen r
  · exact kicked_le (b := ⟨.trio, k, len, kicker⟩) Kicks.trioPair hlen r
  · exact kicked_le (b := ⟨.trioChain, k, len, kicker⟩) Kicks.trioChainSolo hlen r
  · exact kicked_le (b := ⟨.trioChain, k, len, kicker⟩) Kicks.trioChainPair hlen r

theorem refindForTrio_held (r : Nat) :
    handToPointsArray (refindForTrio u s hand) r ≤ s.aiPoints r := by
  refine Int.le_trans (refindForTrio_le hp hheld ht hs r) ?_
  split
  next hin => exact (refoundKey_spec hp hheld ht hs).2.1 r hin.1 hin.2
  next =>
    split
    next hr =>
      exact (kickerPool_held hp hheld ht hs ((refoundKickers_spec hp hheld ht hs).2.1 r hr)).2
    next => exact hp.nonneg r

/-- With its kickers off the body it is complete: the body is one of a legal
key, and the kickers chosen are held, different and not both jokers. -/
theorem refindForTrio_complete (hclear : ∀ r ∈ s.refoundKickers u hand,
    r < s.refoundKey u hand ∨ s.refoundKey u hand + hand.width ≤ r) :
    (refindForTrio u s hand).Complete := by
  have hkickers := kickers_refindForTrio (u := u) hp hheld ht hs
  have heq := refindForTrio_eq (u := u) hp hheld hs
  have hshape : (refindForTrio u s hand).type = hand.type ∧
      (refindForTrio u s hand).keyPoint = s.refoundKey u hand ∧
      (refindForTrio u s hand).len = hand.len ∧
      (refindForTrio u s hand).width = hand.width ∧
      (refindForTrio u s hand).kickerCount = hand.kickerCount := by
    rw [heq]
    exact ⟨rfl, rfl, rfl, rfl, rfl⟩
  obtain ⟨htype, hkey, hlen, hwidth, hcount⟩ := hshape
  obtain ⟨hlength, hpool, hnodup, hjokers⟩ := refoundKickers_spec (u := u) hp hheld ht hs
  refine ⟨?_, ?_, ?_, ?_⟩
  · rw [htype, hkey, hlen]
    exact (refoundKey_spec hp hheld ht hs).1
  · rw [hkickers, hcount]
    exact hlength
  · rw [hkickers, hkey, hwidth]
    exact ⟨hnodup, hclear, hjokers⟩
  · rw [hkickers]
    exact fun r hr => (kickerPool_held hp hheld ht hs (hpool r hr)).1

/-- A hand with a key between that of the table and its own still beats the
table. -/
theorem refindForTrio_higher (hfree : s.isFree = false)
    (hhigher : isHandHigherThan hand s.curHand = true) :
    isHandHigherThan (refindForTrio u s hand) s.curHand = true := by
  have hplain : ∀ t ∈ refoundTypes, t ≠ .nuke ∧ t ≠ .bomb := by decide
  obtain ⟨hnuke, hbomb⟩ := hplain _ ht
  rw [refindForTrio_eq hp hheld hs]
  have hkey := (refoundKey_spec (u := u) hp hheld ht hs).2.2 hfree
  generalize s.refoundKey u hand = k at hkey ⊢
  unfold isHandHigherThan Hand.setKickers at *
  simp only [hnuke, hbomb, Bool.or_eq_true, Bool.and_eq_true, decide_eq_true_eq, or_self,
    if_false] at hhigher ⊢
  split at hhigher
  · exact Bool.noConfusion hhigher
  next hn =>
    rw [if_neg hn]
    split at hhigher
    · exact Bool.noConfusion hhigher
    next hb =>
      rw [if_neg hb]
      split at hhigher
      next hsame =>
        rw [if_pos ⟨hsame.1, hkey hsame.2⟩]
        exact hhigher
      · exact Bool.noConfusion hhigher

omit hs

variable (hsh : hand.Shaped)

include hsh

/-- Kickers off the body are read back. -/
theorem refindForTrio_readsBack (hclear : s.KickersClear u hand) :
    (refindForTrio u s hand).ReadsBack := by
  refine (refindForTrio_complete hp hheld ht hsh.complete fun r hr => ?_).readsBack
  rw [refoundKickers_eq hsh] at hr
  exact hclear r (mem_lowest.mp hr).1 (mem_lowest.mp hr).2

/-- What is read back has its kickers off the body: they are all the kickers
there are. -/
theorem kickersClear_of_readsBack (hback : (refindForTrio u s hand).ReadsBack) :
    s.KickersClear u hand := by
  have hle := refindForTrio_le (u := u) hp hheld ht hsh.complete
  have hq := hp.of_le (handToPointsArray_nonneg _)
    (refindForTrio_held (u := u) hp hheld ht hsh.complete)
  have heq := refindForTrio_eq (u := u) hp hheld hsh.complete
  have hlowest := (refoundKickers_spec (u := u) hp hheld ht hsh.complete).1
  rw [refoundKickers_eq hsh] at hle hlowest
  unfold Hand.ReadsBack at hback
  generalize handToPointsArray (refindForTrio u s hand) = q at hback hle hq
  rw [heq] at hback
  obtain ⟨htype, hkey, hlen⟩ := hback
  dsimp only [Hand.setKickers] at htype hkey hlen
  generalize hg : getHand q = g at htype hkey hlen
  have hplain : ∀ t ∈ refoundTypes, t ≠ .nothing ∧ t ≠ .soloChain ∧ t ≠ .pairChain := by decide
  obtain ⟨hn, hsolo, hpair⟩ := hplain g.type (htype ▸ ht)
  have hr : RobotDdz.Recognised q g := hg ▸ getHand_recognised hq (hg ▸ hn)
  have hgs := hr.shaped hq
  have hexact := (hr.exact_iff hq).mpr (hr.body_eq_run hsolo hpair)
  have hw : g.width = hand.width := by
    rw [width_refound (htype ▸ ht), width_refound ht, htype]
    split
    next hc => exact hlen hc
    next => rfl
  have hcount : g.kickerCount = hand.kickerCount := by
    unfold Hand.kickerCount
    rw [htype]
    simp only [refoundTypes, HandType.trioKicked, List.mem_cons, List.not_mem_nil, or_false] at ht
    rcases ht with h | h | h | h | h <;> rw [h] at hlen ⊢
    · exact hlen rfl
    · exact hlen rfl
  -- each kicker read back is one of those chosen, and there are as many
  have hsub : g.kickers ⊆ lowest hand.kickerCount (s.kickerPool u hand) := by
    intro r hmem
    have hout := hgs.outside r hmem
    have hcards := hle r
    rw [← hexact, handToPointsArray_apply hgs.placed, if_neg (by omega), if_pos hmem, htype,
      if_neg (by omega)] at hcards
    by_contra hno
    rw [if_neg hno] at hcards
    have hnone : ∀ t ∈ refoundTypes, HandType.kickMult t ≤ 0 → t = .trio := by decide
    have htrio := hnone _ ht hcards
    have hzero : g.kickers.length = 0 := by
      rw [hgs.filled, hcount, Hand.kickerCount, htrio]
    rw [List.eq_nil_of_length_eq_zero hzero] at hmem
    exact List.not_mem_nil hmem
  have hnd : g.kickers.Nodup := hgs.increasing.imp fun hlt => Nat.ne_of_lt hlt
  have hperm := (hnd.subperm hsub).perm_of_length_le
    (by rw [hlowest, hgs.filled, hcount])
  intro r hr hcard
  have hout := hgs.outside r (hperm.mem_iff.mpr (mem_lowest.mpr ⟨hr, hcard⟩))
  rwa [hkey, hw] at hout

end Body

/-- The second look leaves a legal play exactly when the kickers it picks are
off the body it picks. -/
theorem staysLegal_iff_kickersClear (u : Undef) {s : AI} (hp : LegalHolding s.aiPoints)
    {hand : Hand} (hw : hand.WellFormed) (ht : hand.type ∈ refoundTypes)
    (hheld : ∀ r, handToPointsArray hand r ≤ s.aiPoints r)
    (hhigher : s.isFree = false → isHandHigherThan hand s.curHand = true) :
    s.StaysLegal hand (refindForTrio u s hand) ↔ s.KickersClear u hand := by
  have hs := hw.toShaped
  have hcounts := hp.toLegalCounts
  refine ⟨fun h => kickersClear_of_readsBack hcounts hheld ht hs h.readsBack, fun hclear => ?_⟩
  refine ⟨?_, ?_, refindForTrio_held hcounts hheld ht hs.complete,
    refindForTrio_readsBack hcounts hheld ht hs hclear,
    fun hfree => refindForTrio_higher hcounts hheld ht hs.complete hfree (hhigher hfree)⟩
  · rw [refindForTrio_eq hcounts hheld hs.complete]
    rfl
  · rw [refindForTrio_eq hcounts hheld hs.complete]
    rfl

/-- The second look leaves a legal play where the split of the rest keeps off
the hand, which it does without solo kickers, and whenever no rank of the hand
is held four times. -/
theorem refind_legal (u : Undef) {s : AI} (hp : LegalHolding s.aiPoints) {hand : Hand}
    (hw : hand.WellFormed) (ht : hand.type ∈ refoundTypes)
    (hheld : ∀ r, handToPointsArray hand r ≤ s.aiPoints r)
    (hhigher : s.isFree = false → isHandHigherThan hand s.curHand = true) :
    (s.SplitApart u hand → s.StaysLegal hand (refindForTrio u s hand)) ∧
      ((∀ r, hand.type.kickMult = 1 → 0 < handToPointsArray hand r → s.aiPoints r ≤ 3) →
        s.SplitApart u hand) := by
  have hs := hw.toShaped
  have hcounts := hp.toLegalCounts
  refine ⟨fun hapart => ?_, splitApart_of_few hcounts hheld ht hs.complete⟩
  exact (staysLegal_iff_kickersClear u hp hw ht hheld hhigher).mpr
    fun _ hr _ => kickerPool_off_body hcounts hheld ht hs.complete hapart hr

/-- Three threes, three fours, a five and a six. -/
def threesAndFoursToSix : Points := Points.ofList [3, 3, 1, 1]

/-- A lord with these cards who leads. -/
def lordWithSix : AI :=
  { level := 1, aiSeat := 0, lordSeat := 0, aiPosition := .lord, curHandSeat := 0
    playerInfo := fun seat => if seat = 0 then ⟨threesAndFoursToSix, 8⟩ else ⟨Points.zero, 17⟩ }

/-- The three fours with the six. -/
def foursWithSix : Hand := { type := .trioSolo, keyPoint := 1, kicker := [3] }

theorem wellFormed_foursWithSix : foursWithSix.WellFormed :=
  ⟨⟨by decide, by decide, by decide, by decide, by decide, by decide⟩, by decide⟩

theorem legalHolding_lordWithSix : LegalHolding lordWithSix.aiPoints :=
  legalHolding_ofList (by decide) (by decide) (by decide)

theorem foursWithSix_held (r : Nat) :
    handToPointsArray foursWithSix r ≤ lordWithSix.aiPoints r := by
  match r with
  | 0 => decide
  | 1 => decide
  | 2 => decide
  | 3 => decide
  | r + 4 =>
    have hnone : handToPointsArray foursWithSix (r + 4) = 0 := by
      rw [handToPointsArray_apply wellFormed_foursWithSix.toShaped.placed,
        if_neg (by simp [foursWithSix, Hand.width]),
        if_neg (by simp [foursWithSix, Hand.kickers, Hand.kickerCount])]
    rw [hnone]
    exact legalHolding_lordWithSix.nonneg (r + 4)

/-- Both are found anew, the threes with the five, and the hand is one to play. -/
theorem refind_legal_lordWithSix :
    lordWithSix.StaysLegal foursWithSix (refindForTrio .zero lordWithSix foursWithSix) ∧
      refindForTrio .zero lordWithSix foursWithSix
        = { type := .trioSolo, keyPoint := 0, kicker := [2] } := by
  obtain ⟨hlegal, hapart⟩ := refind_legal .zero legalHolding_lordWithSix wellFormed_foursWithSix
    (by decide) foursWithSix_held (fun hfree => Bool.noConfusion hfree)
  refine ⟨hlegal (hapart fun r _ hr => ?_), by decide +kernel⟩
  match r with
  | 0 => decide
  | 1 => decide
  | 2 => decide
  | 3 => decide
  | r + 4 =>
    have hzero : lordWithSix.aiPoints (r + 4) = 0 := rfl
    omega

/-- Four threes and three fours. -/
def threesAndFours : Points := Points.ofList [4, 3]

theorem legalHolding_threesAndFours : LegalHolding threesAndFours :=
  legalHolding_ofList (by decide) (by decide) (by decide)

/-- A lord with these cards who leads. -/
def lordWithThrees : AI :=
  { level := 1, aiSeat := 0, lordSeat := 0, aiPosition := .lord, curHandSeat := 0
    playerInfo := fun seat => if seat = 0 then ⟨threesAndFours, 7⟩ else ⟨Points.zero, 17⟩ }

/-- The three fours with a three. -/
def foursWithThree : Hand := { type := .trioSolo, keyPoint := 1, kicker := [0] }

theorem wellFormed_foursWithThree : foursWithThree.WellFormed :=
  ⟨⟨by decide, by decide, by decide, by decide, by decide, by decide⟩, by decide⟩

theorem foursWithThree_held (r : Nat) :
    handToPointsArray foursWithThree r ≤ lordWithThrees.aiPoints r := by
  match r with
  | 0 => decide
  | 1 => decide
  | r + 2 =>
    have hnone : handToPointsArray foursWithThree (r + 2) = 0 := by
      rw [handToPointsArray_apply wellFormed_foursWithThree.toShaped.placed,
        if_neg (by simp [foursWithThree, Hand.width]),
        if_neg (by simp [foursWithThree, Hand.kickers, Hand.kickerCount])]
    rw [hnone]
    exact legalHolding_threesAndFours.nonneg (r + 2)

/-- The threes left over become the body, and the three stays the kicker: no
play at all. -/
theorem foursWithThree_spoiled :
    LegalHolding lordWithThrees.aiPoints ∧ foursWithThree.WellFormed ∧
      (∀ r, handToPointsArray foursWithThree r ≤ lordWithThrees.aiPoints r) ∧
      refindForTrio .zero lordWithThrees foursWithThree
        = { type := .trioSolo, keyPoint := 0, kicker := [0] } ∧
      ¬lordWithThrees.StaysLegal foursWithThree
        (refindForTrio .zero lordWithThrees foursWithThree) := by
  have hfound : refindForTrio .zero lordWithThrees foursWithThree
      = { type := .trioSolo, keyPoint := 0, kicker := [0] } := by decide +kernel
  refine ⟨legalHolding_threesAndFours, wellFormed_foursWithThree, foursWithThree_held, hfound,
    fun h => ?_⟩
  have hback := h.readsBack.1
  rw [hfound] at hback
  exact absurd hback (by decide)

end AI

end RobotDdz
