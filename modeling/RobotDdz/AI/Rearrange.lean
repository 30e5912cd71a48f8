import RobotDdz.AI.Lvl
import RobotDdz.Split.Legal
import RobotDdz.AI.KickFit
import RobotDdz.Lib.Runs
import Mathlib.Algebra.Order.Pi

/-!
# What the high level's summary does to the map

`getHandsMapSummaryLvl` rewrites the map it summarises. The account of a
kicking loop is the map's sum with the bodies put aside; a round adds at most
the cards of its body, and exactly these when the kickers fit it (`Fits`). The
high trio breaks up without loss. The high pair does not (`BreaksPair`): it
stays, and a solo of its rank joins it in the vector of pairs.

Two accounts are kept, as in the splitters: the cards of the map, rank by rank,
and the hands' vectors. A loop takes the bodies of its vector one by one and
puts those without kickers aside, to be the vector again at the end;
`kickAccount` counts both parts. The condition on kickers is about the state
before each round (`KicksFit`), and for a split of a legal holding it is shown
to hold, so that there the high pair is all that can go wrong
(`summary_of_split_iff`).

Mirroring notes vs `OGLordRobotAI.cpp`:
- Kickers are taken from the front of their vectors without a look at the
  body's ranks; in a split no solo or pair lies on one.
- `k` is 1 for solos and 2 for pairs. It is chosen by three tests in turn: by
  the low hands of both types, by those that somebody can beat, and by all.
- A high trio is taken out and its cards are pushed to the vectors of their
  types. The code for a high pair pushes its two solos to the vector of the
  pairs and pops one, so the pair stays.
-/

namespace RobotDdz

open Runs

/-! ## The counts -/

/-- No count is negative. The maps start empty and only `countHighHand` writes
to them. -/
structure HighCounts.Nonneg (c : HighCounts) : Prop where
  uniHigh : ∀ t, 0 ≤ c.uniHigh t
  high : ∀ t, 0 ≤ c.high t
  goodLow : ∀ t, 0 ≤ c.goodLow t

theorem HighCounts.nonneg_empty : HighCounts.Nonneg {} :=
  ⟨fun _ => Int.le_refl 0, fun _ => Int.le_refl 0, fun _ => Int.le_refl 0⟩

theorem HighCounts.Nonneg.set {c : HighCounts} (hc : c.Nonneg) (t : HandType)
    {uniHigh high goodLow : Int} (h1 : 0 ≤ uniHigh) (h2 : 0 ≤ high) (h3 : 0 ≤ goodLow) :
    (c.set t uniHigh high goodLow).Nonneg := by
  have hupd : ∀ {f : HandType → Int} {v : Int}, (∀ t, 0 ≤ f t) → 0 ≤ v →
      ∀ t', 0 ≤ Function.update f t v t' := by
    intro f v hf hv t'
    rw [Function.update_apply]
    split
    · exact hv
    · exact hf t'
  exact ⟨hupd hc.uniHigh h1, hupd hc.high h2, hupd hc.goodLow h3⟩

namespace AI

variable (s : AI)

theorem chainCounts_nonneg (t : HandType) (hands : List Hand) :
    0 ≤ (s.chainCounts t hands).1 ∧ 0 ≤ (s.chainCounts t hands).2.1 ∧
      0 ≤ (s.chainCounts t hands).2.2 := by
  unfold chainCounts
  have hfold : ∀ (hands : List Hand) (x : (Int × Int × Int) × List Nat),
      0 ≤ x.1.1 ∧ 0 ≤ x.1.2.1 ∧ 0 ≤ x.1.2.2 →
      0 ≤ (hands.foldl (s.countChain t) x).1.1 ∧ 0 ≤ (hands.foldl (s.countChain t) x).1.2.1 ∧
        0 ≤ (hands.foldl (s.countChain t) x).1.2.2 := by
    intro hands
    induction hands with
    | nil => intro x hx; exact hx
    | cons h hands ih =>
      intro x hx
      obtain ⟨⟨uniHigh, high, goodLow⟩, seen⟩ := x
      obtain ⟨h1, h2, h3⟩ := hx
      apply ih
      unfold countChain
      dsimp only at h1 h2 h3 ⊢
      split
      · exact ⟨Int.add_nonneg h1 (by decide), h2, h3⟩
      · split
        · exact ⟨h1, Int.add_nonneg h2 (by decide), h3⟩
        · split
          · exact ⟨h1, h2, Int.add_nonneg h3 (by decide)⟩
          · exact ⟨h1, h2, h3⟩
  exact hfold _ _ ⟨Int.le_refl 0, Int.le_refl 0, Int.le_refl 0⟩

theorem otherCounts_nonneg (t : HandType) (hands : List Hand) :
    0 ≤ (s.otherCounts t hands).1 ∧ 0 ≤ (s.otherCounts t hands).2.1 ∧
      0 ≤ (s.otherCounts t hands).2.2 := by
  unfold otherCounts
  dsimp only
  refine ⟨Int.natCast_nonneg _, Int.natCast_nonneg _, ?_⟩
  split
  next => split <;> omega
  next => exact Int.le_refl 0

/-- Counting leaves no count negative: an entry is set to a number of hands or
left as it was, key by key. -/
theorem countHighHand_nonneg {c : HighCounts} (hc : c.Nonneg) (m : HandsMap) :
    (s.countHighHand m c).Nonneg := by
  unfold countHighHand
  have hfold : ∀ (ts : List HandType) (c : HighCounts), c.Nonneg →
      (ts.foldl (s.countKey m) c).Nonneg := by
    intro ts
    induction ts with
    | nil => intro c hc; exact hc
    | cons t ts ih =>
      intro c hc
      apply ih
      unfold countKey
      split
      next => exact hc
      next hands _ =>
        obtain ⟨h1, h2, h3⟩ := s.chainCounts_nonneg t hands
        obtain ⟨h1', h2', h3'⟩ := s.otherCounts_nonneg t hands
        split
        · exact hc
        · split
          · obtain ⟨g1, g2, g3⟩ := hc.set t h1 h2 h3
            exact ⟨g1, g2, g3⟩
          · obtain ⟨g1, g2, g3⟩ := hc.set t h1' h2' h3'
            exact ⟨g1, g2, g3⟩
  exact hfold _ _ ⟨hc.uniHigh, hc.high, hc.goodLow⟩

theorem kickBy_some {solos pairs len : Int} {k : HandType} (h : kickBy solos pairs len = some k) :
    k = .solo ∧ len ≤ solos ∨ k = .pair ∧ len ≤ pairs := by
  unfold kickBy at h
  split at h
  next hs => exact Or.inl ⟨(Option.some.inj h).symm, hs.2⟩
  next =>
    split at h
    next hp => exact Or.inr ⟨(Option.some.inj h).symm, hp.2⟩
    next => cases h

/-- Whichever test decides, there are enough hands of the chosen type. The
three tests only differ in what they take off the two sizes, and what they take
off is not negative. -/
theorem kickWith_some {m : HandsMap} {c : HighCounts} (hc : c.Nonneg) {len : Nat} {k : HandType}
    (h : kickWith m c len = some k) :
    (k = .solo ∨ k = .pair) ∧ len ≤ (m.vec k).length := by
  have hs := hc.uniHigh .solo
  have hs' := hc.high .solo
  have hs'' := hc.goodLow .solo
  have hp := hc.uniHigh .pair
  have hp' := hc.high .pair
  have hp'' := hc.goodLow .pair
  -- the three tests only differ in what they take off the two sizes
  have htest : ∀ solos pairs : Int, solos ≤ sizeOf m .solo → pairs ≤ sizeOf m .pair →
      kickBy solos pairs len = some k →
      (k = .solo ∨ k = .pair) ∧ len ≤ (m.vec k).length := by
    intro solos pairs h1 h2 hk
    rcases kickBy_some hk with hcase | hcase
    · obtain ⟨rfl, hle⟩ := hcase
      exact ⟨Or.inl rfl, Int.ofNat_le.mp (Int.le_trans hle h1)⟩
    · obtain ⟨rfl, hle⟩ := hcase
      exact ⟨Or.inr rfl, Int.ofNat_le.mp (Int.le_trans hle h2)⟩
  unfold kickWith at h
  rw [Option.orElse_eq_some, Option.orElse_eq_some] at h
  rcases h with h | ⟨-, h | ⟨-, h⟩⟩
  · refine htest _ _ ?_ ?_ h
    · unfold lowCount
      omega
    · unfold lowCount
      omega
  · exact htest _ _ (by omega) (by omega) h
  · exact htest _ _ (Int.le_refl _) (Int.le_refl _) h

/-! ## A round -/

/-- The kickers a round would hang on a body fit it: none repeats, none lies on
the body. -/
def Fits (c : HighCounts) (x : HandsMap × List Hand) (h : Hand) : Prop :=
  ∀ k, kickWith x.1 c h.width = some k →
    (((x.1.vec k).take h.width).map Hand.keyPoint).Nodup ∧
      ∀ p ∈ ((x.1.vec k).take h.width).map Hand.keyPoint,
        p < h.keyPoint ∨ h.keyPoint + h.width ≤ p

/-- What the rounds of a loop over the vector of type `t` keep. -/
structure KickInv (t : HandType) (hands : List Hand) (x : HandsMap × List Hand) : Prop where
  typed : x.1.Typed
  kept : ∀ h ∈ x.2, h.type = t
  vec : x.1.vec t = hands

/-- The cards in the map and in the bodies put aside. -/
def kickAccount (x : HandsMap × List Hand) : Points := x.1.sum + handsSum x.2

section Round

variable {c : HighCounts} {t withSolo withPair : HandType} {x : HandsMap × List Hand} {h : Hand}

theorem kickRound_eq (hs : Kicks t withSolo) (hh : h.type = t) :
    kickRound c t withSolo withPair x h =
      match kickWith x.1 c h.width with
      | none => (x.1, x.2 ++ [h])
      | some k =>
        let t' := if k = .solo then withSolo else withPair
        ((x.1.put k ((x.1.vec k).drop h.width)).push t'
          (Hand.setKickers { h with type := t' } (((x.1.vec k).take h.width).map Hand.keyPoint)),
          x.2) := by
  have hw : (if t = .trioChain then h.len else 1) = h.width := by
    unfold Hand.width
    rw [hh]
    cases hs <;> rfl
  unfold kickRound
  generalize (if t = .trioChain then h.len else 1) = n at hw ⊢
  subst hw
  rfl

/-- A body without kickers is put aside. -/
theorem KickInv.keepBody {hands : List Hand} (hx : KickInv t hands x) (hh : h.type = t) :
    KickInv t hands (x.1, x.2 ++ [h]) ∧
      kickAccount (x.1, x.2 ++ [h]) = kickAccount x + handToPointsArray h := by
  refine ⟨⟨hx.typed, fun h' hh' => ?_, hx.vec⟩, ?_⟩
  · rw [List.mem_append, List.mem_singleton] at hh'
    rcases hh' with hold | rfl
    · exact hx.kept h' hold
    · exact hh
  · funext r
    show x.1.sum r + handsSum (x.2 ++ [h]) r = x.1.sum r + handsSum x.2 r + handToPointsArray h r
    rw [handsSum_append, handsSum_cons, handsSum_nil]
    omega

/-- The kickers leave their vector, the kicked body joins another, and the
account changes by just that: the new hand's cards come in and those of the
kickers go. -/
theorem KickInv.hang {hands : List Hand} (hx : KickInv t hands x) {k t' : HandType} (n : Nat)
    (kicked : Hand) (hk : k = .solo ∨ k = .pair) (htk : t ≠ k) (htt' : t ≠ t')
    (htype : kicked.type = t') :
    KickInv t hands ((x.1.put k ((x.1.vec k).drop n)).push t' kicked, x.2) ∧
      ∀ r, kickAccount ((x.1.put k ((x.1.vec k).drop n)).push t' kicked, x.2) r
        = kickAccount x r + handToPointsArray kicked r
          - k.mult * (((x.1.vec k).take n).map Hand.keyPoint).count r := by
  refine ⟨⟨?_, hx.kept, ?_⟩, fun r => ?_⟩
  · exact (hx.typed.put fun h' hh' => hx.typed k h' (List.mem_of_mem_drop hh')).push htype
  · rw [HandsMap.vec_push, if_neg htt', HandsMap.vec_put_ne htk]
    exact hx.vec
  · have hsplit : handsSum (x.1.vec k) r
        = handsSum ((x.1.vec k).take n) r + handsSum ((x.1.vec k).drop n) r := by
      rw [← handsSum_append, List.take_append_drop]
    have htook := handsSum_singles (t := k) (by rcases hk with rfl | rfl <;> rfl)
      ((x.1.vec k).take n) (fun h' hh' =>
        hx.typed.type_eq (by rcases hk with rfl | rfl <;> decide) (List.mem_of_mem_take hh')) r
    show HandsMap.sum _ r + handsSum x.2 r = x.1.sum r + handsSum x.2 r + _ - _
    rw [HandsMap.sum_push, HandsMap.sum_put, hsplit, htook]
    omega

/-- One round: no card is made, and none is lost just when the kickers fit. A
body without kickers keeps its cards; one with kickers shows all of them if
they are different and off it, and fewer if not. -/
theorem kickRound_account (hc : c.Nonneg) {hands : List Hand} (hs : Kicks t withSolo)
    (hp : Kicks t withPair) (hms : withSolo.kickMult = 1) (hmp : withPair.kickMult = 2)
    (hx : KickInv t hands x) (hh : h.type = t) :
    KickInv t hands (kickRound c t withSolo withPair x h) ∧
      kickAccount (kickRound c t withSolo withPair x h) ≤ kickAccount x + handToPointsArray h ∧
      (kickAccount (kickRound c t withSolo withPair x h) = kickAccount x + handToPointsArray h ↔
        Fits c x h) := by
  rw [kickRound_eq hs hh]
  split
  next hnone =>
    obtain ⟨hkeep, heq⟩ := hx.keepBody hh
    refine ⟨hkeep, heq.le, fun _ k hk => ?_, fun _ => heq⟩
    rw [hnone] at hk
    cases hk
  next k hsome =>
    obtain ⟨hk, hlen⟩ := kickWith_some hc hsome
    have htake : (((x.1.vec k).take h.width).map Hand.keyPoint).length = h.width := by
      rw [List.length_map, List.length_take, min_eq_left hlen]
    obtain ⟨t', ht', hkick, hmult⟩ : ∃ t', (if k = .solo then withSolo else withPair) = t' ∧
        Kicks h.type t' ∧ t'.kickMult = k.mult := by
      rw [hh]
      rcases hk with rfl | rfl
      · exact ⟨withSolo, rfl, hs, hms⟩
      · exact ⟨withPair, rfl, hp, hmp⟩
    -- the vectors of the body, the kickers and the new hand are three different ones
    have hne : t ≠ k ∧ t ≠ t' := by
      rw [hh] at hkick
      cases hkick <;> rcases hk with rfl | rfl <;> decide
    have hfits : Fits c x h ↔ (((x.1.vec k).take h.width).map Hand.keyPoint).Nodup ∧
        ∀ p ∈ ((x.1.vec k).take h.width).map Hand.keyPoint,
          p < h.keyPoint ∨ h.keyPoint + h.width ≤ p := by
      refine ⟨fun H => H k hsome, fun H k' hk' => ?_⟩
      obtain rfl : k = k' := Option.some.inj (hsome.symm.trans hk')
      exact H
    rw [hfits, ← kicked_account_iff hkick htake, hmult]
    have hle := kicked_le_account hkick htake
    rw [hmult] at hle
    dsimp only
    rw [ht']
    obtain ⟨hinv, hsum⟩ := hx.hang h.width
      (Hand.setKickers { h with type := t' } (((x.1.vec k).take h.width).map Hand.keyPoint))
      hk hne.1 hne.2 rfl
    refine ⟨hinv, fun r => ?_, fun heq r => ?_, fun heq => funext fun r => ?_⟩
    · rw [hsum r]
      have := hle r
      show _ ≤ kickAccount x r + handToPointsArray h r
      omega
    · have := congrFun heq r
      rw [hsum r] at this
      change _ = kickAccount x r + handToPointsArray h r at this
      omega
    · rw [hsum r]
      have := heq r
      show _ = kickAccount x r + handToPointsArray h r
      omega

/-- The account of a vector. -/
theorem sum_map_handToPointsArray (hands : List Hand) :
    (hands.map handToPointsArray).sum = handsSum hands := by
  induction hands with
  | nil => rfl
  | cons h hands ih =>
    rw [List.map_cons, List.sum_cons, ih]
    funext r
    exact (handsSum_cons h hands r).symm

/-- One loop over a typed map: it makes no card, and it loses none just when
the kickers of every round fit. -/
theorem kickLoop_account (hc : c.Nonneg) {m : HandsMap} (hm : m.Typed) (hs : Kicks t withSolo)
    (hp : Kicks t withPair) (hms : withSolo.kickMult = 1) (hmp : withPair.kickMult = 2) :
    (kickLoop m c t withSolo withPair).1.Typed ∧
      (∀ r, (kickLoop m c t withSolo withPair).1.sum r ≤ m.sum r) ∧
      ((∀ r, (kickLoop m c t withSolo withPair).1.sum r = m.sum r) ↔
        Along (kickRound c t withSolo withPair) (Fits c) (m, []) (m.vec t)) := by
  obtain ⟨hinv, hle, hiff⟩ := run_account (f := kickRound c t withSolo withPair)
    (KickInv t (m.vec t)) kickAccount (P := Fits c) (W := fun h => h.type = t) handToPointsArray
    (fun x h hx hh => kickRound_account hc hs hp hms hmp hx hh) (m.vec t) (s := (m, []))
    (fun h hh => hm.type_eq (by cases hs <;> decide) hh)
    ⟨hm, fun h hh => absurd hh List.not_mem_nil, rfl⟩
  rw [sum_map_handToPointsArray] at hle hiff
  have hrun : (kickLoop m c t withSolo withPair).1
      = (run (kickRound c t withSolo withPair) (m, []) (m.vec t)).1.put t
        (run (kickRound c t withSolo withPair) (m, []) (m.vec t)).2 := rfl
  rw [hrun]
  generalize run (kickRound c t withSolo withPair) (m, []) (m.vec t) = x at *
  -- the bodies put aside replace the vector the loop went through
  have hsum : ∀ r, (x.1.put t x.2).sum r = kickAccount x r - handsSum (m.vec t) r := by
    intro r
    rw [HandsMap.sum_put, hinv.vec]
    show _ = x.1.sum r + handsSum x.2 r - handsSum (m.vec t) r
    omega
  have hstart : ∀ r, (kickAccount (m, []) + handsSum (m.vec t)) r
      = m.sum r + handsSum (m.vec t) r := by
    intro r
    show m.sum r + handsSum [] r + handsSum (m.vec t) r = _
    rw [handsSum_nil]
    omega
  refine ⟨hinv.typed.put fun h hh => Or.inl (hinv.kept h hh), fun r => ?_, ?_⟩
  · have hbound : kickAccount x r ≤ (kickAccount (m, []) + handsSum (m.vec t)) r := hle r
    rw [hstart r] at hbound
    rw [hsum r]
    omega
  · rw [← hiff]
    refine ⟨fun heq => funext fun r => ?_, fun heq r => ?_⟩
    · have := heq r
      rw [hsum r] at this
      rw [hstart r]
      omega
    · have := congrFun heq r
      rw [hstart r] at this
      rw [hsum r]
      omega

end Round

/-! ## Breaking up a high hand -/

/-- The last hand of a vector, if no solo of the opponents beats its rank. -/
def HighBack (m : HandsMap) (t : HandType) (h : Hand) : Prop :=
  (m.vec t).getLast? = some h ∧ s.findOppHighestPoint .solo < h.keyPoint

/-- There is a high trio to break up. -/
def BreaksTrio (m : HandsMap) (c : HighCounts) : Prop :=
  (∃ h, s.HighBack m .trio h) ∧ c.goodLow .trio < c.uniHigh .trio

/-- The low solos make the summary break up a high pair. -/
def BreaksPair (m : HandsMap) (c : HighCounts) : Prop :=
  0 < lowCount m c .solo ∧ ¬s.BreaksTrio m c ∧ (∃ h, s.HighBack m .pair h) ∧
    (2 ≤ lowCount m c .solo ∨ c.goodLow .pair < c.uniHigh .pair)

/-- What the two `match`es of `breakHigh` look at: the high last hand of a
vector, when the counts allow to break it up as well. -/
theorem highBack_eq_some_iff {m : HandsMap} {t : HandType} {b : Bool} {h : Hand} :
    ((((m.vec t).getLast?.filter fun h : Hand =>
      s.findOppHighestPoint .solo < h.keyPoint).filter fun _ => b) = some h) ↔
      s.HighBack m t h ∧ b = true := by
  rw [Option.filter_eq_some_iff, Option.filter_eq_some_iff, decide_eq_true_iff]
  rfl

/-- A high trio breaks up without loss; a high pair leaves a solo among the
pairs. -/
theorem breakHigh_account {m : HandsMap} (hm : m.Typed) (c : HighCounts) :
    (¬s.BreaksPair m c →
      (s.breakHigh m c).1.Typed ∧ ∀ r, (s.breakHigh m c).1.sum r = m.sum r) ∧
    (s.BreaksPair m c → ¬(s.breakHigh m c).1.Typed) := by
  unfold breakHigh
  dsimp only
  split
  next hlow =>
    split
    next h htrio =>
      obtain ⟨⟨hlast, hhigh⟩, hgood⟩ := s.highBack_eq_some_iff.mp htrio
      have hno : ¬s.BreaksPair m c := fun hb =>
        hb.2.1 ⟨⟨h, hlast, hhigh⟩, decide_eq_true_iff.mp hgood⟩
      refine ⟨fun _ => ?_, fun hb => absurd hb hno⟩
      obtain ⟨hm', hsum⟩ := hm.dropTrio hlast
      -- three cards of one rank, whichever way they are grouped
      split
      · dsimp only
        refine ⟨HandsMap.Typed.push (HandsMap.Typed.push hm' ?_) ?_, fun r => ?_⟩
        · rfl
        · rfl
        rw [HandsMap.sum_push, HandsMap.sum_push, hsum]
        rw [handToPointsArray_ofSingle rfl, handToPointsArray_ofSingle rfl]
        dsimp only [HandType.mult]
        split <;> omega
      · dsimp only
        refine ⟨HandsMap.Typed.push (HandsMap.Typed.push (HandsMap.Typed.push hm' ?_) ?_) ?_,
          fun r => ?_⟩
        · rfl
        · rfl
        · rfl
        rw [HandsMap.sum_push, HandsMap.sum_push, HandsMap.sum_push, hsum]
        rw [handToPointsArray_ofSingle rfl]
        dsimp only [HandType.mult]
        split <;> omega
    next htrio =>
      have hno : ¬s.BreaksTrio m c := by
        intro hb
        obtain ⟨⟨h, hh⟩, hgood⟩ := hb
        rw [s.highBack_eq_some_iff.mpr ⟨hh, decide_eq_true_iff.mpr hgood⟩] at htrio
        cases htrio
      split
      next h hpair =>
        obtain ⟨hh, hmany⟩ := s.highBack_eq_some_iff.mp hpair
        have hbreak : s.BreaksPair m c := ⟨hlow, hno, ⟨h, hh⟩, by simpa using hmany⟩
        refine ⟨fun hnot => absurd hbreak hnot, fun _ htyped => ?_⟩
        -- the solo of the pair's rank is the last of the pairs
        have hsolo := htyped.type_eq (t := .pair)
          (h := { type := .solo, keyPoint := h.keyPoint, len := 1 }) (by decide) (by
            rw [HandsMap.vec_push, if_pos rfl]
            simp)
        exact HandType.noConfusion hsolo
      next hpair =>
        refine ⟨fun _ => ⟨hm, fun _ => rfl⟩, fun hb => ?_⟩
        obtain ⟨-, -, ⟨h, hh⟩, hmany⟩ := hb
        rw [s.highBack_eq_some_iff.mpr ⟨hh, by simpa using hmany⟩] at hpair
        cases hpair
  next hlow =>
    exact ⟨fun _ => ⟨hm, fun _ => rfl⟩, fun hb => absurd hb.1 hlow⟩

/-! ## The whole summary -/

/-- The map with the keys the summary always inserts. -/
def lvlStart (m : HandsMap) : HandsMap :=
  (((m.touch .trioChain).touch .trio).touch .solo).touch .pair

/-- After the loop over the trio chains. -/
def chainsKicked (m : HandsMap) (c : HighCounts) : HandsMap × Bool :=
  kickLoop (lvlStart m) c .trioChain .trioChainSolo .trioChainPair

/-- After the loop over the trios. -/
def triosKicked (m : HandsMap) (c : HighCounts) : HandsMap × Bool :=
  kickLoop (chainsKicked m c).1 c .trio .trioSolo .trioPair

/-- The counts once kickers may have gone. -/
def recounted (m : HandsMap) (c : HighCounts) : HighCounts :=
  if (chainsKicked m c).2 || (triosKicked m c).2 then s.countHighHand (triosKicked m c).1 c else c

theorem getHandsMapSummaryLvl_map (m : HandsMap) (c : HighCounts) :
    (s.getHandsMapSummaryLvl m c).1
      = (s.breakHigh (triosKicked m c).1 (s.recounted m c)).1 := by
  unfold getHandsMapSummaryLvl recounted triosKicked chainsKicked lvlStart
  rfl

/-- The kickers of every round of both loops fit. -/
def KicksFit (m : HandsMap) (c : HighCounts) : Prop :=
  Along (kickRound c .trioChain .trioChainSolo .trioChainPair) (Fits c) (lvlStart m, [])
      (m.vec .trioChain) ∧
    Along (kickRound c .trio .trioSolo .trioPair) (Fits c) ((chainsKicked m c).1, [])
      ((chainsKicked m c).1.vec .trio)

section Whole

variable {m : HandsMap} {c : HighCounts}

theorem lvlStart_vec (t : HandType) : (lvlStart m).vec t = m.vec t := by
  unfold lvlStart
  rw [HandsMap.vec_touch, HandsMap.vec_touch, HandsMap.vec_touch, HandsMap.vec_touch]

theorem lvlStart_sum (r : Nat) : (lvlStart m).sum r = m.sum r := by
  unfold lvlStart
  rw [HandsMap.sum_touch, HandsMap.sum_touch, HandsMap.sum_touch, HandsMap.sum_touch]

/-- The two loops together: the sums of the first are what the second begins
with, and as neither makes cards, none is lost on the way when none is lost in
the end. -/
theorem triosKicked_account (hc : c.Nonneg) (hm : m.Typed) :
    (triosKicked m c).1.Typed ∧
      ((∀ r, (triosKicked m c).1.sum r = m.sum r) ↔ KicksFit m c) := by
  have hstart : (lvlStart m).Typed := (((hm.touch .trioChain).touch .trio).touch .solo).touch .pair
  obtain ⟨hty, hle, hiff⟩ := kickLoop_account hc hstart .trioChainSolo .trioChainPair rfl rfl
  obtain ⟨hty', hle', hiff'⟩ := kickLoop_account hc hty .trioSolo .trioPair rfl rfl
  rw [lvlStart_vec] at hiff
  refine ⟨hty', fun heq => ⟨hiff.mp fun r => ?_, hiff'.mp fun r => ?_⟩, fun hfit r => ?_⟩
  · -- neither loop makes cards, so none is lost on the way
    have h1 := hle r
    have h2 := hle' r
    have h3 := heq r
    have h4 := lvlStart_sum (m := m) r
    change (triosKicked m c).1.sum r ≤ _ at h2
    omega
  · have h1 := hle r
    have h2 := hle' r
    have h3 := heq r
    have h4 := lvlStart_sum (m := m) r
    change (triosKicked m c).1.sum r ≤ _ at h2
    change (triosKicked m c).1.sum r = _
    omega
  · have h1 := hiff.mpr hfit.1 r
    have h2 := hiff'.mpr hfit.2 r
    change (triosKicked m c).1.sum r = _ at h2
    rw [h2, h1, lvlStart_sum]

/-- What a summary, with whatever counts it is given, keeps of a typed map. -/
theorem getHandsMapSummaryLvl_keeps_iff (hm : m.Typed) (hc : c.Nonneg) :
    ((s.getHandsMapSummaryLvl m c).1.sum = m.sum ∧ (s.getHandsMapSummaryLvl m c).1.Typed) ↔
      KicksFit m c ∧ ¬s.BreaksPair (triosKicked m c).1 (s.recounted m c) := by
  obtain ⟨hty, hfit⟩ := triosKicked_account hc hm
  obtain ⟨hkeep, hbreak⟩ := s.breakHigh_account hty (s.recounted m c)
  rw [getHandsMapSummaryLvl_map]
  constructor
  · intro h
    have hno : ¬s.BreaksPair (triosKicked m c).1 (s.recounted m c) := fun hb => hbreak hb h.2
    refine ⟨hfit.mp fun r => ?_, hno⟩
    rw [← (hkeep hno).2 r, h.1]
  · intro h
    obtain ⟨hty', hsum⟩ := hkeep h.2
    refine ⟨funext fun r => ?_, hty'⟩
    rw [hsum r, hfit.mpr h.1 r]

/-- The summary keeps every card and every hand's vector when the kickers of
all rounds fit and it breaks up no pair, and only then. -/
theorem getHandsMapSummaryLvl_conserves_iff {allHands : HandsMap} (hm : allHands.Typed)
    {before : HighCounts} (h0 : before.Nonneg) :
    ((s.getHandsMapSummaryLvl allHands (s.countHighHand allHands before)).1.sum = allHands.sum ∧
        (s.getHandsMapSummaryLvl allHands (s.countHighHand allHands before)).1.Typed) ↔
      KicksFit allHands (s.countHighHand allHands before) ∧
        ¬s.BreaksPair (triosKicked allHands (s.countHighHand allHands before)).1
          (s.recounted allHands (s.countHighHand allHands before)) :=
  s.getHandsMapSummaryLvl_keeps_iff hm (s.countHighHand_nonneg h0 allHands)

end Whole

/-! ## The maps of the splitters -/

section Ready

variable {m : HandsMap} {c : HighCounts}

/-- What a round leaves of a vector it adds nothing to: a part of it if it is
the solos' or the pairs', and all of it otherwise. -/
theorem kickRound_shrinks (hc : c.Nonneg) {t withSolo withPair t' : HandType}
    (hs : Kicks t withSolo) (x : HandsMap × List Hand) {h : Hand} (hh : h.type = t)
    (ht' : t' ≠ withSolo ∧ t' ≠ withPair) :
    ((kickRound c t withSolo withPair x h).1.vec t').Sublist (x.1.vec t') ∧
      (t' ≠ .solo → t' ≠ .pair →
        (kickRound c t withSolo withPair x h).1.vec t' = x.1.vec t') := by
  rw [kickRound_eq hs hh]
  split
  next => exact ⟨List.Sublist.refl _, fun _ _ => rfl⟩
  next k hsome =>
    obtain ⟨hk, -⟩ := kickWith_some hc hsome
    have hne : t' ≠ if k = .solo then withSolo else withPair := by
      split
      · exact ht'.1
      · exact ht'.2
    dsimp only
    rw [HandsMap.vec_push, if_neg hne, HandsMap.vec_put]
    split
    next htk =>
      rw [htk]
      refine ⟨List.drop_sublist _ _, fun h1 h2 => ?_⟩
      rcases hk with rfl | rfl
      · exact absurd rfl h1
      · exact absurd rfl h2
    next => exact ⟨List.Sublist.refl _, fun _ _ => rfl⟩

/-- Kickers taken from the front of what is left of the solos or pairs of a
ready map fit its bodies. -/
theorem fits_of_ready (hr : KickReady m) (hc : c.Nonneg) {t : HandType}
    (ht : t = .trio ∨ t = .trioChain) {x : HandsMap × List Hand} {h : Hand} (hh : h ∈ m.vec t)
    (hsub : ∀ k, k = .solo ∨ k = .pair → (x.1.vec k).Sublist (m.vec k)) : Fits c x h := by
  intro k hsome
  obtain ⟨hk, -⟩ := kickWith_some hc hsome
  have htake : ((x.1.vec k).take h.width).Sublist (m.vec k) :=
    (List.take_sublist _ _).trans (hsub k hk)
  have hup : ((x.1.vec k).take h.width).Pairwise fun h h' => h.keyPoint < h'.keyPoint :=
    (hr.kicker_up hk).sublist htake
  refine ⟨List.pairwise_map.mpr (hup.imp fun hlt => Nat.ne_of_lt hlt), fun p hp => ?_⟩
  obtain ⟨h', hh', rfl⟩ := List.mem_map.mp hp
  exact hr.apart t ht h hh k hk h' (htake.subset hh')

/-- On a map the kicker pass could work on, the kickers of every round fit:
what is left of the solos and pairs is a part of what there was, so it is still
off all the bodies. -/
theorem kicksFit_of_ready (hr : KickReady m) (hm : m.Typed) (hc : c.Nonneg) : KicksFit m c := by
  have hsolo : ∀ k : HandType, k = .solo ∨ k = .pair → k ≠ .trioChainSolo ∧ k ≠ .trioChainPair ∧
      k ≠ .trioSolo ∧ k ≠ .trioPair ∧ k ≠ .trioChain ∧ k ≠ .trio := by
    intro k hk
    rcases hk with rfl | rfl <;> decide
  obtain ⟨⟨hleft, htrio⟩, hchains⟩ := along_of_inv
    (f := kickRound c .trioChain .trioChainSolo .trioChainPair) (P := Fits c)
    (W := fun h => h ∈ m.vec .trioChain) (s := (lvlStart m, []))
    (fun x => (∀ k, k = .solo ∨ k = .pair → (x.1.vec k).Sublist (m.vec k)) ∧
      x.1.vec .trio = m.vec .trio)
    (fun x h hx hh => by
      have htype := hm.type_eq (by decide) hh
      refine ⟨⟨fun k hk => ?_, ?_⟩, fits_of_ready hr hc (Or.inr rfl) hh hx.1⟩
      · obtain ⟨h1, h2, -⟩ := hsolo k hk
        exact (kickRound_shrinks hc .trioChainSolo x htype ⟨h1, h2⟩).1.trans (hx.1 k hk)
      · rw [← hx.2]
        exact (kickRound_shrinks hc .trioChainSolo x htype (by decide)).2 (by decide) (by decide))
    (fun h hh => hh)
    ⟨fun k _ => by rw [lvlStart_vec], by rw [lvlStart_vec]⟩
  -- the second loop meets the same trios, and what the first left of the solos and pairs
  have hvec : ∀ t, t ≠ .trioChain → (chainsKicked m c).1.vec t
      = (run (kickRound c .trioChain .trioChainSolo .trioChainPair) (lvlStart m, [])
          (m.vec .trioChain)).1.vec t := by
    intro t ht
    unfold chainsKicked kickLoop
    rw [lvlStart_vec]
    exact HandsMap.vec_put_ne ht
  refine ⟨hchains, (along_of_inv (W := fun h => h ∈ m.vec .trio)
    (fun x : HandsMap × List Hand =>
      ∀ k, k = .solo ∨ k = .pair → (x.1.vec k).Sublist (m.vec k))
    (fun x h hx hh => ⟨fun k hk => ?_, fits_of_ready hr hc (Or.inl rfl) hh hx⟩)
    (fun h hh => ?_) fun k hk => ?_).2⟩
  · obtain ⟨-, -, h1, h2, -⟩ := hsolo k hk
    exact (kickRound_shrinks hc .trioSolo x (hm.type_eq (by decide) hh) ⟨h1, h2⟩).1.trans (hx k hk)
  · rwa [hvec _ (by decide), htrio] at hh
  · rw [hvec k (hsolo k hk).2.2.2.2.1]
    exact hleft k hk

end Ready

/-- What the level's splitters hand over: every hand in its place, and the
kickers fit. -/
theorem splitInto_ready {p : Points} (hp : LegalCounts p) (x : Splitter) :
    (splitInto x p false).Typed ∧ KickReady (splitInto x p false) := by
  refine ⟨fun t h hh => ?_, splitInto_kickReady hp x⟩
  rcases mem_splitInto hp x false hh with ⟨-, ht⟩ | ⟨rfl, rfl, -⟩
  · exact ht
  · exact Or.inl rfl

/-- On a split of a legal holding the high pair is all that can go wrong. -/
theorem summary_of_split_iff {p : Points} (hp : LegalCounts p) (x : Splitter) {c : HighCounts}
    (hc : c.Nonneg) :
    ((s.getHandsMapSummaryLvl (splitInto x p false)
          (s.countHighHand (splitInto x p false) c)).1.sum = (splitInto x p false).sum ∧
        (s.getHandsMapSummaryLvl (splitInto x p false)
          (s.countHighHand (splitInto x p false) c)).1.Typed) ↔
      ¬s.BreaksPair (triosKicked (splitInto x p false)
          (s.countHighHand (splitInto x p false) c)).1
        (s.recounted (splitInto x p false) (s.countHighHand (splitInto x p false) c)) := by
  obtain ⟨hty, hr⟩ := splitInto_ready hp x
  have hc' := s.countHighHand_nonneg hc (splitInto x p false)
  rw [getHandsMapSummaryLvl_keeps_iff s hty hc']
  exact and_iff_right (kicksFit_of_ready hr hty hc')

/-! ## A high pair and two low solos -/

/-- A three, a five and two queens. -/
def threeFiveQueens : Points := Points.ofList [1, 0, 1, 0, 0, 0, 0, 0, 0, 2]

theorem legalHolding_threeFiveQueens : LegalHolding threeFiveQueens :=
  legalHolding_ofList (by decide) (by decide) (by decide)

/-- A farmer with these cards; the lord holds one jack. -/
def farmerBeforeJack : AI :=
  { level := 2
    aiSeat := 0
    lordSeat := 1
    downSeat := 1
    upSeat := 2
    aiPosition := .upFarmer
    playerInfo := fun seat =>
      if seat = 0 then ⟨threeFiveQueens, 4⟩
      else if seat = 1 then ⟨Points.ofList [0, 0, 0, 0, 0, 0, 0, 0, 1], 1⟩
      else ⟨Points.zero, 0⟩ }

theorem getHandsMapSummaryLvl_conserves_iff_queens :
    ((farmerBeforeJack.getHandsMapSummaryLvl (splitInto .kind4 threeFiveQueens false)
          (farmerBeforeJack.countHighHand (splitInto .kind4 threeFiveQueens false) {})).1.sum
          = (splitInto .kind4 threeFiveQueens false).sum ∧
        (farmerBeforeJack.getHandsMapSummaryLvl (splitInto .kind4 threeFiveQueens false)
          (farmerBeforeJack.countHighHand (splitInto .kind4 threeFiveQueens false) {})).1.Typed) ↔
      KicksFit (splitInto .kind4 threeFiveQueens false)
          (farmerBeforeJack.countHighHand (splitInto .kind4 threeFiveQueens false) {}) ∧
        ¬farmerBeforeJack.BreaksPair
          (triosKicked (splitInto .kind4 threeFiveQueens false)
            (farmerBeforeJack.countHighHand (splitInto .kind4 threeFiveQueens false) {})).1
          (farmerBeforeJack.recounted (splitInto .kind4 threeFiveQueens false)
            (farmerBeforeJack.countHighHand (splitInto .kind4 threeFiveQueens false) {})) :=
  getHandsMapSummaryLvl_conserves_iff farmerBeforeJack
    (splitInto_ready legalHolding_threeFiveQueens.toLegalCounts .kind4).1 HighCounts.nonneg_empty

/-- The summary of an exact partition has three queens where two were held, and
the third is a solo among the pairs. -/
theorem getHandsMapSummaryLvl_third_queen :
    LegalHolding threeFiveQueens ∧ (splitInto .kind4 threeFiveQueens false).Typed ∧
      (splitInto .kind4 threeFiveQueens false).sum = threeFiveQueens ∧ threeFiveQueens 9 = 2 ∧
      (farmerBeforeJack.getHandsMapSummaryLvl (splitInto .kind4 threeFiveQueens false)
        (farmerBeforeJack.countHighHand (splitInto .kind4 threeFiveQueens false) {})).1.sum 9 = 3 ∧
      ⟨.solo, 9, 1, []⟩ ∈ (farmerBeforeJack.getHandsMapSummaryLvl
        (splitInto .kind4 threeFiveQueens false) (farmerBeforeJack.countHighHand
          (splitInto .kind4 threeFiveQueens false) {})).1.vec .pair :=
  ⟨legalHolding_threeFiveQueens,
    (splitInto_ready legalHolding_threeFiveQueens.toLegalCounts .kind4).1,
    funext (sum_splitCardsToHandsKind4 legalHolding_threeFiveQueens.toLegalCounts false), rfl,
    by decide +kernel, by decide +kernel⟩

end AI

end RobotDdz
