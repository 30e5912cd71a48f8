import RobotDdz.AI.Above
import RobotDdz.AI.LevelZero
import RobotDdz.AI.LvlMap
import RobotDdz.AI.Refind

/-!
# The turns from level 1 on

Which states the strategies of the higher levels can cope with. A turn goes
wrong when a strategy asks for several ranks and only some of these cards are
there, or the cards are no hand (`turnContract_pick_iff`): what has been taken
out is gone then. The strategies choose from hands of one rank, which do no
harm, from the map they have sorted the cards into, from that of
`sortHandsLordOnly1Card`, from the hands found above the one on the table, and
the four with two solos that the lord builds; at level 1 a trio is looked at a
second time.

`TurnFits` has what each of these sources relies on, in the state the
strategies start from (`sortedTurn`). `allows_of_plays` gathers the sources,
`takes_secondLook` is the second look, and `turnContract_of_fits` is the
contract for both levels.

The state is the one before the turn, and each field of `TurnFits` is a
condition on it alone: on the robot's counts, on the hand on the table, on the
map that the sorting makes of the cards, never on the hand that is picked.

Mirroring notes vs `OGLordRobotAI.cpp`:
- `takeOutLvl1` ends with the second look at a trio; the levels above have
  none.
- Level 1 sorts with the kickers on, and the levels above without. So the
  kickers of the latter are those that `getHandsMapSummaryLvl` hangs on.
-/

namespace RobotDdz

namespace AI

section Contract

variable (u : Undef) (s : AI)

/-- The state in which the strategies of the higher levels make their choice. -/
def sortedTurn : AI :=
  if s.level = 1 then s.updateControl.sortHandMap u else s.updateControl.sortHandMapLvl

/-- The hands a strategy finds, rather than makes up by rank. -/
def Offers (hand : Hand) : Prop :=
  (∃ t, hand ∈ s.vec t) ∨ (∃ t, hand ∈ (s.sortLordOnly1Card u).vec t) ∨
    s.Follows ∧ s.Found u hand

/-- What the strategies rely on in the state `s` before the turn. -/
structure TurnFits : Prop where
  /-- No splitter loses the ranks of a chain of single cards. -/
  long : ∀ x, ¬OverLong x s.aiPoints
  /-- What is held above the hand on the table gets the kickers it needs. -/
  higher : s.Follows → (s.sortedTurn u).HigherFits u
  /-- A lord who leads builds his four from a bomb and not from the rocket. -/
  four : s.aiPosition = .lord → (s.curHandSeat = -1 ∨ s.curHandSeat = s.lordSeat) →
    ∀ hand, (s.sortedTurn u).LordFour hand →
      (vecAt u ((s.sortedTurn u).vec .bomb) 0).keyPoint < blackJoker
  /-- At level 1 the split of the rest keeps off a chain that is looked at twice. -/
  chains : s.level = 1 → ∀ hand, (s.sortedTurn u).Offers u hand → hand.type = .trioChainSolo →
    (s.sortedTurn u).SplitApart u hand
  /-- Above level 1 no counter has become negative. -/
  counts : s.level ≠ 1 → s.counts.Nonneg
  /-- Nor do the kickers of the first split stop fitting where it is kept. -/
  last : s.level ≠ 1 → ¬s.updateControl.TakesSecond → ¬s.updateControl.TakesThird →
    s.updateControl.KickersLast

end Contract

/-! ## The sources -/

section Sources

variable {u : Undef} {s : AI} (hp : LegalCounts s.aiPoints)
  (hmap : PlaysFrom s.aiPoints s.handsMap)
  (hone : PlaysFrom s.aiPoints (s.sortLordOnly1Card u).handsMap)

include hmap hone

/-- A property of hands of one rank and of held hands is one of all a strategy
chooses from. A held chain with solos has been found somewhere. -/
theorem allows_of_plays {Q : Hand → Prop}
    (hfound : s.Follows → ∀ hand, s.Found u hand →
      hand.type ∈ HandType.plain ∨ hand.Held s.aiPoints)
    (hplain : ∀ hand, hand.type ∈ HandType.plain → Q hand)
    (hheld : ∀ hand, hand.Held s.aiPoints → (hand.type = .trioChainSolo → s.Offers u hand) →
      Q hand) :
    s.Allows u Q := by
  refine ⟨hplain, fun t hand hh => hheld hand (hmap.held t hand hh) fun _ => .inl ⟨t, hh⟩,
    fun t hand hh => hheld hand (hone.held t hand hh) fun _ => .inr (.inl ⟨t, hh⟩),
    fun hf hand hh => ?_, fun htwo hand four hfour => ?_⟩
  · rcases hfound hf hand hh with hrank | hwhole
    · exact hplain hand hrank
    · exact hheld hand hwhole fun _ => .inr (.inr ⟨hf, hh⟩)
  · unfold fourWithSolos at hfour
    split at hfour
    · cases hfour
    next bomb bombs hbombs =>
      split at hfour
      next hkey =>
        cases hfour
        have hb : bomb ∈ (s.sortLordOnly1Card u).handsMap.vec .bomb := by
          change (s.sortLordOnly1Card u).handsMap.vec .bomb = _ at hbombs
          rw [hbombs]
          exact List.mem_cons_self
        exact hheld _ (hone.four hb hkey htwo hand) HandType.noConfusion
      · cases hfour

end Sources

/-! ## The second look -/

/-- The last part of `takeOutLvl1`. -/
def secondLook (u : Undef) (s : AI) (hand : Hand) : Hand :=
  if hand.type ∈ refoundTypes then refindForTrio u s hand else hand

theorem refindForTrio_type (u : Undef) (s : AI) (hand : Hand) :
    (refindForTrio u s hand).type = hand.type := by
  unfold refindForTrio
  exact (apply_ite Hand.type _ _ _).trans (ite_self _)

/-- It looks neither at the map nor at the summary. -/
theorem refindForTrio_sorted (u : Undef) (s : AI) (hand : Hand) :
    refindForTrio u (s.sortLordOnly1Card u) hand = refindForTrio u s hand := by
  obtain ⟨m, summary, heq, -⟩ := sortLordOnly1Card_eq u s
  rw [heq]
  rfl

section SecondLook

variable {u : Undef} {s : AI} {hand : Hand} (hp : LegalCounts s.aiPoints)

include hp

/-- A trio or chain that is held is held after the second look, or its only
kicker has been written over its body and is a solo. Chains with solos have
more kickers than one. -/
theorem takes_refindForTrio (hh : hand.Held s.aiPoints) (ht : hand.type ∈ refoundTypes)
    (hapart : hand.type = .trioChainSolo → s.SplitApart u hand) :
    Takes s.aiPoints (refindForTrio u s hand) := by
  have hc := hh.toComplete
  have hclear : (∀ r ∈ s.refoundKickers u hand,
      r < s.refoundKey u hand ∨ s.refoundKey u hand + hand.width ≤ r) →
      Takes s.aiPoints (refindForTrio u s hand) := fun h =>
    Hand.Held.takes ⟨refindForTrio_complete hp hh.held ht hc h,
      refindForTrio_held hp hh.held ht hc⟩
  have hoff : s.SplitApart u hand → Takes s.aiPoints (refindForTrio u s hand) := fun h =>
    hclear fun r hr => kickerPool_off_body hp hh.held ht hc h
      ((refoundKickers_spec hp hh.held ht hc).2.1 r hr)
  -- a pair beside a trio of its rank would be five cards
  have hpairs : hand.type.kickMult = 2 → Takes s.aiPoints (refindForTrio u s hand) := fun htwo =>
    hoff (splitApart_of_few hp hh.held ht hc fun r hone => by rw [htwo] at hone; cases hone)
  rcases refoundTypes_cases ht with h | h | h | h | h
  · refine takes_plain hp ?_
    rw [refindForTrio_type, h]
    decide
  · by_cases hfit : ∀ r ∈ s.refoundKickers u hand,
        r < s.refoundKey u hand ∨ s.refoundKey u hand + hand.width ≤ r
    · exact hclear hfit
    -- the kicker is on the body: a single card of that rank is asked for
    have hlen := (refoundKickers_spec (u := u) hp hh.held ht hc).1
    have hle := refindForTrio_le (u := u) hp hh.held ht hc
    have hw : hand.width = 1 := by rw [width_refound ht, h]; rfl
    have hcount : hand.kickerCount = 1 := by unfold Hand.kickerCount; rw [h]
    rw [hcount] at hlen
    obtain ⟨k, hk⟩ := List.length_eq_one_iff.mp hlen
    rw [hk, hw] at hfit hle
    have hkey : k = s.refoundKey u hand := by
      by_contra hne
      refine hfit fun r hr => ?_
      rw [List.mem_singleton.mp hr]
      omega
    refine takes_of_rank hp (r := k) fun i hi => ?_
    have hzero : handToPointsArray (refindForTrio u s hand) i = 0 := by
      have hbound := hle i
      rw [if_neg (by omega), if_neg (by rwa [List.mem_singleton])] at hbound
      exact Int.le_antisymm hbound (handToPointsArray_nonneg _ i)
    unfold heldPart
    rw [hzero]
    exact min_eq_left (hp.nonneg i)
  · exact hpairs (by rw [h]; rfl)
  · exact hoff (hapart h)
  · exact hpairs (by rw [h]; rfl)

theorem takes_secondLook_plain (ht : hand.type ∈ HandType.plain) :
    Takes s.aiPoints (secondLook u s hand) := by
  refine takes_plain hp ?_
  unfold secondLook
  split
  · rw [refindForTrio_type]
    exact ht
  · exact ht

theorem takes_secondLook (hh : hand.Held s.aiPoints)
    (hapart : hand.type = .trioChainSolo → s.SplitApart u hand) :
    Takes s.aiPoints (secondLook u s hand) := by
  unfold secondLook
  split
  next ht => exact takes_refindForTrio hp hh ht hapart
  next => exact hh.takes

end SecondLook

/-! ## The maps -/

section Maps

variable {u : Undef} {s : AI} (hp : LegalHolding s.aiPoints) (hlong : ∀ x, ¬OverLong x s.aiPoints)
  {r : Nat} (hr : 0 < s.aiPoints r)

include hp hlong hr

theorem sortHandMap_plays : PlaysFrom s.aiPoints (s.sortHandMap u).handsMap := by
  obtain ⟨k, hvec⟩ := sortHandMap_vec u s
  exact (splitInto_playsFrom hp (.kind k) true (hlong _) hr).congr hvec

theorem sortLordOnly1Card_plays : PlaysFrom s.aiPoints (s.sortLordOnly1Card u).handsMap := by
  unfold sortLordOnly1Card
  dsimp only
  rcases sortHandsLordOnly1Card_vec u s.aiPoints s.lowestControl s.maxOppNumber s.otherPoints true
    with hvec | hvec
  · exact (splitInto_playsFrom hp .kind4 true (hlong _) hr).congr hvec
  · exact (splitInto_playsFrom hp .kind5 true (hlong _) hr).congr hvec

theorem sortHandMapLvl_plays (hc : s.counts.Nonneg)
    (hlast : ¬s.TakesSecond → ¬s.TakesThird → s.KickersLast) :
    PlaysFrom s.aiPoints s.sortHandMapLvl.handsMap := by
  rw [sortHandMapLvl_eq]
  exact leftMap_playsFrom hp hlong hr hc hlast

end Maps

/-! ## A turn -/

section Turns

variable {u : Undef} {s : AI}

theorem keeps_sortedTurn (u : Undef) (s : AI) : Keeps True s (s.sortedTurn u) := by
  unfold sortedTurn
  split
  · exact s.keeps_updateControl.trans (s.updateControl.keeps_sortHandMap u)
  · exact s.keeps_updateControl.trans s.updateControl.keeps_sortHandMapLvl

theorem follows_sortedTurn : (s.sortedTurn u).Follows ↔ s.Follows := by
  have hkeeps := keeps_sortedTurn u s
  have hlord : (s.sortedTurn u).lordSeat = s.lordSeat :=
    eq_of_known (hkeeps.known trivial) AI.lordSeat
  unfold Follows
  rw [hkeeps.aiPosition, hkeeps.curHandSeat, hlord, hkeeps.isFree]

/-- A pick that takes out a hand or nothing is playable, with a map to fall
back on. -/
theorem pickPlayable_of_takes {t : AI} {hand : Hand} {p : Points}
    (hp : cardVecToPointArr t.aiCardsVec = p) (hmap : PlaysFrom p t.handsMap)
    (htakes : Takes p hand) : t.PickPlayable hand := by
  rw [← hp] at hmap htakes
  rcases htakes with hrec | hzero
  · exact .inl hrec
  · have hclear : hand.clear.type = .nothing := rfl
    exact .inr ⟨hzero, fun _ => (hmap.lowest hclear).recognised⟩

/-- What the strategies choose from in the state `t`. -/
structure Chooses (u : Undef) (t : AI) (Q : Hand → Prop) : Prop where
  allows : t.Allows u Q
  four : t.aiPosition = .lord → (t.curHandSeat = -1 ∨ t.curHandSeat = t.lordSeat) →
    ∀ hand, t.LordFour hand → Q (t.lordFour u hand)
  map : PlaysFrom t.aiPoints t.handsMap
  oneCard : PlaysFrom t.aiPoints (t.sortLordOnly1Card u).handsMap

/-- In a fitting state a property of hands of one rank and of held hands is one
of all they choose from. -/
theorem chooses_of_fits (hs : TurnState s) (hcards : s.aiCardsVec ≠ [])
    (hcur : s.Follows → PlayedHand s.curHand) (hfit : s.TurnFits u) {Q : Hand → Prop}
    (hplain : ∀ hand, hand.type ∈ HandType.plain → Q hand)
    (hheld : ∀ hand, hand.Held s.aiPoints →
      (hand.type = .trioChainSolo → (s.sortedTurn u).Offers u hand) → Q hand) :
    Chooses u (s.sortedTurn u) Q := by
  have hkeeps := keeps_sortedTurn u s
  have hpoints := hkeeps.aiPoints trivial
  have hlord : (s.sortedTurn u).lordSeat = s.lordSeat :=
    eq_of_known (hkeeps.known trivial) AI.lordSeat
  have hholding := hs.legalHolding
  rw [← hs.points] at hholding
  obtain ⟨r, hr⟩ : ∃ r, 0 < s.aiPoints r := by
    rw [hs.points]
    exact hs.exists_held hcards
  have hmap : PlaysFrom s.aiPoints (s.sortedTurn u).handsMap := by
    unfold sortedTurn
    have hsame : s.updateControl.aiPoints = s.aiPoints := rfl
    split
    next => exact hsame ▸ sortHandMap_plays (u := u) (s := s.updateControl) hholding hfit.long hr
    next hl =>
      exact hsame ▸ sortHandMapLvl_plays (s := s.updateControl) hholding hfit.long hr
        (hfit.counts hl) (hfit.last hl)
  have hone : PlaysFrom s.aiPoints ((s.sortedTurn u).sortLordOnly1Card u).handsMap := by
    have hplays := sortLordOnly1Card_plays (u := u) (s := s.sortedTurn u)
    rw [hpoints] at hplays
    exact hplays hholding hfit.long hr
  rw [← hpoints] at hmap hone hheld hholding
  refine ⟨allows_of_plays hmap hone (fun hf hand hh => ?_) hplain hheld,
    fun hpos hlead hand hl => ?_, hmap, hone⟩
  · have hbody := (hcur (follows_sortedTurn.mp hf)).bodyOk
    rw [← hkeeps.curHand] at hbody
    have hhigher := hfit.higher (follows_sortedTurn.mp hf)
    exact (found_playable hholding.toLegalCounts hbody hhigher hh).playable
  · rw [hkeeps.aiPosition] at hpos
    rw [hkeeps.curHandSeat, hlord] at hlead
    have hkey := hfit.four hpos hlead hand hl
    have hb : vecAt u ((s.sortedTurn u).vec .bomb) 0 ∈ (s.sortedTurn u).handsMap.vec .bomb :=
      vecAt_mem hl.2.2.2
    have htwo : 2 ≤ ((s.sortedTurn u).vec .solo).length := by
      rcases hl.2.1 with h | h <;> omega
    exact hheld _ (hmap.four hb hkey htwo _) fun ht => HandType.noConfusion ht

/-- The hand and the map a strategy of level 1 ends with, after the second
look. -/
theorem takeOutLvl1_eq (hl : s.level = 1) : s.takeOutByLevel u
    = (((s.sortedTurn u).strategyLvl1 u u.hand).1,
      secondLook u ((s.sortedTurn u).strategyLvl1 u u.hand).1
        ((s.sortedTurn u).strategyLvl1 u u.hand).2) := by
  have hstart : s.sortedTurn u = s.updateControl.sortHandMap u := if_pos hl
  have hlevel : s.updateControl.level = 1 := hl
  have hturn : s.takeOutByLevel u = s.updateControl.takeOutLvl1 u u.hand := by
    unfold takeOutByLevel
    dsimp only
    rw [if_neg (by rw [hlevel]; decide), if_pos hlevel]
  rw [hturn, hstart]
  unfold takeOutLvl1 secondLook
  dsimp only
  generalize (s.updateControl.sortHandMap u).strategyLvl1 u u.hand = r
  have hmem : (r.2.type = .trio ∨ r.2.type = .trioSolo ∨ r.2.type = .trioPair
      ∨ r.2.type = .trioChainSolo ∨ r.2.type = .trioChainPair) ↔ r.2.type ∈ refoundTypes := by
    simp only [refoundTypes, HandType.trioKicked, List.mem_cons, List.not_mem_nil, or_false]
  by_cases ht : r.2.type ∈ refoundTypes
  · rw [if_pos (hmem.mpr ht), if_pos ht]
  · rw [if_neg (mt hmem.mp ht), if_neg ht]

/-- The hand and the map of the levels above. -/
theorem takeOutHighLvl_eq (h0 : s.level ≠ 0) (h1 : s.level ≠ 1) : s.takeOutByLevel u
    = if (s.sortedTurn u).aiPosition = .lord then
        if (s.sortedTurn u).curHandSeat = -1
            ∨ (s.sortedTurn u).curHandSeat = (s.sortedTurn u).lordSeat then
          (s.sortedTurn u).lordTakeOutFreeLvl u u.hand
        else (s.sortedTurn u, (s.sortedTurn u).lordTakeOutHigher u u.hand)
      else (s.sortedTurn u).farmerTakeOut u u.hand := by
  have hstart : s.sortedTurn u = s.updateControl.sortHandMapLvl := if_neg h1
  have h0' : ¬s.updateControl.level = 0 := h0
  have h1' : ¬s.updateControl.level = 1 := h1
  unfold takeOutByLevel
  dsimp only
  rw [if_neg h0', if_neg h1', hstart]
  rfl

/-- The strategies of level 1. As the lord the pick is one the map allows; as a
farmer a trio among the picks is looked at once more, and it comes from a
branch that leaves the robot as it was or sorts the map anew. -/
theorem pickPlayable_takeOutLvl1 (hs : TurnState s) (hcards : s.aiCardsVec ≠ [])
    (hcur : s.Follows → PlayedHand s.curHand) (hfit : s.TurnFits u) (hl : s.level = 1) :
    (s.takeOutByLevel u).1.PickPlayable (s.takeOutByLevel u).2 := by
  have hkeeps := keeps_sortedTurn u s
  have hpoints := hkeeps.aiPoints trivial
  have hp := hs.legalHolding.toLegalCounts
  rw [← hs.points, ← hpoints] at hp
  have hc := chooses_of_fits hs hcards hcur hfit
    (Q := fun hand => Takes (s.sortedTurn u).aiPoints (secondLook u (s.sortedTurn u) hand))
    (fun hand ht => takes_secondLook_plain hp ht)
    (fun hand hh hoffers => takes_secondLook hp (by rwa [hpoints])
      fun ht => hfit.chains hl hand (hoffers ht) ht)
  have hcounts : cardVecToPointArr (s.takeOutByLevel u).1.aiCardsVec
      = (s.sortedTurn u).aiPoints := by
    rw [(s.sameTurn_takeOutByLevel u).aiCardsVec, hpoints, hs.points]
  rw [takeOutLvl1_eq hl] at hcounts ⊢
  unfold strategyLvl1 at hcounts ⊢
  by_cases hpos : (s.sortedTurn u).aiPosition = .lord
  · rw [if_pos hpos] at hcounts ⊢
    refine pickPlayable_of_takes hcounts hc.map ?_
    dsimp only
    split
    next hlead =>
      exact hc.allows.lordTakeOutFree (hc.four hpos hlead)
        (fun t _ hh => hc.map.type_ne_nothing t hh) hc.map.nonempty _
    next hlead =>
      refine hc.allows.lordTakeOutHigher ?_ _
      unfold Follows
      rwa [if_pos hpos]
  · rw [if_neg hpos] at hcounts ⊢
    have hpick := hc.allows.farmerTakeOut hpos u.hand
    obtain ⟨hhand, hmap, hsame⟩ := hpick
    generalize (s.sortedTurn u).farmerTakeOut u u.hand = r at hcounts hhand hmap hsame ⊢
    refine pickPlayable_of_takes hcounts ?_ ?_
    · rcases hmap with heq | heq
      · rw [heq]
        exact hc.map
      · rw [heq]
        exact hc.oneCard
    · -- a trio comes from a branch that leaves the robot as it was, or sorts the map anew
      by_cases ht : r.2.type ∈ refoundTypes
      · have hlook : secondLook u r.1 r.2 = secondLook u (s.sortedTurn u) r.2 := by
          have hnot : ∀ t ∈ refoundTypes, t ∉ [HandType.solo, .bomb, .nuke] := by decide
          unfold secondLook
          rw [if_pos ht, if_pos ht]
          rcases hsame (hnot _ ht) with heq | heq
          · rw [heq]
          · rw [heq, refindForTrio_sorted]
        rw [hlook]
        exact hhand
      · unfold secondLook at hhand ⊢
        rw [if_neg ht] at hhand ⊢
        exact hhand

/-- The strategies of the levels above: the picks of the lord and of the
farmers are allowed by the map of the turn, or by that for a lord with one
card, where a farmer's strategy has made it. -/
theorem pickPlayable_takeOutHighLvl (hs : TurnState s) (hcards : s.aiCardsVec ≠ [])
    (hcur : s.Follows → PlayedHand s.curHand) (hfit : s.TurnFits u) (h0 : s.level ≠ 0)
    (h1 : s.level ≠ 1) : (s.takeOutByLevel u).1.PickPlayable (s.takeOutByLevel u).2 := by
  have hkeeps := keeps_sortedTurn u s
  have hpoints := hkeeps.aiPoints trivial
  have hp := hs.legalHolding.toLegalCounts
  rw [← hs.points, ← hpoints] at hp
  have hc := chooses_of_fits hs hcards hcur hfit
    (Q := fun hand => Takes (s.sortedTurn u).aiPoints hand)
    (fun hand ht => takes_plain hp ht) (fun hand hh _ => (hpoints ▸ hh).takes)
  have hcounts : cardVecToPointArr (s.takeOutByLevel u).1.aiCardsVec
      = (s.sortedTurn u).aiPoints := by
    rw [(s.sameTurn_takeOutByLevel u).aiCardsVec, hpoints, hs.points]
  rw [takeOutHighLvl_eq h0 h1] at hcounts ⊢
  by_cases hpos : (s.sortedTurn u).aiPosition = .lord
  · rw [if_pos hpos] at hcounts ⊢
    split at hcounts
    next hlead =>
      rw [if_pos hlead]
      obtain ⟨hhand, hmap⟩ := hc.allows.lordTakeOutFreeLvl (hc.four hpos hlead)
        (fun t _ hh => hc.map.type_ne_nothing t hh) hc.map.nonempty u.hand
      exact pickPlayable_of_takes hcounts (hmap ▸ hc.map) hhand
    next hlead =>
      rw [if_neg hlead]
      refine pickPlayable_of_takes hcounts hc.map (hc.allows.lordTakeOutHigher ?_ _)
      unfold Follows
      rwa [if_pos hpos]
  · rw [if_neg hpos] at hcounts ⊢
    obtain ⟨hhand, hmap, -⟩ := hc.allows.farmerTakeOut hpos u.hand
    refine pickPlayable_of_takes hcounts ?_ hhand
    rcases hmap with heq | heq
    · rw [heq]
      exact hc.map
    · rw [heq]
      exact hc.oneCard

/-- What a turn at level 1 or above picks. -/
theorem pickPlayable_of_fits (u : Undef) {s : AI} (hs : TurnState s) (hl : s.level ≠ 0)
    (hcur : s.Follows → PlayedHand s.curHand) (hfit : s.TurnFits u) (hcards : s.aiCardsVec ≠ []) :
    (s.takeOutByLevel u).1.PickPlayable (s.takeOutByLevel u).2 := by
  by_cases h1 : s.level = 1
  · exact pickPlayable_takeOutLvl1 hs hcards hcur hfit h1
  · exact pickPlayable_takeOutHighLvl hs hcards hcur hfit hl h1

end Turns

end AI

end RobotDdz
