import RobotDdz.AI.Lvl

/-!
# The class of a charge hand

A lord who can charge leads a hand of the first class that is counted: a good
low hand, a high one or one that nobody can beat. `findChargeHandFirstLvl`
means to let a reference name the counters of that class. The assignments go
through the reference into `goodLowHandCount`, so a class other than the first
overwrites the counters of the first (`charges_by_class_iff`), and its search
is the one for good low hands.

Mirroring notes vs `OGLordRobotAI.cpp`:
- `map<HandType, int> &searchMap = goodLowHandCount` is followed by `searchMap
  = highHandCount` and `searchMap = uniHighHandCount`. A reference cannot be
  made to name another map, so these copy the maps.
- `charge` is -1 where no hand of any class is counted, and 0, 1 or 2 by the
  class.
- The loop that picks the type sets `charge` to 0 for every type with a count,
  so the hand is looked for as a good low one whatever the class.
-/

namespace RobotDdz

/-- What `charge` stands for. -/
inductive ChargeClass where
  | goodLow | high | uniHigh
deriving DecidableEq, Repr

namespace AI

section ChargeClass

variable (u : Undef) (s : AI)

/-- The first class with a hand. -/
def chargeClass : Option ChargeClass :=
  if 0 < addAllValue s.goodLowHandCount then some .goodLow
  else if 0 < addAllValue s.highHandCount then some .high
  else if 0 < addAllValue s.uniHighHandCount then some .uniHigh
  else none

/-- The opponents' highest key of a type, and for chains of a length. -/
def oppHighest (t : HandType) (len : Nat) : Int :=
  if isChain t then s.findOppHighestChain t len else s.findOppHighestPoint t

/-- The type picked for the class and the hand of it that is returned. -/
def chargeFound (typeCountFirst : Bool) : Option (HandType × Hand) :=
  (s.searchMap.bind fun counts => s.chargeType counts typeCountFirst).bind fun t =>
    (s.chargeOfType t).map fun h => (t, h)

/-- What `findChargeHandFirstLvl` is to do: it leaves the counters alone, and
the hand it returns for a class is one of it. -/
structure ChargesByClass (hand : Hand) (typeCountFirst : Bool) : Prop where
  goodLow : (s.findChargeHandFirstLvl u hand typeCountFirst).1.goodLowHandCount
    = s.goodLowHandCount
  high : (s.findChargeHandFirstLvl u hand typeCountFirst).1.highHandCount = s.highHandCount
  uniHigh : (s.findChargeHandFirstLvl u hand typeCountFirst).1.uniHighHandCount
    = s.uniHighHandCount
  highKey : s.chargeClass = some .high → ∀ t h, s.chargeFound typeCountFirst = some (t, h) →
    (h.keyPoint : Int) = s.oppHighest t h.len
  uniHighKey : s.chargeClass = some .uniHigh → ∀ t h, s.chargeFound typeCountFirst = some (t, h) →
    s.oppHighest t h.len < h.keyPoint

variable {s}

/-- The state after the call: only `goodLowHandCount` may have changed. -/
theorem findChargeHandFirstLvl_state (hand : Hand) (typeCountFirst : Bool) :
    (s.findChargeHandFirstLvl u hand typeCountFirst).1
      = { s with goodLowHandCount := s.searchMap.getD s.goodLowHandCount } := by
  unfold findChargeHandFirstLvl
  dsimp only
  split
  · rfl
  · rfl

/-- The counters stay as they are and the hand is of its class just when a good
low hand is counted or no hand at all: in the other classes the counters of the
good low hands become those of the class. -/
theorem charges_by_class_iff (s : AI) (hand : Hand) (typeCountFirst : Bool) :
    ChargesByClass u s.sortHandMapLvl hand typeCountFirst ↔
      0 < addAllValue s.sortHandMapLvl.goodLowHandCount ∨
        addAllValue s.sortHandMapLvl.highHandCount ≤ 0 ∧
          addAllValue s.sortHandMapLvl.uniHighHandCount ≤ 0 := by
  generalize s.sortHandMapLvl = s
  constructor
  · intro h
    have hkept : s.searchMap.getD s.goodLowHandCount = s.goodLowHandCount := by
      have := h.goodLow
      rw [findChargeHandFirstLvl_state] at this
      exact this
    by_contra hnot
    rw [not_or, not_and_or] at hnot
    unfold searchMap at hkept
    rw [if_neg hnot.1] at hkept
    -- the class selected has a positive sum, and the sum of the good low hands is none
    split_ifs at hkept with hhigh huni
    · exact hnot.1 (hkept ▸ hhigh)
    · exact hnot.1 (hkept ▸ huni)
    · omega
  · intro hcond
    have hmap : s.searchMap.getD s.goodLowHandCount = s.goodLowHandCount := by
      unfold searchMap
      split_ifs with hlow hhigh huni
      · rfl
      · omega
      · omega
      · rfl
    have hclass : s.chargeClass ≠ some .high ∧ s.chargeClass ≠ some .uniHigh := by
      unfold chargeClass
      split_ifs with hlow hhigh huni
      · exact ⟨by decide, by decide⟩
      · omega
      · omega
      · exact ⟨by decide, by decide⟩
    refine ⟨?_, ?_, ?_, fun h => absurd h hclass.1, fun h => absurd h hclass.2⟩
    · rw [findChargeHandFirstLvl_state]
      exact hmap
    · rw [findChargeHandFirstLvl_state]
    · rw [findChargeHandFirstLvl_state]

end ChargeClass

/-- A lord with a three and an ace against an ace and a four in each hand. -/
def lordWithThree : AI :=
  { level := 2
    aiSeat := 0
    lordSeat := 0
    downSeat := 1
    upSeat := 2
    aiPosition := .lord
    playerInfo := fun seat =>
      if seat = 0 then ⟨Points.ofList [1, 0, 0, 0, 0, 0, 0, 0, 0, 0, 0, 1], 2⟩
      else ⟨Points.ofList [0, 1, 0, 0, 0, 0, 0, 0, 0, 0, 0, 1], 2⟩ }

/-- The class is that of the ace, which nobody can beat with a solo. The lord
leads the three, and counts a good low solo from then on. -/
theorem lordWithThree_leads_low :
    (lordWithThree.sortHandMapLvl.chargeClass = some .high ∧
      (lordWithThree.sortHandMapLvl.lordTakeOutFreeNormalLvl .zero {}).2.keyPoint = card3 ∧
      (lordWithThree.sortHandMapLvl.chargeFound false).map (fun x => x.2.keyPoint) = some card3 ∧
      lordWithThree.sortHandMapLvl.oppHighest .solo 1 = cardA) ∧
    ¬ChargesByClass .zero lordWithThree.sortHandMapLvl {} false := by
  refine ⟨by decide +kernel, fun h => ?_⟩
  have hgood : lordWithThree.sortHandMapLvl.goodLowHandCount .solo ≠
      (lordWithThree.sortHandMapLvl.findChargeHandFirstLvl .zero {} false).1.goodLowHandCount
        .solo := by decide +kernel
  exact hgood (congrFun h.goodLow .solo).symm

end AI

end RobotDdz
