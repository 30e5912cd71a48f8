import RobotDdz.Lib.Loops
import RobotDdz.Cards.Points
import Mathlib.Data.List.GetD
import Mathlib.Data.Fintype.Defs

/-!
# Hands and their point arrays

`struct Hand` and the functions of `AIUtils` that read one hand:
`handToPointsArray`, `getHandCount`, `isChain`, `isHandHigherThan` and
`containsControl`.

A hand is a type, a key rank, a length for the chain types, and the kicker
slots. The source fills `kicker[0]`, `kicker[1]`, … in order and never skips a
slot, so the slots are the list of values written so far; its capacity of five
is a theorem about the hands the program builds, not a property of the type.
The fields `prob`, `laizi_num` and `m_vecReplaceCards` are read by nothing.

`handToPointsArray_apply` is the closed form all later modules use: `mult`
copies of a run of `width` ranks and `kickMult` copies of each kicker. It needs
the kickers to lie outside the run (`Hand.Placed`), since the source overwrites
`points[kicker[i]]` rather than adding to it.
-/

namespace RobotDdz

open Loops

/-- `enum HandType`, in the order `std::map` iterates over it. -/
inductive HandType where
  | nothing
  | trioChainPair
  | trioChainSolo
  | trioChain
  | pairChain
  | soloChain
  | trioPair
  | trioSolo
  | trio
  | pair
  | solo
  | fourDualPair
  | fourDualSolo
  | lzBomb
  | bomb
  | nuke
  | lz
deriving DecidableEq, Repr

namespace HandType

/-- All types in enumeration order. -/
def all : List HandType :=
  [.nothing, .trioChainPair, .trioChainSolo, .trioChain, .pairChain, .soloChain, .trioPair,
   .trioSolo, .trio, .pair, .solo, .fourDualPair, .fourDualSolo, .lzBomb, .bomb, .nuke, .lz]

theorem mem_all (t : HandType) : t ∈ all := by cases t <;> decide

instance : Fintype HandType := ⟨⟨(all : Multiset HandType), by decide⟩, mem_all⟩

/-- The `int` value of an enumerator, for `it->first < hType`. -/
def toNat (t : HandType) : Nat := all.idxOf t

end HandType

/-- `struct Hand`. -/
structure Hand where
  type : HandType := .nothing
  keyPoint : Nat := 0
  len : Nat := 0
  kicker : List Nat := []
deriving DecidableEq, Repr

namespace Hand

/-- `hand.kicker[i]`. -/
def kickerAt (h : Hand) (i : Nat) : Nat := h.kicker.getD i 0

/-- How many kicker slots a hand of this type uses. -/
def kickerCount (h : Hand) : Nat :=
  match h.type with
  | .trioSolo | .trioPair => 1
  | .fourDualSolo | .fourDualPair => 2
  | .trioChainSolo | .trioChainPair => h.len
  | _ => 0

/-- The kickers of a hand. -/
def kickers (h : Hand) : List Nat := h.kicker.take h.kickerCount

end Hand

/-- `isChain`. -/
def isChain (type : HandType) : Bool :=
  type == .soloChain || type == .pairChain || type == .trioChain
    || type == .trioChainSolo || type == .trioChainPair

/-- Copies of each rank of the body of a hand. -/
def HandType.mult : HandType → Int
  | .solo | .soloChain | .nuke => 1
  | .pair | .pairChain => 2
  | .trio | .trioSolo | .trioPair | .trioChain | .trioChainSolo | .trioChainPair => 3
  | .bomb | .fourDualSolo | .fourDualPair => 4
  | .nothing | .lzBomb | .lz => 0

/-- Copies of each kicker. -/
def HandType.kickMult : HandType → Int
  | .trioSolo | .trioChainSolo | .fourDualSolo => 1
  | .trioPair | .trioChainPair | .fourDualPair => 2
  | _ => 0

/-- The number of ranks in the body of a hand. -/
def Hand.width (h : Hand) : Nat :=
  match h.type with
  | .soloChain | .pairChain | .trioChain | .trioChainSolo | .trioChainPair => h.len
  | .nuke => 2
  | _ => 1

theorem Hand.width_of_isChain {h : Hand} (hc : isChain h.type = true) : h.width = h.len := by
  unfold Hand.width
  cases ht : h.type <;> first | rfl | (rw [ht] at hc; exact Bool.noConfusion hc)

/-- `handToPointsArray`. -/
def handToPointsArray (hand : Hand) : Points :=
  match hand.type with
  | .nuke => Function.update (Function.update Points.zero blackJoker 1) redJoker 1
  | .solo => Function.update Points.zero hand.keyPoint 1
  | .pair => Function.update Points.zero hand.keyPoint 2
  | .trio => Function.update Points.zero hand.keyPoint 3
  | .trioSolo => Function.update (Function.update Points.zero hand.keyPoint 3) (hand.kickerAt 0) 1
  | .trioPair => Function.update (Function.update Points.zero hand.keyPoint 3) (hand.kickerAt 0) 2
  | .bomb => Function.update Points.zero hand.keyPoint 4
  | .fourDualSolo => Function.update (Function.update (Function.update Points.zero hand.keyPoint 4)
      (hand.kickerAt 0) 1) (hand.kickerAt 1) 1
  | .fourDualPair => Function.update (Function.update (Function.update Points.zero hand.keyPoint 4)
      (hand.kickerAt 0) 2) (hand.kickerAt 1) 2
  | .soloChain =>
    forUp (fun i points => Function.update points (hand.keyPoint + i) 1) 0 hand.len Points.zero
  | .pairChain =>
    forUp (fun i points => Function.update points (hand.keyPoint + i) 2) 0 hand.len Points.zero
  | .trioChain =>
    forUp (fun i points => Function.update points (hand.keyPoint + i) 3) 0 hand.len Points.zero
  | .trioChainSolo =>
    forUp (fun i points => Function.update (Function.update points (hand.keyPoint + i) 3)
      (hand.kickerAt i) 1) 0 hand.len Points.zero
  | .trioChainPair =>
    forUp (fun i points => Function.update (Function.update points (hand.keyPoint + i) 3)
      (hand.kickerAt i) 2) 0 hand.len Points.zero
  | _ => Points.zero

/-- `getHandCount`, and `getCardNumber` with the same table. -/
def getHandCount (hand : Hand) : Nat :=
  match hand.type with
  | .solo => 1
  | .pair | .nuke => 2
  | .trio => 3
  | .bomb | .trioSolo => 4
  | .trioPair => 5
  | .fourDualSolo => 6
  | .fourDualPair => 8
  | .soloChain => hand.len
  | .pairChain => 2 * hand.len
  | .trioChain => 3 * hand.len
  | .trioChainSolo => 4 * hand.len
  | .trioChainPair => 5 * hand.len
  | _ => 0

/-- `isHandHigherThan`. -/
def isHandHigherThan (h0 h1 : Hand) : Bool :=
  if h1.type = .nuke then false
  else if h1.type = .bomb then
    h0.type = .nuke || (h0.type = .bomb && h1.keyPoint < h0.keyPoint)
  else if h0.type = .nuke || h0.type = .bomb then true
  else if h0.type = h1.type && h1.keyPoint < h0.keyPoint then
    if isChain h0.type then h0.len = h1.len else true
  else false

/-- `containsControl`: whether the hand uses a rank at or above
`lowestControl`. The chain tests read `keyPoint + len - 1 >= lowestControl`. -/
def containsControl (lowestControl : Nat) (hand : Hand) : Bool :=
  match hand.type with
  | .solo | .pair | .trio => lowestControl ≤ hand.keyPoint
  | .soloChain | .pairChain | .trioChain => lowestControl < hand.keyPoint + hand.len
  | .trioChainSolo | .trioChainPair =>
    lowestControl < hand.keyPoint + hand.len
      || (List.range hand.len).any fun i => lowestControl ≤ hand.kickerAt i
  | .trioSolo | .trioPair => lowestControl ≤ hand.keyPoint || lowestControl ≤ hand.kickerAt 0
  | _ => true

/-! ## The closed form of a hand's point array -/

/-- A loop that writes `v` to a run of ranks. -/
theorem forUp_update_run (key : Nat) (v : Int) (n : Nat) (c : Points) (r : Nat) :
    forUp (fun i points => Function.update points (key + i) v) 0 n c r
      = if key ≤ r ∧ r < key + n then v else c r := by
  have h := forUp_inv (b := fun i points => Function.update points (key + i) v)
    (fun i (points : Points) => ∀ r, points r = if key ≤ r ∧ r < key + i then v else c r)
    0 n (s := c) ?_ ?_
  · simpa using h r
  · intro i s _ _ hs r
    rw [Function.update_apply]
    by_cases hr : r = key + i
    · rw [if_pos hr, if_pos (by omega)]
    · rw [if_neg hr, hs r]
      by_cases hin : key ≤ r ∧ r < key + i
      · rw [if_pos hin, if_pos (by omega)]
      · rw [if_neg hin, if_neg (by omega)]
  · intro r
    rw [if_neg (by omega)]

/-- A loop that writes 3 to a run of ranks and `v` to one kicker a round, the
kickers lying outside the run. -/
theorem forUp_update_kicked (key : Nat) (v : Int) (kick : Nat → Nat) (n : Nat) (r : Nat)
    (hout : ∀ i, i < n → kick i < key ∨ key + n ≤ kick i) :
    forUp (fun i points => Function.update (Function.update points (key + i) 3) (kick i) v) 0 n
        Points.zero r
      = if key ≤ r ∧ r < key + n then 3 else if ∃ i, i < n ∧ kick i = r then v else 0 := by
  have h := forUp_inv
    (b := fun i points => Function.update (Function.update points (key + i) 3) (kick i) v)
    (fun i (points : Points) => i ≤ n → ∀ r, points r
      = if key ≤ r ∧ r < key + i then 3 else if ∃ j, j < i ∧ kick j = r then v else 0)
    0 n (s := Points.zero) ?_ ?_
  · simpa using h (by omega) r
  · intro i s _ hin hs hle r
    have hki := hout i (by omega)
    rw [Function.update_apply, Function.update_apply]
    by_cases hk : r = kick i
    · -- the kicker lies outside the whole run, so what it writes stays
      have hrun : ¬(key ≤ r ∧ r < key + (i + 1)) := by omega
      rw [if_pos hk, if_neg hrun, if_pos ⟨i, by omega, hk.symm⟩]
    · rw [if_neg hk]
      by_cases hr : r = key + i
      · rw [if_pos hr, if_pos (by omega)]
      · rw [if_neg hr, hs (by omega) r]
        have hiff : (∃ j, j < i ∧ kick j = r) ↔ ∃ j, j < i + 1 ∧ kick j = r := by
          constructor
          · intro hex
            obtain ⟨j, hj, he⟩ := hex
            exact ⟨j, by omega, he⟩
          · intro hex
            obtain ⟨j, hj, he⟩ := hex
            rcases Nat.lt_succ_iff_lt_or_eq.mp hj with hlt | rfl
            · exact ⟨j, hlt, he⟩
            · exact absurd he.symm hk
        by_cases hrun : key ≤ r ∧ r < key + i
        · rw [if_pos hrun, if_pos (by omega)]
        · have hrun' : ¬(key ≤ r ∧ r < key + (i + 1)) := by omega
          rw [if_neg hrun, if_neg hrun']
          simp only [hiff]
  · intro _ r
    rw [if_neg (by omega), if_neg (by simp)]
    rfl

/-- The closed form of `handToPointsArray`, as a condition on the hand: the
kicker slots in use are filled and lie outside the body, and a rocket is keyed
by the black joker. -/
structure Hand.Placed (h : Hand) : Prop where
  nuke : h.type = .nuke → h.keyPoint = blackJoker
  filled : h.kickerCount ≤ h.kicker.length
  outside : ∀ k ∈ h.kickers, k < h.keyPoint ∨ h.keyPoint + h.width ≤ k

/-- The kicker slots `0 .. n-1` are the first `n` kickers. -/
theorem exists_kickerAt_iff {h : Hand} {n : Nat} (hn : n ≤ h.kicker.length) (r : Nat) :
    (∃ i, i < n ∧ h.kickerAt i = r) ↔ r ∈ h.kicker.take n := by
  rw [List.mem_take_iff_getElem]
  constructor
  · intro hex
    obtain ⟨i, hi, he⟩ := hex
    refine ⟨i, by omega, ?_⟩
    rw [← he, Hand.kickerAt, List.getD_eq_getElem _ _ (by omega)]
  · intro hmem
    obtain ⟨i, hi, he⟩ := hmem
    refine ⟨i, by omega, ?_⟩
    rw [← he, Hand.kickerAt, List.getD_eq_getElem _ _ (by omega)]

theorem kickerAt_mem {h : Hand} (hf : h.kickerCount ≤ h.kicker.length) {i : Nat}
    (hi : i < h.kickerCount) : h.kickerAt i ∈ h.kickers :=
  (exists_kickerAt_iff hf _).mp ⟨i, hi, rfl⟩

/-- Every hand is `mult` copies of a run of ranks and `kickMult` copies of its
kickers. -/
theorem handToPointsArray_apply {h : Hand} (hp : h.Placed) (r : Nat) :
    handToPointsArray h r
      = if h.keyPoint ≤ r ∧ r < h.keyPoint + h.width then h.type.mult
        else if r ∈ h.kickers then h.type.kickMult else 0 := by
  obtain ⟨hnuke, hfilled, hout⟩ := hp
  have hmem := exists_kickerAt_iff hfilled r
  have hat : ∀ i, i < h.kickerCount →
      h.kickerAt i < h.keyPoint ∨ h.keyPoint + h.width ≤ h.kickerAt i :=
    fun i hi => hout _ (kickerAt_mem hfilled hi)
  unfold Hand.kickers
  rw [← if_congr hmem rfl rfl]
  clear hmem hfilled hout
  cases ht : h.type <;>
    simp only [handToPointsArray, ht, HandType.mult, HandType.kickMult, Hand.width,
      Hand.kickerCount, forUp_update_run, Function.update_apply, Points.zero_apply] at hat ⊢
  -- the two kicked chains write in a loop, the other types a fixed number of ranks
  case trioChainSolo => exact forUp_update_kicked _ _ _ _ _ (by simpa using hat)
  case trioChainPair => exact forUp_update_kicked _ _ _ _ _ (by simpa using hat)
  case nuke => rw [hnuke ht]; simp only [blackJoker, redJoker]; grind
  all_goals
    simp only [Nat.exists_lt_succ_right, Nat.forall_lt_succ_right, Nat.not_lt_zero, false_and,
      exists_false, false_or, false_imp_iff, implies_true, true_and] at hat ⊢
    grind

/-- No hand puts a negative count on a rank, whatever its fields are: every
write is of a positive number, type by type. -/
theorem handToPointsArray_nonneg (h : Hand) (r : Nat) : 0 ≤ handToPointsArray h r := by
  have hupd : ∀ (c : Points) (i : Nat) (v : Int), 0 ≤ v → (∀ r, 0 ≤ c r) →
      ∀ r, 0 ≤ Function.update c i v r := by
    intro c i v hv hc r
    rw [Function.update_apply]
    split
    · exact hv
    · exact hc r
  have hrun : ∀ (body : Nat → Points → Points) (n : Nat),
      (∀ i c, (∀ r, 0 ≤ c r) → ∀ r, 0 ≤ body i c r) → ∀ r, 0 ≤ forUp body 0 n Points.zero r := by
    intro body n hb
    exact forUp_inv (fun _ (c : Points) => ∀ r, 0 ≤ c r) 0 n (fun i c _ _ hc => hb i c hc)
      (fun _ => Int.le_refl _)
  have hz : ∀ r, 0 ≤ Points.zero r := fun _ => Int.le_refl _
  revert r
  unfold handToPointsArray
  -- no write, one to three writes, or a loop of one or two writes a round
  cases h.type <;> dsimp only
  all_goals first
    | exact hz
    | exact hupd _ _ _ (by decide) hz
    | exact hupd _ _ _ (by decide) (hupd _ _ _ (by decide) hz)
    | exact hupd _ _ _ (by decide) (hupd _ _ _ (by decide) (hupd _ _ _ (by decide) hz))
    | exact hrun _ _ fun i c hc => hupd _ _ _ (by decide) hc
    | exact hrun _ _ fun i c hc => hupd _ _ _ (by decide) (hupd _ _ _ (by decide) hc)

end RobotDdz
