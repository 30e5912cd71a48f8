import RobotDdz.Split.Kinds
import Mathlib.Data.List.Dedup

/-!
# Summaries and the choice of a splitter

`getHandsMapSummary` counts what a map of hands is worth, `isChargeHand` and
`calHandControl` hand by hand; `sortHandsWithBestKind` and
`sortHandsLordOnly1Card` keep the better map of three and of two.

Some reads of the source have no defined value: `SOLO_CHAIN_CHARGE_LEN[hand.len
- 5]` outside the table, a vector of hands past its end, and fields of a local
`Hand` nothing was assigned to. `Undef` stands for whatever such a read gives,
and every result holds for all of them.

`isChargeHand` evaluates `(*handMap)[...]` while `getHandsMapSummary` iterates
over that map, so the keys it inserts are met later in the same iteration: the
fold of `getHandsMapSummary` looks each key up in the map as it then is.

Mirroring notes vs `AIUtils.cpp`:
- `compareHandMapSummary` compares two summaries by the effective hands first.
  `sortHandsWithBestKind` starts from the first kind and replaces it by a later
  one that is better, and so does `sortHandsLordOnly1Card` with its two kinds
  and a comparison of its own.
- `isChargeHand` with a `NULL` map looks at the hand alone. With a map a trio
  or solo chain that is beaten can count as well, by the other trios, or chains
  of its length, in the map.
- `calHandControl` counts what a hand has at or above `lowestControl`: its body
  by the type, its kickers one by one.
-/

namespace RobotDdz

open Loops

/-- Whatever an undefined read gives. -/
structure Undef where
  chargeLen : Nat → Int
  hand : Hand
  pastEnd : Nat → Hand

/-- Every undefined read as zero. -/
def Undef.zero : Undef := ⟨fun _ => 0, {}, fun _ => {}⟩

/-- `SOLO_CHAIN_CHARGE_LEN`. -/
def soloChainChargeLens : List Int := [7, 9, 11, 13, 15, 17, 18, 18]

/-- `SOLO_CHAIN_CHARGE_LEN[len - 5]`. -/
def soloChainChargeLen (u : Undef) (len : Nat) : Int :=
  if 5 ≤ len ∧ len - 5 < soloChainChargeLens.length then soloChainChargeLens.getD (len - 5) 0
  else u.chargeLen len

/-- The loop of `getHighestSoloChain`, over the ranks still to visit. -/
def highestSoloChainFrom (points : Points) (len : Nat) : List Nat → («end» start : Int) → Int
  | [], _, start => start
  | i :: is, «end», start =>
    if 0 < points i then
      if «end» < 0 then highestSoloChainFrom points len is i start
      else if «end» - i + 1 = len then i
      else highestSoloChainFrom points len is «end» i
    else highestSoloChainFrom points len is (-1) start

/-- `getHighestSoloChain`. -/
def getHighestSoloChain (points : Points) (len : Nat) : Int :=
  highestSoloChainFrom points len (List.range (cardA + 1)).reverse (-1) (-1)

/-- `getHighestTrio`: the first rank held three times, from the bottom. -/
def getHighestTrio (points : Points) : Int :=
  match (List.range (card2 + 1)).find? fun i => 3 ≤ points i with
  | some i => i
  | none => -1

/-- Whether no rank above the key, up to `top`, is held `n` times by the
others. -/
def noneAbove (oppCards : Points) (keyPoint top : Nat) (n : Int) : Bool :=
  (List.range' (keyPoint + 1) (top - keyPoint)).all fun i => oppCards i < n

/-- The length of the run of ranks up to the ace from `start`. -/
def runLength (oppCards : Points) (start : Nat) : Nat :=
  whileLoop (fun e => e ≤ cardA && 0 < oppCards e) (· + 1) cardPointNum start - start

/-- `maxLen`: the longest run the others hold above the key of a chain. -/
def maxRunAbove (oppCards : Points) (hand : Hand) : Nat :=
  (List.range' (hand.keyPoint + 1) (cardA + 1 - hand.len - hand.keyPoint)).foldl
    (fun maxLen start => max maxLen (runLength oppCards start)) 0

/-- The part of `isChargeHand` that looks at the hand alone. -/
def isChargeAlone (u : Undef) (hand : Hand) (maxOppCardNum : Int) (oppCards : Points) : Bool :=
  if maxOppCardNum < getHandCount hand then true
  else match hand.type with
    | .solo => noneAbove oppCards hand.keyPoint redJoker 1
    | .pair => noneAbove oppCards hand.keyPoint card2 2
    | .trio | .trioSolo | .trioPair => noneAbove oppCards hand.keyPoint card2 3
    | .soloChain =>
      maxOppCardNum < soloChainChargeLen u hand.len || maxRunAbove oppCards hand < hand.len
    | _ => true

/-- Whether `isChargeHand` compares a hand of this type with others of the map. -/
def comparesInMap (type : HandType) : Bool :=
  type == .trio || type == .trioSolo || type == .trioPair || type == .soloChain

/-- The part of `isChargeHand` that looks at the map. -/
def isChargeInMap (hand : Hand) (oppCards : Points) (handMap : HandsMap) : Bool :=
  let typeKeyPoints :=
    if hand.type = .soloChain then
      ((handMap.vec .soloChain).filter fun h => h.len = hand.len).map Hand.keyPoint
    else (handMap.vec .trio ++ handMap.vec .trioSolo ++ handMap.vec .trioPair).map Hand.keyPoint
  let oppHighestKey :=
    if hand.type = .soloChain then getHighestSoloChain oppCards hand.len
    else getHighestTrio oppCards
  let highetCount := typeKeyPoints.countP fun k => oppHighestKey < (k : Int)
  (typeKeyPoints.take highetCount).any fun k => hand.keyPoint ≤ k

/-- `isChargeHand`; `none` is the `NULL` map. -/
def isChargeHand (u : Undef) (hand : Hand) (maxOppCardNum : Int) (oppCards : Points)
    (handMap : Option HandsMap) : Bool :=
  isChargeAlone u hand maxOppCardNum oppCards || match handMap with
    | some m => comparesInMap hand.type && isChargeInMap hand oppCards m
    | none => false

/-- The keys `isChargeHand` leaves in its map. -/
def isChargeTouch (u : Undef) (hand : Hand) (maxOppCardNum : Int) (oppCards : Points)
    (handMap : HandsMap) : HandsMap :=
  if isChargeAlone u hand maxOppCardNum oppCards || !comparesInMap hand.type then handMap
  else if hand.type = .soloChain then handMap.touch .soloChain
  else ((handMap.touch .trio).touch .trioSolo).touch .trioPair

/-- `max(hand.keyPoint + hand.len - lowestControl + 1, 0)`. -/
def chainControl (hand : Hand) (lowestControl : Nat) : Int :=
  max ((hand.keyPoint : Int) + hand.len - lowestControl + 1) 0

/-- The control of the kickers `0 .. n-1`, each worth `v`. -/
def kickerControl (hand : Hand) (lowestControl n : Nat) (v : Int) : Int :=
  ((List.range n).map fun i => if lowestControl ≤ hand.kickerAt i then v else 0).sum

/-- `hand.keyPoint >= lowestControl ? v : 0`. -/
def keyControl (hand : Hand) (lowestControl : Nat) (v : Int) : Int :=
  if lowestControl ≤ hand.keyPoint then v else 0

/-- `calHandControl`. -/
def calHandControl (hand : Hand) (lowestControl : Nat) : Int :=
  match hand.type with
  | .solo => keyControl hand lowestControl 1
  | .pair => keyControl hand lowestControl 2
  | .trio => keyControl hand lowestControl 3
  | .trioSolo => keyControl hand lowestControl 3 + kickerControl hand lowestControl 1 1
  | .trioPair => keyControl hand lowestControl 3 + kickerControl hand lowestControl 1 2
  | .fourDualSolo => keyControl hand lowestControl 4 + kickerControl hand lowestControl 2 1
  | .fourDualPair => keyControl hand lowestControl 4 + kickerControl hand lowestControl 2 2
  | .soloChain => chainControl hand lowestControl
  | .pairChain => 2 * chainControl hand lowestControl
  | .trioChain => 3 * chainControl hand lowestControl
  | .trioChainSolo =>
    3 * chainControl hand lowestControl + kickerControl hand lowestControl hand.len 1
  | .trioChainPair =>
    3 * chainControl hand lowestControl + kickerControl hand lowestControl hand.len 2
  | _ => 0

/-- `struct HandsMapSummary`, with the initial value of `getHandsMapSummary`. -/
structure HandsMapSummary where
  realHandsCount : Int := 0
  unChargeHandsCount : Int := 0
  extraBombCount : Int := 0
  twoControlsHandsCount : Int := 0
  effectiveHandsCount : Int := 0
  handsTypeCount : Int := 0
  soloCount : Int := 0
  lowestSolo : Nat := redJoker
  sencondLowestSolo : Nat := redJoker
deriving DecidableEq, Repr

section Summary

variable (u : Undef) (lowestControl : Nat) (maxOppCardNum : Int) (oppCards : Points)

/-- One hand of the inner loop of `getHandsMapSummary`. -/
def summariseHand (x : HandsMap × HandsMapSummary) (hand : Hand) : HandsMap × HandsMapSummary :=
  let (m, summary) := x
  let unCharge := if isChargeHand u hand maxOppCardNum oppCards (some m) then 0 else 1
  let twoControls := if 2 ≤ calHandControl hand lowestControl then 1 else 0
  (isChargeTouch u hand maxOppCardNum oppCards m,
    { summary with
      unChargeHandsCount := summary.unChargeHandsCount + unCharge
      twoControlsHandsCount := summary.twoControlsHandsCount + twoControls })

/-- The counts a vector of type `t` adds before its hands are looked at. -/
def summariseType (t : HandType) (hands : List Hand) (summary : HandsMapSummary) :
    HandsMapSummary :=
  let summary := { summary with realHandsCount := summary.realHandsCount + hands.length }
  if t = .soloChain then
    { summary with
      handsTypeCount := summary.handsTypeCount + ((hands.map Hand.len).dedup.length : Int) }
  else
    let summary := { summary with handsTypeCount := summary.handsTypeCount + 1 }
    if t = .solo then
      match hands with
      | [] => summary
      | [h] => { summary with lowestSolo := h.keyPoint }
      | h :: h' :: _ =>
        { summary with lowestSolo := h.keyPoint, sencondLowestSolo := h'.keyPoint }
    else summary

/-- One key of the loop of `getHandsMapSummary`. -/
def summariseKey (x : HandsMap × HandsMapSummary) (t : HandType) : HandsMap × HandsMapSummary :=
  match x.1 t with
  | none => x
  | some hands =>
    if t = .bomb then
      (x.1, { x.2 with
        extraBombCount :=
          x.2.extraBombCount + (hands.countP (fun h => h.keyPoint < lowestControl) : Int) })
    else
      hands.foldl (summariseHand u lowestControl maxOppCardNum oppCards)
        (x.1, summariseType t hands x.2)

/-- `getHandsMapSummary`, with the map as it leaves it. -/
def getHandsMapSummary (handMap : HandsMap) : HandsMap × HandsMapSummary :=
  let x := HandType.all.foldl (summariseKey u lowestControl maxOppCardNum oppCards) (handMap, {})
  (x.1, { x.2 with
    effectiveHandsCount :=
      x.2.unChargeHandsCount + x.2.twoControlsHandsCount - x.2.extraBombCount })

end Summary

/-- `compareHandMapSummary`. -/
def compareHandMapSummary (summary0 summary1 : HandsMapSummary) : Bool :=
  if summary0.effectiveHandsCount < summary1.effectiveHandsCount then true
  else if summary1.effectiveHandsCount < summary0.effectiveHandsCount then false
  else if summary0.handsTypeCount < summary1.handsTypeCount then true
  else if summary1.handsTypeCount < summary0.handsTypeCount then false
  else if summary0.soloCount < summary1.soloCount then true
  else if summary1.soloCount < summary0.soloCount then false
  else summary1.lowestSolo ≤ summary0.lowestSolo

section Choice

variable (u : Undef) (points : Points) (lowestControl : Nat) (maxOppNumber : Int)
  (otherPoints : Points) (searchKicker : Bool)

/-- The map and summary of one of the first three splitters. -/
def kindSummary (k : Kind) : HandsMap × HandsMapSummary :=
  getHandsMapSummary u lowestControl maxOppNumber otherPoints
    (splitCardsToHands k points searchKicker)

/-- `sortHandsWithBestKind`. -/
def sortHandsWithBestKind : HandsMap × HandsMapSummary :=
  let best := kindSummary u points lowestControl maxOppNumber otherPoints searchKicker .kind1
  let tmp := kindSummary u points lowestControl maxOppNumber otherPoints searchKicker .kind2
  let best := if !compareHandMapSummary best.2 tmp.2 then tmp else best
  let tmp := kindSummary u points lowestControl maxOppNumber otherPoints searchKicker .kind3
  if !compareHandMapSummary best.2 tmp.2 then tmp else best

/-- The kind whose map `sortHandsWithBestKind` returns. -/
def bestKind : Kind :=
  let s := kindSummary u points lowestControl maxOppNumber otherPoints searchKicker
  let k := if compareHandMapSummary (s .kind1).2 (s .kind2).2 then .kind1 else .kind2
  if compareHandMapSummary (s k).2 (s .kind3).2 then k else .kind3

/-- `sortHandsLordOnly1Card`. -/
def sortHandsLordOnly1Card : HandsMap × HandsMapSummary :=
  let best := getHandsMapSummary u lowestControl maxOppNumber otherPoints
    (splitCardsToHandsKind4 points searchKicker)
  let tmp := getHandsMapSummary u lowestControl maxOppNumber otherPoints
    (splitCardsToHandsKind5 points searchKicker)
  if tmp.2.soloCount < best.2.soloCount
      ∨ tmp.2.soloCount = best.2.soloCount ∧ best.2.lowestSolo < tmp.2.lowestSolo then tmp
  else best

theorem sortHandsWithBestKind_eq :
    sortHandsWithBestKind u points lowestControl maxOppNumber otherPoints searchKicker
      = kindSummary u points lowestControl maxOppNumber otherPoints searchKicker
          (bestKind u points lowestControl maxOppNumber otherPoints searchKicker) := by
  unfold sortHandsWithBestKind bestKind
  generalize kindSummary u points lowestControl maxOppNumber otherPoints searchKicker = s
  simp only []
  cases h12 : compareHandMapSummary (s .kind1).2 (s .kind2).2
  · cases h23 : compareHandMapSummary (s .kind2).2 (s .kind3).2 <;> simp [h23]
  · cases h13 : compareHandMapSummary (s .kind1).2 (s .kind3).2 <;> simp [h13]

end Choice

/-! ## The summary leaves the hands alone -/

theorem isChargeTouch_vec (u : Undef) (hand : Hand) (n : Int) (oppCards : Points) (m : HandsMap)
    (t : HandType) : (isChargeTouch u hand n oppCards m).vec t = m.vec t := by
  unfold isChargeTouch
  split
  · rfl
  · split <;> simp only [HandsMap.vec_touch]

theorem getHandsMapSummary_vec (u : Undef) (lowestControl : Nat) (n : Int) (oppCards : Points)
    (m : HandsMap) (t : HandType) :
    (getHandsMapSummary u lowestControl n oppCards m).1.vec t = m.vec t := by
  have hhands : ∀ (hands : List Hand) (x : HandsMap × HandsMapSummary),
      (hands.foldl (summariseHand u lowestControl n oppCards) x).1.vec t = x.1.vec t := by
    intro hands
    induction hands with
    | nil => intro x; rfl
    | cons h hands ih =>
      intro x
      rw [List.foldl_cons, ih]
      exact isChargeTouch_vec ..
  have hkey : ∀ (x : HandsMap × HandsMapSummary) (t' : HandType),
      (summariseKey u lowestControl n oppCards x t').1.vec t = x.1.vec t := by
    intro x t'
    unfold summariseKey
    split
    · rfl
    · split
      · rfl
      · exact hhands ..
  have hall : ∀ (ts : List HandType) (x : HandsMap × HandsMapSummary),
      (ts.foldl (summariseKey u lowestControl n oppCards) x).1.vec t = x.1.vec t := by
    intro ts
    induction ts with
    | nil => intro x; rfl
    | cons t' ts ih => intro x; rw [List.foldl_cons, ih, hkey]
  exact hall ..

/-- Maps with the same vectors have the same cards. -/
theorem HandsMap.sum_congr {m m' : HandsMap} (h : ∀ t, m.vec t = m'.vec t) : m.sum = m'.sum := by
  funext r
  rw [HandsMap.sum_eq, HandsMap.sum_eq]
  simp only [h]

end RobotDdz
