import RobotDdz.AI.State

/-!
# Looking for a hand to play

The searches of `AIUtils` and `OGLordRobotAI`: through the map of hands, for
the lowest, the highest, the largest or a charging hand, and through the point
array, for the next higher hand with kickers for it.

A `Hand &hand` of the source is a value passed in and returned, so that a
function that sets only some fields keeps the others.

Mirroring notes vs `AIUtils.cpp` and `OGLordRobotAI.cpp`:
- `findKickerFromPoints` tests `hand->type = TRIO_CHAIN_SOLO`. That is an
  assignment, so a trio chain that asks for pairs gets solos and another type;
  the model does the same.
- The loop over the pair chains in it reads the front of the vector every time,
  and the one over the solo chains reads `soloHands` with the index of a chain.
- `findLowestHandNotSolo` and `findMostCardsHand` compare the number of cards
  of one hand with that of the same hand. What they find is therefore the
  lowest by key.
- `findHigherHandFromPoints` leaves the chain length of its result alone where
  the type is no chain. The hand before the call is an argument for that
  reason.
- `hands[i]` past the end is undefined in the source. `vecAt` then gives a hand
  of `Undef`, about which nothing is known.
-/

namespace RobotDdz

open Loops

/-- `hand.type = NOTHING`. -/
def Hand.clear (h : Hand) : Hand := { h with type := .nothing }

/-- `hand.type = SOLO; hand.keyPoint = keyPoint`, and so for the other types. -/
def Hand.become (h : Hand) (type : HandType) (keyPoint : Nat) : Hand :=
  { h with type, keyPoint }

/-- `hand.kicker[0] = ...`, `hand.kicker[1] = ...`. -/
def Hand.setKickers (h : Hand) (kickers : List Nat) : Hand :=
  { h with kicker := kickers ++ h.kicker.drop kickers.length }

/-- `hands[i]`. -/
def vecAt (u : Undef) (hands : List Hand) (i : Nat) : Hand := hands.getD i (u.pastEnd i)

/-- `(unsigned)x` of an `int`. -/
def asUnsigned (x : Int) : Int := x % 4294967296

/-- The ranks `CARD_3 .. RED_JOKER`. -/
def allRanks : List Nat := List.range (redJoker + 1)

/-! ## Point arrays -/

/-- `getLowestPoint`. -/
def getLowestPoint (points : Points) : Nat := (allRanks.find? fun i => 0 < points i).getD redJoker

/-- `getHighestPoint`. -/
def getHighestPoint (points : Points) : Nat :=
  (allRanks.reverse.find? fun i => 0 < points i).getD card3

/-- `getLowestPairPoint`. -/
def getLowestPairPoint (points : Points) : Nat :=
  (allRanks.find? fun i => 2 ≤ points i).getD redJoker

/-- `getHighestPairPoint`. -/
def getHighestPairPoint (points : Points) : Nat :=
  (allRanks.reverse.find? fun i => 2 ≤ points i).getD card3

/-- `getHighestBomb`. -/
def getHighestBomb (points : Points) : Int :=
  if points blackJoker = 1 ∧ points redJoker = 1 then blackJoker
  else match (List.range (card2 + 1)).reverse.find? fun i => points i = 4 with
    | some i => i
    | none => -1

/-- `isHighestSolo` with `n = 1`, `isHighestPair` with `n = 2`. -/
def isHighest (n : Int) (point : Nat) (oppPoints : Points) : Bool :=
  (List.range' (point + 1) (redJoker - point)).all fun i => oppPoints i < n

/-- `isHighestSolo`. -/
def isHighestSolo : Nat → Points → Bool := isHighest 1

/-- `isHighestPair`. -/
def isHighestPair : Nat → Points → Bool := isHighest 2

/-- The loop of `hasUniLowestSolo` and `hasUniHighestSolo`. -/
def hasUniSolo (aiPoints oppPoints : Points) : List Nat → Bool
  | [] => false
  | i :: is =>
    if 0 < aiPoints i ∧ oppPoints i = 0 then true
    else if 0 < oppPoints i then false
    else hasUniSolo aiPoints oppPoints is

/-- `hasUniLowestSolo`. -/
def hasUniLowestSolo (aiPoints oppPoints : Points) : Bool := hasUniSolo aiPoints oppPoints allRanks

/-- `hasUniHighestSolo`. -/
def hasUniHighestSolo (aiPoints oppPoints : Points) : Bool :=
  hasUniSolo aiPoints oppPoints allRanks.reverse

/-! ## Higher hands from a point array -/

/-- The `do` loop of `findHigherHandFromPoints`: the end of the run and the
rank the outer loop goes on from. -/
def scanRun (points : Points) (number : Int) (len start : Nat) : (fuel : Nat) → Nat → Nat × Nat
  | 0, i => (i, i)
  | fuel + 1, i =>
    if i + 1 = start + len then (i, i)
    else if i + 1 ≤ cardA ∧ number ≤ points (i + 1) then
      scanRun points number len start fuel (i + 1)
    else (i, i + 1)

/-- The `while` loop of `findHigherHandFromPoints`: the start of the first
chain. -/
def findChain (points : Points) (number : Int) (len : Nat) : (fuel : Nat) → Nat → Option Nat
  | 0, _ => none
  | fuel + 1, i =>
    if i + len ≤ cardA + 1 then
      if number ≤ points i then
        let r := scanRun points number len i cardPointNum i
        if r.1 + 1 = i + len then some i else findChain points number len fuel (r.2 + 1)
      else findChain points number len fuel (i + 1)
    else none

/-- `number`, for the chains and for the others. -/
def bodyNumber (type : HandType) : Int :=
  match type with
  | .soloChain | .solo => 1
  | .pairChain | .pair => 2
  | .trioChain | .trioChainSolo | .trioChainPair | .trio | .trioSolo | .trioPair => 3
  | _ => 4

/-- The key of a solo chain that starts where one before it ends. -/
def joinedChain (keyPoint : Nat) : List Hand → Option Nat
  | [] => none
  | c :: cs =>
    match cs.find? fun d => c.keyPoint + c.len = d.keyPoint + 1 && d.keyPoint ≠ keyPoint with
    | some d => some d.keyPoint
    | none => joinedChain keyPoint cs

/-- The kicker of a `TRIO_SOLO`. -/
def soloKicker (points : Points) (handsMap : HandsMap) (keyPoint : Nat) : Option Nat :=
  (((handsMap.vec .solo).find? (·.keyPoint ≠ keyPoint)).map Hand.keyPoint)
    <|> joinedChain keyPoint (handsMap.vec .soloChain)
    <|> (((handsMap.vec .soloChain).find? (5 < ·.len)).map fun c =>
      if c.keyPoint ≠ keyPoint then c.keyPoint else c.keyPoint + c.len - 1)
    <|> allRanks.find? fun i => 0 < points i && i ≠ keyPoint

/-- The kicker of a `TRIO_PAIR`. The loop over the pair chains looks at the
first one every time. -/
def pairKicker (points : Points) (handsMap : HandsMap) (keyPoint : Nat) : Option Nat :=
  ((handsMap.vec .pair).head?.map Hand.keyPoint)
    <|> ((handsMap.vec .pairChain).head?.bind fun c => if 3 < c.len then some c.keyPoint else none)
    <|> (List.range (card2 + 1)).find? fun i => 2 ≤ points i && i ≠ keyPoint

/-- The `while` loop over one solo chain; `soloKey` is `soloHands[i].keyPoint`,
with the index of the chain. -/
def chainKickersFrom (hand : Hand) (soloKey : Nat) : (fuel : Nat) → Hand → List Nat → List Nat
  | 0, _, k => k
  | fuel + 1, c, k =>
    if k.length < hand.len ∧ 5 < c.len then
      if c.keyPoint < hand.keyPoint ∨ hand.keyPoint + hand.len ≤ soloKey then
        chainKickersFrom hand soloKey fuel { c with keyPoint := c.keyPoint + 1, len := c.len - 1 }
          (k ++ [c.keyPoint])
      else
        chainKickersFrom hand soloKey fuel { c with len := c.len - 1 }
          (k ++ [c.keyPoint + c.len - 1])
    else k

/-- The kickers of a `TRIO_CHAIN_SOLO`, as many as are found. -/
def chainKickers (u : Undef) (points : Points) (handsMap : HandsMap) (hand : Hand) : List Nat :=
  let soloHands := handsMap.vec .solo
  let k := (soloHands.filter fun h =>
    h.keyPoint < hand.keyPoint || hand.keyPoint + hand.len ≤ h.keyPoint).map Hand.keyPoint
  let k := (handsMap.vec .soloChain).zipIdx.foldl
    (fun k c => chainKickersFrom hand (vecAt u soloHands c.2).keyPoint c.1.len c.1 k) k
  allRanks.foldl (fun k i => if k.length < hand.len ∧ 0 < points i then k ++ [i] else k) k

section Points

variable (u : Undef) (lowestControl : Nat) (maxOppNumber : Int) (otherPoints : Points)

/-- `findKickerFromPoints`. The third test is `hand->type = TRIO_CHAIN_SOLO`,
an assignment, so a `TRIO_CHAIN_PAIR` goes the same way and becomes a
`TRIO_CHAIN_SOLO`. -/
def findKickerFromPoints (points : Points) (hand : Hand) : Bool × Hand :=
  let handsMap := (sortHandsWithBestKind u points lowestControl maxOppNumber otherPoints false).1
  if hand.type = .trioSolo then
    match soloKicker points handsMap hand.keyPoint with
    | some k => (true, hand.setKickers [k])
    | none => (false, hand)
  else if hand.type = .trioPair then
    match pairKicker points handsMap hand.keyPoint with
    | some k => (true, hand.setKickers [k])
    | none => (false, hand)
  else
    let hand := { hand with type := .trioChainSolo }
    let k := chainKickers u points handsMap hand
    if hand.len ≤ k.length then (true, hand.setKickers (k.take hand.len)) else (false, hand)

/-- The part of `findHigherHandFromPoints` that looks for the body: the hand
and the points without it. -/
def findHigherBody (hand : Hand) (points : Points) (higher : Hand) : Hand × Points :=
  let number := bodyNumber hand.type
  if isChain hand.type then
    match findChain points number hand.len cardPointNum (hand.keyPoint + 1) with
    | some start =>
      (if card3 < start then { higher with type := hand.type, keyPoint := start, len := hand.len }
        else higher, points.addRange start hand.len (-number))
    | none => (higher, points)
  else
    match (List.range' (hand.keyPoint + 1) (redJoker - hand.keyPoint)).find?
      fun i => number ≤ points i with
    | some i => (higher.become hand.type i, Function.update points i (points i - number))
    | none => (higher, points)

/-- `findHigherHandFromPoints`, with the hand `*higher` before the call. -/
def findHigherHandFromPoints (hand : Hand) (points : Points) (higher : Hand) : Hand :=
  let r := findHigherBody hand points higher.clear
  let higher := r.1
  if higher.type = .trioSolo ∨ higher.type = .trioPair ∨ higher.type = .trioChainSolo
      ∨ higher.type = .trioChainPair then
    let k := findKickerFromPoints u lowestControl maxOppNumber otherPoints r.2 higher
    if k.1 then k.2 else k.2.clear
  else higher

end Points

/-! ## Hands of the map -/

/-- The types but bombs and solos. -/
def notSoloTypes : List HandType := HandType.all.filter fun t => t ≠ .bomb && t ≠ .solo

/-- The inner step of `findLowestHandNotSolo`. The hand counts compared are
both those of the new hand. -/
def lowerHand (hand h : Hand) : Hand :=
  if hand.type = .nothing ∨ h.keyPoint < hand.keyPoint
      ∨ h.keyPoint = hand.keyPoint ∧ getHandCount h > getHandCount h then h
  else hand

/-- `findLowestHandNotSoloAndNoControl`. -/
def findLowestHandNotSoloAndNoControl (handsMap : HandsMap) (lowestControl : Nat) (hand : Hand) :
    Hand :=
  (notSoloTypes.flatMap handsMap.vec).foldl
    (fun hand h => if !containsControl lowestControl h then lowerHand hand h else hand) hand.clear

/-- `findLowestHandNotSolo`. -/
def findLowestHandNotSolo (handsMap : HandsMap) (hand : Hand) : Hand :=
  (notSoloTypes.flatMap handsMap.vec).foldl lowerHand hand.clear

/-- `findMostCardsHand`, with the same comparison of a count with itself. -/
def findMostCardsHand (handsMap : HandsMap) (hand : Hand) : Hand :=
  handsMap.hands.foldl (fun hand h =>
    if hand.type = .nothing ∨ hand.type = .nuke ∨ hand.type = .bomb
        ∨ getHandCount h > getHandCount h
        ∨ getHandCount h = getHandCount h ∧ h.keyPoint < hand.keyPoint then h
    else hand) hand.clear

namespace AI

/-- One key of the loop of `findLowestHand`. -/
def lowestFront (hand : Hand) : List Hand → Hand
  | [] => hand
  | h :: _ =>
    if hand.type = .nothing then h
    else if hand.type = .bomb ∨ h.keyPoint < hand.keyPoint
        ∨ h.keyPoint = hand.keyPoint ∧ getHandCount hand < getHandCount h then h
    else hand

/-- `findLowestHand`. -/
def findLowestHand (s : AI) (hand : Hand) : Hand :=
  HandType.all.foldl (fun hand t => lowestFront hand (s.handsMap.vec t)) hand.clear

/-- One key of the loop of `findMostCardsHandNotBomb`. -/
def mostCardsFront (hand : Hand) : List Hand → Hand
  | [] => hand
  | h :: _ =>
    if hand.type = .nothing then h
    else if hand.type = .bomb ∨ getHandCount hand < getHandCount h
        ∨ getHandCount h = getHandCount hand ∧ h.keyPoint < hand.keyPoint then h
    else hand

/-- `findMostCardsHandNotBomb`. -/
def findMostCardsHandNotBomb (s : AI) (hand : Hand) : Hand :=
  HandType.all.foldl (fun hand t => mostCardsFront hand (s.handsMap.vec t)) hand.clear

/-- The test of `findHigherHandNotBomb`. -/
def beatsCurHand (s : AI) (h : Hand) : Bool :=
  if isChain s.curHand.type then s.curHand.keyPoint < h.keyPoint && h.len = s.curHand.len
  else s.curHand.keyPoint < h.keyPoint

/-- `findHigherHandNotBomb`. -/
def findHigherHandNotBomb (s : AI) (hand : Hand) : Hand :=
  ((s.handsMap.vec s.curHand.type).find? s.beatsCurHand).getD hand.clear

/-- `findHigherHand`. The current hand is never both a bomb and a rocket. -/
def findHigherHand (s : AI) (hand : Hand) : Hand :=
  let hand := s.findHigherHandNotBomb hand
  -- the second condition holds of every `curHand`
  if hand.type = .nothing ∧ (s.curHand.type ≠ .bomb ∨ s.curHand.type ≠ .nuke) then
    (s.handsMap.vec .bomb).headD hand
  else hand

/-- One hand of the loops of `findChargeHandFirst`, with `isCharge`. -/
def chargeStep (u : Undef) (s : AI) (typeCountFirst : Bool) (t : HandType) (x : Hand × Bool)
    (h : Hand) : Hand × Bool :=
  let charge := isChargeHand u h s.maxOppNumber s.otherPoints (some s.handsMap)
  let (hand, isCharge) := x
  if hand.type = .nothing ∨ hand.type = .nuke ∨ hand.type = .bomb then (h, isCharge || charge)
  else if t = .bomb then x
  else if isCharge then
    if charge ∧ h.type ≠ hand.type then
      let more := (s.handsMap.vec t).length
      let size := (s.handsMap.vec hand.type).length
      if typeCountFirst then
        if size < more ∨ more = size ∧ getHandCount hand < getHandCount h then (h, isCharge) else x
      else if getHandCount hand < getHandCount h then (h, isCharge)
      else x
    else x
  else if charge then (h, true)
  else if h.keyPoint < hand.keyPoint
      ∨ h.keyPoint = hand.keyPoint ∧ getHandCount hand < getHandCount h then (h, false)
  else x

/-- `findChargeHandFirst`. -/
def findChargeHandFirst (u : Undef) (s : AI) (hand : Hand) (typeCountFirst : Bool) : Hand :=
  (HandType.all.foldl
    (fun x t => (s.handsMap.vec t).foldl (s.chargeStep u typeCountFirst t) x) (hand.clear, false)).1

end AI

end RobotDdz
