import RobotDdz.AI.Strategy

/-!
# The high level

What `OGLordRobotAI` does above level 1: it splits without kickers, counts for
every type how many hands nobody can beat (`countHighHand`), hangs kickers on
the trios itself and summarises the outcome (`getHandsMapSummaryLvl`), and the
lord leads by these counts. The farmers, and a lord who follows, play as on
level 1.

From the second splitter on, `sortHandMapLvl` fills `tmpMap` but hands
`handsMap` to `countHighHand` and `getHandsMapSummaryLvl`.

Mirroring notes vs `OGLordRobotAI.cpp`:
- The two loops that hang kickers on bodies erase from the vectors they read.
  `kickRound` is one round, with the map and the counters as it leaves them.
- Where a high trio or pair is broken up for low solos, the two solos of the
  pair are pushed to the vector of the pairs, and the second is popped again.
- `findOppHighestChain` runs a second loop with the `end` of the first, for the
  other opponent of the lord; what it finds then is in a module of its own.
- `searchMap` is a reference to `goodLowHandCount`, so that the search for a
  charge overwrites that counter of the robot.
- The lord's test for a farmer with two cards counts one farmer's cards and
  looks at the pairs of the other.
-/

namespace RobotDdz

/-- The four counters of `countHighHand`. A type absent from one of the maps
counts zero, which is what `operator[]` gives. -/
structure HighCounts where
  uniHigh : HandType → Int := fun _ => 0
  high : HandType → Int := fun _ => 0
  goodLow : HandType → Int := fun _ => 0
  trioCount : Int := 0

/-- The counts of one type. -/
def HighCounts.set (c : HighCounts) (t : HandType) (uniHigh high goodLow : Int) : HighCounts :=
  { c with
    uniHigh := Function.update c.uniHigh t uniHigh
    high := Function.update c.high t high
    goodLow := Function.update c.goodLow t goodLow }

/-! ## What the opponents hold at most -/

/-- The loop of `findOppHighestPoint` over the ranks still to visit. -/
def oppPointFrom (points : Points) (count : Int) (ranks : List Nat) : Option Nat :=
  ranks.find? fun i => count ≤ points i

/-- One loop of `findOppHighestChain` over the ranks still to visit: the start
of the chain, and `end` as the loop leaves it. -/
def oppChainFrom (points : Points) (count : Int) (len : Nat) : List Nat → («end» : Int) →
    Option Nat × Int
  | [], «end» => (none, «end»)
  | i :: is, «end» =>
    if count ≤ points i then
      if «end» < 0 then oppChainFrom points count len is i
      else if «end» - i + 1 = len then (some i, «end»)
      else oppChainFrom points count len is «end»
    else oppChainFrom points count len is (-1)

/-- `highPoint`, `-1` where nothing was found. -/
def highPoint (found : Option Nat) : Int :=
  match found with
  | some i => i
  | none => -1

namespace AI

section Lvl

variable (u : Undef) (s : AI)

/-- `playerInfo[seat].points`. -/
def pointsOf (seat : Int) : Points := (s.playerInfo seat).points

/-- The opponent `findOppHighestPoint` and `findOppHighestChain` look at first. -/
def firstOpp : Points := s.pointsOf (if s.aiPosition = .lord then s.downSeat else s.lordSeat)

/-- `findOppHighestPoint`. -/
def findOppHighestPoint (type : HandType) : Int :=
  let count : Int := match type with
    | .solo => 1
    | .pair => 2
    | .trio => 3
    | _ => 4
  let nuke (points : Points) : Bool :=
    count = 4 && points blackJoker = 1 && points redJoker = 1
  if nuke s.firstOpp then blackJoker
  else
    let high := highPoint (oppPointFrom s.firstOpp count allRanks.reverse)
    if s.aiPosition = .lord then
      if nuke (s.pointsOf s.upSeat) then blackJoker
      else match oppPointFrom (s.pointsOf s.upSeat) count
          (allRanks.reverse.filter fun i => high < i) with
        | some i => i
        | none => high
    else high

/-- `findOppHighestChain`. The second loop starts with the `end` of the first. -/
def findOppHighestChain (type : HandType) (len : Nat) : Int :=
  let count : Int := match type with
    | .soloChain => 1
    | .pairChain => 2
    | _ => 3
  let ranks := (List.range (cardA + 1)).reverse
  let r := oppChainFrom s.firstOpp count len ranks (-1)
  let high := highPoint r.1
  if s.aiPosition = .lord then
    match (oppChainFrom (s.pointsOf s.upSeat) count len (ranks.filter fun i => high < i) r.2).1 with
    | some i => i
    | none => high
  else high

/-! ## Counting the high hands -/

/-- One hand of the loop of `countHighHand` over the chains, with
`uniHighLength`. -/
def countChain (type : HandType) (x : (Int × Int × Int) × List Nat) (h : Hand) :
    (Int × Int × Int) × List Nat :=
  let ((uniHigh, high, goodLow), uniHighLength) := x
  let point := s.findOppHighestChain type h.len
  if point < h.keyPoint then ((uniHigh + 1, high, goodLow), h.len :: uniHighLength)
  else if h.keyPoint = point then ((uniHigh, high + 1, goodLow), uniHighLength)
  else if h.len ∈ uniHighLength ∧ goodLow = 0 then ((uniHigh, high, goodLow + 1), uniHighLength)
  else x

/-- The counts of a vector of chains. -/
def chainCounts (type : HandType) (hands : List Hand) : Int × Int × Int :=
  (hands.reverse.foldl (s.countChain type) ((0, 0, 0), [])).1

/-- The counts of a vector of other hands. -/
def otherCounts (type : HandType) (hands : List Hand) : Int × Int × Int :=
  let point := s.findOppHighestPoint type
  let uniHigh : Int := hands.countP fun h => point < h.keyPoint
  let high : Int := hands.countP fun h => h.keyPoint = point
  let lowCount := hands.length - uniHigh - high
  let highCount := if uniHigh < high then 2 * uniHigh else uniHigh + high
  (uniHigh, high, if 0 < lowCount then min highCount lowCount else 0)

/-- One key of `countHighHand`. -/
def countKey (allHands : HandsMap) (c : HighCounts) (t : HandType) : HighCounts :=
  match allHands t with
  | none => c
  | some hands =>
    if t = .bomb then c
    else if isChain t then
      let (uniHigh, high, goodLow) := s.chainCounts t hands
      let len : Int := if t = .trioChain then (hands.map Hand.len).sum else 0
      { c.set t uniHigh high goodLow with trioCount := c.trioCount + len }
    else
      let (uniHigh, high, goodLow) := s.otherCounts t hands
      let size : Int := if t = .trio then hands.length else 0
      { c.set t uniHigh high goodLow with trioCount := c.trioCount + size }

/-- `countHighHand`. -/
def countHighHand (allHands : HandsMap) (c : HighCounts) : HighCounts :=
  HandType.all.foldl (s.countKey allHands) { c with trioCount := 0 }

/-! ## Kickers and the summary -/

/-- `allHands[t].size()`. -/
def sizeOf (m : HandsMap) (t : HandType) : Int := (m.vec t).length

/-- The hands of a type that are neither high nor good. -/
def lowCount (m : HandsMap) (c : HighCounts) (t : HandType) : Int :=
  sizeOf m t - c.uniHigh t - c.high t - c.goodLow t

/-- One of the three tests behind `k`. -/
def kickBy (solos pairs len : Int) : Option HandType :=
  if pairs ≤ solos ∧ len ≤ solos then some .solo
  else if solos < pairs ∧ len ≤ pairs then some .pair
  else none

/-- `k`: `SOLO` for 1, `PAIR` for 2. -/
def kickWith (m : HandsMap) (c : HighCounts) (len : Int) : Option HandType :=
  kickBy (lowCount m c .solo) (lowCount m c .pair) len
    <|> kickBy (sizeOf m .solo - c.uniHigh .solo) (sizeOf m .pair - c.uniHigh .pair) len
    <|> kickBy (sizeOf m .solo) (sizeOf m .pair) len

/-- One round of the two loops of `getHandsMapSummaryLvl`: the hand gets its
kickers or stays. -/
def kickRound (c : HighCounts) (t withSolo withPair : HandType) (x : HandsMap × List Hand)
    (h : Hand) :
    HandsMap × List Hand :=
  let len := if t = .trioChain then h.len else 1
  match kickWith x.1 c len with
  | none => (x.1, x.2 ++ [h])
  | some k =>
    let kickers := x.1.vec k
    let kicked : Hand := { h with type := if k = .solo then withSolo else withPair }
    ((x.1.put k (kickers.drop len)).push kicked.type
      (kicked.setKickers ((kickers.take len).map Hand.keyPoint)), x.2)

/-- One of the two loops: the map, and whether `changeTrio` is set. -/
def kickLoop (m : HandsMap) (c : HighCounts) (t withSolo withPair : HandType) : HandsMap × Bool :=
  let x := (m.vec t).foldl (kickRound c t withSolo withPair) (m, [])
  (x.1.put t x.2, x.2.length ≠ (m.vec t).length)

/-- The part of `getHandsMapSummaryLvl` that breaks up a high trio or pair for
the low solos, with `lowSoloCount` and `lowPairCount`. The pair is not taken
out: the two solos go to the pairs and the second of them is popped. -/
def breakHigh (m : HandsMap) (c : HighCounts) : HandsMap × Int × Int :=
  let lowSolo := lowCount m c .solo
  let lowPair := lowCount m c .pair
  let opp := s.findOppHighestPoint .solo
  let highBack (t : HandType) : Option Hand :=
    (m.vec t).getLast?.filter fun h => opp < h.keyPoint
  if 0 < lowSolo then
    match (highBack .trio).filter fun _ => c.goodLow .trio < c.uniHigh .trio with
    | some h =>
      let solo : Hand := { type := .solo, keyPoint := h.keyPoint, len := 1 }
      let m := m.put .trio (m.vec .trio).dropLast
      if lowSolo = 1 then
        ((m.push .solo solo).push .pair { solo with type := .pair }, 0, max (lowPair - 1) 0)
      else
        (((m.push .solo solo).push .solo solo).push .solo solo, max (lowSolo - 3) 0, lowPair)
    | none =>
      match (highBack .pair).filter fun _ => 2 ≤ lowSolo || c.goodLow .pair < c.uniHigh .pair with
      | some h =>
        (m.push .pair { type := .solo, keyPoint := h.keyPoint, len := 1 }, max (lowSolo - 2) 0,
          if c.goodLow .pair = c.uniHigh .pair then lowPair + 1 else lowPair)
      | none => (m, lowSolo, lowPair)
  else (m, lowSolo, lowPair)

/-- One key of the first loop over the finished map. -/
def summariseKeyLvl (m : HandsMap) (summary : HandsMapSummary) (t : HandType) : HandsMapSummary :=
  match m t with
  | none => summary
  | some hands =>
    if t = .bomb then { summary with extraBombCount := hands.length }
    else
      { summary with
        realHandsCount := summary.realHandsCount + hands.length
        handsTypeCount := summary.handsTypeCount
          + if t = .soloChain then ((hands.map Hand.len).dedup.length : Int) else 1 }

/-- The sum of the second loop. -/
def effectiveCount (m : HandsMap) (c : HighCounts) (lowSolo lowPair : Int) : Int :=
  (HandType.all.map fun t =>
    if (m t).isNone ∨ t = .bomb then 0
    else if t = .solo then lowSolo
    else if t = .pair then lowPair
    else lowCount m c t).sum

/-- The last part of `getHandsMapSummaryLvl`, on the solos no trio takes along. -/
def soloSummary (m : HandsMap) (trioCount : Int) (summary : HandsMapSummary) : HandsMapSummary :=
  let solos := m.vec .solo
  let keyAt (i : Nat) : Nat := ((solos[i]?).map Hand.keyPoint).getD redJoker
  if solos.length = 0 ∨ (solos.length : Int) < trioCount then
    { summary with soloCount := 0, lowestSolo := redJoker, sencondLowestSolo := redJoker }
  else
    { summary with
      soloCount := trioCount - solos.length
      lowestSolo := keyAt trioCount.toNat
      sencondLowestSolo := keyAt (trioCount.toNat + 1) }

/-- `getHandsMapSummaryLvl`, with the map and the counters as it leaves them;
the trio count is passed by value. The keys put in first are the ones it always
inserts, and no counter is read before. -/
def getHandsMapSummaryLvl (allHands : HandsMap) (c : HighCounts) :
    HandsMap × HighCounts × HandsMapSummary :=
  let m := (((allHands.touch .trioChain).touch .trio).touch .solo).touch .pair
  let r := kickLoop m c .trioChain .trioChainSolo .trioChainPair
  let r' := kickLoop r.1 c .trio .trioSolo .trioPair
  let c' := if r.2 || r'.2 then s.countHighHand r'.1 c else c
  let (m, lowSolo, lowPair) := s.breakHigh r'.1 c'
  let summary := HandType.all.foldl (summariseKeyLvl m) {}
  let summary := { summary with
    effectiveHandsCount := effectiveCount m c' lowSolo lowPair - summary.extraBombCount }
  (m, { c' with trioCount := c.trioCount }, soloSummary m c'.trioCount summary)

/-! The opponents come in through `findOppHighestPoint` and `findOppHighestChain` alone. -/

variable {s} {s' : AI}

/-- Counting the high hands looks at the opponents' best only. -/
theorem countHighHand_congr (hpoint : s'.findOppHighestPoint = s.findOppHighestPoint)
    (hchain : s'.findOppHighestChain = s.findOppHighestChain) :
    s'.countHighHand = s.countHighHand := by
  have hcount : s'.countChain = s.countChain := by
    funext type x hand
    unfold countChain
    rw [hchain]
  have hkey : s'.countKey = s.countKey := by
    funext allHands c t
    unfold countKey chainCounts otherCounts
    rw [hcount, hpoint]
  funext allHands c
  unfold countHighHand
  rw [hkey]

/-- So does the summary. -/
theorem getHandsMapSummaryLvl_congr (hpoint : s'.findOppHighestPoint = s.findOppHighestPoint)
    (hchain : s'.findOppHighestChain = s.findOppHighestChain) :
    s'.getHandsMapSummaryLvl = s.getHandsMapSummaryLvl := by
  have hcount := countHighHand_congr hpoint hchain
  have hbreak : s'.breakHigh = s.breakHigh := by
    funext m c
    unfold breakHigh
    rw [hpoint]
  funext allHands c
  unfold getHandsMapSummaryLvl
  rw [hcount, hbreak]

variable (s)

/-! ## `sortHandMapLvl` -/

/-- The counters of the robot. -/
def counts : HighCounts :=
  ⟨s.uniHighHandCount, s.highHandCount, s.goodLowHandCount, s.handsTrioCount⟩

/-- The map, the summary and the counters of the robot replaced. -/
def setSorted (m : HandsMap) (summary : HandsMapSummary) (c : HighCounts) : AI :=
  { s with
    handsMap := m
    summary := summary
    uniHighHandCount := c.uniHigh
    highHandCount := c.high
    goodLowHandCount := c.goodLow
    handsTrioCount := c.trioCount }

/-- The first splitter of `sortHandMapLvl`, whose map is `handsMap`. -/
def sortFirst (m : HandsMap) : AI :=
  let c := s.countHighHand m s.counts
  let r := s.getHandsMapSummaryLvl m c
  s.setSorted r.1 r.2.2 r.2.1

/-- A later splitter: `tmpMap` is kept where `better` says so, with the summary
and counters of `handsMap` counted into `tmp`. -/
def sortLater (tmpMap : HandsMap) (tmp : HighCounts)
    (better : HandsMapSummary → HandsMapSummary → Bool) : AI × HighCounts :=
  let c := s.countHighHand s.handsMap tmp
  let r := s.getHandsMapSummaryLvl s.handsMap c
  let tmpSummary := r.2.2
  (if better s.summary tmpSummary then s.setSorted tmpMap tmpSummary r.2.1
    else { s with handsMap := r.1 }, r.2.1)

/-- `sortHandMapLvl`. -/
def sortHandMapLvl : AI :=
  if s.total s.lordSeat = 1 ∧ s.aiPosition ≠ .lord then
    let s := s.sortFirst (splitCardsToHandsKind4 s.aiPoints false)
    (s.sortLater (splitCardsToHandsKind5 s.aiPoints false) {} fun summary tmp =>
      tmp.soloCount < summary.soloCount
        || tmp.soloCount = summary.soloCount && summary.lowestSolo < tmp.lowestSolo).1
  else
    let better (summary tmp : HandsMapSummary) : Bool := !compareHandMapSummary summary tmp
    let s := s.sortFirst (splitCardsToHands .kind1 s.aiPoints false)
    let r := s.sortLater (splitCardsToHands .kind2 s.aiPoints false) {} better
    (r.1.sortLater (splitCardsToHands .kind3 s.aiPoints false) r.2 better).1

/-! ## The lord leads -/

/-- `addAllValue`. -/
def addAllValue (handsCount : HandType → Int) : Int := (HandType.all.map handsCount).sum

/-- `searchMap` where `charge` is not negative. Which of the counters it is
makes no difference later, since the search for a type sets `charge` to zero. -/
def searchMap : Option (HandType → Int) :=
  if 0 < addAllValue s.goodLowHandCount then some s.goodLowHandCount
  else if 0 < addAllValue s.highHandCount then some s.highHandCount
  else if 0 < addAllValue s.uniHighHandCount then some s.uniHighHandCount
  else none

/-- The type `findChargeHandFirstLvl` picks. Types come in increasing order, so
without `typeCountFirst` the first one stays. -/
def chargeType (searchMap : HandType → Int) (typeCountFirst : Bool) : Option HandType :=
  (HandType.all.filter fun t => 0 < searchMap t).foldl (fun hType t =>
    match hType with
    | none => some t
    | some t' =>
      if typeCountFirst ∧ (s.vec t').length < (s.vec t).length then some t else some t') none

/-- The hand of that type, with `charge = 0`. -/
def chargeOfType (t : HandType) : Option Hand :=
  let hands := s.vec t
  if isChain t then
    let uniHighLength :=
      (hands.filter fun h => s.findOppHighestChain t h.len < h.keyPoint).map Hand.len
    hands.find? fun h => h.keyPoint < s.findOppHighestChain t h.len && h.len ∈ uniHighLength
  else hands.head?

/-- `findChargeHandFirstLvl`. `searchMap` is a reference to `goodLowHandCount`,
so that the assignments to it go there. -/
def findChargeHandFirstLvl (hand : Hand) (typeCountFirst : Bool) : AI × Hand :=
  let found := s.searchMap.bind fun counts => s.chargeType counts typeCountFirst
  let s := { s with goodLowHandCount := s.searchMap.getD s.goodLowHandCount }
  match found.bind s.chargeOfType with
  | some h => (s, if h.type = .nothing then s.findChargeHandFirst u h typeCountFirst else h)
  | none => (s, s.findChargeHandFirst u hand.clear typeCountFirst)

/-- `isDangerLvl`. -/
def isDangerLvl : Bool :=
  let highBomb :=
    if s.aiSeat = s.lordSeat then
      max (getHighestBomb (s.pointsOf s.upSeat)) (getHighestBomb (s.pointsOf s.downSeat))
    else getHighestBomb (s.pointsOf s.lordSeat)
  if 0 < highBomb then
    match (s.vec .bomb).getLast? with
    | none => true
    | some b => b.keyPoint < highBomb
  else false

/-- `lordTakeOutFreeNormalLvl`. -/
def lordTakeOutFreeNormalLvl (hand : Hand) : AI × Hand :=
  if !s.isDangerLvl ∧ s.summary.effectiveHandsCount = 1 then
    if 0 < (s.vec .bomb).length ∧ s.summary.realHandsCount = 1 then (s, vecAt u (s.vec .bomb) 0)
    else s.findChargeHandFirstLvl u hand false
  else (s, s.findLowestHand hand)

/-- `lordTakeOutFreeFarmerOnly2CardsLvl`. The second test counts one farmer's
cards and looks at the pairs of the other. -/
def lordTakeOutFreeFarmerOnly2CardsLvl (hand : Hand) : Hand :=
  let pair := getLowestPairPoint (s.pointsOf s.nextSeat)
  if (s.total s.nextSeat = 2 ∨ s.total s.prevSeat = 2) ∧ pair ≤ card2 then
    s.lordTakeOutFreeFarmerOnly2Cards u hand
  else s.lordTakeOutFreeFarmerOnly1Card u hand

/-- `lordTakeOutFreeLvl`. -/
def lordTakeOutFreeLvl (hand : Hand) : AI × Hand :=
  if s.total s.nextSeat = 1 ∨ s.total s.prevSeat = 1 then
    (s, s.lordTakeOutFreeFarmerOnly1Card u hand)
  else if (s.total s.nextSeat = 2 ∨ s.total s.prevSeat = 2)
      ∧ (0 < (s.vec .solo).length ∨ 0 < (s.vec .pair).length) then
    (s, s.lordTakeOutFreeFarmerOnly2CardsLvl u hand)
  else s.lordTakeOutFreeNormalLvl u hand

end Lvl

end AI

end RobotDdz
