import RobotDdz.Split.Map

/-!
# The extraction passes

`getBomb`, `getTrio`, `getTrioChain`, `getPairChain`, `getSoloChain` and
`getNormalHand` of `AIUtils`, each taking cards out of `int cards[]` and
pushing hands. A scan over ranks with its own loop variable is a `whileLoop`
over a `Scan`; the fuels are bounds the loops cannot reach, as `soloScan_done`
shows for the one whose counter does not move at every round.

`getPairChain` is kept as it stands: its last loop runs `j <= hand.len`, one
rank further than the chain. So is `optimizeSoloChain`, which moves the end of
a chain by `ll` where it has tested `hl`.

Mirroring notes vs `AIUtils.cpp`:
- A pass that takes `vector<Hand> &` is a function on a `Pile`; one that takes
  the map itself is a function on a `Split`. `overVector` turns the first into
  the second.
- `getSoloChain` takes runs of five from the lowest rank on and looks again
  from the same rank. The rest of a longer run is left to `expandSoloChain`,
  which first grows every chain and then joins chains that meet.
- Iterators that are erased in a loop over a vector are list recursions here.
- Loop variables that a pass does not use afterwards are not part of its state.
-/

namespace RobotDdz

open Loops

/-! ## Bombs and trios -/

/-- `if (cards[i] == k) { hands.push_back({type, i}); cards[i] = 0; }` -/
def takeExact (k : Int) (type : HandType) (i : Nat) (p : Pile) : Pile :=
  if p.cards i = k then
    ⟨Function.update p.cards i 0, p.hands ++ [{ type := type, keyPoint := i }]⟩
  else p

/-- The rocket test shared by `getBomb` and `getNormalHand`. -/
def takeNuke (p : Pile) : Pile :=
  if p.cards blackJoker = 1 ∧ p.cards redJoker = 1 then
    ⟨Function.update (Function.update p.cards blackJoker 0) redJoker 0,
      p.hands ++ [{ type := .nuke, keyPoint := blackJoker }]⟩
  else p

/-- `getBomb`. -/
def getBomb : Split → Split :=
  overVector .bomb fun p => forUp (takeExact 4 .bomb) card3 (card2 + 1) (takeNuke p)

/-- `getTrio`. -/
def getTrio : Split → Split :=
  overVector .trio fun p => forUp (takeExact 3 .trio) card3 (card2 + 1) p

/-! ## Trio and pair chains -/

/-- A pass with its loop variable. -/
structure Scan where
  i : Nat
  pile : Pile

/-- The last rank of the run of ranks up to the ace that starts at `start` and
holds at least `m` cards each. -/
def runEnd (cards : Points) (m : Int) (start : Nat) : Nat :=
  whileLoop (fun e => e + 1 ≤ cardA && m ≤ cards (e + 1)) (· + 1) cardPointNum start

/-- One round of `getTrioChain`. The `do` loop leaves `i` one past the run and
the `++i` after it skips that rank too. -/
def trioChainStep (s : Scan) : Scan :=
  if 3 ≤ s.pile.cards s.i then
    let start := s.i
    let «end» := runEnd s.pile.cards 3 start
    if 1 ≤ «end» - start then
      let hand : Hand := { type := .trioChain, keyPoint := start, len := «end» - start + 1 }
      ⟨«end» + 2, s.pile.cards.addRange start («end» + 1 - start) (-3), s.pile.hands ++ [hand]⟩
    else ⟨«end» + 2, s.pile⟩
  else ⟨s.i + 1, s.pile⟩

/-- `getTrioChain`. -/
def getTrioChain : Split → Split := overVector .trioChain fun p =>
  (whileLoop (fun s : Scan => s.i ≤ cardK) trioChainStep cardPointNum ⟨card3, p⟩).pile

/-- Whether a round of `optimizePairChain` changes the hand. -/
def pairChainShrinks (cards : Points) (hand : Hand) : Bool :=
  3 < hand.len && (cards hand.keyPoint < cards (hand.keyPoint + hand.len - 1)
    || 2 < cards hand.keyPoint)

/-- One round of `optimizePairChain`. -/
def shrinkPairChain (cards : Points) (hand : Hand) : Hand :=
  if cards hand.keyPoint < cards (hand.keyPoint + hand.len - 1) then
    { hand with len := hand.len - 1 }
  else { hand with keyPoint := hand.keyPoint + 1, len := hand.len - 1 }

/-- `optimizePairChain`. -/
def optimizePairChain (cards : Points) (hand : Hand) : Hand :=
  whileLoop (pairChainShrinks cards) (shrinkPairChain cards) hand.len hand

/-- One round of `getPairChain`. The cards go for `j = 0 .. hand.len`, so the
rank after the chain loses two as well. -/
def pairChainStep (s : Scan) : Scan :=
  if 2 ≤ s.pile.cards s.i then
    let start := s.i
    let «end» := runEnd s.pile.cards 2 start
    if 2 ≤ «end» - start then
      let hand := optimizePairChain s.pile.cards
        { type := .pairChain, keyPoint := start, len := «end» - start + 1 }
      ⟨«end» + 2, s.pile.cards.addRange hand.keyPoint (hand.len + 1) (-2), s.pile.hands ++ [hand]⟩
    else ⟨«end» + 2, s.pile⟩
  else ⟨s.i + 1, s.pile⟩

/-- `getPairChain`. -/
def getPairChain : Split → Split := overVector .pairChain fun p =>
  (whileLoop (fun s : Scan => s.i ≤ cardQ) pairChainStep cardPointNum ⟨card3, p⟩).pile

/-! ## Solo chains -/

/-- The end of the run of at most five ranks from `start`. -/
def soloEnd (cards : Points) (start : Nat) : Nat :=
  whileLoop (fun e => e + 1 ≤ cardA && 1 ≤ cards (e + 1) && e - start < 4) (· + 1) 4 start

/-- One round of the scan of `getSoloChain`. A five-run leaves `i` where it is. -/
def soloChainStep (s : Scan) : Scan :=
  if 1 ≤ s.pile.cards s.i then
    let start := s.i
    let «end» := soloEnd s.pile.cards start
    if 4 ≤ «end» - start then
      let hand : Hand := { type := .soloChain, keyPoint := start, len := «end» - start + 1 }
      ⟨s.i, s.pile.cards.addRange start («end» + 1 - start) (-1), s.pile.hands ++ [hand]⟩
    else ⟨«end» + 1, s.pile⟩
  else ⟨s.i + 1, s.pile⟩

/-- The scan condition of `getSoloChain`. -/
def soloChainCond (s : Scan) : Bool := s.i ≤ cardT

/-- The rounds the scan can take: each moves `i` or takes a card at a rank up
to the ten. -/
def soloFuel (cards : Points) : Nat :=
  cardT + 1 + ((List.range (cardT + 1)).map fun r => (cards r).toNat).sum

/-- The state of the first loop of `expandSoloChain` at one chain. -/
structure Extend where
  cards : Points
  hand : Hand

/-- `newEnd <= CARD_A && cards[newEnd] > 0`. -/
def extendCond (e : Extend) : Bool :=
  e.hand.keyPoint + e.hand.len ≤ cardA && 0 < e.cards (e.hand.keyPoint + e.hand.len)

/-- Growing a chain by one rank; `newEnd` is `keyPoint + len` throughout. -/
def extendStep (e : Extend) : Extend :=
  ⟨e.cards.addRange (e.hand.keyPoint + e.hand.len) 1 (-1), { e.hand with len := e.hand.len + 1 }⟩

/-- The first loop of `expandSoloChain`, at one chain. -/
def extendChain (cards : Points) (it : Hand) : Points × Hand :=
  let e := whileLoop extendCond extendStep cardPointNum ⟨cards, it⟩
  (e.cards, e.hand)

/-- The first chain that starts where `it` ends, and the others. -/
def findFollower (it : Hand) : List Hand → Option (Hand × List Hand)
  | [] => none
  | newIt :: rest =>
    if it.keyPoint + it.len = newIt.keyPoint then some (newIt, rest)
    else (findFollower it rest).map fun x => (x.1, newIt :: x.2)

/-- The second loop of `expandSoloChain`: each chain swallows at most one
follower, which is erased from the vector. -/
def mergeChains : (fuel : Nat) → List Hand → List Hand
  | _, [] => []
  | 0, soloChains => soloChains
  | fuel + 1, it :: rest =>
    match findFollower it rest with
    | some (newIt, rest') => { it with len := it.len + newIt.len } :: mergeChains fuel rest'
    | none => it :: mergeChains fuel rest

/-- `expandSoloChain`. -/
def expandSoloChain (p : Pile) : Pile :=
  let s := mapState extendChain p.cards p.hands
  ⟨s.1, mergeChains s.2.length s.2⟩

/-- How many of the first `n` ranks from `start` upwards still hold cards. -/
def lowLen (cards : Points) (start n : Nat) : Nat :=
  whileLoop (fun ll => ll < n && 0 < cards (start + ll)) (· + 1) n 0

/-- How many of the first `n` ranks from `end` downwards still hold cards. -/
def highLen (cards : Points) («end» n : Nat) : Nat :=
  whileLoop (fun hl => hl < n && 0 < cards («end» - hl)) (· + 1) n 0

/-- The first loop of `optimizeSoloChain`, at one chain: a long chain gives
three or more ranks back at an end that still has cards. The high end moves by
`ll`. -/
def trimPairs (cards : Points) (it : Hand) : Points × Hand :=
  let start := it.keyPoint
  let «end» := it.keyPoint + it.len - 1
  let maxPairLen := it.len - 5
  if 3 ≤ maxPairLen then
    let ll := lowLen cards start maxPairLen
    let hl := highLen cards «end» maxPairLen
    let low : Bool := 3 ≤ ll && (hl ≤ ll || ll + hl ≤ maxPairLen)
    let high : Bool := 3 ≤ hl && (ll < hl || ll + hl ≤ maxPairLen)
    let newStart := if low then start + ll else start
    let newEnd := if high then «end» - ll else «end»
    ((cards.addRange start (newStart - start) 1).addRange (newEnd + 1) («end» - newEnd) 1,
      { it with keyPoint := newStart, len := newEnd + 1 - newStart })
  else (cards, it)

/-- The two ends the second loop of `optimizeSoloChain` moves. -/
structure Ends where
  newStart : Nat
  newEnd : Nat

/-- The loop of `optimizeSoloChain` goes on: the chain is longer than five and
one of its two end tests holds. -/
def trimCond (cards : Points) (e : Ends) : Bool :=
  5 ≤ e.newEnd - e.newStart
    && (0 < cards e.newStart && cards e.newEnd ≤ cards e.newStart
      || cards e.newStart < cards e.newEnd)

/-- One end moves inwards by one rank. -/
def trimStep (cards : Points) (e : Ends) : Ends :=
  if 0 < cards e.newStart ∧ cards e.newEnd ≤ cards e.newStart then ⟨e.newStart + 1, e.newEnd⟩
  else ⟨e.newStart, e.newEnd - 1⟩

/-- The second loop of `optimizeSoloChain`, at one chain. -/
def trimEnds (cards : Points) (it : Hand) : Points × Hand :=
  let start := it.keyPoint
  let «end» := it.keyPoint + it.len - 1
  let e := whileLoop (trimCond cards) (trimStep cards) it.len ⟨start, «end»⟩
  ((cards.addRange start (e.newStart - start) 1).addRange (e.newEnd + 1) («end» - e.newEnd) 1,
    { it with keyPoint := e.newStart, len := e.newEnd + 1 - e.newStart })

/-- `optimizeSoloChain`. -/
def optimizeSoloChain (p : Pile) : Pile :=
  let s := mapState trimPairs p.cards p.hands
  let s' := mapState trimEnds s.1 s.2
  ⟨s'.1, s'.2⟩

/-- The five-run extraction of `getSoloChain`. -/
def soloScan (p : Pile) : Pile :=
  (whileLoop soloChainCond soloChainStep (soloFuel p.cards) ⟨card3, p⟩).pile

/-- `getSoloChain`. -/
def getSoloChain : Split → Split :=
  overVector .soloChain fun p => optimizeSoloChain (expandSoloChain (soloScan p))

/-! ## What is left -/

/-- `if (cards[i] == k) { handMap[t].push_back({t, i}); cards[i] = 0; }` -/
def pushExact (k : Int) (t : HandType) (i : Nat) (s : Split) : Split :=
  if s.cards i = k then
    ⟨Function.update s.cards i 0, s.handMap.push t { type := t, keyPoint := i }⟩
  else s

/-- The body of the loop of `getNormalHand`. -/
def normalStep (i : Nat) (s : Split) : Split :=
  let s₁ := if s.cards i = 4 then pushExact 4 .bomb i s else pushExact 3 .trio i s
  pushExact 1 .solo i (pushExact 2 .pair i s₁)

/-- The rocket test of `getNormalHand`. -/
def pushNuke (s : Split) : Split :=
  if s.cards blackJoker = 1 ∧ s.cards redJoker = 1 then
    ⟨Function.update (Function.update s.cards blackJoker 0) redJoker 0,
      s.handMap.push .bomb { type := .nuke, keyPoint := blackJoker }⟩
  else s

/-- `getNormalHand`. -/
def getNormalHand (s : Split) : Split := forUp normalStep card3 (redJoker + 1) (pushNuke s)

end RobotDdz
