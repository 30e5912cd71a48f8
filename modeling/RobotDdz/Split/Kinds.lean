import RobotDdz.Split.Passes

/-!
# Kickers and the five splitters

`findKickerForTrioOrTrioChain` moves solos and pairs of the map into the trio
chains and trios; `splitCardsToHandsKind1` to `Kind5` are the extraction passes
in five orders with that step at the end. All of them evaluate `handMap[...]`
as a side effect, and the keys that leaves behind are counted by
`getHandsMapSummary`, so the `touch`es are part of the embedding.

Mirroring notes vs `AIUtils.cpp`:
- A splitter clears the map it is given, so the model starts from the empty
  one. The order of its passes is the source's, kind by kind; kinds 4 and 5
  have no pair chain pass.
- `findKickerForTrioOrTrioChain` erases the bodies and kickers it uses from
  their vectors and pushes the kicked hand to the vector of its new type.
  Kickers go into the slots in the order in which they are found.
- A trio takes the lower of the first solo and the first pair. The trios come
  after the trio chains.
- `usefulSoloCount` does not count two jokers together, although one of them
  could be used.
-/

namespace RobotDdz

open Loops

/-- The keys of the first `n` hands that pass the test, and the other hands. -/
def pickKickers (ok : Hand → Bool) : (n : Nat) → List Hand → List Nat × List Hand
  | 0, hands => ([], hands)
  | _, [] => ([], [])
  | n + 1, h :: hands =>
    if ok h then
      let r := pickKickers ok n hands
      (h.keyPoint :: r.1, r.2)
    else
      let r := pickKickers ok (n + 1) hands
      (r.1, h :: r.2)

/-- Whether the key of a hand lies outside a chain. -/
def outsideChain (tChain h : Hand) : Bool :=
  h.keyPoint < tChain.keyPoint || tChain.keyPoint + tChain.len - 1 < h.keyPoint

/-- `usefulSoloCount`: the solos outside the chain, two fewer when both jokers
are among the solos. -/
def usefulSoloCount (tChain : Hand) (solos : List Hand) : Int :=
  let jokerCount := solos.countP fun h => h.keyPoint = blackJoker || h.keyPoint = redJoker
  let useful : Int := solos.countP (outsideChain tChain)
  if jokerCount = 2 then useful - 2 else useful

/-- The loop over the trio chains; it stops at the first chain it has no
kickers for. -/
def kickTrioChains : (fuel : Nat) → HandsMap → HandsMap
  | 0, m => m
  | fuel + 1, m =>
    match m.vec .trioChain with
    | [] => m
    | tChain :: rest =>
      let m := m.touch .solo
      if (tChain.len : Int) ≤ usefulSoloCount tChain (m.vec .solo) then
        let k := pickKickers (outsideChain tChain) tChain.len (m.vec .solo)
        let m := (m.put .solo k.2).push .trioChainSolo
          { tChain with type := .trioChainSolo, kicker := k.1 }
        kickTrioChains fuel (m.put .trioChain rest)
      else
        let m := m.touch .pair
        if tChain.len ≤ (m.vec .pair).length then
          let k := pickKickers (fun _ => true) tChain.len (m.vec .pair)
          let m := (m.put .pair k.2).push .trioChainPair
            { tChain with type := .trioChainPair, kicker := k.1 }
          kickTrioChains fuel (m.put .trioChain rest)
        else m

/-- The loop over the trios: each takes the lower of the first solo and the
first pair. -/
def kickTrios : (fuel : Nat) → HandsMap → HandsMap
  | 0, m => m
  | fuel + 1, m =>
    match m.vec .trio with
    | [] => m
    | trio :: rest =>
      let m := (m.touch .solo).touch .pair
      match m.vec .solo, m.vec .pair with
      | [], [] => m
      | [], p :: pairs =>
        kickTrios fuel (((m.put .pair pairs).push .trioPair
          { trio with type := .trioPair, kicker := [p.keyPoint] }).put .trio rest)
      | s :: solos, [] =>
        kickTrios fuel (((m.put .solo solos).push .trioSolo
          { trio with type := .trioSolo, kicker := [s.keyPoint] }).put .trio rest)
      | s :: solos, p :: pairs =>
        if p.keyPoint < s.keyPoint then
          kickTrios fuel (((m.put .pair pairs).push .trioPair
            { trio with type := .trioPair, kicker := [p.keyPoint] }).put .trio rest)
        else
          kickTrios fuel (((m.put .solo solos).push .trioSolo
            { trio with type := .trioSolo, kicker := [s.keyPoint] }).put .trio rest)

/-- `findKickerForTrioOrTrioChain`. -/
def findKickerForTrioOrTrioChain (handMap : HandsMap) : HandsMap :=
  let m := handMap.touch .trioChain
  let m := kickTrioChains (m.vec .trioChain).length m
  let m := m.touch .trio
  kickTrios (m.vec .trio).length m

/-- `if (searchKicker) findKickerForTrioOrTrioChain(handMap);` -/
def withKickers (searchKicker : Bool) (s : Split) : HandsMap :=
  if searchKicker then findKickerForTrioOrTrioChain s.handMap else s.handMap

/-- `splitCardsToHandsKind1`. -/
def splitCardsToHandsKind1 (cards : Points) (searchKicker : Bool) : HandsMap :=
  withKickers searchKicker <| getNormalHand <| getPairChain <| getTrioChain <| getBomb <|
    getSoloChain ⟨cards, .empty⟩

/-- `splitCardsToHandsKind2`. -/
def splitCardsToHandsKind2 (cards : Points) (searchKicker : Bool) : HandsMap :=
  withKickers searchKicker <| getNormalHand <| getPairChain <| getSoloChain <| getTrioChain <|
    getBomb ⟨cards, .empty⟩

/-- `splitCardsToHandsKind3`. -/
def splitCardsToHandsKind3 (cards : Points) (searchKicker : Bool) : HandsMap :=
  withKickers searchKicker <| getNormalHand <| getTrioChain <| getPairChain <| getBomb <|
    getSoloChain ⟨cards, .empty⟩

/-- `splitCardsToHandsKind4`. -/
def splitCardsToHandsKind4 (cards : Points) (searchKicker : Bool) : HandsMap :=
  withKickers searchKicker <| getNormalHand <| getBomb <| getSoloChain ⟨cards, .empty⟩

/-- `splitCardsToHandsKind5`. -/
def splitCardsToHandsKind5 (cards : Points) (searchKicker : Bool) : HandsMap :=
  withKickers searchKicker <| getNormalHand <| getSoloChain <| getTrio <| getBomb ⟨cards, .empty⟩

/-! ## The splitters around `getPairChain` -/

/-- The splitters `sortHandsWithBestKind` chooses from. -/
inductive Kind where
  | kind1
  | kind2
  | kind3
deriving DecidableEq, Repr

/-- The splitter of a kind. -/
def splitCardsToHands : Kind → Points → Bool → HandsMap
  | .kind1 => splitCardsToHandsKind1
  | .kind2 => splitCardsToHandsKind2
  | .kind3 => splitCardsToHandsKind3

/-- What a splitter hands to `getPairChain`. -/
def beforePairChain : Kind → Points → Split
  | .kind1, cards => getTrioChain <| getBomb <| getSoloChain ⟨cards, .empty⟩
  | .kind2, cards => getSoloChain <| getTrioChain <| getBomb ⟨cards, .empty⟩
  | .kind3, cards => getBomb <| getSoloChain ⟨cards, .empty⟩

/-- What it does between `getPairChain` and `getNormalHand`. -/
def afterPairChain : Kind → Split → Split
  | .kind3 => getTrioChain
  | _ => id

theorem splitCardsToHands_eq (k : Kind) (cards : Points) (searchKicker : Bool) :
    splitCardsToHands k cards searchKicker = withKickers searchKicker
      (getNormalHand (afterPairChain k (getPairChain (beforePairChain k cards)))) := by
  cases k <;> simp only [splitCardsToHands, splitCardsToHandsKind1, splitCardsToHandsKind2,
    splitCardsToHandsKind3, beforePairChain, afterPairChain, id]

end RobotDdz
