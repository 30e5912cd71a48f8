import RobotDdz.Split.Summary

/-!
# The state of the robot

The fields of `OGLordRobotAI` and the analysis every turn starts with: the
lowest controlling rank, the control count and the map of hands.

Mirroring notes:
- Seats are `int`s, `-1` where none is known yet. `%` truncates in C and is
  never negative here, so that `(seat + 1) % 3` is the same for every seat from
  `-1` on, which is all that a seat of the table or an unset one can be.
- `playerInfo` is an array of three in the source and a function here. An index
  outside it leaves the array there and has an entry of its own here; where an
  index can go wrong, the results say so of the index (`Task/Order`) and
  nothing of what is read.
- `errCode` is never written and is left out.
- A read through `handsMap[t]` inserts an empty vector in the source. The reads
  below do not, since after `sortHandMap` nothing tells an absent key from an
  empty vector.
- The control counts are kept in `int`s and may overflow (`asInt`).
-/

namespace RobotDdz

open Loops

/-- `enum Position`, relative to the lord. -/
inductive Position where
  | lord
  | upFarmer
  | downFarmer
deriving DecidableEq, Repr

/-- The `int` value of `DOWNFARMER`, which the source compares seats with. -/
def Position.toInt : Position → Int
  | .lord => 0
  | .upFarmer => 1
  | .downFarmer => 2

/-- `struct CardsInfo`; the points of a player whose cards are not known are
`-1`. -/
structure CardsInfo where
  points : Points := Points.zero
  total : Int := 0

/-- `class OGLordRobotAI`. -/
structure AI where
  level : Int := 0
  aiSeat : Int := -1
  lordSeat : Int := -1
  downSeat : Int := -1
  upSeat : Int := -1
  aiPosition : Position := .lord
  leftoverCards : List Int := []
  aiCardsVec : List Int := []
  vecLastTakeOutCards : List Int := []
  playerInfo : Int → CardsInfo := fun _ => {}
  remainPoints : Points := Points.zero
  otherPoints : Points := Points.zero
  handsMap : HandsMap := .empty
  summary : HandsMapSummary := {}
  uniHighHandCount : HandType → Int := fun _ => 0
  highHandCount : HandType → Int := fun _ => 0
  goodLowHandCount : HandType → Int := fun _ => 0
  handsTrioCount : Int := 0
  lowestControl : Nat := card3
  controlNum : Int := 0
  maxOppNumber : Int := 0
  minOppNumber : Int := 0
  curScore : Int := 0
  curCaller : Int := -1
  curHand : Hand := {}
  curHandSeat : Int := -1
  callHistory : List (Int × Int) := []
  history : List (Int × Hand) := []
  mustHighLevel : Bool := false

/-- `playerInfo[aiSeat].points`. -/
def AI.aiPoints (s : AI) : Points := (s.playerInfo s.aiSeat).points

/-- `playerInfo[seat].total`. -/
def AI.total (s : AI) (seat : Int) : Int := (s.playerInfo seat).total

/-! ## The controlling cards -/

/-- What an `int` holds after arithmetic that comes to `x`. Beyond its range
the language leaves the value open; here it wraps around, as it does on the
machines the robot runs on. -/
def asInt (x : Int) : Int := x.bmod 4294967296

/-- A whole number of turns away from `x`, within the range of an `int`. -/
theorem asInt_spec (x : Int) : ∃ k, asInt x = x - 4294967296 * k ∧
    -2147483648 ≤ asInt x ∧ asInt x ≤ 2147483647 := by
  refine ⟨x.bdiv 4294967296, Int.bmod_eq_self_sub_mul_bdiv x 4294967296, ?_, ?_⟩
  · exact Int.le_bmod (by decide)
  · exact Int.le_of_lt_add_one (Int.bmod_lt (by decide))

theorem asInt_of_fits {x : Int} (hlo : -2147483648 ≤ x) (hhi : x ≤ 2147483647) :
    asInt x = x := by
  obtain ⟨k, heq, hlo', hhi'⟩ := asInt_spec x
  omega

@[simp] theorem asInt_add_asInt (x y : Int) : asInt (asInt x + y) = asInt (x + y) :=
  Int.bmod_add_bmod

@[simp] theorem asInt_asInt_add (x y : Int) : asInt (x + asInt y) = asInt (x + y) :=
  Int.add_bmod_bmod

/-- `count += points[i]` over the ranks, in an `int`. -/
def intSum (points : Points) (is : List Nat) : Int :=
  is.foldl (fun count i => asInt (count + points i)) 0

/-- The running sum wraps to the same value as the sum. -/
theorem intSum_eq (points : Points) (is : List Nat) :
    intSum points is = asInt ((is.map points).sum) := by
  have hfrom : ∀ (is : List Nat) (c : Int), is.foldl (fun count i => asInt (count + points i))
      (asInt c) = asInt (c + (is.map points).sum) := by
    intro is
    induction is with
    | nil => intro c; rw [List.map_nil, List.sum_nil, Int.add_zero]; rfl
    | cons i is ih =>
      intro c
      rw [List.foldl_cons, asInt_add_asInt, ih, List.map_cons, List.sum_cons, Int.add_assoc]
  have h := hfrom is 0
  rwa [Int.zero_add] at h

/-- The loop of `getLowestControl`, over the ranks still to count. -/
def lowestControlFrom (remainPoints : Points) : List Nat → Int → Nat
  | [], _ => card3
  | i :: is, count =>
    if 6 ≤ asInt (count + remainPoints i) then i
    else lowestControlFrom remainPoints is (asInt (count + remainPoints i))

/-- `getLowestControl`: the highest rank with six unplayed cards at or above
it. -/
def getLowestControl (remainPoints : Points) : Nat :=
  lowestControlFrom remainPoints (List.range (redJoker + 1)).reverse 0

/-- The local variables of `calControl`. `mine` says whether the next card is
to come from the robot, `last` who played the last one. -/
structure ControlScan where
  myCon : Points
  oppCon : Points
  myConNum : Int
  oppConNum : Int
  ret : Int := 0
  mine : Bool := true
  last : Option Bool := none

/-- One rank of the `for` loop of `calControl`. -/
def controlRank (i : Nat) (x : ControlScan) : ControlScan :=
  if x.mine then
    if 0 < x.myCon i then
      { x with
        myCon := Function.update x.myCon i (x.myCon i - 1), myConNum := x.myConNum - 1
        last := some true, mine := false }
    else x
  else if 0 < x.oppCon i then
    { x with
      oppCon := Function.update x.oppCon i (x.oppCon i - 1), oppConNum := x.oppConNum - 1
      last := some false, mine := true }
  else x

/-- One round of the `while` loop of `calControl`. -/
def controlRound (lowestControl : Nat) (x : ControlScan) : ControlScan :=
  let x := forUp controlRank lowestControl (redJoker + 1 - lowestControl)
    { x with mine := true, last := none }
  match x.last with
  | some true => { x with ret := asInt (x.ret + 10) }
  | some false => { x with ret := asInt (x.ret - 1) }
  | none => x

/-- `calControl`. A round with a card of the robot left plays one of them, so
the loop ends within `myConNum` rounds, unless the sum of the robot's cards has
wrapped from below (`calControl_bounded_iff`). A round begins with both
counters above zero and takes at most a card a rank, so they stay within an
`int`. -/
def calControl (myPoints oppPoints : Points) (lowestControl : Nat) : Int :=
  let ranks := List.range' lowestControl (redJoker + 1 - lowestControl)
  let myConNum := intSum myPoints ranks
  let x := whileLoop (fun x => 0 < x.myConNum && 0 < x.oppConNum) (controlRound lowestControl)
    myConNum.toNat
    { myCon := myPoints, oppCon := oppPoints, myConNum, oppConNum := intSum oppPoints ranks }
  max (asInt (x.ret + asInt (10 * x.myConNum))) 0 / 10

namespace AI

/-- `updateAiPosition`. -/
def updateAiPosition (s : AI) : AI :=
  let diff := s.aiSeat - s.lordSeat
  { s with
    aiPosition :=
      if s.lordSeat = s.aiSeat then .lord
      else if diff = 1 ∨ diff = -2 then .downFarmer
      else .upFarmer }

/-- The seats that are not the robot's, `0 .. PLAYER_NUM - 1`. -/
def oppSeats (s : AI) : List Int := [0, 1, 2].filter (· ≠ s.aiSeat)

/-- The first half of `sortHandMap`: how many cards the opponents hold at most
and at least. -/
def countOpponents (s : AI) : AI :=
  if s.lordSeat = -1 ∨ s.lordSeat = s.aiSeat then
    { s with
      maxOppNumber := s.oppSeats.foldl (fun n i => max n (s.total i)) 0
      minOppNumber := s.oppSeats.foldl (fun n i => min n (s.total i)) 20 }
  else { s with maxOppNumber := s.total s.lordSeat, minOppNumber := s.total s.lordSeat }

/-- `sortHandMap`. -/
def sortHandMap (u : Undef) (s : AI) : AI :=
  let s := s.countOpponents
  let best := sortHandsWithBestKind u s.aiPoints s.lowestControl s.maxOppNumber s.otherPoints true
  { s with handsMap := best.1, summary := best.2 }

/-- What the sorting writes. -/
theorem sortHandMap_eq (u : Undef) (s : AI) : ∃ m summary maxOpp minOpp,
    s.sortHandMap u = { s with
      handsMap := m, summary := summary, maxOppNumber := maxOpp, minOppNumber := minOpp } := by
  unfold sortHandMap countOpponents
  dsimp only
  split <;> exact ⟨_, _, _, _, rfl⟩

/-- `isFree`. -/
def isFree (s : AI) : Bool :=
  (s.aiPosition = .lord && s.curHandSeat = -1) || s.curHandSeat = s.aiSeat

end AI

end RobotDdz
