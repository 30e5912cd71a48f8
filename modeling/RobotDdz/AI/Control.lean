import RobotDdz.AI.Counter
import Mathlib.Algebra.Order.BigOperators.Group.List

/-!
# Controls

The two numbers every turn starts with.

`calControl` plays the robot's controlling cards against the others' from
below, in rounds: `controlRound` takes one card of the robot at least while it
has one (`controlRound_consumes`), so the loop ends, and what the round scores
is paid for by the cards it takes (`ControlPaid`), so the result is at most the
number of the robot's cards.

Both functions add in `int`s. Of the sums of `calControl` two can leave the
range and do harm: the robot's own cards from below, when the counter says
there are cards where there are none and the loop does not end, and ten times
their number from above. `calControl_bounded_iff` has the two bounds.

`getLowestControl` is monotone in the counts it scans as long as the sums are
`int`s, and the counts of the unplayed cards only fall. So the threshold never
rises within a deal (`lowestControl_never_rises`): what is stored is the
threshold of some earlier counts, at the start `CARD_2` of a full deck.

Mirroring notes vs `AIUtils.cpp`:
- The loop of `calControl` runs while both sides have cards left by its own
  counters, `myConNum` and `oppConNum`, and not by the maps. `ControlScan` has
  both, and `controlAfter` is the loop cut off after a number of rounds, for
  the statement that it ends.
- `myCon` and `oppCon` are `map<int, int>` copies of the counts from the
  threshold on, so the caller's arrays stay as they are.
- `getLowestControl` goes down from the red joker and stops at the first rank
  where six cards or more have been counted, the rank's own included.
-/

namespace RobotDdz

open Loops Runs

/-! ## The rounds of `calControl` -/

/-- Cards at ranks `lo .. hi - 1`. -/
def cardsIn (points : Points) (lo n : Nat) : Int := ((List.range' lo n).map points).sum

/-- The cards of a range by its first rank and the others. -/
theorem cardsIn_succ (points : Points) (lo n : Nat) :
    cardsIn points lo (n + 1) = points lo + cardsIn points (lo + 1) n := by
  unfold cardsIn
  rw [List.range'_succ, List.map_cons, List.sum_cons]

/-- Higher counts make more cards. -/
theorem cardsIn_mono {p q : Points} {lo n : Nat} (h : ∀ r, lo ≤ r → r < lo + n → p r ≤ q r) :
    cardsIn p lo n ≤ cardsIn q lo n := by
  apply List.sum_le_sum
  intro r hr
  have hin := List.mem_range'_1.mp hr
  exact h r hin.1 hin.2

@[simp] theorem cardsIn_zero (lo n : Nat) : cardsIn Points.zero lo n = 0 := by
  induction n generalizing lo with
  | zero => rfl
  | succ n ih => rw [cardsIn_succ, ih, Points.zero_apply, Int.zero_add]

/-- A card less at one rank of the range is a card less in its sum. The
induction is on the range: the rank is its first one, or in the rest. -/
theorem cardsIn_update (points : Points) {i : Nat} (v : Int) :
    ∀ (n lo : Nat), lo ≤ i → i < lo + n →
      cardsIn (Function.update points i v) lo n = cardsIn points lo n + (v - points i) := by
  have hout : ∀ (n lo : Nat), i < lo →
      cardsIn (Function.update points i v) lo n = cardsIn points lo n := by
    intro n lo hlt
    unfold cardsIn
    congr 1
    apply List.map_congr_left
    intro r hr
    have hne : r ≠ i := by
      have := (List.mem_range'_1.mp hr).1
      omega
    exact Function.update_of_ne hne v points
  intro n
  induction n with
  | zero => intro lo hlo hhi; omega
  | succ n ih =>
    intro lo hlo hhi
    rw [cardsIn_succ, cardsIn_succ]
    by_cases heq : lo = i
    · rw [heq, Function.update_self, hout n (i + 1) (Nat.lt_succ_self i)]
      omega
    · rw [Function.update_of_ne heq, ih (lo + 1) (by omega) (by omega)]
      omega

/-- The state of a round before rank `i`: the counter follows the map, a rank
takes one card at most, and either a card of the robot has been played or there
was none up to here. -/
structure RoundAt (lo n : Nat) (start : ControlScan) (i : Nat) (x : ControlScan) : Prop where
  counter : x.myConNum - cardsIn x.myCon lo n = start.myConNum - cardsIn start.myCon lo n
  ret : x.ret = start.ret
  within : start.myConNum + lo ≤ x.myConNum + i
  played : x.myConNum < start.myConNum ∨
    x.myConNum = start.myConNum ∧ x.mine = true ∧ x.myCon = start.myCon ∧
      ∀ r, lo ≤ r → r < i → start.myCon r ≤ 0

/-- One rank of a round: the side whose turn it is plays a card of it, or has
none. The counters follow in either case. -/
theorem RoundAt.step {lo n i : Nat} {start x : ControlScan} (hlo : lo ≤ i) (hhi : i < lo + n)
    (h : RoundAt lo n start i x) : RoundAt lo n start (i + 1) (controlRank i x) := by
  have hplayed := h.played
  have hwithin := h.within
  unfold controlRank
  split
  next hmine =>
    split
    next hpos =>
      -- a card of the robot goes
      refine ⟨?_, h.ret, ?_, Or.inl ?_⟩
      · have := h.counter
        rw [cardsIn_update x.myCon _ n lo hlo hhi]
        dsimp only
        omega
      · show _ ≤ x.myConNum - 1 + ((i + 1 : Nat) : Int)
        omega
      · show x.myConNum - 1 < start.myConNum
        omega
    next hpos =>
      refine ⟨h.counter, h.ret, by omega, hplayed.imp_right fun hnone => ?_⟩
      obtain ⟨hnum, hm, hcon, hzero⟩ := hnone
      refine ⟨hnum, hm, hcon, fun r hr hri => ?_⟩
      by_cases heq : r = i
      · rw [heq, ← hcon]
        exact Int.not_lt.mp hpos
      · exact hzero r hr (by omega)
  next hmine =>
    have hless : x.myConNum < start.myConNum :=
      hplayed.resolve_right fun hnone => hmine hnone.2.1
    split
    · refine ⟨h.counter, h.ret, ?_, Or.inl hless⟩
      show _ ≤ x.myConNum + ((i + 1 : Nat) : Int)
      omega
    · exact ⟨h.counter, h.ret, by omega, Or.inl hless⟩

/-- The number of ranks from the threshold on. -/
def controlRanks (lowestControl : Nat) : Nat := redJoker + 1 - lowestControl

/-- What the loop keeps, from a count of `bound`: the counter is within what is
left in the map, what is scored so far and still to score is within the cards
there were, and each card lost has cost a point at most. The score is what
`ret` has wrapped from. -/
structure ControlPaid (lowestControl : Nat) (bound : Int) (x : ControlScan) : Prop where
  counter : x.myConNum ≤ cardsIn x.myCon lowestControl (controlRanks lowestControl)
  above : min bound (-15) ≤ x.myConNum
  paid : ∃ score, x.ret = asInt score ∧ score + 10 * x.myConNum ≤ 10 * bound ∧
    x.myConNum - bound ≤ score

/-- What a round makes of the state its ranks leave: the counts are theirs, and
`ret` moves by at least `-1` and at most `10`, which is added in 32 bits as the
source adds it. -/
theorem controlRound_scores (lowestControl : Nat) (x : ControlScan) :
    let y := forUp controlRank lowestControl (controlRanks lowestControl)
      { x with mine := true, last := none }
    (controlRound lowestControl x).myConNum = y.myConNum ∧
      (controlRound lowestControl x).myCon = y.myCon ∧
      ∀ score, y.ret = asInt score → ∃ gain, -1 ≤ gain ∧ gain ≤ 10 ∧
        (controlRound lowestControl x).ret = asInt (score + gain) := by
  intro y
  unfold controlRound
  have hy : forUp controlRank lowestControl (redJoker + 1 - lowestControl)
    { x with mine := true, last := none } = y := rfl
  rw [hy]
  dsimp only
  cases y.last with
  | none =>
    refine ⟨rfl, rfl, fun score hscore => ⟨0, by decide, by decide, ?_⟩⟩
    rw [Int.add_zero]
    exact hscore
  | some mine =>
    cases mine with
    | false =>
      refine ⟨rfl, rfl, fun score hscore => ⟨-1, by decide, by decide, ?_⟩⟩
      show asInt (y.ret - 1) = _
      rw [hscore, Int.sub_eq_add_neg, asInt_add_asInt]
    | true =>
      refine ⟨rfl, rfl, fun score hscore => ⟨10, by decide, by decide, ?_⟩⟩
      show asInt (y.ret + 10) = _
      rw [hscore, asInt_add_asInt]

/-- A round with a card of the robot left plays one, so the number of its cards
is what falls from round to round. The invariant keeps the account: what `ret`
can have gained is paid for by the cards played. -/
theorem controlRound_consumes {lowestControl : Nat} {bound : Int} {x : ControlScan}
    (h : ControlPaid lowestControl bound x) (hpos : 0 < x.myConNum) :
    ControlPaid lowestControl bound (controlRound lowestControl x) ∧
      (controlRound lowestControl x).myConNum < x.myConNum := by
  have hstart : RoundAt lowestControl (controlRanks lowestControl)
      { x with mine := true, last := none } lowestControl { x with mine := true, last := none } :=
    ⟨rfl, rfl, Int.le_refl _,
      Or.inr ⟨rfl, rfl, rfl, fun r hr hlt => absurd hr (Nat.not_le.mpr hlt)⟩⟩
  obtain ⟨hnum, hcon, hret⟩ := controlRound_scores lowestControl x
  have hend : RoundAt lowestControl (controlRanks lowestControl)
      { x with mine := true, last := none } (lowestControl + controlRanks lowestControl)
      (forUp controlRank lowestControl (controlRanks lowestControl)
        { x with mine := true, last := none }) :=
    forUp_inv (RoundAt lowestControl (controlRanks lowestControl) _) lowestControl
      (controlRanks lowestControl) (fun i y hlo hhi hy => hy.step hlo hhi) hstart
  generalize forUp controlRank lowestControl (controlRanks lowestControl)
    { x with mine := true, last := none } = y at hnum hcon hret hend
  obtain ⟨hcounter, hkept, hwithin, hplayed⟩ := hend
  dsimp only at hcounter hkept hwithin hplayed
  have hless : (controlRound lowestControl x).myConNum < x.myConNum := by
    rw [hnum]
    cases hplayed with
    | inl hlt => exact hlt
    | inr hnone =>
      -- no rank with a card of the robot, so there is none
      have hle := cardsIn_mono (p := x.myCon) (q := Points.zero) hnone.2.2.2
      rw [cardsIn_zero] at hle
      exact absurd (Int.le_trans h.counter hle) (Int.not_le.mpr hpos)
  obtain ⟨score, hscore, hpaid, hlost⟩ := h.paid
  refine ⟨⟨?_, ?_, ?_⟩, hless⟩
  · have hx := h.counter
    rw [hnum, hcon]
    omega
  · have hranks : controlRanks lowestControl ≤ 15 := Nat.sub_le _ _
    have habove := h.above
    rw [hnum]
    omega
  · obtain ⟨gain, hlo, hhi, hgain⟩ := hret score (hkept.trans hscore)
    exact ⟨score + gain, hgain, by omega, by omega⟩

/-- The condition of the `while` loop. -/
def bothControl (x : ControlScan) : Bool := 0 < x.myConNum && 0 < x.oppConNum

/-- The state the loop starts from. -/
def controlStart (myPoints oppPoints : Points) (lowestControl : Nat) : ControlScan where
  myCon := myPoints
  oppCon := oppPoints
  myConNum := asInt (cardsIn myPoints lowestControl (controlRanks lowestControl))
  oppConNum := asInt (cardsIn oppPoints lowestControl (controlRanks lowestControl))

/-- The state after at most `rounds` rounds of the loop. -/
def controlAfter (myPoints oppPoints : Points) (lowestControl rounds : Nat) : ControlScan :=
  whileLoop bothControl (controlRound lowestControl) rounds
    (controlStart myPoints oppPoints lowestControl)

/-- What the function returns when the loop has left this state. -/
def controlResult (x : ControlScan) : Int := max (asInt (x.ret + asInt (10 * x.myConNum))) 0 / 10

section Control

variable (myPoints oppPoints : Points) (lowestControl : Nat)

/-- The robot's cards from the threshold on. -/
def controlCards : Int := cardsIn myPoints lowestControl (controlRanks lowestControl)

/-- `calControl` by its loop. -/
theorem calControl_eq : calControl myPoints oppPoints lowestControl =
    controlResult (controlAfter myPoints oppPoints lowestControl
      (asInt (controlCards myPoints lowestControl)).toNat) := by
  unfold calControl
  simp only [intSum_eq]
  rfl

/-- From a count that has not wrapped from below. -/
theorem controlAfter_paid (hfits : -2147483648 ≤ controlCards myPoints lowestControl)
    (rounds : Nat) :
    ControlPaid lowestControl (asInt (controlCards myPoints lowestControl))
      (controlAfter myPoints oppPoints lowestControl rounds) := by
  apply whileLoop_inv (ControlPaid lowestControl _)
  · intro x hx hc
    exact (controlRound_consumes hx (of_decide_eq_true (Bool.and_eq_true_iff.mp hc).1)).1
  · refine ⟨?_, min_le_left _ _, 0, rfl, ?_, ?_⟩
    · show asInt (controlCards myPoints lowestControl) ≤ controlCards myPoints lowestControl
      obtain ⟨k, heq, hlo, hhi⟩ := asInt_spec (controlCards myPoints lowestControl)
      omega
    · exact (Int.zero_add _).le
    · exact (Int.sub_self _).le

/-- As many rounds as the counter says the robot has cards end the loop. -/
theorem controlAfter_ends (hfits : -2147483648 ≤ controlCards myPoints lowestControl) :
    bothControl (controlAfter myPoints oppPoints lowestControl
      (asInt (controlCards myPoints lowestControl)).toNat) = false := by
  refine whileLoop_exit (ControlPaid lowestControl (asInt (controlCards myPoints lowestControl)))
    (fun x => x.myConNum.toNat) ?_ _
    (controlAfter_paid myPoints oppPoints lowestControl hfits 0) (Nat.le_refl _)
  intro x hx hc
  have hpos : 0 < x.myConNum := of_decide_eq_true (Bool.and_eq_true_iff.mp hc).1
  obtain ⟨hpaid, hless⟩ := controlRound_consumes hx hpos
  exact ⟨hpaid, by omega⟩

/-- A result above zero is a tenth of an `int`. -/
theorem controlResult_le (x : ControlScan) : 0 ≤ controlResult x ∧ controlResult x ≤ 214748364 := by
  obtain ⟨k, -, -, hhi⟩ := asInt_spec (x.ret + asInt (10 * x.myConNum))
  unfold controlResult
  omega

/-- Counts that are not negative have a sum that is not. -/
theorem controlCards_nonneg
    (hnonneg : ∀ r, lowestControl ≤ r → r ≤ redJoker → 0 ≤ myPoints r) :
    0 ≤ controlCards myPoints lowestControl := by
  unfold controlCards
  rw [← cardsIn_zero lowestControl (controlRanks lowestControl)]
  apply cardsIn_mono
  intro r hlo hhi
  unfold controlRanks at hhi
  exact hnonneg r hlo (by omega)

/-- The result is within the robot's cards. -/
theorem calControl_le (hcards : 0 ≤ controlCards myPoints lowestControl) :
    calControl myPoints oppPoints lowestControl ≤ controlCards myPoints lowestControl := by
  rw [calControl_eq]
  by_cases hfew : controlCards myPoints lowestControl ≤ 214748364
  · have hcount : asInt (controlCards myPoints lowestControl)
        = controlCards myPoints lowestControl := asInt_of_fits (by omega) (by omega)
    have hend := controlAfter_paid myPoints oppPoints lowestControl (by omega)
      (asInt (controlCards myPoints lowestControl)).toNat
    generalize controlAfter myPoints oppPoints lowestControl
      (asInt (controlCards myPoints lowestControl)).toNat = x at hend ⊢
    obtain ⟨-, habove, score, hret, hpaid, hlost⟩ := hend
    rw [hcount] at habove hpaid hlost
    unfold controlResult
    -- no sum on the way to the result leaves the range
    rw [hret, asInt_add_asInt, asInt_asInt_add, asInt_of_fits (by omega) (by omega)]
    omega
  · have := (controlResult_le (controlAfter myPoints oppPoints lowestControl
      (asInt (controlCards myPoints lowestControl)).toNat)).2
    omega

/-- Against others without cards the loop is not entered, and `ret` is what it
starts as: ten times the number of the robot's controlling cards, as an `int`. -/
theorem calControl_alone (hnone : ∀ r, lowestControl ≤ r → r ≤ redJoker → oppPoints r = 0) :
    calControl myPoints oppPoints lowestControl =
      max (asInt (10 * controlCards myPoints lowestControl)) 0 / 10 := by
  have hopp : cardsIn oppPoints lowestControl (controlRanks lowestControl) = 0 := by
    rw [← cardsIn_zero lowestControl (controlRanks lowestControl)]
    unfold cardsIn
    congr 1
    apply List.map_congr_left
    intro r hr
    have hin := List.mem_range'_1.mp hr
    unfold controlRanks at hin
    exact hnone r hin.1 (by omega)
  have hend : bothControl (controlStart myPoints oppPoints lowestControl) = false := by
    unfold bothControl controlStart
    rw [hopp]
    exact Bool.and_false _
  have hsame : controlAfter myPoints oppPoints lowestControl
      (asInt (controlCards myPoints lowestControl)).toNat
      = controlStart myPoints oppPoints lowestControl :=
    whileLoop_more 0 _ hend (Nat.zero_le _)
  rw [calControl_eq, hsame]
  show max (asInt (0 + asInt (10 * asInt (controlCards myPoints lowestControl)))) 0 / 10 = _
  have hten : asInt (10 * asInt (controlCards myPoints lowestControl))
      = asInt (10 * controlCards myPoints lowestControl) := Int.mul_bmod_bmod
  rw [asInt_asInt_add, Int.zero_add, hten]

/-- Where the sum of the robot's cards has not wrapped from below, every pass
of `calControl` plays a card of the robot, and so the loop ends. With counts no
less than zero the result is within the robot's controlling cards, and it is
all of them against others with none just when ten times their number is still
an `int`. -/
theorem calControl_bounded_iff :
    (-2147483648 ≤ controlCards myPoints lowestControl →
      (∀ rounds, bothControl (controlAfter myPoints oppPoints lowestControl rounds) = true →
        (controlRound lowestControl
          (controlAfter myPoints oppPoints lowestControl rounds)).myConNum <
          (controlAfter myPoints oppPoints lowestControl rounds).myConNum) ∧
      ∃ rounds, ∀ more, rounds ≤ more →
        bothControl (controlAfter myPoints oppPoints lowestControl more) = false ∧
        calControl myPoints oppPoints lowestControl =
          controlResult (controlAfter myPoints oppPoints lowestControl more)) ∧
    ((∀ r, lowestControl ≤ r → r ≤ redJoker → 0 ≤ myPoints r ∧ 0 ≤ oppPoints r) →
      0 ≤ calControl myPoints oppPoints lowestControl ∧
      calControl myPoints oppPoints lowestControl ≤ controlCards myPoints lowestControl ∧
      ((∀ r, lowestControl ≤ r → r ≤ redJoker → oppPoints r = 0) →
        (calControl myPoints oppPoints lowestControl = controlCards myPoints lowestControl ↔
          controlCards myPoints lowestControl ≤ 214748364))) := by
  refine ⟨fun hfits => ⟨fun rounds hc => ?_, ?_⟩, fun hnonneg => ⟨?_, ?_, fun hnone => ?_⟩⟩
  · exact (controlRound_consumes
      (controlAfter_paid myPoints oppPoints lowestControl hfits rounds)
      (of_decide_eq_true (Bool.and_eq_true_iff.mp hc).1)).2
  · refine ⟨(asInt (controlCards myPoints lowestControl)).toNat, ?_⟩
    intro more hmore
    have hends := controlAfter_ends myPoints oppPoints lowestControl hfits
    have hsame : controlAfter myPoints oppPoints lowestControl more = controlAfter .. :=
      whileLoop_more _ more hends hmore
    rw [hsame]
    exact ⟨hends, calControl_eq ..⟩
  · rw [calControl_eq]
    exact (controlResult_le _).1
  · exact calControl_le _ _ _
      (controlCards_nonneg _ _ fun r hlo hhi => (hnonneg r hlo hhi).1)
  · have hcards := controlCards_nonneg _ _ fun r hlo hhi => (hnonneg r hlo hhi).1
    rw [calControl_alone _ _ _ hnone]
    constructor
    · intro heq
      obtain ⟨k, -, -, hhi⟩ := asInt_spec (10 * controlCards myPoints lowestControl)
      omega
    · intro hfew
      rw [asInt_of_fits (by omega) (by omega)]
      omega

end Control

/-- A two and a joker against nobody. -/
theorem calControl_bounded_iff_alone :
    calControl (.ofList [0, 0, 0, 0, 0, 0, 0, 0, 0, 0, 0, 3, 1, 0, 1]) .zero card2 = 2 :=
  (((calControl_bounded_iff (.ofList [0, 0, 0, 0, 0, 0, 0, 0, 0, 0, 0, 3, 1, 0, 1]) .zero
    card2).2 (by decide)).2.2 (fun _ _ _ => rfl)).mpr (by decide)

/-- So many red jokers that ten times their number is no `int`. -/
def manyJokers : Points := .ofList [0, 0, 0, 0, 0, 0, 0, 0, 0, 0, 0, 0, 0, 0, 214748365]

/-- Counts whose sum is one below the range of an `int`. -/
def wrappedJokers : Points :=
  .ofList [0, 0, 0, 0, 0, 0, 0, 0, 0, 0, 0, 0, 0, -1, -2147483648]

/-- A pass without a card of the robot changes nothing. -/
theorem controlRound_idle {lowestControl : Nat} {x : ControlScan}
    (hnone : ∀ r, lowestControl ≤ r → r ≤ redJoker → x.myCon r ≤ 0) :
    controlRound lowestControl x = { x with mine := true, last := none } := by
  have hranks : forUp controlRank lowestControl (redJoker + 1 - lowestControl)
      { x with mine := true, last := none } = { x with mine := true, last := none } := by
    refine forUp_inv (fun _ y => y = { x with mine := true, last := none }) lowestControl _
      (fun i y hlo hhi hy => ?_) rfl
    have hi : ¬0 < x.myCon i := Int.not_lt.mpr (hnone i hlo (by omega))
    rw [hy]
    unfold controlRank
    simp only [if_neg hi, if_true]
  unfold controlRound
  rw [hranks]

/-- So a loop that is entered without a card of the robot goes on for ever. -/
theorem controlAfter_idle {myPoints oppPoints : Points} {lowestControl : Nat}
    (hnone : ∀ r, lowestControl ≤ r → r ≤ redJoker → myPoints r ≤ 0)
    (hstart : bothControl (controlStart myPoints oppPoints lowestControl) = true) (rounds : Nat) :
    bothControl (controlAfter myPoints oppPoints lowestControl rounds) = true := by
  refine (whileLoop_inv (fun x => x.myCon = myPoints ∧ bothControl x = true) ?_ rounds
    ⟨rfl, hstart⟩).2
  rintro x ⟨hcon, hboth⟩ -
  rw [controlRound_idle (hcon ▸ hnone)]
  exact ⟨hcon, hboth⟩

/-- The many count for nothing against nobody, and the sum that wraps keeps the
loop going against one card, with no card to play. -/
theorem calControl_overflows :
    calControl manyJokers .zero redJoker = 0 ∧ controlCards manyJokers redJoker = 214748365 ∧
      ∀ rounds, bothControl (controlAfter wrappedJokers
        (.ofList [0, 0, 0, 0, 0, 0, 0, 0, 0, 0, 0, 0, 0, 0, 1]) blackJoker rounds) = true := by
  refine ⟨?_, rfl, controlAfter_idle ?_ rfl⟩
  · rw [calControl_alone manyJokers .zero redJoker fun _ _ _ => rfl]
    rfl
  · have hall : ∀ r ≤ redJoker, blackJoker ≤ r → wrappedJokers r ≤ 0 := by decide
    exact fun r hlo hhi => hall r hhi hlo

/-! ## The threshold -/

/-- The cards from rank `i` on, by the rank itself and those above it. -/
theorem controlCards_succ (points : Points) {i : Nat} (hi : i ≤ redJoker) :
    controlCards points i = points i + controlCards points (i + 1) := by
  have hranks : controlRanks i = controlRanks (i + 1) + 1 := by
    unfold controlRanks
    omega
  unfold controlCards
  rw [hranks, cardsIn_succ]

/-- As far down as the scan of `q` comes, the sums of `q` are not above the
range of an `int` and those of `p` not below it. -/
def ScanFits (p q : Points) : Prop :=
  ∀ i ≤ redJoker, (∀ j, i < j → j ≤ redJoker → controlCards q j < 6) →
    -2147483648 ≤ controlCards p i ∧ controlCards q i ≤ 2147483647

/-- A scan that has come down to rank `n` stops below it. -/
theorem lowestControlFrom_le (p : Points) :
    ∀ (n : Nat) (c : Int), lowestControlFrom p (List.range n).reverse c ≤ n := by
  intro n
  induction n with
  | zero => intro c; exact Nat.le_refl 0
  | succ n ih =>
    intro c
    rw [List.range_succ, List.reverse_append, List.reverse_singleton, List.singleton_append]
    unfold lowestControlFrom
    split
    · exact Nat.le_succ n
    · exact Nat.le_succ_of_le (ih _)

/-- The scan of lower counts stops no earlier. By induction on the ranks left:
both running sums are still the sums of the counts. -/
theorem lowestControlFrom_mono {p q : Points} (hle : ∀ i ≤ redJoker, p i ≤ q i)
    (hfits : ScanFits p q) :
    ∀ n ≤ redJoker + 1, (∀ j, n ≤ j → j ≤ redJoker → controlCards q j < 6) →
      controlCards p n ≤ controlCards q n →
        lowestControlFrom p (List.range n).reverse (controlCards p n)
          ≤ lowestControlFrom q (List.range n).reverse (controlCards q n) := by
  intro n
  induction n with
  | zero => intro _ _ _; exact Nat.le_refl _
  | succ n ih =>
    intro hn hscan hsums
    have hn' : n ≤ redJoker := Nat.le_of_succ_le_succ hn
    have hsums' : controlCards p n ≤ controlCards q n := by
      have := hle n hn'
      rw [controlCards_succ p hn', controlCards_succ q hn']
      omega
    obtain ⟨hlo, hhi⟩ := hfits n hn' hscan
    have hp : asInt (controlCards p (n + 1) + p n) = controlCards p n := by
      rw [Int.add_comm, ← controlCards_succ p hn']
      exact asInt_of_fits hlo (Int.le_trans hsums' hhi)
    have hq : asInt (controlCards q (n + 1) + q n) = controlCards q n := by
      rw [Int.add_comm, ← controlCards_succ q hn']
      exact asInt_of_fits (Int.le_trans hlo hsums') hhi
    rw [List.range_succ, List.reverse_append, List.reverse_singleton, List.singleton_append]
    unfold lowestControlFrom
    rw [hp, hq]
    by_cases hsix : 6 ≤ controlCards q n
    · -- the higher counts stop here, at the highest rank there is
      rw [if_pos hsix]
      split
      · exact Nat.le_refl n
      · exact lowestControlFrom_le p n _
    · rw [if_neg hsix, if_neg (by omega)]
      refine ih (Nat.le_of_succ_le hn) (fun j hj hj' => ?_) hsums'
      rcases Nat.eq_or_lt_of_le hj with rfl | hlt
      · omega
      · exact hscan j hlt hj'

/-- The threshold is monotone in the counts where both scans add within an
`int`: higher counts reach six cards earlier on the way down. -/
theorem getLowestControl_mono {r r' : Points} (h : ∀ i ≤ redJoker, r' i ≤ r i)
    (hfits : ScanFits r' r) : getLowestControl r' ≤ getLowestControl r :=
  lowestControlFrom_mono h hfits (redJoker + 1) (Nat.le_refl _)
    (fun _ hj hj' => absurd hj (Nat.not_le.mpr (Nat.lt_succ_of_le hj'))) (Int.le_refl _)

/-- A full deck has its threshold at the twos. -/
theorem getLowestControl_fresh (remainPoints : Points) :
    getLowestControl (AI.freshRemain remainPoints) = card2 := rfl

namespace AI

section Frames

variable (u : Undef) (s : AI) (hand : Hand)

/-- Counting the opponents' cards leaves the threshold alone. -/
theorem lowestControl_countOpponents :
    s.countOpponents.lowestControl = s.lowestControl := by
  unfold countOpponents
  split <;> rfl

/-- So does sorting the robot's cards. -/
theorem lowestControl_sortHandMap : (s.sortHandMap u).lowestControl = s.lowestControl := by
  unfold sortHandMap
  exact s.lowestControl_countOpponents

/-- So does a later candidate of the high level, kept or dropped. -/
theorem lowestControl_sortLater (tmpMap : HandsMap) (tmp : HighCounts)
    (better : HandsMapSummary → HandsMapSummary → Bool) :
    (s.sortLater tmpMap tmp better).1.lowestControl = s.lowestControl := by
  unfold sortLater
  simp only []
  split <;> rfl

theorem lowestControl_setSorted (m : HandsMap) (summary : HandsMapSummary) (c : HighCounts) :
    (s.setSorted m summary c).lowestControl = s.lowestControl := rfl

/-- So does the sorting of the high level. -/
theorem lowestControl_sortHandMapLvl :
    s.sortHandMapLvl.lowestControl = s.lowestControl := by
  unfold sortHandMapLvl sortFirst
  split
  · rw [lowestControl_sortLater]
    exact lowestControl_setSorted ..
  · rw [lowestControl_sortLater, lowestControl_sortLater]
    exact lowestControl_setSorted ..

/-- No strategy writes the threshold. This one sorts again before it chooses. -/
theorem lowestControl_farmerTakeOutLordOnly1Card :
    (s.farmerTakeOutLordOnly1Card u hand).1.lowestControl = s.lowestControl := by
  unfold farmerTakeOutLordOnly1Card sortLordOnly1Card
  rfl

theorem lowestControl_farmerTakeOutLordOnly2Cards :
    (s.farmerTakeOutLordOnly2Cards u hand).1.lowestControl = s.lowestControl := by
  unfold farmerTakeOutLordOnly2Cards
  simp only []
  split
  · split
    · rfl
    · split
      · split <;> rfl
      · exact lowestControl_farmerTakeOutLordOnly1Card ..
  · split <;> rfl

theorem lowestControl_downFarmerTakeOutUpFarmerOnly1Card :
    (s.downFarmerTakeOutUpFarmerOnly1Card u hand).1.lowestControl = s.lowestControl := by
  unfold downFarmerTakeOutUpFarmerOnly1Card
  simp only []
  split
  · split
    · rfl
    · split
      · split <;> rfl
      · rfl
  · split
    · exact lowestControl_farmerTakeOutLordOnly1Card ..
    · split <;> rfl

/-- The guard on the lord's cards adds nothing to what follows it. -/
theorem lowestControl_lordFewCards {rest : AI → Hand → AI × Hand}
    (hrest : ∀ s hand, (rest s hand).1.lowestControl = s.lowestControl) :
    (s.lordFewCards u hand rest).1.lowestControl = s.lowestControl := by
  unfold lordFewCards
  simp only []
  split
  · exact lowestControl_farmerTakeOutLordOnly1Card ..
  · split
    · split
      · exact lowestControl_farmerTakeOutLordOnly2Cards ..
      · exact (hrest ..).trans (lowestControl_farmerTakeOutLordOnly2Cards ..)
    · exact hrest ..

/-- Nor does the guard on the other farmer's last card. -/
theorem lowestControl_upFarmerOneCard {rest : AI → Hand → AI × Hand}
    (hrest : ∀ s hand, (rest s hand).1.lowestControl = s.lowestControl) :
    (s.upFarmerOneCard u hand rest).1.lowestControl = s.lowestControl := by
  unfold upFarmerOneCard
  simp only []
  split
  · split
    · exact lowestControl_downFarmerTakeOutUpFarmerOnly1Card ..
    · exact (hrest ..).trans (lowestControl_downFarmerTakeOutUpFarmerOnly1Card ..)
  · exact hrest ..

/-- The bad farmer before the lord has its own guards, with the same strategies
behind them. -/
theorem lowestControl_upBadFarmerTakeOut :
    (s.upBadFarmerTakeOut u hand).1.lowestControl = s.lowestControl := by
  unfold upBadFarmerTakeOut
  simp only []
  split
  · split
    · exact lowestControl_farmerTakeOutLordOnly1Card ..
    · split
      · rfl
      · split
        · split <;> exact lowestControl_farmerTakeOutLordOnly2Cards ..
        · split <;> rfl
  · exact s.lowestControl_lordFewCards u _ fun _ _ => rfl

/-- A farmer's turn leaves the threshold as the beginning of the turn has
stored it. -/
theorem lowestControl_farmerTakeOut :
    (s.farmerTakeOut u hand).1.lowestControl = s.lowestControl := by
  have hfew : ∀ (s : AI) (hand : Hand) (f : AI → Hand → Hand),
      (s.lordFewCards u hand fun s hand => (s, f s hand)).1.lowestControl = s.lowestControl :=
    fun s hand _ => s.lowestControl_lordFewCards u hand fun _ _ => rfl
  have hone : ∀ (hand : Hand) (f : AI → Hand → Hand),
      (s.upFarmerOneCard u hand fun s hand =>
        s.lordFewCards u hand fun s hand => (s, f s hand)).1.lowestControl = s.lowestControl :=
    fun hand _ => s.lowestControl_upFarmerOneCard u hand fun s hand => hfew s hand _
  unfold farmerTakeOut
  split
  · split
    · unfold downGoodFarmerTakeOut
      split
      · exact hone ..
      · exact hfew ..
    · unfold upGoodFarmerTakeOut
      split
      · exact hfew ..
      · exact hfew ..
  · split
    · unfold downBadFarmerTakeOut
      split
      · exact hone ..
      · exact hfew ..
    · exact lowestControl_upBadFarmerTakeOut ..

/-- So does the free turn of the lord at the high level. -/
theorem lowestControl_lordTakeOutFreeLvl :
    (s.lordTakeOutFreeLvl u hand).1.lowestControl = s.lowestControl := by
  have hcharge : ∀ first,
      (s.findChargeHandFirstLvl u hand first).1.lowestControl = s.lowestControl := by
    intro first
    unfold findChargeHandFirstLvl
    simp only []
    split <;> rfl
  unfold lordTakeOutFreeLvl lordTakeOutFreeNormalLvl
  split
  · rfl
  · split
    · rfl
    · split
      · split
        · rfl
        · exact hcharge false
      · rfl

/-- A decision stores the threshold of the cards unplayed, and no strategy
changes it. -/
theorem lowestControl_rbtOutGetTakeOutCard :
    (s.rbtOutGetTakeOutCard u).1.lowestControl = getLowestControl s.remainPoints := by
  have hcheck : ∀ (s : AI) (hand : Hand),
      (s.checkTakeOut hand).1.lowestControl = s.lowestControl := by
    intro s hand
    unfold checkTakeOut
    simp only []
    split
    · split <;> rfl
    · split <;> rfl
  unfold rbtOutGetTakeOutCard
  simp only []
  rw [hcheck]
  show _ = s.updateControl.lowestControl
  unfold takeOutByLevel
  simp only []
  split
  · exact lowestControl_sortHandMap ..
  · split
    · have hpick : ((s.updateControl.sortHandMap u).strategyLvl1 u u.hand).1.lowestControl
          = s.updateControl.lowestControl := by
        unfold strategyLvl1
        split
        · exact lowestControl_sortHandMap ..
        · exact (lowestControl_farmerTakeOut ..).trans (lowestControl_sortHandMap ..)
      unfold takeOutLvl1
      simp only []
      split
      · exact hpick
      · exact hpick
    · unfold takeOutHighLvl
      simp only []
      split
      · split
        · exact (lowestControl_lordTakeOutFreeLvl ..).trans (lowestControl_sortHandMapLvl ..)
        · exact lowestControl_sortHandMapLvl ..
      · exact (lowestControl_farmerTakeOut ..).trans (lowestControl_sortHandMapLvl ..)

end Frames

/-- The calls of a deal after the cards are dealt. -/
inductive DealCall where
  | setLord (seat : Int) (cards : List Int)
  | takeOut (seat : Int) (cards : List Int)
  | decide (u : Undef)

/-- How many cards a call reports as played. -/
def DealCall.reported : DealCall → Nat
  | takeOut _ cards => cards.length
  | _ => 0

/-- What a call does to the robot. -/
def DealCall.tell (s : AI) : DealCall → AI
  | setLord seat cards => s.rbtInSetLord seat cards
  | takeOut seat cards => s.rbtInTakeOutCard seat cards
  | decide u => (s.rbtOutGetTakeOutCard u).1

/-- The stored threshold is no lower than that of the cards unplayed. -/
def ThresholdStored (s : AI) : Prop := getLowestControl s.remainPoints ≤ s.lowestControl

/-- Setting the lord counts cards and does not compute the threshold anew. -/
theorem lowestControl_rbtInSetLord (s : AI) (seat : Int) (cards : List Int) :
    (s.rbtInSetLord seat cards).lowestControl = s.lowestControl := by
  have hfold : ∀ (cards : List Int) (s : AI),
      (cards.foldl takeLeftover s).lowestControl = s.lowestControl := by
    intro cards
    induction cards with
    | nil => intro s; rfl
    | cons card cards ih =>
      intro s
      rw [List.foldl_cons, ih]
      unfold takeLeftover
      simp only []
      split <;> split <;> rfl
  unfold rbtInSetLord
  rw [hfold]
  rfl

/-- Nor does a play: it writes counts, the record and the hand to beat, and the
threshold is worked out again only when the robot decides. -/
theorem lowestControl_rbtInTakeOutCard (s : AI) (seat : Int) (cards : List Int) :
    (s.rbtInTakeOutCard seat cards).lowestControl = s.lowestControl := by
  have hrecord : ∀ (s : AI) (hand : Hand),
      (s.recordHand seat hand).lowestControl = s.lowestControl := by
    intro s hand
    unfold recordHand
    simp only []
    split <;> rfl
  have hrank : ∀ (points : Points) (i : Nat) (s : AI),
      (takeOutRank seat points i s).lowestControl = s.lowestControl := by
    intro points i s
    unfold takeOutRank
    simp only []
    split <;> split <;> rfl
  unfold rbtInTakeOutCard
  split
  · exact hrecord ..
  · rw [hrecord]
    have hstart : (s.setInfo seat { s.playerInfo seat with
      total := (s.playerInfo seat).total - cards.length }).lowestControl = s.lowestControl := rfl
    exact forUp_inv (fun _ s' => s'.lowestControl = s.lowestControl) 0 cardPointNum
      (fun i s' _ _ h => (hrank _ i s').trans h) hstart

/-- Cards put into counts are no more than the cards, from any rank on: each
card adds one to the count of its own rank. -/
theorem controlCards_cardVec_le (cards : List Int) (i : Nat) :
    controlCards (cardVecToPointArr cards) i ≤ cards.length := by
  have hsplit : ∀ (cards : List Int) (lo : Nat), cards.countP (hasPoint lo)
      + cards.countP (fun card => ((lo + 1 : Nat) : Int) ≤ cardToPoint card)
      = cards.countP fun card => (lo : Int) ≤ cardToPoint card := by
    intro cards lo
    induction cards with
    | nil => rfl
    | cons card cards ih =>
      simp only [List.countP_cons, ← ih, hasPoint, beq_iff_eq, decide_eq_true_eq]
      split <;> split <;> split <;> omega
  have hcount : ∀ (n lo : Nat), cardsIn (cardVecToPointArr cards) lo n
      ≤ cards.countP fun card => (lo : Int) ≤ cardToPoint card := by
    intro n
    induction n with
    | zero => intro lo; exact Int.natCast_nonneg _
    | succ n ih =>
      intro lo
      have hrest := ih (lo + 1)
      rw [cardsIn_succ, cardVecToPointArr_apply, ← hsplit cards lo]
      push_cast at hrest ⊢
      omega
  exact (hcount _ i).trans (Int.ofNat_le.mpr List.countP_le_length)

/-- The unplayed cards from each rank on are those of a deck at most, and no
more than `reported` cards less than none. -/
def Reported (reported : Nat) (s : AI) : Prop :=
  ∀ i ≤ redJoker, -(reported : Int) ≤ controlCards s.remainPoints i ∧
    controlCards s.remainPoints i ≤ 54

/-- Two robots of one deal are within the bounds of the scan, as long as no
more cards were reported than an `int` can count. -/
theorem Reported.fits {n n' : Nat} {s s' : AI} (h : Reported n s) (h' : Reported n' s')
    (hn : n' ≤ 2147483648) : ScanFits s'.remainPoints s.remainPoints := by
  intro i hi _
  have := (h i hi).2
  have := (h' i hi).1
  omega

/-- A call reports its cards, and leaves no rank with more. Only a play takes
from `remainPoints`, and it takes no more than the cards it names. -/
theorem DealCall.tell_reported (s : AI) (call : DealCall) {n : Nat} (h : Reported n s) :
    Reported (n + call.reported) (call.tell s) ∧
      ∀ i ≤ redJoker, (call.tell s).remainPoints i ≤ s.remainPoints i := by
  have hsame : ∀ s' : AI, s'.remainPoints = s.remainPoints → ∀ m : Nat,
      Reported (n + m) s' ∧ ∀ i ≤ redJoker, s'.remainPoints i ≤ s.remainPoints i := by
    intro s' heq m
    refine ⟨fun i hi => ?_, fun i _ => (congrFun heq i).le⟩
    have := h i hi
    rw [heq]
    omega
  cases call with
  | setLord seat cards => exact hsame _ (rbtInSetLord_spec s seat cards).2.1 _
  | decide u =>
    exact hsame _ (eq_of_shown (deciding_keeps_shown u s) AI.remainPoints fun _ => rfl) _
  | takeOut seat cards =>
    have hrank : ∀ i ≤ redJoker, (s.rbtInTakeOutCard seat cards).remainPoints i
        = s.remainPoints i - cardVecToPointArr cards i := by
      intro i hi
      rw [(rbtInTakeOutCard_counted s seat cards).remain, if_pos (lt_cardPointNum hi)]
    have hsum : ∀ i, controlCards (s.rbtInTakeOutCard seat cards).remainPoints i
        = controlCards s.remainPoints i - controlCards (cardVecToPointArr cards) i := by
      have hfrom : ∀ n lo, lo + n ≤ redJoker + 1 →
          cardsIn (s.rbtInTakeOutCard seat cards).remainPoints lo n
            = cardsIn s.remainPoints lo n - cardsIn (cardVecToPointArr cards) lo n := by
        intro n
        induction n with
        | zero => intro lo _; rfl
        | succ n ih =>
          intro lo hlo
          rw [cardsIn_succ, cardsIn_succ, cardsIn_succ, ih (lo + 1) (by omega),
            hrank lo (by omega)]
          omega
      intro i
      by_cases hi : i ≤ redJoker + 1
      · exact hfrom _ i (by unfold controlRanks; omega)
      · unfold controlCards controlRanks
        rw [Nat.sub_eq_zero_of_le (by omega)]
        rfl
    refine ⟨fun i hi => ?_, fun i hi => ?_⟩
    · have hle := controlCards_cardVec_le cards i
      have hnonneg : 0 ≤ controlCards (cardVecToPointArr cards) i :=
        controlCards_nonneg _ _ fun r _ _ => cardVecToPointArr_nonneg cards r
      have hold := h i hi
      have hnew : controlCards (DealCall.tell s (.takeOut seat cards)).remainPoints i
          = controlCards s.remainPoints i - controlCards (cardVecToPointArr cards) i := hsum i
      have hcount : DealCall.reported (.takeOut seat cards) = cards.length := rfl
      rw [hnew, hcount]
      omega
    · have := cardVecToPointArr_nonneg cards i
      show (s.rbtInTakeOutCard seat cards).remainPoints i ≤ s.remainPoints i
      rw [hrank i hi]
      omega

/-- No call of a deal raises the threshold: counts that only fall have a
threshold that only falls, and what a decision stores is that of the counts it
meets. -/
theorem DealCall.tell_threshold (s : AI) (call : DealCall) {n : Nat} (hr : Reported n s)
    (hn : n + call.reported ≤ 2147483648) (h : s.ThresholdStored) :
    (call.tell s).ThresholdStored ∧ (call.tell s).lowestControl ≤ s.lowestControl := by
  obtain ⟨hreported, hfewer⟩ := call.tell_reported s hr
  -- counts that only fall lower the threshold, and what is stored is a threshold of before
  have hbelow : getLowestControl (call.tell s).remainPoints ≤ s.lowestControl :=
    Nat.le_trans (getLowestControl_mono hfewer (hr.fits hreported hn)) h
  unfold ThresholdStored
  cases call with
  | setLord seat cards =>
    have hkept : (DealCall.tell s (.setLord seat cards)).lowestControl = s.lowestControl :=
      lowestControl_rbtInSetLord s seat cards
    rw [hkept]
    exact ⟨hbelow, Nat.le_refl _⟩
  | takeOut seat cards =>
    have hkept : (DealCall.tell s (.takeOut seat cards)).lowestControl = s.lowestControl :=
      lowestControl_rbtInTakeOutCard s seat cards
    rw [hkept]
    exact ⟨hbelow, Nat.le_refl _⟩
  | decide u =>
    have hremain : (DealCall.tell s (.decide u)).remainPoints = s.remainPoints :=
      eq_of_shown (deciding_keeps_shown u s) AI.remainPoints fun _ => rfl
    have hstored : (DealCall.tell s (.decide u)).lowestControl = getLowestControl s.remainPoints :=
      lowestControl_rbtOutGetTakeOutCard u s
    rw [hstored, hremain]
    exact ⟨Nat.le_refl _, h⟩

/-- The deal stores the threshold of a full deck. -/
theorem rbtInInitCard_threshold (u : Undef) (s : AI) (seat : Int) (cards : List Int) :
    (s.rbtInInitCard u seat cards).ThresholdStored := by
  have hremain : (s.rbtInInitCard u seat cards).remainPoints = freshRemain s.remainPoints := by
    unfold rbtInInitCard sortHandMap countOpponents
    dsimp only
    split <;> rfl
  unfold ThresholdStored
  rw [hremain, lowestControl_rbtInInitCard, getLowestControl_fresh]

/-- A full deck is as much as its counts say, whatever the counts of the ranks
outside it were: the sums from each rank on are at most 54. -/
theorem rbtInInitCard_reported (u : Undef) (s : AI) (seat : Int) (cards : List Int) :
    Reported 0 (s.rbtInInitCard u seat cards) := by
  have hremain : (s.rbtInInitCard u seat cards).remainPoints = freshRemain s.remainPoints := by
    unfold rbtInInitCard sortHandMap countOpponents
    dsimp only
    split <;> rfl
  intro i hi
  rw [hremain]
  have hdeck : controlCards (freshRemain s.remainPoints) i
      = controlCards (freshRemain .zero) i := by
    unfold controlCards cardsIn
    congr 1
    apply List.map_congr_left
    intro r hr
    have hin := List.mem_range'_1.mp hr
    unfold controlRanks at hin
    unfold freshRemain
    split
    · rfl
    · rw [if_pos (by omega), if_pos (by omega)]
  have hall : ∀ i ≤ redJoker, -((0 : Nat) : Int) ≤ controlCards (freshRemain .zero) i ∧
      controlCards (freshRemain .zero) i ≤ 54 := by decide
  rw [hdeck]
  exact hall i hi

/-- The threshold is monotone in the counts where the scan adds within an
`int`, and from the deal on it only falls, as long as the cards reported as
played can be counted in one. -/
theorem lowestControl_never_rises (r r' : Points) (u : Undef) (s : AI) (seat : Int)
    (cards : List Int) (calls : List DealCall) :
    ((∀ i ≤ redJoker, r' i ≤ r i) → ScanFits r' r → getLowestControl r' ≤ getLowestControl r) ∧
      ((calls.map DealCall.reported).sum ≤ 2147483648 →
        let thresholds :=
          (calls.scanl DealCall.tell (s.rbtInInitCard u seat cards)).map AI.lowestControl
        thresholds.head? = some card2 ∧ thresholds.Pairwise (· ≥ ·)) := by
  refine ⟨fun h hfits => getLowestControl_mono h hfits, fun hfew => ⟨?_, ?_⟩⟩
  · rw [List.head?_map, List.head?_scanl, Option.map_some, lowestControl_rbtInInitCard]
  · exact scanl_falls (fun s n => Reported n s ∧ ThresholdStored s) AI.lowestControl
      DealCall.reported (fun s call n hn h =>
        ⟨⟨(call.tell_reported s h.1).1, (call.tell_threshold s h.1 hn h.2).1⟩,
          (call.tell_threshold s h.1 hn h.2).2⟩)
      calls (by omega)
      ⟨rbtInInitCard_reported u s seat cards, rbtInInitCard_threshold u s seat cards⟩

/-- Six aces and kings unplayed against five: the threshold goes from the kings
to the fours. -/
theorem lowestControl_never_rises_six :
    getLowestControl (.ofList [0, 3, 0, 0, 0, 0, 0, 0, 0, 0, 2, 3]) ≤
      getLowestControl (.ofList [0, 3, 0, 0, 0, 0, 0, 0, 0, 0, 3, 3]) := by
  have hsums : ∀ i ≤ redJoker,
      -2147483648 ≤ controlCards (.ofList [0, 3, 0, 0, 0, 0, 0, 0, 0, 0, 2, 3]) i ∧
        controlCards (.ofList [0, 3, 0, 0, 0, 0, 0, 0, 0, 0, 3, 3]) i ≤ 2147483647 := by decide
  exact (lowestControl_never_rises _ _ .zero {} 0 [] []).1 (by decide) fun i hi _ => hsums i hi

/-- With as many black jokers as an `int` holds, five red ones more take the
sum beyond it: the threshold of the higher counts is the lowest rank. -/
theorem getLowestControl_overflows :
    let r := Points.ofList [0, 0, 0, 0, 0, 0, 0, 0, 0, 0, 0, 0, 0, 2147483647, 5]
    let r' := Points.ofList [0, 0, 0, 0, 0, 0, 0, 0, 0, 0, 0, 0, 0, 2147483647, 0]
    (∀ i ≤ redJoker, r' i ≤ r i) ∧ getLowestControl r = card3 ∧
      getLowestControl r' = blackJoker := by
  decide

end AI

end RobotDdz
