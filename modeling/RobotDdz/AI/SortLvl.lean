import RobotDdz.AI.Rearrange

/-!
# What `sortHandMapLvl` evaluates

Above level 1 a robot splits its cards with two or three splitters and keeps
the split with the best summary. That is what the function is for, and
`SortedBy` says it: the hands, the counters and the summary are those of one
candidate evaluated on its own cards, and no other candidate, evaluated on its
own, is better.

The function splits into `tmpMap` and evaluates `handsMap`, so from the second
splitter on it judges the map it has, summarised once more, and never a
candidate's own cards. The names for what happens instead:
- `own` is the evaluation of a candidate, which the function makes of the first
  one only.
- `again` and `againThird` are the evaluations of the map it has, in the
  candidates' places.
- `kept` is the splitter whose map `handsMap` holds at the end, `leftMap` that
  map.
- `judged` is the evaluation whose summary and counters stand at the end.

`sortHandMapLvl_eq` is the function in these words, and `sortedBy_kept_iff`
compares the two accounts. The counterexample at the end is a hand whose bomb
no judging ever sees.
-/

namespace RobotDdz

/-- The map as `getHandsMapSummaryLvl` leaves it, the counters and the summary. -/
abbrev Evaluation := HandsMap × HighCounts × HandsMapSummary

namespace AI

section SortLvl

variable (s : AI)

/-- The two calls on one map, counted into `c`. -/
def evaluate (m : HandsMap) (c : HighCounts) : Evaluation :=
  s.getHandsMapSummaryLvl m (s.countHighHand m c)

/-! ## The candidates -/

/-- The first branch: a farmer, and the lord is down to one card. -/
def FacesOne : Prop := s.total s.lordSeat = 1 ∧ s.aiPosition ≠ .lord

instance : Decidable s.FacesOne := inferInstanceAs (Decidable (_ ∧ _))

/-- The splitter that fills `handsMap`. -/
def firstSplitter : Splitter := if s.FacesOne then .kind4 else .kind .kind1

/-- The splitter that fills `tmpMap` first. -/
def secondSplitter : Splitter := if s.FacesOne then .kind5 else .kind .kind2

/-- The splitters the function tries, in its order. -/
def tried : List Splitter :=
  if s.FacesOne then [s.firstSplitter, s.secondSplitter]
  else [s.firstSplitter, s.secondSplitter, .kind .kind3]

/-- The test behind which a later split replaces the one before. -/
def better (summary tmp : HandsMapSummary) : Bool :=
  if s.FacesOne then
    tmp.soloCount < summary.soloCount
      || tmp.soloCount = summary.soloCount && summary.lowestSolo < tmp.lowestSolo
  else !compareHandMapSummary summary tmp

/-- The split of the robot's cards. -/
def splitOf (x : Splitter) : HandsMap := splitInto x s.aiPoints false

/-- A candidate evaluated on its own cards. The first is counted into the
robot's counters, the others into the temporary ones, which the third finds as
the second leaves them. -/
def own : Splitter → Evaluation
  | .kind .kind1 => s.evaluate (s.splitOf (.kind .kind1)) s.counts
  | .kind .kind2 => s.evaluate (s.splitOf (.kind .kind2)) {}
  | .kind .kind3 =>
    s.evaluate (s.splitOf (.kind .kind3)) (s.evaluate (s.splitOf (.kind .kind2)) {}).2.1
  | .kind4 => s.evaluate (s.splitOf .kind4) s.counts
  | .kind5 => s.evaluate (s.splitOf .kind5) {}

/-- No candidate is better on its own cards. -/
def Best (x : Splitter) : Prop :=
  ∀ y ∈ s.tried, s.better (s.own x).2.2 (s.own y).2.2 = false

/-- The robot sorted by the candidate: its hands, its counters, its summary,
and no candidate is better. -/
structure SortedBy (x : Splitter) : Prop where
  hands : ∀ t, s.sortHandMapLvl.handsMap.vec t = (s.own x).1.vec t
  counts : s.sortHandMapLvl.counts = (s.own x).2.1
  summary : s.sortHandMapLvl.summary = (s.own x).2.2
  best : s.Best x

/-! ## What is evaluated instead -/

/-- The evaluation that decides over the second splitter: the first one's map
once more. -/
def again : Evaluation := s.evaluate (s.own s.firstSplitter).1 {}

/-- The second split is taken. -/
def TakesSecond : Prop := s.better (s.own s.firstSplitter).2.2 s.again.2.2 = true

instance : Decidable s.TakesSecond := inferInstanceAs (Decidable (_ = _))

/-- `handsMap` before the third splitter. -/
def heldMap : HandsMap := if s.TakesSecond then s.splitOf s.secondSplitter else s.again.1

/-- The evaluation whose summary and counters stand before the third splitter. -/
def standing : Evaluation := if s.TakesSecond then s.again else s.own s.firstSplitter

/-- The evaluation that decides over the third splitter. -/
def againThird : Evaluation := s.evaluate s.heldMap s.again.2.1

/-- The third split is taken. -/
def TakesThird : Prop := ¬s.FacesOne ∧ s.better s.standing.2.2 s.againThird.2.2 = true

instance : Decidable s.TakesThird := inferInstanceAs (Decidable (_ ∧ _))

/-- The splitter whose map the function keeps. -/
def kept : Splitter :=
  if s.TakesThird then .kind .kind3 else if s.TakesSecond then s.secondSplitter else s.firstSplitter

/-- `handsMap` at the end. -/
def leftMap : HandsMap :=
  if s.FacesOne then s.heldMap else if s.TakesThird then s.splitOf (.kind .kind3)
  else s.againThird.1

/-- The evaluation whose summary and counters stand at the end. -/
def judged : Evaluation := if s.TakesThird then s.againThird else s.standing

/-- The fields the function sets play no part in an evaluation. -/
theorem evaluate_setSorted (m : HandsMap) (summary : HandsMapSummary) (c : HighCounts) :
    (s.setSorted m summary c).evaluate = s.evaluate := by
  have hpoint : (s.setSorted m summary c).findOppHighestPoint = s.findOppHighestPoint := rfl
  have hchain : (s.setSorted m summary c).findOppHighestChain = s.findOppHighestChain := rfl
  funext m' c'
  unfold evaluate
  rw [countHighHand_congr hpoint hchain, getHandsMapSummaryLvl_congr hpoint hchain]

/-- One later splitter, from a robot already sorted. -/
theorem sortLater_setSorted (m tmpMap : HandsMap) (summary : HandsMapSummary)
    (c tmp : HighCounts) (better : HandsMapSummary → HandsMapSummary → Bool) :
    (s.setSorted m summary c).sortLater tmpMap tmp better =
      (if better summary (s.evaluate m tmp).2.2
        then s.setSorted tmpMap (s.evaluate m tmp).2.2 (s.evaluate m tmp).2.1
        else s.setSorted (s.evaluate m tmp).1 summary c, (s.evaluate m tmp).2.1) := by
  have heq : ∀ s' : AI, s'.sortLater tmpMap tmp better =
      (if better s'.summary (s'.evaluate s'.handsMap tmp).2.2
        then s'.setSorted tmpMap (s'.evaluate s'.handsMap tmp).2.2 (s'.evaluate s'.handsMap tmp).2.1
        else s'.setSorted (s'.evaluate s'.handsMap tmp).1 s'.summary s'.counts,
      (s'.evaluate s'.handsMap tmp).2.1) := fun _ => rfl
  rw [heq, evaluate_setSorted]
  generalize s.evaluate = ev
  rfl

theorem sortFirst_eq (m : HandsMap) :
    s.sortFirst m
      = s.setSorted (s.evaluate m s.counts).1 (s.evaluate m s.counts).2.2
        (s.evaluate m s.counts).2.1 := by
  unfold sortFirst evaluate
  rfl

/-- The robot after the second splitter, and the temporary counters. -/
theorem sortLater_second :
    (s.setSorted (s.own s.firstSplitter).1 (s.own s.firstSplitter).2.2
        (s.own s.firstSplitter).2.1).sortLater (s.splitOf s.secondSplitter) {} s.better
      = (s.setSorted s.heldMap s.standing.2.2 s.standing.2.1, s.again.2.1) := by
  rw [sortLater_setSorted]
  unfold heldMap standing
  by_cases htakes : s.TakesSecond
  · rw [if_pos htakes, if_pos htakes]
    exact congrArg (·, s.again.2.1) (if_pos htakes)
  · rw [if_neg htakes, if_neg htakes]
    exact congrArg (·, s.again.2.1) (if_neg htakes)

/-- What the function leaves in the five fields, by the two branches: two
candidates for a lord with one card and three otherwise, each compared with the
best so far. -/
theorem sortHandMapLvl_eq :
    s.sortHandMapLvl = s.setSorted s.leftMap s.judged.2.2 s.judged.2.1 := by
  have hsecond := s.sortLater_second
  have hpoints : ∀ m summary c, (s.setSorted m summary c).aiPoints = s.aiPoints :=
    fun _ _ _ => rfl
  unfold sortHandMapLvl
  split
  next hone =>
    have hfaces : s.FacesOne := hone
    have hbetter : s.better = fun summary tmp => decide (tmp.soloCount < summary.soloCount)
        || decide (tmp.soloCount = summary.soloCount)
          && decide (summary.lowestSolo < tmp.lowestSolo) := by
      funext summary tmp
      exact if_pos hfaces
    rw [show s.secondSplitter = .kind5 from if_pos hfaces,
      show s.firstSplitter = .kind4 from if_pos hfaces, hbetter] at hsecond
    have hsplit : splitCardsToHandsKind5 s.aiPoints false = s.splitOf .kind5 := rfl
    have hown : s.evaluate (splitCardsToHandsKind4 s.aiPoints false) s.counts = s.own .kind4 := rfl
    rw [sortFirst_eq, hown]
    dsimp only
    rw [hpoints, hsplit, hsecond, show s.leftMap = s.heldMap from if_pos hfaces,
      show s.judged = s.standing from if_neg fun h => h.1 hfaces]
  next hone =>
    have hfaces : ¬s.FacesOne := hone
    have hbetter : s.better = fun summary tmp => !compareHandMapSummary summary tmp := by
      funext summary tmp
      exact if_neg hfaces
    rw [show s.secondSplitter = .kind .kind2 from if_neg hfaces,
      show s.firstSplitter = .kind .kind1 from if_neg hfaces] at hsecond
    have hsplit : ∀ k, splitCardsToHands k s.aiPoints false = s.splitOf (.kind k) := fun _ => rfl
    have hown : s.evaluate (s.splitOf (.kind .kind1)) s.counts = s.own (.kind .kind1) := rfl
    rw [← hbetter, sortFirst_eq, hsplit, hown]
    dsimp only
    rw [hpoints, hsplit, hsecond]
    dsimp only
    rw [hsplit, sortLater_setSorted]
    unfold leftMap judged
    rw [if_neg hfaces]
    by_cases htakes : s.TakesThird
    · rw [if_pos htakes, if_pos htakes]
      exact if_pos htakes.2
    · rw [if_neg htakes, if_neg htakes]
      exact if_neg fun h => htakes ⟨hfaces, h⟩

/-! ## When the kept split is the one evaluated -/

/-- No later split is taken, summarising the first one's map again leaves its
hands, and the first split is the best. -/
structure FirstStands : Prop where
  second : ¬s.TakesSecond
  third : ¬s.TakesThird
  hands : ∀ t, s.leftMap.vec t = (s.own s.firstSplitter).1.vec t
  best : s.Best s.firstSplitter

/-- A later split is taken, it is the best, its own evaluation has the summary
and the counters of the map that was evaluated in its place, and the hands that
are left. -/
structure LaterAgrees : Prop where
  taken : s.TakesSecond ∨ s.TakesThird
  judged : s.judged.2 = (s.own s.kept).2
  hands : ∀ t, s.leftMap.vec t = (s.own s.kept).1.vec t
  best : s.Best s.kept

/-- The robot is sorted by the split the function keeps when the first one
stands, or a later one agrees with what was evaluated for it, and only then. -/
theorem sortedBy_kept_iff :
    s.SortedBy s.kept ↔ s.FirstStands ∨ s.LaterAgrees := by
  have hmap : s.sortHandMapLvl.handsMap = s.leftMap := by rw [s.sortHandMapLvl_eq]; rfl
  have hcounts : s.sortHandMapLvl.counts = s.judged.2.1 := by rw [s.sortHandMapLvl_eq]; rfl
  have hsummary : s.sortHandMapLvl.summary = s.judged.2.2 := by rw [s.sortHandMapLvl_eq]; rfl
  by_cases htaken : s.TakesSecond ∨ s.TakesThird
  · have hnot : ¬s.FirstStands := fun h => htaken.elim h.second h.third
    rw [or_iff_right hnot]
    constructor
    · intro h
      refine ⟨htaken, Prod.ext ?_ ?_, fun t => ?_, h.best⟩
      · rw [← hcounts]
        exact h.counts
      · rw [← hsummary]
        exact h.summary
      · rw [← hmap]
        exact h.hands t
    · intro h
      refine ⟨fun t => ?_, ?_, ?_, h.best⟩
      · rw [hmap]
        exact h.hands t
      · rw [hcounts, h.judged]
      · rw [hsummary, h.judged]
  · have hsecond : ¬s.TakesSecond := fun h => htaken (Or.inl h)
    have hthird : ¬s.TakesThird := fun h => htaken (Or.inr h)
    -- the evaluation that stands is the first one's own
    have hkept : s.kept = s.firstSplitter := by
      unfold kept
      rw [if_neg hthird, if_neg hsecond]
    have hjudged : s.judged = s.own s.firstSplitter := by
      unfold judged standing
      rw [if_neg hthird, if_neg hsecond]
    have hnot : ¬s.LaterAgrees := fun h => htaken h.taken
    rw [or_iff_left hnot, hkept]
    constructor
    · intro h
      refine ⟨hsecond, hthird, fun t => ?_, h.best⟩
      rw [← hmap]
      exact h.hands t
    · intro h
      refine ⟨fun t => ?_, ?_, ?_, h.best⟩
      · rw [hmap]
        exact h.hands t
      · rw [hcounts, hjudged]
      · rw [hsummary, hjudged]

end SortLvl

/-! ## A bomb that is never looked at -/

/-- Ten, jack, queen, four kings, two aces and a two. -/
def kingsInChain : Points := Points.ofList [0, 0, 0, 0, 0, 0, 0, 1, 1, 1, 4, 2, 1]

/-- A farmer with these cards. The first splitter makes a chain and a trio of
the kings, the second a bomb. -/
def farmerWithKings : AI :=
  { level := 2
    aiSeat := 0
    lordSeat := 1
    downSeat := 1
    upSeat := 2
    aiPosition := .upFarmer
    playerInfo := fun seat =>
      if seat = 0 then ⟨kingsInChain, 10⟩
      else if seat = 1 then ⟨Points.ofList [0, 1, 0, 0, 0, 0, 0, 0, 0, 1], 2⟩
      else ⟨Points.ofList [0, 0, 0, 0, 0, 0, 0, 1], 1⟩ }

/-- Alone, the second split has a summary better than the first's and the
third's, and it is not the one kept. -/
theorem sortHandMapLvl_misses_bomb :
    2 ≤ farmerWithKings.level ∧ LegalHolding farmerWithKings.aiPoints ∧
      ∀ x ∈ farmerWithKings.tried, ¬farmerWithKings.SortedBy x := by
  have htried : farmerWithKings.tried = [.kind .kind1, .kind .kind2, .kind .kind3] := by decide
  have hsecond : .kind .kind2 ∈ farmerWithKings.tried := by rw [htried]; decide
  have hbetter : ∀ x, x = .kind .kind1 ∨ x = .kind .kind3 →
      farmerWithKings.better (farmerWithKings.own x).2.2
        (farmerWithKings.own (.kind .kind2)).2.2 = true := by
    rintro x (rfl | rfl)
    · decide +kernel
    · decide +kernel
  have hbomb : (farmerWithKings.sortHandMapLvl.handsMap.vec .bomb).length = 0 ∧
      ((farmerWithKings.own (.kind .kind2)).1.vec .bomb).length = 1 := by decide +kernel
  refine ⟨by decide, legalHolding_ofList (by decide) (by decide) (by decide), fun x hx h => ?_⟩
  have hbest : ∀ x, x = .kind .kind1 ∨ x = .kind .kind3 → ¬farmerWithKings.Best x :=
    fun x hx hb => Bool.noConfusion ((hbetter x hx).symm.trans (hb _ hsecond))
  rw [htried] at hx
  simp only [List.mem_cons, List.not_mem_nil, or_false] at hx
  rcases hx with hx | rfl | hx
  · exact hbest x (Or.inl hx) h.best
  · have hlen := congrArg List.length (h.hands .bomb)
    rw [hbomb.1, hbomb.2] at hlen
    cases hlen
  · exact hbest x (Or.inr hx) h.best

end AI

end RobotDdz
