import RobotDdz.AI.Counter
import RobotDdz.AI.Reset

/-!
# Resuming a game

After a lost connection a robot is rebuilt from what the server sends:
`RbtResetData`, `RbtInSetSeat`, `RbtInSetCard`, `RbtInTakeOutRecord`
(`resumed`). This module compares it with the robot that saw the same deal and
the same plays live (`robotAfter`).

The counts of the unplayed cards, the robot's own cards and its position come
out alike (`resumed_spec`, `live_spec`). The rest does not: nothing rebuilds
the other players' totals, the hand to beat and `lowestControl`, and a live
lord's `otherPoints` has the bottom cards in excess. `resume_agrees_iff` is the
exact condition, which no game that is still being played meets.

The two robots are compared field by field, on the fields that the next
decision reads (`ResumeAgrees`). Each side has one lemma with all of them in
closed form, from the deal, the seats, the cards held and the plays; the
comparison is then about these closed forms, and neither run is looked at
again.

Mirroring notes vs `OGLordRobotAI.cpp` and `RobotTask.cpp`:
- `RecvKeepPlayAck` calls `RbtResetData`, `RbtInSetSeat` and `RbtInSetCard`;
  `RbtInTakeOutRecord` is the call for the plays so far.
- `RbtInSetCard` gets the bottom cards and does not read them, so
  `leftoverCards` stays empty.
- `RbtInTakeOutRecord` fills the unplayed cards anew, takes every play out of
  them, and computes `otherPoints` at its end. It writes the history and sets
  neither the hand to beat nor a total.
-/

namespace RobotDdz

open AI Runs

section Resume

variable (u : Undef) (s : AI) (d : Deal) (seat lord : Int)

/-- The robot `s` rebuilt in the middle of a game: its seat and the lord's, the
cards it holds, the bottom cards and the plays so far. -/
def resumed (cards : List Int) (plays : List (Int × List Int)) : AI :=
  (((s.rbtResetData.rbtInSetSeat seat lord).rbtInSetCard u cards d.bottom).rbtInTakeOutRecord
    (plays.map Prod.fst) (plays.map Prod.snd))

/-- What each seat holds after the plays. -/
def heldAfter (plays : List (Int × List Int)) : Int → List Int :=
  plays.foldl play (d.held lord)

end Resume

/-- The rebuilt robot agrees with the live one on what its next decision reads.
A hand to beat that is none is compared by its type. -/
structure ResumeAgrees (live rebuilt : AI) : Prop where
  own : SameRanks rebuilt.aiPoints live.aiPoints
  remain : SameRanks rebuilt.remainPoints live.remainPoints
  other : SameRanks rebuilt.otherPoints live.otherPoints
  total : ∀ i, Seat i → rebuilt.total i = live.total i
  hand : rebuilt.curHand.type = live.curHand.type
    ∧ (live.curHand.type ≠ .nothing → rebuilt.curHand = live.curHand)
  handSeat : rebuilt.curHandSeat = live.curHandSeat
  position : rebuilt.aiPosition = live.aiPosition
  lowestControl : rebuilt.lowestControl = live.lowestControl

/-! ## The rebuilt robot -/

/-- The cards of each rank in a list of plays. -/
def playedCards (plays : List (Int × List Int)) (r : Nat) : Int :=
  (plays.map fun p => cardVecToPointArr p.2 r).sum

/-- The record takes the played cards out of the unplayed ones and goes into
the history. -/
theorem foldl_recordTakeOut (plays : List (Int × List Int)) : ∀ s : AI, ∃ remain history,
    plays.foldl recordTakeOut s = { s with remainPoints := remain, history := history }
      ∧ ∀ r, remain r = s.remainPoints r - playedCards plays r := by
  induction plays with
  | nil =>
    intro s
    exact ⟨s.remainPoints, s.history, rfl, fun r => by simp [playedCards]⟩
  | cons p plays ih =>
    intro s
    obtain ⟨remain, history, heq, hremain⟩ := ih (recordTakeOut s p)
    refine ⟨remain, history, heq, fun r => ?_⟩
    rw [hremain r]
    show s.remainPoints r - cardVecToPointArr p.2 r - playedCards plays r = _
    simp only [playedCards, List.map_cons, List.sum_cons]
    omega

theorem zip_map_fst_snd (plays : List (Int × List Int)) :
    (plays.map Prod.fst).zip (plays.map Prod.snd) = plays := by
  induction plays with
  | nil => rfl
  | cons p plays ih => simp [ih]

/-- The robot after `RbtInSetCard`, before the plays are told: its own cards
and the length of its hand, nobody else's, no hand to beat, and the threshold
from before. -/
theorem rbtInSetCard_spec (u : Undef) (s : AI) {seat : Int} (hs : Seat seat) (lord : Int)
    (cards bottom : List Int) :
    let t := (s.rbtResetData.rbtInSetSeat seat lord).rbtInSetCard u cards bottom
    t.aiPoints = cardVecToPointArr cards ∧
    (∀ i, Seat i → t.total i = if i = seat then (cards.length : Int) else 0) ∧
    t.curHand = {} ∧ t.curHandSeat = -1 ∧
    t.aiPosition = (rbtInSetSeat {} seat lord).aiPosition ∧ t.lowestControl = s.lowestControl := by
  have hinfo : ∀ i, Seat i → (s.rbtResetData.rbtInSetSeat seat lord).playerInfo i = {} :=
    fun i hi => if_pos hi
  have hset : ∀ i, Seat i →
      ((s.rbtResetData.rbtInSetSeat seat lord).setCards cards).playerInfo i
        = if i = seat then { points := cardVecToPointArr cards, total := cards.length }
          else { points := fun _ => -1 } := by
    intro i hi
    show (if 0 ≤ i ∧ i < 3 then _ else _) = _
    rw [if_pos (show 0 ≤ i ∧ i < 3 from hi), total, hinfo i hi, Int.zero_add]
    rfl
  obtain ⟨_, _, _, _, heq⟩ :=
    sortHandMap_eq u ((s.rbtResetData.rbtInSetSeat seat lord).setCards cards)
  unfold rbtInSetCard
  rw [heq]
  refine ⟨?_, fun i hi => ?_, rfl, rfl, rfl, rfl⟩
  · show (((s.rbtResetData.rbtInSetSeat seat lord).setCards cards).playerInfo seat).points = _
    rw [hset seat hs, if_pos rfl]
  · show (((s.rbtResetData.rbtInSetSeat seat lord).setCards cards).playerInfo i).total = _
    rw [hset i hi]
    split <;> rfl

/-- Every field of the rebuilt robot that a decision reads. The record of the
plays takes them from the cards that are left in the game; it sets no hand to
beat and takes nothing from a seat's number of cards. -/
theorem resumed_spec (u : Undef) (s : AI) (d : Deal) {seat : Int} (hs : Seat seat) (lord : Int)
    (cards : List Int) (plays : List (Int × List Int)) :
    let rebuilt := resumed u s d seat lord cards plays
    rebuilt.aiPoints = cardVecToPointArr cards ∧
    (∀ r, r ≤ redJoker →
      rebuilt.remainPoints r = freshRemain Points.zero r - playedCards plays r) ∧
    (∀ r, rebuilt.otherPoints r = rebuilt.remainPoints r - rebuilt.aiPoints r) ∧
    (∀ i, Seat i → rebuilt.total i = if i = seat then (cards.length : Int) else 0) ∧
    rebuilt.curHand = {} ∧ rebuilt.curHandSeat = -1 ∧
    rebuilt.aiPosition = (rbtInSetSeat {} seat lord).aiPosition ∧
    rebuilt.lowestControl = s.lowestControl := by
  have hcard := rbtInSetCard_spec u s hs lord cards d.bottom
  unfold resumed
  generalize (s.rbtResetData.rbtInSetSeat seat lord).rbtInSetCard u cards d.bottom = t at hcard
  obtain ⟨remain, history, heq, hremain⟩ :=
    foldl_recordTakeOut plays { t with remainPoints := freshRemain t.remainPoints }
  unfold rbtInTakeOutRecord
  simp only [zip_map_fst_snd, heq]
  obtain ⟨hown, htotal, hhand, hhandSeat, hpos, hlow⟩ := hcard
  refine ⟨hown, fun r hr => ?_, fun _ => rfl, htotal, hhand, hhandSeat, hpos, hlow⟩
  rw [hremain r]
  show freshRemain t.remainPoints r - _ = _
  rw [freshRemain_sameRanks t.remainPoints Points.zero r hr]

/-! ## The live robot -/

namespace AI

/-- A run of plays keeps the robot's seat, its position and `lowestControl`. -/
theorem foldl_plays_keeps (plays : List (Int × List Int)) : ∀ s : AI,
    let t := plays.foldl (fun s p => s.rbtInTakeOutCard p.1 p.2) s
    t.aiSeat = s.aiSeat ∧ t.aiPosition = s.aiPosition ∧ t.lowestControl = s.lowestControl := by
  induction plays with
  | nil => intro s; exact ⟨rfl, rfl, rfl⟩
  | cons p plays ih =>
    intro s
    obtain ⟨_, _, _, _, _, _, heq, -⟩ := s.rbtInTakeOutCard_eq p.1 p.2
    have hrest := ih (s.rbtInTakeOutCard p.1 p.2)
    rw [heq] at hrest
    rw [List.foldl_cons, heq]
    exact hrest

/-- Setting the lord sets the position and keeps `lowestControl`. -/
theorem rbtInSetLord_keeps (s : AI) (lord : Int) (bottom : List Int) :
    (s.rbtInSetLord lord bottom).aiPosition = (rbtInSetSeat {} s.aiSeat lord).aiPosition ∧
    (s.rbtInSetLord lord bottom).lowestControl = s.lowestControl := by
  obtain ⟨_, _, heq⟩ := s.rbtInSetLord_eq lord bottom
  rw [heq]
  exact ⟨rfl, rfl⟩

end AI

/-- The unplayed cards and the robot's own after a run of plays, each by what
was played: of all the seats for the first, of the robot's own for the second. -/
theorem foldl_plays_counts {seat : Int} {r : Nat} (hr : r ≤ redJoker) :
    ∀ (plays : List (Int × List Int)) (s : AI) (held : Int → List Int), s.aiSeat = seat →
      Playable held plays →
      let t := plays.foldl (fun s p => s.rbtInTakeOutCard p.1 p.2) s
      t.remainPoints r = s.remainPoints r - playedCards plays r ∧
      t.aiPoints r - cardVecToPointArr (plays.foldl play held seat) r
        = s.aiPoints r - cardVecToPointArr (held seat) r := by
  intro plays
  induction plays with
  | nil => intro s held _ _; exact ⟨by simp [playedCards], rfl⟩
  | cons p plays ih =>
    intro s held hseat hplays
    obtain ⟨-, hsub, hrest⟩ := hplays
    have hstep := rbtInTakeOutCard_counted s p.1 p.2
    have hlt := lt_cardPointNum hr
    obtain ⟨hremain, hown⟩ := ih _ _ (hstep.seat.trans hseat) hrest
    have hdiff := cardVecToPointArr_diff hsub r
    refine ⟨?_, ?_⟩
    · rw [List.foldl_cons, hremain, hstep.remain, if_pos hlt]
      simp only [playedCards, List.map_cons, List.sum_cons]
      omega
    · rw [List.foldl_cons, List.foldl_cons, hown, hstep.own, hseat]
      simp only [play, Function.update_apply]
      by_cases h0 : p.1 = seat
      · rw [if_pos ⟨h0, hlt⟩, if_pos h0.symm, hdiff, h0]
        omega
      · rw [if_neg (by omega), if_neg (Ne.symm h0)]
        omega

/-- The last play `getHand` recognises, if any. -/
def lastPlay (plays : List (Int × List Int)) : Option (Int × Hand) :=
  plays.foldl (fun last p =>
    if (getHand (cardVecToPointArr p.2)).type ≠ .nothing then
      some (p.1, getHand (cardVecToPointArr p.2)) else last) none

/-- A run of plays as a run of calls. -/
theorem run_played (plays : List (Int × List Int)) : ∀ (s : AI) (t : Table),
    Playable t.held plays →
      Along Call.step (fun x c => c.Legal x.2) (s, t) (plays.map fun p => .played p.1 p.2) ∧
      run Call.step (s, t) (plays.map fun p => .played p.1 p.2)
        = (plays.foldl (fun s p => s.rbtInTakeOutCard p.1 p.2) s,
          { t with
            held := plays.foldl play t.held
            last := plays.foldl (fun last p =>
              if (getHand (cardVecToPointArr p.2)).type ≠ .nothing then
                some (p.1, getHand (cardVecToPointArr p.2)) else last) t.last }) := by
  induction plays with
  | nil => intro s t _; exact ⟨trivial, rfl⟩
  | cons p plays ih =>
    intro s t hplays
    obtain ⟨hseat, hsub, hrest⟩ := hplays
    obtain ⟨halong, hrun⟩ := ih (s.rbtInTakeOutCard p.1 p.2)
      (Call.happen t (.played p.1 p.2)) hrest
    exact ⟨⟨⟨hseat, hsub⟩, halong⟩, hrun⟩

/-- Every field of the live robot that a decision reads. The counts come from
the run lemma for the plays; the excess in `otherPoints` is what the lord keeps
of the bottom cards. -/
theorem live_spec (u : Undef) (s : AI) {d : Deal} (hd : d.Legal) {seat lord : Int}
    (hs : Seat seat) (hl : Seat lord) {plays : List (Int × List Int)}
    (hplays : Playable (d.held lord) plays) :
    let live := robotAfter u s d seat lord plays
    (∀ r, r ≤ redJoker → live.aiPoints r = cardVecToPointArr (heldAfter d lord plays seat) r) ∧
    (∀ r, r ≤ redJoker → live.remainPoints r = freshRemain Points.zero r - playedCards plays r) ∧
    (∀ r, r ≤ redJoker → live.otherPoints r = live.remainPoints r - live.aiPoints r
      + if lord = seat then cardVecToPointArr d.bottom r else 0) ∧
    CountsTable live { held := heldAfter d lord plays, last := lastPlay plays } ∧
    live.aiPosition = (rbtInSetSeat {} seat lord).aiPosition ∧ live.lowestControl = card2 := by
  obtain ⟨hai, hremain, hown⟩ := rbtInInitCard_spec u s (d.hand seat) hs
  obtain ⟨hai', hremain', -, hown'⟩ :=
    rbtInSetLord_spec (s.rbtInInitCard u seat (d.hand seat)) lord d.bottom
  obtain ⟨hpos, hlow⟩ := rbtInSetLord_keeps (s.rbtInInitCard u seat (d.hand seat)) lord d.bottom
  obtain ⟨halong, hrun⟩ := run_played plays
    ((s.rbtInInitCard u seat (d.hand seat)).rbtInSetLord lord d.bottom) (d.started lord) hplays
  obtain ⟨-, hposRun, hlowRun⟩ := foldl_plays_keeps plays
    ((s.rbtInInitCard u seat (d.hand seat)).rbtInSetLord lord d.bottom)
  intro live
  refine ⟨fun r hr => ?_, fun r hr => ?_, fun r hr => ?_, ?_, ?_, ?_⟩
  · have hplay := (foldl_plays_counts hr plays _ _ (hai'.trans hai) hplays).2
    rw [hown', hai, hown, List.take_of_length_le (Nat.le_of_eq hd.three)] at hplay
    have hheld : cardVecToPointArr (d.held lord seat) r = cardVecToPointArr (d.hand seat) r
        + if lord = seat then cardVecToPointArr d.bottom r else 0 := by
      unfold Deal.held
      by_cases he : lord = seat
      · rw [if_pos he.symm, if_pos he, cardVecToPointArr_append]
      · rw [if_neg (Ne.symm he), if_neg he, Int.add_zero]
    rw [hheld] at hplay
    show (robotAfter u s d seat lord plays).aiPoints r = _
    unfold robotAfter heldAfter
    omega
  · have hplay := (foldl_plays_counts hr plays _ _ (hai'.trans hai) hplays).1
    rw [hremain', hremain, freshRemain_sameRanks s.remainPoints Points.zero r hr] at hplay
    exact hplay
  · have hexcess := excess_robotAfter u s hd hs lord plays hr
    unfold AI.excess at hexcess
    show (robotAfter u s d seat lord plays).otherPoints r
      = (robotAfter u s d seat lord plays).remainPoints r
        - (robotAfter u s d seat lord plays).aiPoints r + _
    omega
  · have hcount := halong.inv (fun x => CountsTable x.1 x.2) (fun x c hx hc => hx.step hc)
      (countsTable_started hd hl (countsTable_dealt u s hd hs))
    rw [hrun] at hcount
    exact hcount
  · exact hposRun.trans (by rw [hpos, hai])
  · exact hlowRun.trans (hlow.trans (lowestControl_rbtInInitCard u s seat _))

/-! ## The comparison -/

/-- The last recognised play is none just when there is none. -/
theorem lastPlay_eq_none (plays : List (Int × List Int)) : lastPlay plays = none ↔
    ∀ p ∈ plays, (getHand (cardVecToPointArr p.2)).type = .nothing := by
  unfold lastPlay
  induction plays using List.reverseRecOn with
  | nil => simp
  | append_singleton plays p ih =>
    rw [List.foldl_append, List.foldl_cons, List.foldl_nil, List.forall_mem_append, ← ih]
    by_cases ht : (getHand (cardVecToPointArr p.2)).type = .nothing
    · rw [if_neg (not_not.mpr ht)]
      simp [ht]
    · rw [if_pos ht]
      simp [ht]

/-- It is the play of a seat of the table, and it is recognised. The induction
carries this for the last hand so far, which a pass leaves as it is. -/
theorem lastPlay_some {plays : List (Int × List Int)} : ∀ {held : Int → List Int},
    Playable held plays → ∀ {seat : Int} {hand : Hand}, lastPlay plays = some (seat, hand) →
      Seat seat ∧ hand.type ≠ .nothing := by
  have hfold : ∀ (plays : List (Int × List Int)) (held : Int → List Int)
      (last : Option (Int × Hand)), Playable held plays →
      (∀ x, last = some x → Seat x.1 ∧ x.2.type ≠ .nothing) →
      ∀ x, plays.foldl (fun last p =>
        if (getHand (cardVecToPointArr p.2)).type ≠ .nothing then
          some (p.1, getHand (cardVecToPointArr p.2)) else last) last = some x →
        Seat x.1 ∧ x.2.type ≠ .nothing := by
    intro plays
    induction plays with
    | nil => intro _ _ _ hlast; exact hlast
    | cons p plays ih =>
      intro held last hplays hlast
      obtain ⟨hseat, -, hrest⟩ := hplays
      apply ih _ _ hrest
      intro x hx
      dsimp only at hx
      split at hx
      next ht =>
        cases hx
        exact ⟨hseat, ht⟩
      next => exact hlast x hx
  intro held hplays seat hand h
  exact hfold plays held none hplays (fun _ hx => nomatch hx) _ h

/-- Resuming agrees with live play exactly when the robot is not the lord,
nobody else holds a card, no play was recognised and `lowestControl` was the
deal's before the reset. -/
theorem resume_agrees_iff (u u' : Undef) (s s' : AI) {d : Deal} (hd : d.Legal) {seat lord : Int}
    (hs : Seat seat) (hl : Seat lord) {plays : List (Int × List Int)}
    (hplays : Playable (d.held lord) plays) {cards : List Int}
    (hcards : cards.Perm (heldAfter d lord plays seat)) :
    ResumeAgrees (robotAfter u s d seat lord plays) (resumed u' s' d seat lord cards plays) ↔
      lord ≠ seat ∧ (∀ i, Seat i → i ≠ seat → heldAfter d lord plays i = []) ∧
        (∀ p ∈ plays, (getHand (cardVecToPointArr p.2)).type = .nothing) ∧
        s'.lowestControl = card2 := by
  obtain ⟨hown, hremain, hother, ⟨-, htotal, hcurrent⟩, hpos, hlow⟩ :=
    live_spec u s hd hs hl hplays
  obtain ⟨hown', hremain', hother', htotal', hhand', hhandSeat', hpos', hlow'⟩ :=
    resumed_spec u' s' d hs lord cards plays
  have hpoints : ∀ r, r ≤ redJoker →
      (resumed u' s' d seat lord cards plays).aiPoints r
        = (robotAfter u s d seat lord plays).aiPoints r := by
    intro r hr
    rw [hown', hown r hr, cardVecToPointArr_perm hcards]
  rw [← lastPlay_eq_none]
  constructor
  · intro h
    refine ⟨?_, ?_, ?_, ?_⟩
    · -- a live lord counts the bottom cards among the others'
      intro he
      obtain ⟨r, hr, hbottom⟩ := exists_bottom_rank hd
      have hsame := h.other r hr
      rw [hother', hother r hr, if_pos he, hpoints r hr, hremain' r hr, hremain r hr] at hsame
      omega
    · intro i hi hne
      have hsame := h.total i hi
      rw [htotal' i hi, if_neg hne, htotal i hi] at hsame
      exact List.length_eq_zero_iff.mp (by exact_mod_cast hsame.symm)
    · cases hlast : lastPlay plays with
      | none => rfl
      | some x =>
        obtain ⟨i, hand⟩ := x
        obtain ⟨hi, -⟩ := lastPlay_some hplays hlast
        rw [hlast] at hcurrent
        have hsame := h.handSeat
        rw [hhandSeat', hcurrent.2] at hsame
        obtain ⟨hi0, -⟩ := hi
        omega
    · exact hlow'.symm.trans (h.lowestControl.trans hlow)
  · intro h
    obtain ⟨hne, hempty, hnone, hcontrol⟩ := h
    rw [hnone] at hcurrent
    refine ⟨hpoints, fun r hr => (hremain' r hr).trans (hremain r hr).symm, fun r hr => ?_,
      fun i hi => ?_, ?_, hhandSeat'.trans hcurrent.2.symm, hpos'.trans hpos.symm,
      hlow'.trans (hcontrol.trans hlow.symm)⟩
    · rw [hother', hother r hr, if_neg hne, hpoints r hr, hremain' r hr, hremain r hr]
      omega
    · rw [htotal' i hi, htotal i hi]
      split
      next he => rw [he, hcards.length_eq]
      next he =>
        show 0 = ((heldAfter d lord plays i).length : Int)
        rw [hempty i hi he]
        rfl
    · rw [hhand']
      exact ⟨hcurrent.1.symm, fun hsome => absurd hcurrent.1 hsome⟩

/-- The plays of a trick of the ordered deal up to the lord's next turn: a
three, a seven and a pass. -/
def openingPlays : List (Int × List Int) := [(0, [0]), (1, [17]), (2, [])]

theorem openingPlays_playable : Playable (orderedDeal.held 0) openingPlays :=
  ⟨⟨by decide, by decide⟩, by decide, ⟨by decide, by decide⟩, by decide,
    ⟨by decide, by decide⟩, List.nil_subperm, trivial⟩

/-- The lord rebuilt before its second turn. -/
theorem resume_agrees_iff_opening :
    let cards := heldAfter orderedDeal 0 openingPlays 0
    ResumeAgrees (robotAfter .zero {} orderedDeal 0 0 openingPlays)
        (resumed .zero {} orderedDeal 0 0 cards openingPlays) ↔
      (0 : Int) ≠ 0 ∧ (∀ i, Seat i → i ≠ 0 → heldAfter orderedDeal 0 openingPlays i = []) ∧
        (∀ p ∈ openingPlays, (getHand (cardVecToPointArr p.2)).type = .nothing) ∧
        ({} : AI).lowestControl = card2 :=
  resume_agrees_iff .zero .zero {} {} orderedDeal_legal ⟨by decide, by decide⟩
    ⟨by decide, by decide⟩ openingPlays_playable (List.Perm.refl _)

/-- It has no hand to beat and thinks that it leads. -/
theorem resume_loses_lead :
    let live := robotAfter .zero {} orderedDeal 0 0 openingPlays
    let rebuilt :=
      resumed .zero {} orderedDeal 0 0 (heldAfter orderedDeal 0 openingPlays 0) openingPlays
    live.isFree = false ∧ rebuilt.isFree = true ∧ ¬ResumeAgrees live rebuilt := by
  intro live rebuilt
  have hlive : live.curHandSeat = 1 := by decide +kernel
  have hrebuilt : rebuilt.curHandSeat = -1 := by decide +kernel
  refine ⟨by decide +kernel, by decide +kernel, fun h => ?_⟩
  have hseat := h.handSeat
  rw [hlive, hrebuilt] at hseat
  exact absurd hseat (by decide)

end RobotDdz
