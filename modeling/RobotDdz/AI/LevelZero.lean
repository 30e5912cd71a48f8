import RobotDdz.AI.Turn
import RobotDdz.Split.Legal

/-!
# Level 0

At level 0 the robot plays hands of its map only: the lowest one as a leader,
the first higher one or else a bomb as a follower. Every hand of the map is
within its cards and is one `getHand` recognises, but for the solo chain of
four ranks of the long holdings. A follower never matches that chain, since no
recognised solo chain is that short, and for none of the sixteen long holdings
is it the lowest hand (`lowest_ne_shortChain_long`). So the turn keeps its
contract (`turnContract_levelZero`).

Level 0 is the level for which the contract holds without any condition on the
cards. The follower's part goes by types: the map's vector of the type of the
hand on the table, the first hand in it that is higher, and otherwise the first
bomb. A hand of the map has its vector's type, so the comparison is between two
hands of one type or with a bomb.
-/

namespace RobotDdz

open AI

/-! ## The lowest hand -/

/-- `findLowestHand` over the vectors of a map. -/
def lowestOf (m : HandsMap) (ts : List HandType) (hand : Hand) : Hand :=
  ts.foldl (fun hand t => lowestFront hand (m.vec t)) hand

theorem lowestFront_cons (hand h : Hand) (hands : List Hand) :
    lowestFront hand (h :: hands) = h ∨ lowestFront hand (h :: hands) = hand := by
  simp only [lowestFront]
  split
  · exact .inl rfl
  · split
    · exact .inl rfl
    · exact .inr rfl

/-- A hand of the map stays or gives way to another one. -/
theorem lowestOf_mem (m : HandsMap) (ts : List HandType) {hand : Hand}
    (hh : ∃ t, hand ∈ m.vec t) : ∃ t, lowestOf m ts hand ∈ m.vec t := by
  induction ts generalizing hand with
  | nil => exact hh
  | cons t ts ih =>
    have hstep : ∃ t', lowestFront hand (m.vec t) ∈ m.vec t' := by
      cases hv : m.vec t with
      | nil => exact hh
      | cons h hands =>
        rcases lowestFront_cons hand h hands with heq | heq
        · exact ⟨t, by rw [heq, hv]; exact List.mem_cons_self⟩
        · rw [heq]
          exact hh
    exact ih hstep

/-- Where a vector is not empty, the search ends with a hand of the map,
whatever cleared hand it starts from. -/
theorem lowestOf_clear (m : HandsMap) {ts : List HandType} (hne : ∃ t ∈ ts, m.vec t ≠ [])
    {x y : Hand} (hx : x.type = .nothing) (hy : y.type = .nothing) :
    (∃ t, lowestOf m ts x ∈ m.vec t) ∧ lowestOf m ts x = lowestOf m ts y := by
  induction ts generalizing x y with
  | nil =>
    obtain ⟨t, ht, -⟩ := hne
    exact absurd ht (List.not_mem_nil)
  | cons t ts ih =>
    show (∃ t', lowestOf m ts (lowestFront x (m.vec t)) ∈ m.vec t') ∧
      lowestOf m ts (lowestFront x (m.vec t)) = lowestOf m ts (lowestFront y (m.vec t))
    cases hv : m.vec t with
    | nil =>
      -- an empty vector changes nothing, and the one that is not empty comes later
      obtain ⟨t', ht', hne'⟩ := hne
      refine ih ⟨t', ?_, hne'⟩ hx hy
      rcases List.mem_cons.mp ht' with rfl | h
      · exact absurd hv hne'
      · exact h
    | cons h hands =>
      have hfront : ∀ z : Hand, z.type = .nothing → lowestFront z (h :: hands) = h :=
        fun z hz => if_pos hz
      rw [hfront x hx, hfront y hy]
      exact ⟨lowestOf_mem m ts ⟨t, by rw [hv]; exact List.mem_cons_self⟩, rfl⟩

theorem lowestOf_congr {m m' : HandsMap} (h : ∀ t, m.vec t = m'.vec t) (ts : List HandType)
    (hand : Hand) : lowestOf m ts hand = lowestOf m' ts hand := by
  unfold lowestOf
  simp only [h]

section Map

variable {p : Points} (hp : LegalCounts p) (k : Kind)

include hp

/-- A holding with a card is split into at least one hand: the pair chain pass
never robs the rank its own run starts at. -/
theorem splitCardsToHands_ne_nil (searchKicker : Bool) {r : Nat} (hr : 0 < p r) :
    ∃ t ∈ HandType.all, (splitCardsToHands k p searchKicker).vec t ≠ [] := by
  have hsum := sum_splitCardsToHands hp k searchKicker
  have hsome : ∃ r, 0 < (splitCardsToHands k p searchKicker).sum r := by
    by_cases hrob : Robbed (beforePairChain k p).cards r
    · -- the run that robs the rank starts at `a`, which is held and not robbed itself
      obtain ⟨a, b, hrun, -⟩ := hrob
      refine ⟨a, ?_⟩
      rw [(hsum a).2 ?_]
      · have h2 := hrun.held a (Nat.le_refl a) (by have := hrun.long; omega)
        have hle := (beforePairChain_sound hp k).frame.le a
        omega
      · intro hrob
        obtain ⟨a', b', hrun', ha⟩ := hrob
        obtain ⟨-, hkey, hlen, hend⟩ := pairChainOf_spec (beforePairChain k p).cards hrun'.long
        unfold overrun at ha hend
        have hheld := hrun'.held (a - 1) (by omega) (by omega)
        rcases hrun.below with h0 | hlow <;> omega
    · exact ⟨r, by rw [(hsum r).2 hrob]; exact hr⟩
  obtain ⟨r', hr'⟩ := hsome
  by_contra hnone
  have hempty : (splitCardsToHands k p searchKicker).hands = [] := by
    refine List.flatMap_eq_nil_iff.mpr fun t ht => ?_
    by_contra hne
    exact hnone ⟨t, ht, hne⟩
  rw [HandsMap.sum, hempty, handsSum_nil] at hr'
  exact absurd hr' (by decide)

end Map

/-- Of the long holdings none has the short chain as its lowest hand. -/
theorem lowest_ne_shortChain_long : ∀ k : Kind, ∀ i < 16,
    lowestOf (splitCardsToHands k (longHolding i) true) HandType.all {} ≠ shortChain := by
  intro k
  cases k <;> decide +kernel

/-- The lowest hand of a holding is within it and recognised. -/
theorem lowest_shaped {p : Points} (hp : LegalHolding p) (k : Kind) {r : Nat} (hr : 0 < p r)
    {hand : Hand} (hclear : hand.type = .nothing) :
    (∃ t, lowestOf (splitCardsToHands k p true) HandType.all hand
        ∈ (splitCardsToHands k p true).vec t) ∧
      (lowestOf (splitCardsToHands k p true) HandType.all hand).Shaped := by
  have hne := splitCardsToHands_ne_nil hp.toLegalCounts k true hr
  obtain ⟨⟨t, ht⟩, hsame⟩ := lowestOf_clear _ hne hclear (rfl : ({} : Hand).type = .nothing)
  refine ⟨⟨t, ht⟩, ?_⟩
  rcases mem_splitInto hp.toLegalCounts (.kind k) true ht with ⟨hs, -⟩ | ⟨-, hshort, hlong⟩
  · exact hs
  · obtain ⟨i, hi, rfl⟩ := exists_longHolding hp hlong
    rw [hsame] at hshort
    exact absurd hshort (lowest_ne_shortChain_long k i hi)

/-! ## The turn -/

/-- Recognised solo chains have at least five ranks. -/
theorem getHand_soloChain_len {p : Points} (h : (getHand p).type = .soloChain) :
    5 ≤ (getHand p).len := by
  unfold getHand at h ⊢
  split at h
  · split at h <;> exact HandType.noConfusion h
  next hrocket =>
    rw [if_neg hrocket]
    unfold classify at h ⊢
    grind

theorem AI.PlayedHand.soloChain_len {h : Hand} (hh : PlayedHand h) (ht : h.type = .soloChain) :
    5 ≤ h.len := by
  obtain ⟨cards, -, -, -, hagree⟩ := hh
  have hchain := hagree.type.trans ht
  rw [← hagree.len (by rw [ht]; rfl)]
  exact getHand_soloChain_len hchain

namespace AI

/-- A shaped hand within the cards is recognised when it is taken out. -/
theorem recognised_of_shaped {s : AI} {hand : Hand} (hs : hand.Shaped)
    (hle : ∀ r, handToPointsArray hand r ≤ cardVecToPointArr s.aiCardsVec r) :
    s.Recognised hand := by
  have hheld : s.heldOf hand = handToPointsArray hand := funext fun r => min_eq_left (hle r)
  unfold Recognised
  rw [hheld, getHand_eq_canonical hs]
  intro hnothing
  have hbody := hs.body
  rw [show hand.type = .nothing from hnothing] at hbody
  exact hbody

/-- A pass takes out nothing. -/
theorem heldOf_nothing (s : AI) {hand : Hand} (h : hand.type = .nothing) (r : Nat) :
    s.heldOf hand r = 0 := by
  have hzero : handToPointsArray hand r = 0 := by
    simp only [handToPointsArray, h, Points.zero_apply]
  unfold heldOf
  rw [hzero]
  exact min_eq_left (cardVecToPointArr_nonneg _ r)

/-- With no cards the turn takes nothing, in the first take-out and in the
second, so the contract holds: a leader without cards is outside its second
clause. -/
theorem turnContract_of_nil {s : AI} (hnil : s.aiCardsVec = []) (hand : Hand) :
    TurnContract s (s.checkTakeOut hand) := by
  have hnone : ∀ s : AI, s.aiCardsVec = [] → ∀ hand,
      (s.takeOutHand hand).2 = [] ∧ (s.takeOutHand hand).1.aiCardsVec = [] := by
    intro s hs hand
    have hperm := s.takeOutHand_perm hand
    rw [hs] at hperm
    exact List.append_eq_nil_iff.mp hperm.eq_nil
  obtain ⟨hout, hleft⟩ := hnone s hnil hand
  have hend : (s.checkTakeOut hand).2 = [] ∧ (s.checkTakeOut hand).1.aiCardsVec = [] := by
    have hunknown : (getHand (s.heldOf hand)).type = .nothing := by
      have hzero : s.heldOf hand = Points.zero := funext ((s.takeOutHand_eq_nil_iff hand).mp hout)
      rw [hzero]
      exact getHand_zero
    rw [checkTakeOut_eq]
    split
    · exact hnone _ hleft _
    · rw [if_neg fun h => h.1 hunknown]
      exact ⟨hout, hleft⟩
  -- a leader without cards is outside the second clause, a follower passes
  refine ⟨?_, fun _ hcards => absurd hnil hcards, fun _ => .inl hend.1⟩
  rw [hend.1, hend.2, hnil]
  exact List.Perm.refl _

section LevelZero

variable {u : Undef} {s : AI}

theorem TurnState.legalHolding (hs : TurnState s) : LegalHolding (cardVecToPointArr s.aiCardsVec) :=
  ⟨legalCounts_of_nodup hs.nodup hs.valid, by
    rw [total_cardVecToPointArr hs.valid]
    exact_mod_cast hs.size⟩

/-- A card that is held counts for its rank. -/
theorem TurnState.exists_held (hs : TurnState s) (hcards : s.aiCardsVec ≠ []) :
    ∃ r, 0 < cardVecToPointArr s.aiCardsVec r := by
  obtain ⟨card, hmem⟩ := List.exists_mem_of_ne_nil _ hcards
  obtain ⟨r, hrank⟩ := Int.eq_ofNat_of_zero_le (cardToPoint_range (hs.valid card hmem)).1
  refine ⟨r, ?_⟩
  rw [cardVecToPointArr_apply]
  have hpos : 0 < s.aiCardsVec.countP (hasPoint r) :=
    List.countP_pos_iff.mpr ⟨card, hmem, beq_iff_eq.mpr hrank⟩
  exact_mod_cast hpos

/-- The map of `sortHandMap` has the vectors of one of the splitters. -/
theorem sortHandMap_vec (u : Undef) (s : AI) : ∃ k, ∀ t,
    (s.sortHandMap u).handsMap.vec t = (splitCardsToHands k s.aiPoints true).vec t := by
  have hpoints : s.countOpponents.aiPoints = s.aiPoints := by
    unfold countOpponents
    split <;> rfl
  refine ⟨bestKind u s.aiPoints s.countOpponents.lowestControl s.countOpponents.maxOppNumber
    s.countOpponents.otherPoints true, fun t => ?_⟩
  rw [← sortHandsWithBestKind_vec, ← hpoints]
  unfold sortHandMap
  simp only []

theorem isFree_iff (hseat : -1 ≤ s.curHandSeat) : s.isFree = true ↔
    s.curHandSeat = s.aiSeat ∨ s.aiPosition = .lord ∧ s.curHandSeat < 0 := by
  have hneg : s.curHandSeat < 0 ↔ s.curHandSeat = -1 := by omega
  unfold isFree
  rw [hneg, Bool.or_eq_true, Bool.and_eq_true, decide_eq_true_iff, decide_eq_true_iff,
    decide_eq_true_iff]
  exact or_comm

/-- What `findHigherHand` can return: a hand of the map's vector of the current
type that beats the current hand, a bomb of the map, or nothing. -/
theorem findHigherHand_cases (s : AI) (hand : Hand) :
    (s.findHigherHand hand ∈ s.handsMap.vec s.curHand.type
        ∧ s.beatsCurHand (s.findHigherHand hand) = true) ∨
      s.findHigherHand hand ∈ s.handsMap.vec .bomb ∨ (s.findHigherHand hand).type = .nothing := by
  have hbase : (s.findHigherHandNotBomb hand ∈ s.handsMap.vec s.curHand.type
      ∧ s.beatsCurHand (s.findHigherHandNotBomb hand) = true) ∨
      (s.findHigherHandNotBomb hand).type = .nothing := by
    unfold findHigherHandNotBomb
    cases hfind : (s.handsMap.vec s.curHand.type).find? s.beatsCurHand with
    | none => exact .inr rfl
    | some h => exact .inl ⟨List.mem_of_find?_eq_some hfind, List.find?_some hfind⟩
  unfold findHigherHand
  simp only []
  -- a bomb is looked for only when nothing else was found
  split
  · cases hv : s.handsMap.vec .bomb with
    | nil =>
      rcases hbase with h | h
      · exact .inl h
      · exact .inr (.inr h)
    | cons b bs => exact .inr (.inl List.mem_cons_self)
  · rcases hbase with h | h
    · exact .inl h
    · exact .inr (.inr h)

/-- What the robot plays at level 0 is a hand, or a follower's pass. A hand of
the map is within the cards, so it is enough that it is shaped; only the chain
of four ranks is not, and neither branch comes to it. -/
theorem pickPlayable_levelZero (u : Undef) (hs : TurnState s) (hcards : s.aiCardsVec ≠ [])
    (hand : Hand) : (s.takeOutLvl0 u hand).1.PickPlayable (s.takeOutLvl0 u hand).2 := by
  have hp := hs.legalHolding
  have hsame := (s.keeps_sortHandMap (P := True) u).sameTurn
  obtain ⟨k, hvec⟩ := sortHandMap_vec u s
  rw [hs.points] at hvec
  have hseat : -1 ≤ (s.sortHandMap u).curHandSeat := by
    rw [hsame.curHandSeat]
    exact hs.seat
  -- a hand of the map is within the cards, so it is enough that it is shaped
  have hmap : ∀ t h, h ∈ (s.sortHandMap u).handsMap.vec t → h.Shaped →
      (s.sortHandMap u).PickPlayable h := by
    intro t h hh hshaped
    rw [hvec] at hh
    refine .inl (recognised_of_shaped hshaped fun r => ?_)
    rw [hsame.aiCardsVec]
    exact Int.le_trans (le_handsSum (HandsMap.mem_hands.mpr ⟨t, hh⟩) r)
      (splitInto_sum_le hp.toLegalCounts (.kind k) true r)
  unfold takeOutLvl0
  simp only []
  by_cases hfree : (s.sortHandMap u).isFree = true
  · rw [if_pos ((isFree_iff hseat).mp hfree)]
    obtain ⟨r, hr⟩ := hs.exists_held hcards
    obtain ⟨⟨t, ht⟩, hshaped⟩ := lowest_shaped hp k hr (rfl : hand.clear.type = .nothing)
    rw [← hvec] at ht
    rw [← lowestOf_congr hvec] at ht hshaped
    exact hmap t _ ht hshaped
  · rw [if_neg (mt (isFree_iff hseat).mpr hfree)]
    rcases (s.sortHandMap u).findHigherHand_cases hand with ⟨hmem, hbeats⟩ | hbomb | hnone
    · refine hmap _ _ hmem ?_
      rw [hvec] at hmem
      rcases mem_splitInto hp.toLegalCounts (.kind k) true hmem with ⟨h, -⟩ | ⟨ht, hshort, -⟩
      · exact h
      · -- the short chain has four ranks, the chain to beat at least five
        have hplayed := hs.curHand (by
          rw [← hsame.isFree]
          exact Bool.eq_false_iff.mpr hfree)
        rw [hsame.curHand] at ht
        have hlen := hplayed.soloChain_len ht
        rw [hshort] at hbeats
        simp [beatsCurHand, hsame.curHand, ht, isChain, shortChain] at hbeats
        omega
    · refine hmap _ _ hbomb ?_
      rw [hvec] at hbomb
      rcases mem_splitInto hp.toLegalCounts (.kind k) true hbomb with ⟨h, -⟩ | ⟨ht, -, -⟩
      · exact h
      · exact HandType.noConfusion ht
    · exact .inr ⟨heldOf_nothing _ hnone, fun hf => absurd hf hfree⟩

/-- A playable pick is a kept contract, and without cards there is nothing to
keep. -/
theorem turnContract_of_pick (u : Undef) {s : AI} (hpick : s.aiCardsVec ≠ [] →
    (s.takeOutByLevel u).1.PickPlayable (s.takeOutByLevel u).2) :
    TurnContract s (s.rbtOutGetTakeOutCard u) := by
  by_cases hcards : s.aiCardsVec = []
  · have hsame := s.sameTurn_takeOutByLevel u
    rw [hsame.turnContract_congr]
    exact turnContract_of_nil (hsame.aiCardsVec.trans hcards) _
  · exact (turnContract_pick_iff u s hcards).mpr (hpick hcards)

/-- What a turn at level 0 picks. -/
theorem pickPlayable_turn_levelZero (u : Undef) (hs : TurnState s) (hlevel : s.level = 0)
    (hcards : s.aiCardsVec ≠ []) : (s.takeOutByLevel u).1.PickPlayable (s.takeOutByLevel u).2 := by
  have hlevel' : s.takeOutByLevel u = s.updateControl.takeOutLvl0 u u.hand := if_pos hlevel
  rw [hlevel']
  have hs' : TurnState s.updateControl :=
    ⟨hs.nodup, hs.valid, hs.size, hs.points, hs.seat, hs.curHand⟩
  exact pickPlayable_levelZero u hs' hcards u.hand

/-- The contract of a turn at level 0, from every state a turn can start from:
no card is lost or made up, a leader plays a hand, and a follower passes or
plays a higher one. -/
theorem turnContract_levelZero (u : Undef) (hs : TurnState s) (hlevel : s.level = 0) :
    TurnContract s (s.rbtOutGetTakeOutCard u) :=
  turnContract_of_pick u (pickPlayable_turn_levelZero u hs hlevel)

/-- A pair of fours and a seven, to follow a single three of the lord's. -/
def followingThree : AI :=
  { aiSeat := 1, lordSeat := 0, aiPosition := .downFarmer, aiCardsVec := [1, 14, 30]
    playerInfo := fun _ => ⟨cardVecToPointArr [1, 14, 30], 3⟩
    curHand := { type := .solo, keyPoint := card3 }, curHandSeat := 0 }

theorem turnState_followingThree : TurnState followingThree :=
  ⟨by decide, by decide, by decide, rfl, by decide, fun _ =>
    ⟨[0], by decide, by decide, by decide, ⟨rfl, rfl, fun _ => rfl, rfl⟩⟩⟩

theorem turnContract_levelZero_followingThree :
    TurnContract followingThree (followingThree.rbtOutGetTakeOutCard .zero) :=
  turnContract_levelZero .zero turnState_followingThree rfl

end LevelZero

end AI

end RobotDdz
