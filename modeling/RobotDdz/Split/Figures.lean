import RobotDdz.Split.Ordered

/-!
# The figures of a map

`getHandsMapSummary` in closed form. It goes over the keys of a map in the
order of the types, and `isChargeHand` puts keys into that map while it does.
What a key adds depends on its vector alone, but for `handsTypeCount`, which
counts every key it meets: `CountedEmpty` are the keys without a hand among
them, there from the start or put in by a hand met before.

`getHandsMapSummary_eq` is the closed form, and `figures_iff` which of the
figures are what their comments say. `soloCount` is never written.

The figures are compared with what `RobotConfig.h` says they are, one by one,
and for each there is a condition on the map under which it is right. The
induction is over the keys in the order of the types, with `Summed` for the
state after some of them; a key inserted during the iteration is met if it
comes later in that order and not if it comes before.

Mirroring notes vs `AIUtils.cpp`:
- `handsTypeCount` is increased once for each key but the bombs', and for solo
  chains once for each length.
- The two lowest solos are the first two of their vector, not a minimum.
- `effectiveHandsCount` is worked out after the loop from the other figures
  (`figuresIn` stops before that line).
-/

namespace RobotDdz

section Figures

variable (u : Undef) (lowestControl : Nat) (maxOppCardNum : Int) (oppCards : Points)
variable (m : HandsMap)

/-! ## What a hand and a key add -/

/-- Whether `isChargeHand` evaluates `handMap[t]` for a hand. -/
def insertsKey (hand : Hand) (t : HandType) : Bool :=
  !isChargeAlone u hand maxOppCardNum oppCards && comparesInMap hand.type &&
    if hand.type = .soloChain then t == .soloChain
    else t == .trio || t == .trioSolo || t == .trioPair

/-- The hands under the keys of a kind, among these keys. -/
def handsIn (p : HandType → Bool) (ts : List HandType) : List Hand := (ts.filter p).flatMap m.vec

/-- The hands that are no bombs. -/
def realHandsIn (ts : List HandType) : List Hand := handsIn m (· != .bomb) ts

/-- Whether the map has a key once the keys `pre` have been visited. -/
def MetAfter (pre : List HandType) (t : HandType) : Bool :=
  (m t).isSome || (realHandsIn m pre).any fun h => insertsKey u maxOppCardNum oppCards h t

/-- The keys before a key. -/
def keysBefore (t : HandType) : List HandType := HandType.all.takeWhile (· != t)

/-- A key without hands that is counted as a type. -/
def CountedEmpty (t : HandType) : Bool :=
  t != .bomb && t != .soloChain && (m.vec t).isEmpty &&
    MetAfter u maxOppCardNum oppCards m (keysBefore t) t

/-- The types a key stands for: the lengths of its chains, or one. -/
def typesOf (t : HandType) : Nat :=
  if t = .bomb then 0
  else if t = .soloChain then ((m.vec t).map Hand.len).dedup.length
  else if m.vec t = [] then 0 else 1

/-- What a key adds to `handsTypeCount`. -/
def typeShare (t : HandType) : Nat :=
  typesOf m t + if CountedEmpty u maxOppCardNum oppCards m t then 1 else 0

/-- The summary after some of the keys, before the last line. -/
def figuresIn (ts : List HandType) : HandsMapSummary where
  realHandsCount := (realHandsIn m ts).length
  unChargeHandsCount :=
    (realHandsIn m ts).countP fun h => !isChargeHand u h maxOppCardNum oppCards (some m)
  extraBombCount := (handsIn m (· == .bomb) ts).countP fun h => h.keyPoint < lowestControl
  twoControlsHandsCount := (realHandsIn m ts).countP fun h => 2 ≤ calHandControl h lowestControl
  handsTypeCount := ((ts.map (typeShare u maxOppCardNum oppCards m)).sum : Nat)
  lowestSolo := (((handsIn m (· == .solo) ts)[0]?).map Hand.keyPoint).getD redJoker
  sencondLowestSolo := (((handsIn m (· == .solo) ts)[1]?).map Hand.keyPoint).getD redJoker

variable {u lowestControl maxOppCardNum oppCards m}

theorem handsIn_snoc (p : HandType → Bool) (pre : List HandType) (t : HandType) :
    handsIn m p (pre ++ [t]) = handsIn m p pre ++ if p t then m.vec t else [] := by
  unfold handsIn
  rw [List.filter_append, List.flatMap_append, List.filter_singleton]
  cases p t with
  | true =>
    show _ ++ [t].flatMap m.vec = _
    rw [List.flatMap_singleton]
    rfl
  | false => rfl

/-- Comparing a hand within the map looks at the vectors only. -/
theorem isChargeHand_congr {m' : HandsMap} (h : ∀ t, m'.vec t = m.vec t) (hand : Hand) :
    isChargeHand u hand maxOppCardNum oppCards (some m')
      = isChargeHand u hand maxOppCardNum oppCards (some m) := by
  have hmap : isChargeInMap hand oppCards m' = isChargeInMap hand oppCards m := by
    unfold isChargeInMap
    rw [h, h, h, h]
  unfold isChargeHand
  dsimp only
  rw [hmap]

/-- A key of the map after a hand: one that was there, or one that
`isChargeHand` has put in by looking for the other hands of the type. -/
theorem isSome_isChargeTouch (hand : Hand) (t : HandType) :
    (isChargeTouch u hand maxOppCardNum oppCards m t).isSome
      = ((m t).isSome || insertsKey u maxOppCardNum oppCards hand t) := by
  have htouch : ∀ (m : HandsMap) (t' : HandType),
      ((m.touch t') t).isSome = ((m t).isSome || t == t') := by
    intro m t'
    unfold HandsMap.touch HandsMap.put
    rw [Function.update_apply]
    by_cases ht : t = t'
    · rw [if_pos ht, ht, beq_self_eq_true, Bool.or_true]
      rfl
    · rw [if_neg ht, beq_false_of_ne ht, Bool.or_false]
  unfold isChargeTouch insertsKey
  cases isChargeAlone u hand maxOppCardNum oppCards with
  | true => simp
  | false =>
    cases comparesInMap hand.type with
    | false => simp
    | true =>
      by_cases hc : hand.type = .soloChain
      · simp [hc, htouch]
      · simp [hc, htouch, Bool.or_assoc]

variable (u lowestControl maxOppCardNum oppCards) in
/-- The loop over the hands of a key. The vectors stay, so the test of a hand
is the test against the map as it was; what grows are the keys and the two
counts. -/
theorem summariseHands_eq (hands : List Hand) : ∀ {x : HandsMap × HandsMapSummary},
    (∀ t, x.1.vec t = m.vec t) →
    let x' := hands.foldl (summariseHand u lowestControl maxOppCardNum oppCards) x
    (∀ t, x'.1.vec t = m.vec t) ∧
      (∀ t, (x'.1 t).isSome
        = ((x.1 t).isSome || hands.any fun h => insertsKey u maxOppCardNum oppCards h t)) ∧
      x'.2 = { x.2 with
        unChargeHandsCount := x.2.unChargeHandsCount
          + (hands.countP fun h => !isChargeHand u h maxOppCardNum oppCards (some m) : Nat)
        twoControlsHandsCount := x.2.twoControlsHandsCount
          + (hands.countP fun h => 2 ≤ calHandControl h lowestControl : Nat) } := by
  induction hands with
  | nil =>
    intro x hx
    refine ⟨hx, fun t => by simp, ?_⟩
    simp
  | cons h hands ih =>
    intro x hx
    have hvec : ∀ t, (summariseHand u lowestControl maxOppCardNum oppCards x h).1.vec t = m.vec t :=
      fun t => (isChargeTouch_vec ..).trans (hx t)
    obtain ⟨h1, h2, h3⟩ := ih hvec
    refine ⟨h1, fun t => ?_, ?_⟩
    · have htouch : ((summariseHand u lowestControl maxOppCardNum oppCards x h).1 t).isSome
          = ((x.1 t).isSome || insertsKey u maxOppCardNum oppCards h t) := isSome_isChargeTouch h t
      rw [List.foldl_cons, h2, htouch, List.any_cons, Bool.or_assoc]
    · have hcharge : isChargeHand u h maxOppCardNum oppCards (some x.1)
          = isChargeHand u h maxOppCardNum oppCards (some m) := isChargeHand_congr hx h
      rw [List.foldl_cons, h3, List.countP_cons, List.countP_cons]
      unfold summariseHand
      dsimp only
      rw [hcharge]
      congr 1
      · cases isChargeHand u h maxOppCardNum oppCards (some m) <;> simp
        omega
      · by_cases hc : 2 ≤ calHandControl h lowestControl
        · simp [hc]
          omega
        · simp [hc]

/-! ## The fold over the keys -/

variable (u lowestControl maxOppCardNum oppCards m)

/-- The state after the keys `pre`. -/
structure Summed (pre : List HandType) (x : HandsMap × HandsMapSummary) : Prop where
  vec : ∀ t, x.1.vec t = m.vec t
  met : ∀ t, (x.1 t).isSome = MetAfter u maxOppCardNum oppCards m pre t
  summary : x.2 = figuresIn u lowestControl maxOppCardNum oppCards m pre

variable {u lowestControl maxOppCardNum oppCards m}

theorem metAfter_snoc (pre : List HandType) {t : HandType} (ht : t ≠ .bomb) (t' : HandType) :
    MetAfter u maxOppCardNum oppCards m (pre ++ [t]) t'
      = (MetAfter u maxOppCardNum oppCards m pre t' ||
        (m.vec t).any fun h => insertsKey u maxOppCardNum oppCards h t') := by
  unfold MetAfter realHandsIn
  rw [handsIn_snoc, if_pos (bne_iff_ne.mpr ht), List.any_append, Bool.or_assoc]

/-- A key without hands inserts nothing. -/
theorem metAfter_skip (pre : List HandType) {t : HandType} (ht : t = .bomb ∨ m.vec t = [])
    (t' : HandType) :
    MetAfter u maxOppCardNum oppCards m (pre ++ [t]) t'
      = MetAfter u maxOppCardNum oppCards m pre t' := by
  unfold MetAfter realHandsIn
  rw [handsIn_snoc]
  rcases ht with rfl | ht
  · rw [if_neg (by decide), List.append_nil]
  · rw [ht, ite_self, List.append_nil]

/-- The figures with one more key: the bombs add to the extra bombs only, and
any other type to its own counts. -/
theorem figuresIn_snoc (pre : List HandType) (t : HandType) :
    figuresIn u lowestControl maxOppCardNum oppCards m (pre ++ [t])
      = if t = .bomb then
          { figuresIn u lowestControl maxOppCardNum oppCards m pre with
            extraBombCount :=
              (figuresIn u lowestControl maxOppCardNum oppCards m pre).extraBombCount
                + ((m.vec t).countP fun h => h.keyPoint < lowestControl : Nat)
            handsTypeCount :=
              (figuresIn u lowestControl maxOppCardNum oppCards m pre).handsTypeCount
                + typeShare u maxOppCardNum oppCards m t }
        else
          { figuresIn u lowestControl maxOppCardNum oppCards m pre with
            realHandsCount :=
              (figuresIn u lowestControl maxOppCardNum oppCards m pre).realHandsCount
                + (m.vec t).length
            unChargeHandsCount :=
              (figuresIn u lowestControl maxOppCardNum oppCards m pre).unChargeHandsCount
                + ((m.vec t).countP
                  fun h => !isChargeHand u h maxOppCardNum oppCards (some m) : Nat)
            twoControlsHandsCount :=
              (figuresIn u lowestControl maxOppCardNum oppCards m pre).twoControlsHandsCount
                + ((m.vec t).countP fun h => 2 ≤ calHandControl h lowestControl : Nat)
            handsTypeCount :=
              (figuresIn u lowestControl maxOppCardNum oppCards m pre).handsTypeCount
                + typeShare u maxOppCardNum oppCards m t
            lowestSolo :=
              (((handsIn m (· == .solo) (pre ++ [t]))[0]?).map Hand.keyPoint).getD redJoker
            sencondLowestSolo :=
              (((handsIn m (· == .solo) (pre ++ [t]))[1]?).map Hand.keyPoint).getD redJoker } := by
  have htypes : ((((pre ++ [t]).map (typeShare u maxOppCardNum oppCards m)).sum : Nat) : Int)
      = ((pre.map (typeShare u maxOppCardNum oppCards m)).sum : Nat)
        + typeShare u maxOppCardNum oppCards m t := by
    rw [List.map_append, List.sum_append, List.map_singleton, List.sum_singleton, Int.natCast_add]
  unfold figuresIn realHandsIn
  rw [htypes]
  by_cases ht : t = .bomb
  · subst ht
    rw [if_pos rfl]
    simp only [handsIn_snoc]
    simp
  · rw [if_neg ht]
    simp only [handsIn_snoc]
    simp [ht]

theorem keysBefore_eq {pre rest : List HandType} {t : HandType}
    (h : pre ++ t :: rest = HandType.all) : keysBefore t = pre := by
  have hnd : (pre ++ t :: rest).Nodup := by
    rw [h]
    decide
  have hnot : ∀ t' ∈ pre, (t' != t) = true := by
    intro t' ht'
    refine bne_iff_ne.mpr fun he => ?_
    exact (List.nodup_append.mp hnd).2.2 t' ht' t List.mem_cons_self he
  rw [keysBefore, ← h, List.takeWhile_append_of_pos hnot,
    List.takeWhile_cons_of_neg (by rw [bne_self_eq_false]; exact Bool.false_ne_true),
    List.append_nil]

/-- A key that is not there adds nothing. -/
theorem typeShare_absent {t : HandType} (hvec : m.vec t = [])
    (hmet : MetAfter u maxOppCardNum oppCards m (keysBefore t) t = false) :
    typeShare u maxOppCardNum oppCards m t = 0 := by
  unfold typeShare typesOf CountedEmpty
  rw [hmet, hvec]
  simp

/-- A key that is there adds one type, or the lengths of its chains. -/
theorem typeShare_present {t : HandType} (hb : t ≠ .bomb)
    (hmet : MetAfter u maxOppCardNum oppCards m (keysBefore t) t = true) :
    typeShare u maxOppCardNum oppCards m t
      = if t = .soloChain then ((m.vec t).map Hand.len).dedup.length else 1 := by
  unfold typeShare typesOf CountedEmpty
  rw [hmet, if_neg hb]
  by_cases hc : t = .soloChain
  · simp [hc]
  · rw [if_neg hc, if_neg hc]
    by_cases hvec : m.vec t = []
    · simp [hvec, hb, hc]
    · simp [hvec]

/-- The counts of a key and, for the solos, the two lowest; no solo has been
met before. -/
theorem summariseType_eq {pre : List HandType} {t : HandType} (hpre : keysBefore t = pre) :
    summariseType t (m.vec t) (figuresIn u lowestControl maxOppCardNum oppCards m pre)
      = { figuresIn u lowestControl maxOppCardNum oppCards m pre with
          realHandsCount :=
            (figuresIn u lowestControl maxOppCardNum oppCards m pre).realHandsCount
              + (m.vec t).length
          handsTypeCount :=
            (figuresIn u lowestControl maxOppCardNum oppCards m pre).handsTypeCount
              + ((if t = .soloChain then ((m.vec t).map Hand.len).dedup.length else 1 : Nat) : Int)
          lowestSolo :=
            (((handsIn m (· == .solo) (pre ++ [t]))[0]?).map Hand.keyPoint).getD redJoker
          sencondLowestSolo :=
            (((handsIn m (· == .solo) (pre ++ [t]))[1]?).map Hand.keyPoint).getD redJoker } := by
  subst hpre
  rw [handsIn_snoc]
  unfold summariseType
  by_cases hc : t = .soloChain
  · subst hc
    rw [if_neg (show ¬((HandType.soloChain == HandType.solo) = true) by decide), List.append_nil]
    rfl
  by_cases hs : t = .solo
  · subst hs
    have hnone : handsIn m (· == .solo) (keysBefore .solo) = [] := rfl
    rw [hnone, if_pos (show (HandType.solo == HandType.solo) = true from rfl), List.nil_append]
    rcases m.vec .solo with _ | ⟨h, _ | ⟨h', hands⟩⟩
    · rfl
    · rfl
    · rfl
  · have hs' : ¬((t == HandType.solo) = true) := fun h => hs (eq_of_beq h)
    rw [if_neg hs', List.append_nil]
    simp only [if_neg hc, if_neg hs]
    rfl

/-- One key. A key that is not there is passed over and has no hands; one that
is there may have been put in by a key before it. -/
theorem Summed.step {pre rest : List HandType} {t : HandType} {x : HandsMap × HandsMapSummary}
    (h : Summed u lowestControl maxOppCardNum oppCards m pre x)
    (hpre : pre ++ t :: rest = HandType.all) :
    Summed u lowestControl maxOppCardNum oppCards m (pre ++ [t])
      (summariseKey u lowestControl maxOppCardNum oppCards x t) := by
  have hbefore := keysBefore_eq hpre
  have hmet := h.met t
  have hvec := h.vec t
  unfold summariseKey
  cases hx : x.1 t with
  | none =>
    rw [hx] at hmet
    have hnil : m.vec t = [] := by
      rw [← hvec, HandsMap.vec, hx]
      rfl
    have hshare := typeShare_absent hnil (hbefore ▸ hmet.symm)
    refine ⟨h.vec, fun t' => ?_, ?_⟩
    · rw [metAfter_skip pre (Or.inr hnil)]
      exact h.met t'
    · have hsolos : handsIn m (· == .solo) (pre ++ [t]) = handsIn m (· == .solo) pre := by
        rw [handsIn_snoc, hnil, ite_self, List.append_nil]
      rw [h.summary, figuresIn_snoc, hshare, hnil, hsolos]
      split
      · simp
      · simp
        rfl
  | some hands =>
    obtain rfl : hands = m.vec t := by
      rw [← hvec, HandsMap.vec, hx]
      rfl
    rw [hx] at hmet
    dsimp only
    by_cases hb : t = .bomb
    · subst hb
      have hshare : typeShare u maxOppCardNum oppCards m .bomb = 0 := rfl
      rw [if_pos rfl]
      refine ⟨h.vec, fun t' => ?_, ?_⟩
      · rw [metAfter_skip pre (Or.inl rfl)]
        exact h.met t'
      · rw [figuresIn_snoc, if_pos rfl, hshare, h.summary]
        simp
    · rw [if_neg hb]
      obtain ⟨h1, h2, h3⟩ := summariseHands_eq u lowestControl maxOppCardNum oppCards (m.vec t)
        (x := (x.1, summariseType t (m.vec t) x.2)) h.vec
      have hshare := typeShare_present hb (hbefore ▸ hmet.symm)
      refine ⟨h1, fun t' => ?_, ?_⟩
      · rw [h2, metAfter_snoc pre hb, h.met]
      · rw [h3, figuresIn_snoc, if_neg hb, hshare, h.summary, summariseType_eq hbefore]

theorem Summed.run (rest : List HandType) :
    ∀ {pre : List HandType} {x : HandsMap × HandsMapSummary},
    pre ++ rest = HandType.all → Summed u lowestControl maxOppCardNum oppCards m pre x →
    Summed u lowestControl maxOppCardNum oppCards m HandType.all
      (rest.foldl (summariseKey u lowestControl maxOppCardNum oppCards) x) := by
  induction rest with
  | nil =>
    intro pre x hpre h
    rw [List.append_nil] at hpre
    exact hpre ▸ h
  | cons t rest ih =>
    intro pre x hpre h
    have hrest : (pre ++ [t]) ++ rest = HandType.all := by
      rw [List.append_assoc]
      exact hpre
    exact ih hrest (h.step hpre)

/-- The summary in closed form. -/
theorem getHandsMapSummary_eq :
    (getHandsMapSummary u lowestControl maxOppCardNum oppCards m).2 =
      let figures := figuresIn u lowestControl maxOppCardNum oppCards m HandType.all
      { figures with
        effectiveHandsCount := figures.unChargeHandsCount + figures.twoControlsHandsCount
          - figures.extraBombCount } := by
  have hstart : Summed u lowestControl maxOppCardNum oppCards m [] (m, {}) :=
    ⟨fun _ => rfl, fun t => (Bool.or_false _).symm, rfl⟩
  have hsum := (hstart.run HandType.all (List.nil_append _)).summary
  unfold getHandsMapSummary
  dsimp only
  rw [hsum]

/-! ## What the figures are -/

variable (u lowestControl maxOppCardNum oppCards m)

/-- The number of types present, the solo chains by their lengths. -/
def typesPresent : Nat := (HandType.all.map (typesOf m)).sum

/-- The number of keys without hands that are counted. -/
def emptyKeys : Nat := HandType.all.countP (CountedEmpty u maxOppCardNum oppCards m)

variable {u lowestControl maxOppCardNum oppCards m}

/-- The first two of the keys in order, the red joker where there are less. -/
def TwoLowest (keys : List Nat) (lowest second : Nat) : Prop :=
  ∃ l : List Nat, l.Perm keys ∧ l.Pairwise (· ≤ ·) ∧
    l[0]?.getD redJoker = lowest ∧ l[1]?.getD redJoker = second

/-- No key is below one of the first two that stands before it. -/
def LowestFirst (keys : List Nat) : Prop :=
  ∀ i j : Nat, i < 2 → (hij : i < j) → (hj : j < keys.length) → keys[i] ≤ keys[j]

theorem lowestFirst_cons_cons (a b : Nat) (keys : List Nat) :
    LowestFirst (a :: b :: keys) ↔ a ≤ b ∧ ∀ k ∈ keys, a ≤ k ∧ b ≤ k := by
  constructor
  · intro h
    refine ⟨h 0 1 (by decide) (by decide) (by simp), fun k hk => ?_⟩
    obtain ⟨j, hj, rfl⟩ := List.getElem_of_mem hk
    have hj' : j + 2 < (a :: b :: keys).length := by simpa using hj
    exact ⟨h 0 (j + 2) (by decide) (by omega) hj', h 1 (j + 2) (by decide) (by omega) hj'⟩
  · rintro ⟨hab, hall⟩ i j hi hij hj
    rcases j with _ | _ | j
    · omega
    · obtain rfl : i = 0 := by omega
      exact hab
    · have hj' : j < keys.length := by simpa using hj
      obtain ⟨ha, hb⟩ := hall keys[j] (List.getElem_mem hj')
      rcases i with _ | _ | i
      · exact ha
      · exact hb
      · omega

theorem twoLowest_iff (keys : List Nat) :
    TwoLowest keys (keys[0]?.getD redJoker) (keys[1]?.getD redJoker) ↔ LowestFirst keys := by
  rcases keys with _ | ⟨a, _ | ⟨b, keys⟩⟩
  · exact ⟨fun _ i j _ _ hj => absurd hj (Nat.not_lt_zero j),
      fun _ => ⟨[], List.Perm.refl _, List.Pairwise.nil, rfl, rfl⟩⟩
  · refine ⟨fun _ i j _ hij hj => ?_,
      fun _ => ⟨[a], List.Perm.refl _, List.pairwise_singleton _ _, rfl, rfl⟩⟩
    rw [List.length_singleton] at hj
    omega
  rw [lowestFirst_cons_cons]
  constructor
  · rintro ⟨l, hperm, hsorted, h0, h1⟩
    have hlen := hperm.length_eq
    rcases l with _ | ⟨a', _ | ⟨b', l⟩⟩
    · simp at hlen
    · simp at hlen
    obtain rfl : a' = a := h0
    obtain rfl : b' = b := h1
    have hrest : l.Perm keys := (List.perm_cons b').mp ((List.perm_cons a').mp hperm)
    obtain ⟨ha, hsorted'⟩ := List.pairwise_cons.mp hsorted
    obtain ⟨hb, -⟩ := List.pairwise_cons.mp hsorted'
    refine ⟨ha b' List.mem_cons_self, fun k hk => ?_⟩
    have hmem := hrest.mem_iff.mpr hk
    exact ⟨ha k (List.mem_cons_of_mem b' hmem), hb k hmem⟩
  · rintro ⟨hab, hall⟩
    have hperm := List.mergeSort_perm keys fun x y => decide (x ≤ y)
    refine ⟨a :: b :: keys.mergeSort, (hperm.cons b).cons a, ?_, rfl, rfl⟩
    refine List.pairwise_cons.mpr ⟨fun k hk => ?_, List.pairwise_cons.mpr ⟨fun k hk => ?_, ?_⟩⟩
    · rcases List.mem_cons.mp hk with rfl | hk
      · exact hab
      · exact (hall k (hperm.mem_iff.mp hk)).1
    · exact (hall k (hperm.mem_iff.mp hk)).2
    · exact List.pairwise_mergeSort' (· ≤ ·) keys

/-- The types counted are those present and the empty keys met. -/
theorem handsTypeCount_eq :
    (getHandsMapSummary u lowestControl maxOppCardNum oppCards m).2.handsTypeCount
      = (typesPresent m + emptyKeys u maxOppCardNum oppCards m : Nat) := by
  have hsum : ∀ ts : List HandType, (ts.map (typeShare u maxOppCardNum oppCards m)).sum
      = (ts.map (typesOf m)).sum + ts.countP (CountedEmpty u maxOppCardNum oppCards m) := by
    intro ts
    induction ts with
    | nil => rfl
    | cons t ts ih =>
      rw [List.map_cons, List.sum_cons, ih, List.map_cons, List.sum_cons, List.countP_cons,
        typeShare]
      omega
  rw [getHandsMapSummary_eq]
  show (((HandType.all.map (typeShare u maxOppCardNum oppCards m)).sum : Nat) : Int) = _
  rw [hsum]
  rfl

/-- All but the types counted depends on the vectors alone. -/
theorem getHandsMapSummary_rest {m' : HandsMap} (h : ∀ t, m'.vec t = m.vec t) :
    (getHandsMapSummary u lowestControl maxOppCardNum oppCards m').2 =
      { (getHandsMapSummary u lowestControl maxOppCardNum oppCards m).2 with
        handsTypeCount :=
          (getHandsMapSummary u lowestControl maxOppCardNum oppCards m').2.handsTypeCount } := by
  have hvec : m'.vec = m.vec := funext h
  have hin : ∀ (p : HandType → Bool) ts, handsIn m' p ts = handsIn m p ts := by
    intro p ts
    unfold handsIn
    rw [hvec]
  have hcharge : (fun hand => !isChargeHand u hand maxOppCardNum oppCards (some m'))
      = fun hand => !isChargeHand u hand maxOppCardNum oppCards (some m) := by
    funext hand
    rw [isChargeHand_congr h]
  rw [getHandsMapSummary_eq, getHandsMapSummary_eq]
  unfold figuresIn realHandsIn
  simp only [hin, hcharge]

/-- Which figures are right: the hands always, the types when no empty key is
met, the solos when there are none, the two lowest solos when they come first;
and two maps with the same hands have one summary when they have the same
number of empty keys met. -/
theorem figures_iff (u : Undef) (lowestControl : Nat) (maxOppCardNum : Int) (oppCards : Points)
    {m m' : HandsMap} (h : ∀ t, m'.vec t = m.vec t) :
    (getHandsMapSummary u lowestControl maxOppCardNum oppCards m).2.realHandsCount
      = (realHandsIn m HandType.all).length ∧
    ((getHandsMapSummary u lowestControl maxOppCardNum oppCards m).2.handsTypeCount
      = typesPresent m ↔ ∀ t, CountedEmpty u maxOppCardNum oppCards m t = false) ∧
    ((getHandsMapSummary u lowestControl maxOppCardNum oppCards m).2.soloCount
      = (m.vec .solo).length ↔ m.vec .solo = []) ∧
    (TwoLowest ((m.vec .solo).map Hand.keyPoint)
      (getHandsMapSummary u lowestControl maxOppCardNum oppCards m).2.lowestSolo
      (getHandsMapSummary u lowestControl maxOppCardNum oppCards m).2.sencondLowestSolo ↔
        LowestFirst ((m.vec .solo).map Hand.keyPoint)) ∧
    ((getHandsMapSummary u lowestControl maxOppCardNum oppCards m').2
      = (getHandsMapSummary u lowestControl maxOppCardNum oppCards m).2 ↔
        emptyKeys u maxOppCardNum oppCards m' = emptyKeys u maxOppCardNum oppCards m) := by
  refine ⟨?_, ?_, ?_, ?_, ?_⟩
  · rw [getHandsMapSummary_eq]
    rfl
  · have hnone : emptyKeys u maxOppCardNum oppCards m = 0 ↔
        ∀ t, CountedEmpty u maxOppCardNum oppCards m t = false := by
      rw [emptyKeys, List.countP_eq_zero]
      exact ⟨fun h t => Bool.eq_false_of_not_eq_true (h t (HandType.mem_all t)),
        fun h t _ ht => Bool.false_ne_true ((h t).symm.trans ht)⟩
    rw [handsTypeCount_eq, ← hnone]
    omega
  · rw [getHandsMapSummary_eq, ← List.length_eq_zero_iff]
    show (0 : Int) = _ ↔ _
    omega
  · have hsolo : handsIn m (· == .solo) HandType.all = m.vec .solo := List.append_nil _
    rw [getHandsMapSummary_eq, ← twoLowest_iff, List.getElem?_map, List.getElem?_map, ← hsolo]
    rfl
  · rw [getHandsMapSummary_rest h]
    constructor
    · intro heq
      have htypes := congrArg HandsMapSummary.handsTypeCount heq
      have hpresent : typesPresent m' = typesPresent m := by
        unfold typesPresent typesOf
        simp only [h]
      dsimp only at htypes
      rw [handsTypeCount_eq, handsTypeCount_eq, hpresent] at htypes
      omega
    · intro heq
      have hpresent : typesPresent m' = typesPresent m := by
        unfold typesPresent typesOf
        simp only [h]
      rw [handsTypeCount_eq, hpresent, heq, ← handsTypeCount_eq]

/-- The solos of a splitter's map come in order. -/
theorem lowestFirst_splitInto {p : Points} (hp : LegalCounts p) (x : Splitter)
    (searchKicker : Bool) :
    LowestFirst (((splitInto x p searchKicker).vec .solo).map Hand.keyPoint) := by
  intro i j _ hij hj
  have hord := splitInto_ordered_other hp x searchKicker (t := .solo) (by decide) (by decide)
  have hkeys : (((splitInto x p searchKicker).vec .solo).map Hand.keyPoint).Pairwise (· ≤ ·) :=
    List.pairwise_map.mpr hord
  exact List.pairwise_iff_getElem.mp hkeys i j (by omega) hj hij

end Figures

/-! ## Two solos -/

/-- A three and a four. -/
def threeAndFour : Points := Points.ofList [1, 1]

/-- The map of the first splitter, with its empty vectors. -/
def mapOfTwo : HandsMap := splitCardsToHands .kind1 threeAndFour true

/-- The same hands without the empty vectors. -/
def solosOfTwo : HandsMap := HandsMap.empty.put .solo (mapOfTwo.vec .solo)

theorem mapOfTwo_vec : ∀ t, solosOfTwo.vec t = mapOfTwo.vec t := by decide +kernel

theorem figures_iff_two :
    (getHandsMapSummary .zero card2 5 (fun _ => 1) mapOfTwo).2.realHandsCount
      = (realHandsIn mapOfTwo HandType.all).length ∧
    ((getHandsMapSummary .zero card2 5 (fun _ => 1) mapOfTwo).2.handsTypeCount
      = typesPresent mapOfTwo ↔ ∀ t, CountedEmpty .zero 5 (fun _ => 1) mapOfTwo t = false) ∧
    ((getHandsMapSummary .zero card2 5 (fun _ => 1) mapOfTwo).2.soloCount
      = (mapOfTwo.vec .solo).length ↔ mapOfTwo.vec .solo = []) ∧
    (TwoLowest ((mapOfTwo.vec .solo).map Hand.keyPoint)
      (getHandsMapSummary .zero card2 5 (fun _ => 1) mapOfTwo).2.lowestSolo
      (getHandsMapSummary .zero card2 5 (fun _ => 1) mapOfTwo).2.sencondLowestSolo ↔
        LowestFirst ((mapOfTwo.vec .solo).map Hand.keyPoint)) ∧
    ((getHandsMapSummary .zero card2 5 (fun _ => 1) solosOfTwo).2
      = (getHandsMapSummary .zero card2 5 (fun _ => 1) mapOfTwo).2 ↔
        emptyKeys .zero 5 (fun _ => 1) solosOfTwo = emptyKeys .zero 5 (fun _ => 1) mapOfTwo) :=
  figures_iff .zero card2 5 (fun _ => 1) mapOfTwo_vec

/-- No solo of the two is counted, several types are, and without the empty
vectors the summary is another. -/
theorem mapOfTwo_figures :
    LegalHolding threeAndFour ∧ (∀ t, solosOfTwo.vec t = mapOfTwo.vec t) ∧
    ((getHandsMapSummary .zero card2 5 (fun _ => 1) mapOfTwo).2.soloCount = 0 ∧
      (mapOfTwo.vec .solo).length = 2) ∧
    (getHandsMapSummary .zero card2 5 (fun _ => 1) mapOfTwo).2.handsTypeCount
      ≠ typesPresent mapOfTwo ∧
    (getHandsMapSummary .zero card2 5 (fun _ => 1) solosOfTwo).2
      ≠ (getHandsMapSummary .zero card2 5 (fun _ => 1) mapOfTwo).2 := by
  refine ⟨legalHolding_ofList (by decide) (by decide) (by decide), mapOfTwo_vec, ?_, ?_, ?_⟩
  · decide +kernel
  · decide +kernel
  · decide +kernel

end RobotDdz
