import RobotDdz.AI.Notify
import RobotDdz.Split.KickerRoom

/-!
# Indices from the network

The cards of `DealCardNtf`, `SendBaseCardNtf` and `TakeoutCardNtf` go unchecked
into `cardToPoint`, which answers `-1` for what is no card, and the counts made
of them into `getHand`, which takes them for indices. `Access` is an access to
one of the arrays on the way and each function gets the list of those it makes;
`messages_inBounds_iff` says for which messages they all stay inside.

How the accesses are found: a function that goes over an array by its own loop
makes the same accesses on every input (`wholeArray`), and these are in bounds.
What is left depends on the input in three ways, each with its own exact
condition: an index that comes from a card (`cardToPoint_inBounds_iff`), the
slots of the kickers of a hand that `getHand` recognises or a splitter kicks
(`getHand_inBounds_iff`, `splitAccesses_inBounds_iff`), and the position in the
bottom cards (`rbtInSetLord_inBounds_iff`).

The condition on a deal is about the split before the kicker pass
(`ChainsFit`): no trio chain of more than five ranks meets as many solos or
pairs as it has ranks. Fewer than twenty-four distinct cards cannot hold such a
chain, and a deal is of seventeen or twenty.
-/

namespace RobotDdz

/-- An access to a point array, to `sortedCard`, to `kicker`, or to
`leftoverCards` with so many cards. -/
inductive Access where
  | points (i : Int)
  | sortedCard (i : Int)
  | kicker (i : Nat)
  | leftoverCards (i length : Nat)
deriving DecidableEq

/-- The index is one of the array. -/
def Access.InBounds : Access → Prop
  | .points i => 0 ≤ i ∧ i < cardPointNum
  | .sortedCard i => 0 ≤ i ∧ i < 4
  | .kicker i => i < 5
  | .leftoverCards i length => i < length

instance (a : Access) : Decidable a.InBounds := by
  cases a <;> unfold Access.InBounds <;> infer_instance

/-- Every access is in bounds. -/
def AllInBounds (l : List Access) : Prop := ∀ a ∈ l, a.InBounds

instance (l : List Access) : Decidable (AllInBounds l) := by
  unfold AllInBounds
  infer_instance

/-! ## What the functions access -/

/-- A loop over a point array. -/
def wholeArray : List Access := (List.range cardPointNum).map fun i => .points i

/-- `cardVecToPointArr`. -/
def cardVecToPointArrAccesses (cardVec : List Int) : List Access :=
  wholeArray ++ cardVec.map fun card => .points (cardToPoint card)

/-- `printCardInfo`, with `printPoints`. -/
def printCardInfoAccesses (vecContent : List Int) : List Access :=
  wholeArray ++ cardVecToPointArrAccesses vecContent ++ wholeArray

/-- The writes of the kickers of a hand. -/
def kickerAccesses (h : Hand) : List Access := (List.range h.kicker.length).map .kicker

/-- `getHand`. The sizes of all four buckets are looked at. -/
def getHandAccesses (points : Points) : List Access :=
  [.points blackJoker, .points redJoker] ++
    if points blackJoker = 1 ∧ points redJoker = 1 then wholeArray
    else
      ((List.range (redJoker + 1)).flatMap fun i =>
        .points i :: if 0 < points i then [.sortedCard (points i - 1)] else []) ++
      (List.range 4).map (fun i => .sortedCard i) ++ kickerAccesses (getHand points)

/-- A splitter: the scans of the ranks, the ranks of the hands it makes with
the one after each (`getPairChain` takes from that, too), and the kickers. -/
def splitAccesses (k : Kind) (cards : Points) : List Access :=
  wholeArray ++
    ((splitCardsToHands k cards false).hands.flatMap fun h =>
      (List.range (h.width + 1)).map fun j => .points (h.keyPoint + j)) ++
    ([.trioChainSolo, .trioChainPair, .trioSolo, .trioPair].flatMap
      (splitCardsToHands k cards true).vec).flatMap kickerAccesses

/-- `RbtInInitCard` for a seat of the table: the counts, the analysis with
three splitters, and `printPoints`. -/
def rbtInInitCardAccesses (argHandCard : List Int) : List Access :=
  cardVecToPointArrAccesses argHandCard ++ wholeArray ++
    ([.kind1, .kind2, .kind3].flatMap fun k => splitAccesses k (cardVecToPointArr argHandCard)) ++
    wholeArray

/-- Whether the loop of `RbtInSetLord` counts a bottom card. -/
def AI.CountsLeftover (s : AI) : Prop :=
  s.lordSeat = s.aiSeat ∨ 0 ≤ (s.playerInfo s.lordSeat).points 0

instance (s : AI) : Decidable s.CountsLeftover := inferInstanceAs (Decidable (_ ∨ _))

/-- One round of the loop of `RbtInSetLord`; the lord's first count is looked
at unless the robot is the lord. A round that reads past the cards leaves the
state alone. -/
def leftoverRound (leftoverCards : List Int) (x : AI × List Access) (i : Nat) : AI × List Access :=
  let taken := if x.1.lordSeat = x.1.aiSeat then [.leftoverCards i leftoverCards.length]
    else [.points 0]
  let counted := if x.1.CountsLeftover then
      .leftoverCards i leftoverCards.length ::
        (leftoverCards[i]?.toList.map fun card => .points (cardToPoint card))
    else []
  (leftoverCards[i]?.elim x.1 (AI.takeLeftover x.1), x.2 ++ taken ++ counted)

/-- `RbtInSetLord`, with `printPoints`. -/
def rbtInSetLordAccesses (s : AI) (argLordSeat : Int) (argReceiceCard : List Int) : List Access :=
  ([0, 1, 2].foldl (leftoverRound argReceiceCard) (s.seatLord argLordSeat argReceiceCard, [])).2
    ++ wholeArray

/-- `RbtInTakeOutCard`. -/
def rbtInTakeOutCardAccesses (argCards : List Int) : List Access :=
  if argCards.length = 0 then []
  else cardVecToPointArrAccesses argCards ++ wholeArray ++
    getHandAccesses (cardVecToPointArr argCards)

/-- `RecvInitHardCardNotify`. -/
def recvInitHardCardNotifyAccesses (cards : List Int) : List Access :=
  rbtInInitCardAccesses cards ++ printCardInfoAccesses cards

/-- `RecvGetBaseCardNotify`. -/
def recvGetBaseCardNotifyAccesses (s : AI) (basecards : List Int) : List Access :=
  printCardInfoAccesses basecards ++ rbtInSetLordAccesses s s.lordSeat basecards

/-- `RecvGetTakeOutCardNotify`. -/
def recvGetTakeOutCardNotifyAccesses (cards : List Int) : List Access :=
  printCardInfoAccesses cards ++ rbtInTakeOutCardAccesses cards

/-! ## Lists of accesses -/

/-- The accesses of two functions, one after the other. -/
theorem allInBounds_append {l l' : List Access} :
    AllInBounds (l ++ l') ↔ AllInBounds l ∧ AllInBounds l' := by
  unfold AllInBounds
  constructor
  · intro h
    exact ⟨fun a ha => h a (List.mem_append_left _ ha),
      fun a ha => h a (List.mem_append_right _ ha)⟩
  · rintro ⟨h, h'⟩ a ha
    rcases List.mem_append.mp ha with ha | ha
    · exact h a ha
    · exact h' a ha

/-- One access for each element of a list. -/
theorem allInBounds_map {α : Type} {f : α → Access} {l : List α} :
    AllInBounds (l.map f) ↔ ∀ x ∈ l, (f x).InBounds := by
  unfold AllInBounds
  rw [List.forall_mem_map]

/-- Several accesses for each element of a list. -/
theorem allInBounds_flatMap {α : Type} {f : α → List Access} {l : List α} :
    AllInBounds (l.flatMap f) ↔ ∀ x ∈ l, AllInBounds (f x) := by
  unfold AllInBounds
  simp only [List.mem_flatMap, forall_exists_index, and_imp]
  exact ⟨fun h x hx a ha => h a x hx ha, fun h a x hx ha => h x hx a ha⟩

/-- A loop over the array stays inside. -/
theorem wholeArray_inBounds : AllInBounds wholeArray := by decide

/-- Only a card has a rank in the array. -/
theorem cardToPoint_inBounds_iff (card : Int) :
    (Access.points (cardToPoint card)).InBounds ↔ ValidCard card := by
  constructor
  · rintro ⟨h0, -⟩
    unfold cardToPoint at h0
    unfold ValidCard
    split at h0
    · omega
    · split at h0 <;> omega
  · intro h
    obtain ⟨h0, h14⟩ := cardToPoint_range h
    exact ⟨h0, by simp only [cardPointNum]; omega⟩

/-- Counting cards stays inside for cards of the deck only. -/
theorem cardVecToPointArr_inBounds_iff (cards : List Int) :
    AllInBounds (cardVecToPointArrAccesses cards) ↔ ∀ c ∈ cards, ValidCard c := by
  unfold cardVecToPointArrAccesses
  rw [allInBounds_append, and_iff_right wholeArray_inBounds, allInBounds_map]
  exact forall₂_congr fun c _ => cardToPoint_inBounds_iff c

/-- So does printing them. -/
theorem printCardInfo_inBounds_iff (cards : List Int) :
    AllInBounds (printCardInfoAccesses cards) ↔ ∀ c ∈ cards, ValidCard c := by
  unfold printCardInfoAccesses
  rw [allInBounds_append, allInBounds_append, and_iff_right wholeArray_inBounds,
    and_iff_left wholeArray_inBounds, cardVecToPointArr_inBounds_iff]

/-- The kickers of a hand have five slots. -/
theorem kickerAccesses_inBounds_iff (h : Hand) :
    AllInBounds (kickerAccesses h) ↔ h.kicker.length ≤ 5 := by
  unfold kickerAccesses
  rw [allInBounds_map]
  constructor
  · intro hall
    by_contra hlong
    exact absurd (hall 5 (List.mem_range.mpr (by omega))) (by decide)
  · intro hlen i hi
    exact Nat.lt_of_lt_of_le (List.mem_range.mp hi) hlen

/-! ## The recogniser -/

/-- Six or more trios one after another, with as many solos or as many pairs
and nothing else: a trio chain with more kickers than slots. -/
def WideChain (points : Points) : Prop :=
  sortedCard points 4 = [] ∧ 5 < (sortedCard points 3).length ∧
    back (sortedCard points 3) ≤ cardA ∧
    back (sortedCard points 3) - front (sortedCard points 3) = (sortedCard points 3).length - 1 ∧
    ((sortedCard points 1).length = (sortedCard points 3).length ∧ sortedCard points 2 = [] ∨
      (sortedCard points 2).length = (sortedCard points 3).length ∧ sortedCard points 1 = [])

instance (points : Points) : Decidable (WideChain points) := by
  unfold WideChain
  infer_instance

/-- Only the trio chains have more than two kickers. -/
theorem classify_wide_iff (solos pairs trios bombs : List Nat) :
    5 < (classify solos pairs trios bombs).kicker.length ↔
      bombs = [] ∧ 5 < trios.length ∧ back trios ≤ cardA ∧
        back trios - front trios = trios.length - 1 ∧
        (solos.length = trios.length ∧ pairs = [] ∨ pairs.length = trios.length ∧ solos = []) := by
  simp only [← List.length_eq_zero_iff]
  unfold classify
  split_ifs <;> simp_all <;> omega

/-- `getHand` sorts the ranks into four buckets by count, so a count above four
goes past them; the rocket is recognised before that. -/
theorem getHand_inBounds_iff (points : Points) :
    AllInBounds (getHandAccesses points) ↔
      points blackJoker = 1 ∧ points redJoker = 1 ∨
        (∀ r ≤ redJoker, points r ≤ 4) ∧ ¬WideChain points := by
  unfold getHandAccesses
  rw [allInBounds_append, and_iff_right (by decide)]
  by_cases hj : points blackJoker = 1 ∧ points redJoker = 1
  · rw [if_pos hj]
    exact iff_of_true wholeArray_inBounds (Or.inl hj)
  rw [if_neg hj, or_iff_right hj, allInBounds_append, allInBounds_append, allInBounds_flatMap,
    kickerAccesses_inBounds_iff]
  have hbuckets : AllInBounds ((List.range 4).map fun i : Nat => .sortedCard i) := by decide
  rw [and_iff_left hbuckets]
  refine and_congr ?_ ?_
  · -- the count of a held rank is the index of its bucket plus one
    refine ⟨fun h r hr => ?_, fun h i hi => ?_⟩
    · by_cases hpos : 0 < points r
      · have hb := h r (List.mem_range.mpr (Nat.lt_succ_of_le hr))
        rw [if_pos hpos] at hb
        have := (hb _ (List.mem_cons_of_mem _ List.mem_cons_self)).2
        omega
      · omega
    · have hi' := List.mem_range.mp hi
      have h4 := h i (by omega)
      intro a ha
      rcases List.mem_cons.mp ha with rfl | ha
      · exact ⟨Int.natCast_nonneg i, by simp only [cardPointNum, redJoker] at *; omega⟩
      · split at ha
        · rw [List.mem_singleton.mp ha]
          exact ⟨by omega, by omega⟩
        · exact absurd ha List.not_mem_nil
  · rw [← not_lt]
    refine not_congr ?_
    unfold getHand WideChain
    rw [if_neg hj]
    exact classify_wide_iff ..

/-- A play of no cards is a pass and touches nothing. -/
theorem rbtInTakeOutCard_inBounds_iff (cards : List Int) :
    AllInBounds (rbtInTakeOutCardAccesses cards) ↔ cards = [] ∨ (∀ c ∈ cards, ValidCard c) ∧
      AllInBounds (getHandAccesses (cardVecToPointArr cards)) := by
  unfold rbtInTakeOutCardAccesses
  by_cases hnil : cards = []
  · rw [hnil]
    exact iff_of_true (fun a ha => absurd ha List.not_mem_nil) (Or.inl rfl)
  · rw [if_neg (fun h => hnil (List.eq_nil_of_length_eq_zero h)), or_iff_right hnil,
      allInBounds_append, allInBounds_append, and_iff_left wholeArray_inBounds,
      cardVecToPointArr_inBounds_iff]

/-! ## The bottom cards -/

/-- A round leaves it open or closed whether bottom cards are counted. -/
theorem takeLeftover_counts (s : AI) (card : Int) :
    (AI.takeLeftover s card).CountsLeftover ↔ s.CountsLeftover := by
  unfold AI.CountsLeftover
  obtain ⟨hai, hlord, -⟩ := AI.takeLeftover_spec s card
  rw [hai, hlord]
  refine or_congr_right' fun hne => ?_
  unfold AI.takeLeftover
  rw [if_neg hne]
  dsimp only
  by_cases h0 : 0 ≤ (s.playerInfo s.lordSeat).points 0
  · have hinc := incAt_apply (s.playerInfo s.lordSeat).points card 0
    rw [if_pos (Or.inr h0)]
    refine iff_of_true ?_ h0
    simp only [AI.setInfo, Function.update_self]
    rw [hinc]
    split <;> omega
  · rw [if_neg (not_or.mpr ⟨hne, h0⟩)]

/-- A round stays in bounds when nothing is counted or there is a card to
count, and a round leaves it as it was whether anything is counted. -/
theorem leftoverRound_inBounds (cards : List Int) (x : AI × List Access) (i : Nat) :
    (AllInBounds (leftoverRound cards x i).2 ↔ AllInBounds x.2 ∧
      (x.1.CountsLeftover → ∃ card, cards[i]? = some card ∧ ValidCard card)) ∧
    ((leftoverRound cards x i).1.CountsLeftover ↔ x.1.CountsLeftover) := by
  refine ⟨?_, ?_⟩
  · unfold leftoverRound
    dsimp only
    rw [allInBounds_append, allInBounds_append, and_assoc]
    refine and_congr_right' ?_
    by_cases hc : x.1.CountsLeftover
    · rw [if_pos hc, forall_prop_of_true hc]
      cases hcard : cards[i]? with
      | none =>
        -- the card is read past the end
        have hlen := List.getElem?_eq_none_iff.mp hcard
        refine iff_of_false (fun h => ?_) fun ⟨_, h, _⟩ => nomatch h
        exact absurd (h.2 _ List.mem_cons_self) (Nat.not_lt.mpr hlen)
      | some card =>
        have hlen := (List.getElem?_eq_some_iff.mp hcard).1
        constructor
        · intro h
          refine ⟨card, rfl, (cardToPoint_inBounds_iff card).mp (h.2 _ ?_)⟩
          exact List.mem_cons_of_mem _ (List.mem_singleton.mpr rfl)
        · rintro ⟨card', heq, hv⟩
          obtain rfl := Option.some.inj heq
          refine ⟨fun a ha => ?_, fun a ha => ?_⟩
          · split at ha
            · rw [List.mem_singleton.mp ha]
              exact hlen
            · rw [List.mem_singleton.mp ha]
              decide
          · rcases List.mem_cons.mp ha with rfl | ha
            · exact hlen
            · rw [List.mem_singleton.mp ha]
              exact (cardToPoint_inBounds_iff card).mpr hv
    · rw [if_neg hc, if_neg (not_or.mp hc).1]
      exact iff_of_true ⟨by decide, fun a ha => absurd ha List.not_mem_nil⟩ fun h => absurd h hc
  · unfold leftoverRound
    cases cards[i]? with
    | none => exact Iff.rfl
    | some card => exact takeLeftover_counts x.1 card

/-- The loop over the bottom cards goes to three whatever their number, and
reads a card in the rounds that count it. -/
theorem rbtInSetLord_inBounds_iff (s : AI) (cards : List Int) :
    AllInBounds (rbtInSetLordAccesses s s.lordSeat cards) ↔
      (s.CountsLeftover → 3 ≤ cards.length ∧ ∀ c ∈ cards.take 3, ValidCard c) := by
  have hseat : (s.seatLord s.lordSeat cards).CountsLeftover ↔ s.CountsLeftover := by
    unfold AI.CountsLeftover AI.seatLord AI.setInfo AI.updateAiPosition
    simp
  have hnil : AllInBounds (s.seatLord s.lordSeat cards, ([] : List Access)).2 :=
    fun a ha => absurd ha List.not_mem_nil
  have hround := fun x i => (leftoverRound_inBounds cards x i).1
  have hkeep := fun x i => (leftoverRound_inBounds cards x i).2
  unfold rbtInSetLordAccesses
  rw [allInBounds_append, and_iff_left wholeArray_inBounds]
  simp only [List.foldl_cons, List.foldl_nil, hround, hkeep, hseat]
  rw [and_iff_right hnil, ← forall_and, ← forall_and]
  refine forall_congr' fun _ => ?_
  rcases cards with _ | ⟨a, _ | ⟨b, _ | ⟨c, cards⟩⟩⟩
  · simp
  · simp
  · simp
  · simp [and_assoc]

/-! ## The splitters -/

/-- The types the kicker pass pushes to. -/
theorem mem_kickedTypes {t : HandType} :
    t ∈ [HandType.trioChainSolo, .trioChainPair, .trioSolo, .trioPair] ↔ ∃ bt, Kicks bt t := by
  constructor
  · intro ht
    simp only [List.mem_cons, List.not_mem_nil, or_false] at ht
    rcases ht with rfl | rfl | rfl | rfl
    · exact ⟨_, .trioChainSolo⟩
    · exact ⟨_, .trioChainPair⟩
    · exact ⟨_, .trioSolo⟩
    · exact ⟨_, .trioPair⟩
  · rintro ⟨bt, hk⟩
    cases hk <;> decide

/-- A kicked chain comes from a body with its kickers hung on. -/
theorem kicks_chain {t : HandType} (ht : t = .trioChainSolo ∨ t = .trioChainPair) :
    ∃ bt, Kicks bt t := by
  rw [← mem_kickedTypes]
  rcases ht with rfl | rfl <;> decide

/-- Every hand of a map is as a pass pushes it. -/
def AllBare (s : Split) : Prop := ∀ t, ∀ h ∈ s.handMap.vec t, Bare t h

/-- A pass pushes bare hands. -/
theorem AllBare.pass {t : HandType} {s s' : Split} (hs : AllBare s) (hpass : PassSpec t s s') :
    AllBare s' := by
  intro t' h hh
  by_cases ht : t' = t
  · subst ht
    rcases hpass.new h hh with hold | hnew
    · exact hs t' h hold
    · exact hnew
  · rw [hpass.other t' ht] at hh
    exact hs t' h hh

/-! The kicker loop takes the trio chains one by one, and a chain of `n` ranks takes `n` solos from
outside it, or else `n` pairs. -/

/-- What a chain leaves of the solos and the pairs; nothing if there are too
few of both. -/
def chainLeaves (tChain : Hand) (solos pairs : List Hand) : Option (List Hand × List Hand) :=
  if tChain.len ≤ usefulSoloCount tChain solos then
    some ((pickKickers (outsideChain tChain) tChain.len solos).2, pairs)
  else if tChain.len ≤ pairs.length then
    some (solos, (pickKickers (fun _ => true) tChain.len pairs).2)
  else none

/-- No chain that gets kickers has more than five ranks. The loop ends at the
first that gets none. -/
def ChainsFitFrom : (chains solos pairs : List Hand) → Prop
  | [], _, _ => True
  | tChain :: chains, solos, pairs =>
    match chainLeaves tChain solos pairs with
    | none => True
    | some (solos, pairs) => tChain.len ≤ 5 ∧ ChainsFitFrom chains solos pairs

/-- No trio chain with kickers is longer than the slots. -/
def ShortKicked (m : HandsMap) : Prop :=
  ∀ t, t = .trioChainSolo ∨ t = .trioChainPair → ∀ h ∈ m.vec t, h.len ≤ 5

section KickerLoop

variable {m m' : HandsMap}

/-- Which chains are kicked is a matter of two vectors. -/
theorem ShortKicked.congr (hsolo : m'.vec .trioChainSolo = m.vec .trioChainSolo)
    (hpair : m'.vec .trioChainPair = m.vec .trioChainPair) : ShortKicked m' ↔ ShortKicked m := by
  have hvec : ∀ t, t = .trioChainSolo ∨ t = .trioChainPair → m'.vec t = m.vec t := by
    rintro t (rfl | rfl)
    · exact hsolo
    · exact hpair
  refine forall_congr' fun t => forall_congr' fun ht => ?_
  rw [hvec t ht]

/-- One attachment, from the vector `k` of the solos or the pairs: the kicked
chains are short after it exactly when they were and the chain is one of at
most five ranks. -/
theorem shortKicked_attach {k t : HandType} (hk : k = .solo ∨ k = .pair)
    (ht : t = .trioChainSolo ∨ t = .trioChainPair) (l rest : List Hand) (h : Hand) :
    ShortKicked (((m.put k l).push t h).put .trioChain rest) ↔ ShortKicked m ∧ h.len ≤ 5 := by
  have hvec : ∀ i, i = .trioChainSolo ∨ i = .trioChainPair →
      (((m.put k l).push t h).put .trioChain rest).vec i
        = if i = t then m.vec i ++ [h] else m.vec i := by
    intro i hi
    have hne : i ≠ .trioChain ∧ i ≠ k ∧ t ≠ k := by
      rcases hi with rfl | rfl <;> rcases ht with rfl | rfl <;> rcases hk with rfl | rfl <;> decide
    rw [HandsMap.vec_put_ne hne.1, HandsMap.vec_push, HandsMap.vec_put_ne hne.2.1,
      HandsMap.vec_put_ne hne.2.2]
    split
    next heq => rw [heq]
    next => rfl
  constructor
  · intro hall
    refine ⟨fun i hi hand hh => hall i hi hand ?_, hall t ht h ?_⟩
    · rw [hvec i hi]
      split
      · exact List.mem_append_left _ hh
      · exact hh
    · rw [hvec t ht, if_pos rfl]
      exact List.mem_append_right _ (List.mem_singleton.mpr rfl)
  · rintro ⟨hold, hnew⟩ i hi hand hh
    rw [hvec i hi] at hh
    split at hh
    · rcases List.mem_append.mp hh with hh | hh
      · exact hold i hi hand hh
      · rw [List.mem_singleton.mp hh]
        exact hnew
    · exact hold i hi hand hh

/-- The loop over the chains kicks short chains only when its chains, solos and
pairs fit. -/
theorem kickTrioChains_short_iff (fuel : Nat) : ∀ {m : HandsMap},
    (m.vec .trioChain).length ≤ fuel →
      (ShortKicked (kickTrioChains fuel m) ↔ ShortKicked m ∧
        ChainsFitFrom (m.vec .trioChain) (m.vec .solo) (m.vec .pair)) := by
  induction fuel with
  | zero =>
    intro m hlen
    have hnil : m.vec .trioChain = [] := List.eq_nil_of_length_eq_zero (Nat.le_zero.mp hlen)
    rw [hnil]
    exact (and_iff_left trivial).symm
  | succ fuel ih =>
    intro m hlen
    unfold kickTrioChains
    split
    next hnil =>
      rw [hnil]
      exact (and_iff_left trivial).symm
    next tChain rest hv =>
      rw [hv] at hlen
      have hrest : rest.length ≤ fuel := Nat.le_of_succ_le_succ hlen
      -- what the round leaves is what the chain leaves
      have htail : ∀ {m' : HandsMap} {k t : HandType} {l : List Hand} {h : Hand},
          (m'.vec = m.vec) → (k = .solo ∨ k = .pair) → (t = .trioChainSolo ∨ t = .trioChainPair) →
          h.len = tChain.len →
          (ShortKicked (kickTrioChains fuel (((m'.put k l).push t h).put .trioChain rest)) ↔
            ShortKicked m ∧ tChain.len ≤ 5 ∧ ChainsFitFrom rest
              (if k = .solo then l else m.vec .solo) (if k = .pair then l else m.vec .pair)) := by
        intro m' k t l h hm' hk ht hlen
        have hvec : ∀ i, i = .solo ∨ i = .pair →
            (((m'.put k l).push t h).put .trioChain rest).vec i
              = if k = i then l else m.vec i := by
          intro i hi
          have hne : i ≠ .trioChain ∧ i ≠ t := by
            rcases hi with rfl | rfl <;> rcases ht with rfl | rfl <;> decide
          rw [HandsMap.vec_put_ne hne.1, HandsMap.vec_push, if_neg hne.2, HandsMap.vec_put, hm']
          exact if_congr eq_comm rfl rfl
        rw [ih (by rwa [HandsMap.vec_put_self]), shortKicked_attach hk ht, hlen,
          HandsMap.vec_put_self, hvec .solo (.inl rfl), hvec .pair (.inr rfl), and_assoc]
        refine and_congr_left' (ShortKicked.congr ?_ ?_)
        · rw [hm']
        · rw [hm']
      have htouch : (m.touch .solo).vec = m.vec := funext fun t => HandsMap.vec_touch ..
      have htouch' : ((m.touch .solo).touch .pair).vec = m.vec := by
        funext t
        rw [HandsMap.vec_touch, htouch]
      rw [hv]
      dsimp only
      unfold ChainsFitFrom chainLeaves
      rw [htouch, htouch']
      split
      next huse => exact htail htouch (.inl rfl) (.inl rfl) rfl
      next =>
        split
        next huse => exact htail htouch' (.inr rfl) (.inr rfl) rfl
        next =>
          rw [ShortKicked.congr (congrFun htouch' _) (congrFun htouch' _)]
          exact (and_iff_left trivial).symm

/-- The loop over the trios has nothing to do with the chains: what it attaches
goes to the kicked trios. -/
theorem kickTrios_short_iff (fuel : Nat) : ∀ {m : HandsMap},
    ShortKicked (kickTrios fuel m) ↔ ShortKicked m := by
  induction fuel with
  | zero => exact Iff.rfl
  | succ fuel ih =>
    intro m
    have htouch : ((m.touch .solo).touch .pair).vec = m.vec := by
      funext t
      rw [HandsMap.vec_touch, HandsMap.vec_touch]
    have hround : ∀ {k t : HandType} {l rest : List Hand} {h : Hand}, k = .solo ∨ k = .pair →
        t = .trioSolo ∨ t = .trioPair →
        (ShortKicked (kickTrios fuel (((((m.touch .solo).touch .pair).put k l).push t h).put
          .trio rest)) ↔ ShortKicked m) := by
      intro k t l rest h hk ht
      have hvec : ∀ i, i = .trioChainSolo ∨ i = .trioChainPair →
          (((((m.touch .solo).touch .pair).put k l).push t h).put .trio rest).vec i = m.vec i := by
        intro i hi
        have hne : i ≠ .trio ∧ i ≠ t ∧ i ≠ k := by
          rcases hi with rfl | rfl <;> rcases ht with rfl | rfl <;>
            rcases hk with rfl | rfl <;> decide
        rw [HandsMap.vec_put_ne hne.1, HandsMap.vec_push, if_neg hne.2.1,
          HandsMap.vec_put_ne hne.2.2, htouch]
      exact ih.trans (ShortKicked.congr (hvec _ (.inl rfl)) (hvec _ (.inr rfl)))
    unfold kickTrios
    split
    next => exact Iff.rfl
    next =>
      dsimp only
      split
      next => exact ShortKicked.congr (congrFun htouch _) (congrFun htouch _)
      next => exact hround (.inr rfl) (.inr rfl)
      next => exact hround (.inl rfl) (.inl rfl)
      next =>
        split
        · exact hround (.inr rfl) (.inr rfl)
        · exact hround (.inl rfl) (.inl rfl)

/-- The whole kicker pass. -/
theorem findKicker_short_iff : ShortKicked (findKickerForTrioOrTrioChain m) ↔ ShortKicked m ∧
    ChainsFitFrom (m.vec .trioChain) (m.vec .solo) (m.vec .pair) := by
  have htouch : ∀ (m : HandsMap) (t : HandType), (m.touch t).vec = m.vec :=
    fun m t => funext fun t' => m.vec_touch t t'
  unfold findKickerForTrioOrTrioChain
  rw [kickTrios_short_iff]
  refine (ShortKicked.congr (congrFun (htouch _ _) _) (congrFun (htouch _ _) _)).trans ?_
  rw [kickTrioChains_short_iff _ (Nat.le_refl _), htouch]
  exact and_congr_left' (ShortKicked.congr (congrFun (htouch _ _) _) (congrFun (htouch _ _) _))

end KickerLoop

section Splitters

variable {p : Points} (h0 : ∀ r, 0 ≤ p r)

include h0

/-- Whatever the counts, the passes before `getNormalHand` push hands of legal
shape. -/
theorem beforeNormal_bare (k : Kind) : AllBare (beforeNormal (.kind k) p) := by
  have hstart : AllBare ⟨p, .empty⟩ := fun t h hh => absurd hh List.not_mem_nil
  have hsolo := hstart.pass (getSoloChain_spec (s := ⟨p, .empty⟩) h0 rfl)
  have hn := getSoloChain_nonneg (s := ⟨p, .empty⟩) h0 rfl
  have hbomb := hsolo.pass (getBomb_spec hn)
  cases k with
  | kind1 =>
    simp only [beforeNormal, beforePairChain, afterPairChain, id]
    exact (hbomb.pass (getTrioChain_spec _)).pass (getPairChain_spec _)
  | kind2 =>
    simp only [beforeNormal, beforePairChain, afterPairChain, id]
    have hchains := (hstart.pass (getBomb_spec (s := ⟨p, .empty⟩) h0)).pass (getTrioChain_spec _)
    refine (hchains.pass (getSoloChain_spec (fun r => ?_) ?_)).pass (getPairChain_spec _)
    · exact getTrioChain_nonneg (getBomb_nonneg (s := ⟨p, .empty⟩) h0 r)
    · rw [(getTrioChain_spec _).other _ (by decide),
        (getBomb_spec (s := ⟨p, .empty⟩) h0).other _ (by decide)]
      rfl
  | kind3 =>
    simp only [beforeNormal, beforePairChain, afterPairChain]
    exact (hbomb.pass (getPairChain_spec _)).pass (getTrioChain_spec _)

/-- The rank after a hand is still in the array: an extracted hand ends at a
rank, and so does one of a single rank. -/
theorem splitCardsToHands_top (k : Kind) {h : Hand}
    (hh : h ∈ (splitCardsToHands k p false).hands) : h.keyPoint + h.width ≤ redJoker + 1 := by
  obtain ⟨t, ht⟩ := HandsMap.mem_hands.mp hh
  have heq := splitInto_eq (.kind k) p false
  change splitCardsToHands k p false = _ at heq
  rw [heq] at ht
  change h ∈ (getNormalHand (beforeNormal (.kind k) p)).handMap.vec t at ht
  rw [getNormalHand_vec, List.mem_append, List.mem_append] at ht
  rcases ht with (ht | ht) | ht
  · rcases (beforeNormal_bare h0 k t h ht).shaped with hs | rfl
    · exact hs.top
    · decide
  · split at ht
    · unfold nukes at ht
      split at ht
      · rw [List.mem_singleton.mp ht]
        decide
      · exact absurd ht List.not_mem_nil
    · exact absurd ht List.not_mem_nil
  · obtain ⟨hsingle, i, hi, -, rfl⟩ := mem_normals.mp ht
    have hw : (single t i).width = 1 := by
      cases t <;> first | rfl | exact Bool.noConfusion hsingle
    rw [hw]
    exact hi

/-- What the hands of a splitter hand to the kicker loop fits its slots. -/
def ChainsFit (k : Kind) (p : Points) : Prop :=
  let m := splitCardsToHands k p false
  ChainsFitFrom (m.vec .trioChain) (m.vec .solo) (m.vec .pair)

/-- Then no kicked trio chain of the splitter is longer than the slots, and
only then. -/
theorem chainsFit_iff (k : Kind) :
    ChainsFit k p ↔ ShortKicked (splitCardsToHands k p true) := by
  -- the split has no kicked hands yet
  have hbare : ShortKicked (splitCardsToHands k p false) := by
    intro t ht h hh
    obtain ⟨bt, hk⟩ := kicks_chain ht
    have hplain : t ≠ .bomb ∧ t.isSingle = false ∧ t.kickMult ≠ 0 := by cases hk <;> decide
    have heq := splitInto_eq (.kind k) p false
    change splitCardsToHands k p false = (getNormalHand (beforeNormal (.kind k) p)).handMap at heq
    rw [heq, getNormalHand_vec, if_neg hplain.1, List.append_nil, normals, hplain.2.1] at hh
    have hb := beforeNormal_bare h0 k t h (by simpa using hh)
    rcases hb.type with htype | ⟨htype, -⟩
    · exact absurd (htype ▸ hb.plain) hplain.2.2
    · exact absurd htype hplain.1
  have hkicked : splitCardsToHands k p true
      = findKickerForTrioOrTrioChain (splitCardsToHands k p false) := by
    rw [splitCardsToHands_eq, splitCardsToHands_eq]
    rfl
  rw [hkicked, findKicker_short_iff, and_iff_right hbare]
  rfl

/-- The kicked hands of a splitter have the slots of their type written. -/
theorem kicked_slots (k : Kind) : KicksFilled (splitCardsToHands k p true) := by
  rw [splitCardsToHands_eq]
  exact withKickers_filled (beforeNormal_bare h0 k) true

/-- A splitter stays inside exactly when its chains fit: the ranks of its hands
are always inside, so the slots of the kicked chains decide. -/
theorem splitAccesses_inBounds_iff (k : Kind) :
    AllInBounds (splitAccesses k p) ↔ ChainsFit k p := by
  have hbodies : AllInBounds ((splitCardsToHands k p false).hands.flatMap fun h =>
      (List.range (h.width + 1)).map fun j : Nat => .points (h.keyPoint + j)) := by
    rw [allInBounds_flatMap]
    intro h hh
    rw [allInBounds_map]
    intro j hj
    have htop := splitCardsToHands_top h0 k hh
    have hj := List.mem_range.mp hj
    exact ⟨by omega, by simp only [redJoker, cardPointNum] at *; omega⟩
  rw [chainsFit_iff h0]
  unfold splitAccesses
  rw [allInBounds_append, allInBounds_append, and_iff_right wholeArray_inBounds,
    and_iff_right hbodies, allInBounds_flatMap]
  simp only [kickerAccesses_inBounds_iff, List.mem_flatMap, mem_kickedTypes]
  constructor
  · intro hall t ht h hh
    obtain ⟨bt, hk⟩ := kicks_chain ht
    obtain ⟨htype, hslots⟩ := kicked_slots h0 k bt t hk h hh
    have hlen := hall h ⟨t, ⟨bt, hk⟩, hh⟩
    rw [hslots, Hand.kickerCount, htype] at hlen
    rcases ht with rfl | rfl
    · exact hlen
    · exact hlen
  · rintro hfit h ⟨t, ⟨bt, hk⟩, hh⟩
    obtain ⟨htype, hslots⟩ := kicked_slots h0 k bt t hk h hh
    rw [hslots, Hand.kickerCount, htype]
    cases hk with
    | trioSolo | trioPair => exact Nat.le_of_ble_eq_true rfl
    | trioChainSolo => exact hfit _ (Or.inl rfl) h hh
    | trioChainPair => exact hfit _ (Or.inr rfl) h hh

end Splitters

/-- A sixth rank with its kicker is the twenty-fourth card. -/
theorem chainsFit_of_few {p : Points} (hp : LegalCounts p) (hfew : p.total < 24) (k : Kind) :
    ChainsFit k p := by
  refine (chainsFit_iff hp.nonneg k).mpr fun t ht h hh => ?_
  obtain ⟨bt, hk⟩ := kicks_chain ht
  have hne : t ≠ .bomb ∧ t ≠ .soloChain := by cases hk <;> decide
  rcases mem_splitInto hp (.kind k) true hh with ⟨hs, htype⟩ | ⟨hchain, -⟩
  · have htype : h.type = t := htype.resolve_right fun hb => hne.1 hb.1
    have hsum := Points.total_mono fun r _ => Int.le_trans
      (le_handsSum (HandsMap.mem_hands.mpr ⟨t, hh⟩) r) (splitInto_sum_le hp (.kind k) true r)
    have hkickers : h.kickerCount = h.len := by
      rcases ht with rfl | rfl <;> rw [Hand.kickerCount, htype]
    rcases hs.kickers_le_total with hfew | ⟨hcards, -⟩
    · omega
    · omega
  · exact absurd hchain hne.2

/-- A deal: the cards have ranks, and none of the three splitters kicks a chain
past its slots. -/
theorem rbtInInitCard_inBounds_iff (cards : List Int) :
    AllInBounds (rbtInInitCardAccesses cards) ↔
      (∀ c ∈ cards, ValidCard c) ∧ ∀ k, ChainsFit k (cardVecToPointArr cards) := by
  unfold rbtInInitCardAccesses
  rw [allInBounds_append, allInBounds_append, allInBounds_append,
    and_iff_left wholeArray_inBounds, and_iff_left wholeArray_inBounds,
    cardVecToPointArr_inBounds_iff, allInBounds_flatMap]
  refine and_congr_right' ?_
  simp only [splitAccesses_inBounds_iff (cardVecToPointArr_nonneg cards)]
  refine ⟨fun h k => h k ?_, fun h k _ => h k⟩
  cases k <;> simp

/-! ## The messages -/

/-- Which messages leave every access in bounds. The chains of a deal fit when
it is of fewer than twenty-four different cards. -/
theorem messages_inBounds_iff (s : AI) (cards : List Int) :
    (AllInBounds (recvInitHardCardNotifyAccesses cards) ↔
      (∀ c ∈ cards, ValidCard c) ∧ ∀ k, ChainsFit k (cardVecToPointArr cards)) ∧
    (cards.Nodup → (∀ c ∈ cards, ValidCard c) → cards.length < 24 →
      ∀ k, ChainsFit k (cardVecToPointArr cards)) ∧
    (AllInBounds (recvGetBaseCardNotifyAccesses s cards) ↔
      (∀ c ∈ cards, ValidCard c) ∧ (s.CountsLeftover → 3 ≤ cards.length)) ∧
    (AllInBounds (recvGetTakeOutCardNotifyAccesses cards) ↔
      (∀ c ∈ cards, ValidCard c) ∧
        (cardVecToPointArr cards blackJoker = 1 ∧ cardVecToPointArr cards redJoker = 1 ∨
          (∀ r ≤ redJoker, cardVecToPointArr cards r ≤ 4) ∧
            ¬WideChain (cardVecToPointArr cards))) := by
  refine ⟨?_, fun hnodup hvalid hfew => ?_, ?_, ?_⟩
  · unfold recvInitHardCardNotifyAccesses
    rw [allInBounds_append, rbtInInitCard_inBounds_iff, printCardInfo_inBounds_iff]
    exact and_iff_left_of_imp fun h => h.1
  · refine chainsFit_of_few (legalCounts_of_nodup hnodup hvalid) ?_
    rw [total_cardVecToPointArr hvalid]
    exact_mod_cast hfew
  · unfold recvGetBaseCardNotifyAccesses
    rw [allInBounds_append, printCardInfo_inBounds_iff, rbtInSetLord_inBounds_iff]
    refine and_congr_right fun hvalid => forall_congr' fun _ => ?_
    exact and_iff_left fun c hc => hvalid c (List.mem_of_mem_take hc)
  · unfold recvGetTakeOutCardNotifyAccesses
    rw [allInBounds_append, printCardInfo_inBounds_iff, rbtInTakeOutCard_inBounds_iff,
      getHand_inBounds_iff]
    refine and_congr_right fun hvalid => ?_
    rw [and_iff_right hvalid]
    refine or_iff_right_of_imp fun hnil => Or.inr ?_
    rw [hnil]
    exact ⟨by decide, by decide⟩

/-- Three to eight, three of each, and six solos. -/
def sixTriosAndSolos : List Int :=
  [0, 13, 26, 1, 14, 27, 2, 15, 28, 3, 16, 29, 4, 17, 30, 5, 18, 31, 7, 8, 9, 10, 12, 52]

/-- A robot with the first seat is lord. -/
def seatedLord : AI := { aiSeat := 0, lordSeat := 0 }

/-- What is no card, five of a rank, a chain of six trios with kickers, two
bottom cards. -/
theorem cards_out_of_bounds :
    ¬AllInBounds (recvGetTakeOutCardNotifyAccesses [54]) ∧
    ¬AllInBounds (recvInitHardCardNotifyAccesses [54]) ∧
    ¬AllInBounds (recvGetTakeOutCardNotifyAccesses [0, 13, 26, 39, 0]) ∧
    ¬AllInBounds (recvGetTakeOutCardNotifyAccesses sixTriosAndSolos) ∧
    ¬AllInBounds (recvInitHardCardNotifyAccesses sixTriosAndSolos) ∧
    ¬AllInBounds (recvGetBaseCardNotifyAccesses seatedLord [0, 1]) := by
  refine ⟨by decide +kernel, by decide +kernel, by decide +kernel, by decide +kernel,
    by decide +kernel, by decide +kernel⟩

end RobotDdz
