import RobotDdz.Cards.Hand

/-!
# The hands map and the ledger

`std::map<HandType, std::vector<Hand> >` as the splitters use it, next to the
array of counts they still have to place. `handMap[t]` inserts an empty vector
when `t` is absent, and `getHandsMapSummary` counts the keys that are present,
so presence is modelled: a map is a partial function from types to vectors and
`touch` is the insertion.

`Split.ledger` is the conservation account: the count still to place at a rank
plus the cards of that rank in the hands already built. A pass that only moves
cards between the two leaves it alone; `ledger_overVector` reduces the account
of a pass over one vector to the account of its `Pile`.

Mirroring notes vs `AIUtils.cpp`:
- The source iterates over the map in the order of `enum HandType`, and over
  each vector in the order of `push_back`. `hands` lists them so; the sums do
  not depend on it.
- A `vector<Hand> &` taken from the map and written through is `put`. Where a
  pass holds such a reference for its whole body, it is written as a function
  on a `Pile` and lifted by `overVector`.
- `handMap[t]` on the right of an assignment inserts the key as well. Only the
  functions that count keys can tell, and they are modelled with `touch`.
-/

namespace RobotDdz

/-- `handToPointsArray` summed over a vector of hands. -/
def handsSum (hands : List Hand) : Points := fun r => (hands.map (handToPointsArray · r)).sum

@[simp] theorem handsSum_nil (r : Nat) : handsSum [] r = 0 := rfl

@[simp] theorem handsSum_cons (h : Hand) (l : List Hand) (r : Nat) :
    handsSum (h :: l) r = handToPointsArray h r + handsSum l r := by
  simp [handsSum]

/-- The cards of two vectors, one after the other. -/
@[simp] theorem handsSum_append (l l' : List Hand) (r : Nat) :
    handsSum (l ++ l') r = handsSum l r + handsSum l' r := by
  simp [handsSum]

/-- A vector of hands has no negative count, since no hand has. -/
theorem handsSum_nonneg (l : List Hand) (r : Nat) : 0 ≤ handsSum l r := by
  induction l with
  | nil => exact Int.le_refl 0
  | cons h l ih =>
    have := handToPointsArray_nonneg h r
    rw [handsSum_cons]
    omega

/-- The order of the hands does not matter for their cards. -/
theorem handsSum_perm {l l' : List Hand} (h : l.Perm l') : handsSum l = handsSum l' := by
  funext r
  exact (h.map _).sum_eq

/-- A hand has no more cards of a rank than the vector it is in. -/
theorem le_handsSum {h : Hand} {l : List Hand} (hm : h ∈ l) (r : Nat) :
    handToPointsArray h r ≤ handsSum l r := by
  obtain ⟨l₁, l₂, rfl⟩ := List.append_of_mem hm
  have h₁ := handsSum_nonneg l₁ r
  have h₂ := handsSum_nonneg l₂ r
  rw [handsSum_append, handsSum_cons]
  omega

/-- `std::map<HandType, std::vector<Hand> >`. -/
abbrev HandsMap := HandType → Option (List Hand)

namespace HandsMap

/-- The cleared map. -/
def empty : HandsMap := fun _ => none

/-- The value of `handMap[t]`. -/
def vec (m : HandsMap) (t : HandType) : List Hand := (m t).getD []

/-- Storing through a reference to `handMap[t]`. -/
def put (m : HandsMap) (t : HandType) (hands : List Hand) : HandsMap :=
  Function.update m t (some hands)

/-- The effect of evaluating `handMap[t]`. -/
def touch (m : HandsMap) (t : HandType) : HandsMap := m.put t (m.vec t)

/-- `handMap[t].push_back(h)`. -/
def push (m : HandsMap) (t : HandType) (h : Hand) : HandsMap := m.put t (m.vec t ++ [h])

/-- Every hand of the map, in iteration order. -/
def hands (m : HandsMap) : List Hand := HandType.all.flatMap m.vec

/-- The cards of all hands of the map, rank by rank. -/
def sum (m : HandsMap) : Points := handsSum m.hands

@[simp] theorem vec_empty (t : HandType) : empty.vec t = [] := rfl

/-- A store is seen at its own key and nowhere else. -/
theorem vec_put (m : HandsMap) (t t' : HandType) (l : List Hand) :
    (m.put t l).vec t' = if t' = t then l else m.vec t' := by
  unfold vec put
  rw [Function.update_apply]
  split <;> rfl

@[simp] theorem vec_put_self (m : HandsMap) (t : HandType) (l : List Hand) :
    (m.put t l).vec t = l := by rw [vec_put, if_pos rfl]

theorem vec_put_ne {m : HandsMap} {t t' : HandType} {l : List Hand} (h : t' ≠ t) :
    (m.put t l).vec t' = m.vec t' := by rw [vec_put, if_neg h]

/-- The insertion of an empty vector is not seen by reading vectors, only by
counting keys. -/
@[simp] theorem vec_touch (m : HandsMap) (t t' : HandType) : (m.touch t).vec t' = m.vec t' := by
  rw [touch, vec_put]
  split
  next h => rw [h]
  next => rfl

/-- A vector with hands has its key. -/
theorem isSome_of_vec {m : HandsMap} {t : HandType} (h : m.vec t ≠ []) : (m t).isSome := by
  unfold vec at h
  cases hm : m t with
  | none =>
    rw [hm] at h
    exact absurd rfl h
  | some hands => rfl

/-- No store takes a key away. -/
theorem isSome_put {m : HandsMap} {i : HandType} (t : HandType) (l : List Hand)
    (h : (m i).isSome) : ((m.put t l) i).isSome := by
  unfold put
  rw [Function.update_apply]
  split
  · rfl
  · exact h

/-- `operator[]` only changes a map that has no such key. -/
theorem touch_of_isSome {m : HandsMap} {t : HandType} (h : (m t).isSome) : m.touch t = m := by
  obtain ⟨l, hl⟩ := Option.isSome_iff_exists.mp h
  unfold touch put vec
  rw [hl, Option.getD_some, ← hl, Function.update_eq_self]

/-- `push_back` appends at its own key. -/
theorem vec_push (m : HandsMap) (t t' : HandType) (h : Hand) :
    (m.push t h).vec t' = if t' = t then m.vec t ++ [h] else m.vec t' := vec_put ..

/-- A hand of the map is a hand of one of its vectors. -/
theorem mem_hands {m : HandsMap} {h : Hand} : h ∈ m.hands ↔ ∃ t, h ∈ m.vec t := by
  rw [hands, List.mem_flatMap]
  exact ⟨fun ⟨t, _, ht⟩ => ⟨t, ht⟩, fun ⟨t, ht⟩ => ⟨t, HandType.mem_all t, ht⟩⟩

/-- The cards of the map, vector by vector. The sums of `put` and `push` are
taken from this form. -/
theorem sum_eq (m : HandsMap) (r : Nat) :
    m.sum r = (HandType.all.map fun t => handsSum (m.vec t) r).sum := by
  unfold sum hands
  induction HandType.all with
  | nil => rfl
  | cons t l ih => rw [List.flatMap_cons, handsSum_append, ih, List.map_cons, List.sum_cons]

@[simp] theorem sum_empty (r : Nat) : empty.sum r = 0 := by
  rw [sum_eq]
  simp

/-- Replacing one vector changes the sum by the difference of the two; the sum
goes over the types, and each occurs once. -/
theorem sum_put (m : HandsMap) (t : HandType) (l : List Hand) (r : Nat) :
    (m.put t l).sum r = m.sum r - handsSum (m.vec t) r + handsSum l r := by
  have hacc : ∀ ts : List HandType, ts.Nodup →
      (ts.map fun t' => handsSum ((m.put t l).vec t') r).sum
        = (ts.map fun t' => handsSum (m.vec t') r).sum
          + if t ∈ ts then handsSum l r - handsSum (m.vec t) r else 0 := by
    intro ts
    induction ts with
    | nil => intro _; rfl
    | cons t' ts ih =>
      intro hnd
      obtain ⟨hnot, hnd'⟩ := List.nodup_cons.mp hnd
      rw [List.map_cons, List.map_cons, List.sum_cons, List.sum_cons, ih hnd', vec_put]
      by_cases ht : t' = t
      · subst ht
        rw [if_pos rfl, if_neg hnot, if_pos List.mem_cons_self]
        omega
      · have hmem : t ∈ t' :: ts ↔ t ∈ ts := by
          rw [List.mem_cons]
          exact or_iff_right (Ne.symm ht)
        rw [if_neg ht]
        simp only [hmem]
        omega
  rw [sum_eq, sum_eq, hacc _ (by decide), if_pos (HandType.mem_all t)]
  omega

@[simp] theorem sum_touch (m : HandsMap) (t : HandType) (r : Nat) :
    (m.touch t).sum r = m.sum r := by
  rw [touch, sum_put]
  omega

/-- `push_back` adds the cards of one hand. -/
@[simp] theorem sum_push (m : HandsMap) (t : HandType) (h : Hand) (r : Nat) :
    (m.push t h).sum r = m.sum r + handToPointsArray h r := by
  rw [push, sum_put, handsSum_append, handsSum_cons, handsSum_nil]
  omega

end HandsMap

/-- The two arguments of a pass, `int cards[]` and one vector of the map. -/
structure Pile where
  cards : Points
  hands : List Hand

/-- The two arguments of a splitter, `int cards[]` and the map. -/
structure Split where
  cards : Points
  handMap : HandsMap

/-- The cards of a rank, still to place or placed. -/
def Pile.ledger (p : Pile) (r : Nat) : Int := p.cards r + handsSum p.hands r

/-- The cards of a rank, still to place or placed. -/
def Split.ledger (s : Split) (r : Nat) : Int := s.cards r + s.handMap.sum r

/-- A pass that holds `vector<Hand> &hands = handMap[t]`. -/
def overVector (t : HandType) (pass : Pile → Pile) (s : Split) : Split :=
  let p := pass ⟨s.cards, s.handMap.vec t⟩
  ⟨p.cards, s.handMap.put t p.hands⟩

/-- The counts after a pass over one vector are those of the pass. -/
theorem overVector_cards (t : HandType) (pass : Pile → Pile) (s : Split) :
    (overVector t pass s).cards = (pass ⟨s.cards, s.handMap.vec t⟩).cards := rfl

/-- The vector the pass held is what the pass made of it. -/
theorem overVector_vec (t : HandType) (pass : Pile → Pile) (s : Split) :
    (overVector t pass s).handMap.vec t = (pass ⟨s.cards, s.handMap.vec t⟩).hands :=
  HandsMap.vec_put_self ..

/-- The other vectors are not touched. -/
theorem overVector_other {t t' : HandType} (pass : Pile → Pile) (s : Split) (h : t' ≠ t) :
    (overVector t pass s).handMap.vec t' = s.handMap.vec t' := HandsMap.vec_put_ne h

/-- A pass over one vector changes the account of the map by as much as it
changes the account of its own pile. Conservation of a pass is thus proved on
the pile, with no map in sight. -/
theorem ledger_overVector (t : HandType) (pass : Pile → Pile) (s : Split) (r : Nat) :
    (overVector t pass s).ledger r = s.ledger r
      + ((pass ⟨s.cards, s.handMap.vec t⟩).ledger r
        - Pile.ledger ⟨s.cards, s.handMap.vec t⟩ r) := by
  simp only [overVector, Split.ledger, Pile.ledger, HandsMap.sum_put]
  omega

end RobotDdz
