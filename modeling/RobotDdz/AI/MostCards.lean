import RobotDdz.AI.SortLvl
import RobotDdz.Cards.HandOrder
import RobotDdz.Lib.Least
import RobotDdz.Split.Figures
import RobotDdz.Split.Ordered
import Mathlib.Data.Prod.Lex

/-!
# The largest hand

`findMostCardsHand` and `findMostCardsHandNotBomb` go over the map in the order
of the types, so that the bombs come last, and keep a best hand. The first
compares the count of a hand with itself and is left with the keys: it keeps
the first of the lowest hands. The second compares the counts but takes a bomb
for a hand like the others. `most_cards_iff` says on which maps each of them
does what it is for.

Both searches are folds, and both keep a single best hand, so `Lib/Least` has
the general part: a fold that replaces the best one by a strictly smaller one
finds the first of the smallest. What has to be worked out is the measure. For
`findMostCardsHand` it is the key, because the comparison `getHandCount(hand) <
getHandCount(hand)` never holds; for `findMostCardsHandNotBomb` it is the
number of cards first and the key second.

The bombs come last in the order of the types, and each search treats a bomb in
its own way when it meets one. That they are all under one key is `BombsApart`.
It is no assumption on the callers: every map a splitter makes has it, and so
have the maps that `sortHandMap`, the strategies for a lord with one card and
the high level leave in a robot.
-/

namespace RobotDdz

open Least

/-- The bombs and the rocket are the hands under `BOMB`, and nothing stands
under the keys after it. -/
structure HandsMap.BombsApart (m : HandsMap) : Prop where
  bombs : ∀ h ∈ m.vec .bomb, h.type.isBomb = true
  others : ∀ t, t ≠ .bomb → ∀ h ∈ m.vec t, h.type.isBomb = false ∧ h.type ≠ .nothing
  last : m.vec .nuke = [] ∧ m.vec .lz = []

/-- The hands that are no bombs, in the order of the types. -/
abbrev HandsMap.otherHands (m : HandsMap) : List Hand := realHandsIn m HandType.all

/-- The first hands of the vectors but the bombs'. -/
def HandsMap.otherFronts (m : HandsMap) : List Hand :=
  (HandType.all.filter (· != .bomb)).filterMap fun t => (m.vec t).head?

namespace HandsMap

variable {m : HandsMap}

/-- The hands that are not under the bombs' key. -/
theorem mem_otherHands {h : Hand} : h ∈ m.otherHands ↔ ∃ t, t ≠ .bomb ∧ h ∈ m.vec t := by
  unfold otherHands realHandsIn handsIn
  rw [List.mem_flatMap]
  constructor
  · rintro ⟨t, ht, hh⟩
    exact ⟨t, bne_iff_ne.mp (List.mem_filter.mp ht).2, hh⟩
  · rintro ⟨t, ht, hh⟩
    exact ⟨t, List.mem_filter.mpr ⟨HandType.mem_all t, bne_iff_ne.mpr ht⟩, hh⟩

/-- A first hand of a vector that is not the bombs'. -/
theorem mem_otherFronts {h : Hand} :
    h ∈ m.otherFronts ↔ ∃ t, t ≠ .bomb ∧ (m.vec t).head? = some h := by
  unfold otherFronts
  rw [List.mem_filterMap]
  constructor
  · rintro ⟨t, ht, hh⟩
    exact ⟨t, bne_iff_ne.mp (List.mem_filter.mp ht).2, hh⟩
  · rintro ⟨t, ht, hh⟩
    exact ⟨t, List.mem_filter.mpr ⟨HandType.mem_all t, bne_iff_ne.mpr ht⟩, hh⟩

/-- There is a hand that is no bomb when there is a first one. -/
theorem otherFronts_eq_nil : m.otherFronts = [] ↔ m.otherHands = [] := by
  rw [List.eq_nil_iff_forall_not_mem, List.eq_nil_iff_forall_not_mem]
  constructor
  · intro h x hx
    obtain ⟨t, ht, hx⟩ := mem_otherHands.mp hx
    cases hv : m.vec t with
    | nil =>
      rw [hv] at hx
      exact List.not_mem_nil hx
    | cons y l => exact h y (mem_otherFronts.mpr ⟨t, ht, by rw [hv]; rfl⟩)
  · intro h x hx
    obtain ⟨t, ht, hx⟩ := mem_otherFronts.mp hx
    exact h x (mem_otherHands.mpr ⟨t, ht, List.mem_of_mem_head? hx⟩)

/-- The types before the bombs. -/
def beforeBomb : List HandType := HandType.all.takeWhile (· != .bomb)

/-- The order of the types, cut at the bombs. -/
theorem typesApart : HandType.all = beforeBomb ++ [.bomb, .nuke, .lz] := rfl

/-- The same order without the bombs. -/
theorem typesApart_others : HandType.all.filter (· != .bomb) = beforeBomb ++ [.nuke, .lz] := rfl

namespace BombsApart

variable (hm : m.BombsApart)

include hm

/-- The bombs come after the other hands. -/
theorem hands_eq : m.hands = m.otherHands ++ m.vec .bomb := by
  unfold hands otherHands realHandsIn handsIn
  rw [typesApart_others, typesApart, List.flatMap_append, List.flatMap_append]
  simp [hm.last.1, hm.last.2]

/-- So they do among the first hands. -/
theorem fronts_eq : HandType.all.filterMap (fun t => (m.vec t).head?)
    = m.otherFronts ++ (m.vec .bomb).head?.toList := by
  unfold otherFronts
  rw [typesApart_others, typesApart, List.filterMap_append, List.filterMap_append]
  cases h : (m.vec .bomb).head? with
  | none => simp [h, hm.last.1, hm.last.2]
  | some b => simp [h, hm.last.1, hm.last.2]

/-- A hand from another vector is a real hand and no bomb. -/
theorem other {h : Hand} (hh : h ∈ m.otherHands) : h.type.isBomb = false ∧ h.type ≠ .nothing := by
  obtain ⟨t, ht, hh⟩ := mem_otherHands.mp hh
  exact hm.others t ht h hh

/-- So is a first hand of another vector. -/
theorem front {h : Hand} (hh : h ∈ m.otherFronts) : h.type.isBomb = false ∧ h.type ≠ .nothing := by
  obtain ⟨t, ht, hh⟩ := mem_otherFronts.mp hh
  exact hm.others t ht h (List.mem_of_mem_head? hh)

end BombsApart

end HandsMap

/-! ## The lowest of the hands -/

/-- What `findMostCardsHand` does with one hand. -/
def mostCardsStep (hand h : Hand) : Hand :=
  if hand.type = .nothing ∨ hand.type = .nuke ∨ hand.type = .bomb
      ∨ getHandCount h > getHandCount h
      ∨ getHandCount h = getHandCount h ∧ h.keyPoint < hand.keyPoint then h
  else hand

/-- The two nested loops are one fold over the hands of the map. -/
theorem findMostCardsHand_foldl (m : HandsMap) (hand : Hand) :
    findMostCardsHand m hand = m.hands.foldl mostCardsStep hand.clear := rfl

/-- The first hand is taken whatever it is. -/
theorem mostCardsStep_nothing {hand h : Hand} (hh : hand.type = .nothing) :
    mostCardsStep hand h = h := if_pos (Or.inl hh)

/-- A bomb gives way to whatever comes after it. -/
theorem mostCardsStep_bomb {hand h : Hand} (hh : hand.type.isBomb = true) :
    mostCardsStep hand h = h := by
  rcases HandType.isBomb_iff.mp hh with hb | hn
  · exact if_pos (Or.inr (Or.inr (Or.inl hb)))
  · exact if_pos (Or.inr (Or.inl hn))

/-- The counts do not matter. -/
theorem mostCardsStep_other {hand h : Hand} (hh : hand.type.isBomb = false ∧ hand.type ≠ .nothing) :
    mostCardsStep hand h = if h.keyPoint < hand.keyPoint then h else hand := by
  have hb : ¬(hand.type = .bomb ∨ hand.type = .nuke) := by
    rw [← HandType.isBomb_iff, hh.1]
    exact Bool.false_ne_true
  obtain ⟨hbomb, hnuke⟩ := not_or.mp hb
  unfold mostCardsStep
  simp only [hh.2, hbomb, hnuke, gt_iff_lt, lt_irrefl, true_and, false_or]

/-- Over the bombs a bomb is replaced every time. -/
theorem foldl_mostCardsStep_bombs {c : Hand} {l : List Hand} (hc : c.type.isBomb = true)
    (hl : ∀ h ∈ l, h.type.isBomb = true) : (l.foldl mostCardsStep c).type.isBomb = true := by
  induction l generalizing c with
  | nil => exact hc
  | cons h l ih =>
    rw [List.foldl_cons, mostCardsStep_bomb hc]
    exact ih (hl h List.mem_cons_self) fun x hx => hl x (List.mem_cons_of_mem _ hx)

/-- Another hand is kept over the bombs unless one is lower: the bombs come
last, and from the first lower one on the best hand is a bomb. -/
theorem foldl_mostCardsStep_last {c : Hand} {l : List Hand}
    (hc : c.type.isBomb = false ∧ c.type ≠ .nothing) (hl : ∀ h ∈ l, h.type.isBomb = true) :
    (∀ b ∈ l, c.keyPoint ≤ b.keyPoint) ∧ l.foldl mostCardsStep c = c ∨
      (∃ b ∈ l, b.keyPoint < c.keyPoint) ∧ (l.foldl mostCardsStep c).type.isBomb = true := by
  induction l with
  | nil => exact Or.inl ⟨fun b hb => (nomatch hb), rfl⟩
  | cons h l ih =>
    have hrest : ∀ x ∈ l, x.type.isBomb = true := fun x hx => hl x (List.mem_cons_of_mem _ hx)
    rw [List.foldl_cons, mostCardsStep_other hc]
    split
    next hlow =>
      refine Or.inr ⟨⟨h, List.mem_cons_self, hlow⟩, ?_⟩
      exact foldl_mostCardsStep_bombs (hl h List.mem_cons_self) hrest
    next hlow =>
      rcases ih hrest with ⟨hle, hkeep⟩ | ⟨⟨b, hb, hlt⟩, hbomb⟩
      · refine Or.inl ⟨fun b hb => ?_, hkeep⟩
        rcases List.mem_cons.mp hb with rfl | hb
        · exact Nat.le_of_not_lt hlow
        · exact hle b hb
      · exact Or.inr ⟨⟨b, List.mem_cons_of_mem _ hb, hlt⟩, hbomb⟩

namespace HandsMap.BombsApart

variable {m : HandsMap} (hm : m.BombsApart)

include hm

/-- The lowest of the other hands stays the best one when no bomb is lower. -/
theorem findMostCardsHand_cases (hand : Hand) (hne : m.otherHands ≠ []) :
    ∃ c, FirstLeast Hand.keyPoint m.otherHands c ∧
      ((∀ b ∈ m.vec .bomb, c.keyPoint ≤ b.keyPoint) ∧ findMostCardsHand m hand = c ∨
        (∃ b ∈ m.vec .bomb, b.keyPoint < c.keyPoint) ∧
          (findMostCardsHand m hand).type.isBomb = true) := by
  obtain ⟨a, l, hal⟩ := List.exists_cons_of_ne_nil hne
  have hother : ∀ h ∈ a :: l, h.type.isBomb = false ∧ h.type ≠ .nothing :=
    fun h hh => hm.other (hal ▸ hh)
  have hfirst : FirstLeast Hand.keyPoint (a :: l) (l.foldl mostCardsStep a) :=
    foldl_firstLeast_of (fun _ _ => mostCardsStep_other) hother
  rw [← hal] at hfirst
  refine ⟨_, hfirst, ?_⟩
  have hrun : findMostCardsHand m hand
      = (m.vec .bomb).foldl mostCardsStep (l.foldl mostCardsStep a) := by
    rw [findMostCardsHand_foldl, hm.hands_eq, hal, List.foldl_append, List.foldl_cons,
      mostCardsStep_nothing rfl]
  rw [hrun]
  exact foldl_mostCardsStep_last (hm.other hfirst.mem) hm.bombs

/-- When `findMostCardsHand` finds the largest of the other hands, the lowest
of equal ones. -/
theorem findMostCardsHand_iff (hand : Hand) :
    (m.otherHands ≠ [] → findMostCardsHand m hand ∈ m.otherHands ∧
        ∀ h ∈ m.otherHands, getHandCount h ≤ getHandCount (findMostCardsHand m hand) ∧
          (getHandCount h = getHandCount (findMostCardsHand m hand) →
            (findMostCardsHand m hand).keyPoint ≤ h.keyPoint)) ↔
      m.otherHands = [] ∨ ∃ c, FirstLeast Hand.keyPoint m.otherHands c ∧
        (∀ b ∈ m.vec .bomb, c.keyPoint ≤ b.keyPoint) ∧
        ∀ h ∈ m.otherHands, getHandCount h ≤ getHandCount c := by
  by_cases hnil : m.otherHands = []
  · exact ⟨fun _ => Or.inl hnil, fun _ hne => absurd hnil hne⟩
  obtain ⟨c, hc, ⟨hle, heq⟩ | ⟨⟨b, hb, hlt⟩, hbomb⟩⟩ := hm.findMostCardsHand_cases hand hnil
  · rw [heq]
    constructor
    · intro h
      exact Or.inr ⟨c, hc, hle, fun x hx => ((h hnil).2 x hx).1⟩
    · rintro (h | ⟨c', hc', -, hmost⟩) -
      · exact absurd h hnil
      · rw [hc'.unique hc] at hmost
        exact ⟨hc.mem, fun h hh => ⟨hmost h hh, fun _ => hc.le h hh⟩⟩
  · constructor
    · intro h
      have hbad := (hm.other (h hnil).1).1
      rw [hbomb] at hbad
      exact Bool.noConfusion hbad
    · rintro (h | ⟨c', hc', hall, -⟩)
      · exact absurd h hnil
      · rw [hc'.unique hc] at hall
        exact absurd hlt (Nat.not_lt.mpr (hall b hb))

end HandsMap.BombsApart

/-! ## The largest of the first hands -/

namespace AI

/-- The loop looks at the first hand of each vector and skips the empty ones. -/
theorem findMostCardsHandNotBomb_foldl (s : AI) (hand : Hand) : s.findMostCardsHandNotBomb hand
    = (HandType.all.filterMap fun t => (s.handsMap.vec t).head?).foldl
        (fun hand h => mostCardsFront hand [h]) hand.clear := by
  unfold findMostCardsHandNotBomb
  generalize hand.clear = c
  induction HandType.all generalizing c with
  | nil => rfl
  | cons t ts ih =>
    rw [List.foldl_cons, ih, List.filterMap_cons]
    cases s.handsMap.vec t with
    | nil => rfl
    | cons h l => rfl

/-- The hands by count, and by key among the hands of one count. -/
def largest (h : Hand) : Int ×ₗ Nat := toLex (-(getHandCount h : Int), h.keyPoint)

/-- Before in this order: more cards, or as many and a lower key. -/
theorem largest_lt {h c : Hand} : largest h < largest c ↔ getHandCount c < getHandCount h ∨
    getHandCount h = getHandCount c ∧ h.keyPoint < c.keyPoint := by
  unfold largest
  rw [Prod.Lex.toLex_lt_toLex, neg_lt_neg_iff, neg_inj, Nat.cast_lt, Nat.cast_inj]

/-- Before or level in this order. -/
theorem largest_le {h c : Hand} : largest h ≤ largest c ↔ getHandCount c < getHandCount h ∨
    getHandCount h = getHandCount c ∧ h.keyPoint ≤ c.keyPoint := by
  unfold largest
  rw [Prod.Lex.toLex_le_toLex, neg_lt_neg_iff, neg_inj, Nat.cast_lt, Nat.cast_inj]

/-- Between two hands that are no bombs the loop keeps the one before the
other. -/
theorem mostCardsFront_other {hand h : Hand}
    (hh : hand.type.isBomb = false ∧ hand.type ≠ .nothing) :
    mostCardsFront hand [h] = if largest h < largest hand then h else hand := by
  have hbomb : hand.type ≠ .bomb := by
    intro hb
    rw [hb] at hh
    exact Bool.noConfusion hh.1
  unfold mostCardsFront
  simp only [hh.2, hbomb, false_or, if_false, largest_lt]

end AI

namespace HandsMap.BombsApart

open AI

variable {s : AI} (hm : s.handsMap.BombsApart)

include hm

/-- The largest of the other first hands, or the first bomb when it goes before
that. -/
theorem findMostCardsHandNotBomb_eq (hand : Hand) (hne : s.handsMap.otherFronts ≠ []) :
    ∃ c, FirstLeast largest s.handsMap.otherFronts c ∧ s.findMostCardsHandNotBomb hand
      = ((s.handsMap.vec .bomb).head?.elim c fun b => if largest b < largest c then b else c) := by
  obtain ⟨a, l, hal⟩ := List.exists_cons_of_ne_nil hne
  have hother : ∀ h ∈ a :: l, h.type.isBomb = false ∧ h.type ≠ .nothing :=
    fun h hh => hm.front (hal ▸ hh)
  have hfirst : FirstLeast largest (a :: l) (l.foldl (fun hand h => mostCardsFront hand [h]) a) :=
    foldl_firstLeast_of (fun _ _ => mostCardsFront_other) hother
  rw [← hal] at hfirst
  refine ⟨_, hfirst, ?_⟩
  rw [findMostCardsHandNotBomb_foldl, hm.fronts_eq, hal, List.foldl_append, List.foldl_cons]
  change List.foldl _ (l.foldl (fun hand h => mostCardsFront hand [h]) a) _ = _
  cases (s.handsMap.vec .bomb).head? with
  | none => rfl
  | some b => exact mostCardsFront_other (hm.front hfirst.mem)

/-- When `findMostCardsHandNotBomb` finds no bomb but the largest of the other
first hands. -/
theorem findMostCardsHandNotBomb_iff (hand : Hand) :
    (((s.findMostCardsHandNotBomb hand).type.isBomb = true → s.handsMap.otherHands = []) ∧
        (s.handsMap.otherHands ≠ [] →
          s.findMostCardsHandNotBomb hand ∈ s.handsMap.otherFronts ∧
          ∀ h ∈ s.handsMap.otherFronts,
            getHandCount h ≤ getHandCount (s.findMostCardsHandNotBomb hand))) ↔
      s.handsMap.otherHands = [] ∨ ∀ b, (s.handsMap.vec .bomb).head? = some b →
        ∃ h ∈ s.handsMap.otherFronts, getHandCount b < getHandCount h ∨
          getHandCount h = getHandCount b ∧ h.keyPoint ≤ b.keyPoint := by
  by_cases hnil : s.handsMap.otherHands = []
  · exact ⟨fun _ => Or.inl hnil, fun _ => ⟨fun _ => hnil, fun hne => absurd hnil hne⟩⟩
  obtain ⟨c, hc, heq⟩ := hm.findMostCardsHandNotBomb_eq hand (otherFronts_eq_nil.not.mpr hnil)
  have hmost : ∀ h ∈ s.handsMap.otherFronts, getHandCount h ≤ getHandCount c := by
    intro h hh
    rcases largest_le.mp (hc.le h hh) with hlt | ⟨heq, -⟩
    · exact Nat.le_of_lt hlt
    · exact Nat.le_of_eq heq.symm
  rw [or_iff_right hnil, heq]
  constructor
  · rintro ⟨hno, -⟩ b hb
    rw [hb, Option.elim_some] at hno
    split at hno
    next hlt =>
      exact absurd (hno (hm.bombs b (List.mem_of_mem_head? hb))) hnil
    next hlt => exact ⟨c, hc.mem, largest_le.mp (le_of_not_gt hlt)⟩
  · intro hall
    have hkeep : ((s.handsMap.vec .bomb).head?.elim c fun b =>
        if largest b < largest c then b else c) = c := by
      cases hb : (s.handsMap.vec .bomb).head? with
      | none => rfl
      | some b =>
        obtain ⟨h, hh, hle⟩ := hall b hb
        exact if_neg (not_lt_of_ge (le_trans (hc.le h hh) (largest_le.mpr hle)))
    rw [hkeep]
    refine ⟨fun hbomb => ?_, fun _ => ⟨hc.mem, hmost⟩⟩
    rw [(hm.front hc.mem).1] at hbomb
    exact Bool.noConfusion hbomb

end HandsMap.BombsApart

/-! ## The maps of the splitters -/

/-- It is about the hands of a map, not about its keys. -/
theorem HandsMap.BombsApart.congr {m m' : HandsMap} (hm : m.BombsApart)
    (hvec : ∀ t, m'.vec t = m.vec t) : m'.BombsApart := by
  have heq : m'.vec = m.vec := funext hvec
  refine ⟨?_, ?_, ?_⟩
  · rw [heq]
    exact hm.bombs
  · rw [heq]
    exact hm.others
  · rw [heq]
    exact hm.last

section Splitters

variable {p : Points} (hp : LegalCounts p) (x : Splitter) (searchKicker : Bool)

include hp

/-- A type that no pass pushes has no hands. -/
theorem splitInto_vec_nil {t : HandType} (hpass : t ∉ pushed) (hkick : t ∉ kickTypes) :
    (splitInto x p searchKicker).vec t = [] := by
  have hbomb : t ≠ .bomb := fun h => hpass (h ▸ by decide)
  have hsingle : t.isSingle = false := by
    cases t <;> first | rfl | exact absurd (by decide) hpass | exact absurd (by decide) hkick
  rw [splitInto_eq, (withKickers_regrouped searchKicker _).other t hkick, getNormalHand_vec,
    if_neg hbomb, List.append_nil, (beforeNormal_arranged hp x).other t hpass, List.nil_append,
    normals, hsingle]
  rfl

/-- Every splitter keeps the bombs apart: a pass pushes into the vector of its
own type, and the kicker pass moves hands between vectors that are not the
bombs'. -/
theorem splitInto_bombsApart : (splitInto x p searchKicker).BombsApart := by
  refine ⟨fun h hh => ?_, fun t ht h hh => ?_, ?_, ?_⟩
  · rcases mem_splitInto hp x searchKicker hh with ⟨-, htype | ⟨-, htype⟩⟩ | ⟨hno, -⟩
    · exact HandType.isBomb_iff.mpr (Or.inl htype)
    · exact HandType.isBomb_iff.mpr (Or.inr htype)
    · exact HandType.noConfusion hno
  · rcases mem_splitInto hp x searchKicker hh with ⟨hs, htype | ⟨hno, -⟩⟩ | ⟨-, rfl, -⟩
    · have hnuke : t ≠ .nuke := by
        rintro rfl
        rw [splitInto_vec_nil hp x searchKicker (by decide) (by decide)] at hh
        exact List.not_mem_nil hh
      refine ⟨?_, fun hno => ?_⟩
      · rw [Bool.eq_false_iff, Ne, HandType.isBomb_iff, htype]
        exact not_or.mpr ⟨ht, hnuke⟩
      · have hbody := hs.body
        rw [hno] at hbody
        exact hbody
    · exact absurd hno ht
    · exact ⟨rfl, HandType.noConfusion⟩
  · exact splitInto_vec_nil hp x searchKicker (by decide) (by decide)
  · exact splitInto_vec_nil hp x searchKicker (by decide) (by decide)

/-- The map of the best of the first three splitters. -/
theorem sortHandsWithBestKind_bombsApart (u : Undef) (lowestControl : Nat) (maxOppNumber : Int)
    (otherPoints : Points) :
    (sortHandsWithBestKind u p lowestControl maxOppNumber otherPoints searchKicker).1.BombsApart :=
  (splitInto_bombsApart hp (.kind _) searchKicker).congr fun t =>
    sortHandsWithBestKind_vec u p lowestControl maxOppNumber otherPoints searchKicker t

/-- The map against a lord with one card: that of the fourth splitter or that
of the fifth. -/
theorem sortHandsLordOnly1Card_bombsApart (u : Undef) (lowestControl : Nat) (maxOppNumber : Int)
    (otherPoints : Points) :
    (sortHandsLordOnly1Card u p lowestControl maxOppNumber otherPoints
      searchKicker).1.BombsApart := by
  rcases sortHandsLordOnly1Card_vec u p lowestControl maxOppNumber otherPoints searchKicker
    with h | h
  · exact (splitInto_bombsApart hp .kind4 searchKicker).congr h
  · exact (splitInto_bombsApart hp .kind5 searchKicker).congr h

end Splitters

/-! ## The maps of the high level -/

namespace HandsMap.BombsApart

variable {m : HandsMap} (hm : m.BombsApart)

include hm

/-- A store at one of the other keys of hands that are no bombs. -/
theorem put {t : HandType} (ht : t ≠ .bomb ∧ t ≠ .nuke ∧ t ≠ .lz) {l : List Hand}
    (hl : ∀ h ∈ l, h.type.isBomb = false ∧ h.type ≠ .nothing) : (m.put t l).BombsApart := by
  refine ⟨?_, fun t' ht' h hh => ?_, ?_, ?_⟩
  · rw [HandsMap.vec_put_ne ht.1.symm]
    exact hm.bombs
  · rw [HandsMap.vec_put] at hh
    split at hh
    · exact hl h hh
    · exact hm.others t' ht' h hh
  · rw [HandsMap.vec_put_ne ht.2.1.symm]
    exact hm.last.1
  · rw [HandsMap.vec_put_ne ht.2.2.symm]
    exact hm.last.2

/-- A hand pushed to one of the other vectors. -/
theorem push {t : HandType} (ht : t ≠ .bomb ∧ t ≠ .nuke ∧ t ≠ .lz) {h : Hand}
    (hh : h.type.isBomb = false ∧ h.type ≠ .nothing) : (m.push t h).BombsApart := by
  refine hm.put ht fun h' hh' => ?_
  rcases List.mem_append.mp hh' with hold | hnew
  · exact hm.others t ht.1 h' hold
  · rw [List.mem_singleton.mp hnew]
    exact hh

/-- An empty vector more. -/
theorem touch (t : HandType) : (m.touch t).BombsApart := hm.congr fun t' => m.vec_touch t t'

end HandsMap.BombsApart

namespace AI

variable {c : HighCounts} {m : HandsMap}

/-- The kickers of the high level are solos or pairs. -/
theorem kickWith_type {len : Int} {k : HandType} (h : kickWith m c len = some k) :
    k = .solo ∨ k = .pair := by
  unfold kickWith at h
  rw [Option.orElse_eq_some, Option.orElse_eq_some] at h
  rcases h with h | ⟨-, h | ⟨-, h⟩⟩ <;> exact (kickBy_some h).imp And.left And.left

/-- A round hangs solos or pairs on a body and moves it to a kicked type. None
of the vectors it touches is the bombs', and no hand it makes is a bomb. -/
theorem kickRound_bombsApart {t withSolo withPair : HandType} (hs : Kicks t withSolo)
    (hp : Kicks t withPair) {x : HandsMap × List Hand} (hx : x.1.BombsApart) (h : Hand) :
    (kickRound c t withSolo withPair x h).1.BombsApart ∧
      ∀ h' ∈ (kickRound c t withSolo withPair x h).2, h' = h ∨ h' ∈ x.2 := by
  unfold kickRound
  dsimp only
  split
  · refine ⟨hx, fun h' hh' => ?_⟩
    exact (List.mem_append.mp hh').symm.imp_left List.mem_singleton.mp
  next k hk =>
    refine ⟨?_, fun h' hh' => Or.inr hh'⟩
    have hplain : ∀ {t' : HandType}, Kicks t t' →
        (t' ≠ .bomb ∧ t' ≠ .nuke ∧ t' ≠ .lz) ∧ t'.isBomb = false ∧ t' ≠ .nothing := by
      intro t' hk'
      cases hk' <;> decide
    have hkick : ∃ t', (if k = .solo then withSolo else withPair) = t' ∧ Kicks t t' := by
      split
      · exact ⟨_, rfl, hs⟩
      · exact ⟨_, rfl, hp⟩
    obtain ⟨t', heq, ht'⟩ := hkick
    rw [heq]
    refine HandsMap.BombsApart.push (hx.put ?_ fun h' hh' => ?_) (hplain ht').1 (hplain ht').2
    · rcases kickWith_type hk with rfl | rfl <;> decide
    · exact hx.others k (by rcases kickWith_type hk with rfl | rfl <;> decide) h'
        (List.mem_of_mem_drop hh')

/-- The loop over the bodies, round by round; the bodies that stay as they are
were in the vector before, and no bomb is among them. -/
theorem kickLoop_bombsApart {t withSolo withPair : HandType} (hs : Kicks t withSolo)
    (hp : Kicks t withPair) (hm : m.BombsApart) :
    (kickLoop m c t withSolo withPair).1.BombsApart := by
  have ht : t ≠ .bomb ∧ t ≠ .nuke ∧ t ≠ .lz := by cases hs <;> decide
  have hloop : ∀ (l : List Hand) (x : HandsMap × List Hand), x.1.BombsApart →
      (l.foldl (kickRound c t withSolo withPair) x).1.BombsApart ∧
        ∀ h ∈ (l.foldl (kickRound c t withSolo withPair) x).2, h ∈ l ∨ h ∈ x.2 := by
    intro l
    induction l with
    | nil => exact fun x hx => ⟨hx, fun h hh => Or.inr hh⟩
    | cons h l ih =>
      intro x hx
      obtain ⟨hround, hkept⟩ := kickRound_bombsApart (c := c) hs hp hx h
      obtain ⟨hrest, hin⟩ := ih _ hround
      refine ⟨hrest, fun h' hh' => ?_⟩
      rcases hin h' hh' with hl | hold
      · exact Or.inl (List.mem_cons_of_mem h hl)
      · rcases hkept h' hold with rfl | hx
        · exact Or.inl List.mem_cons_self
        · exact Or.inr hx
  obtain ⟨hmap, hkept⟩ := hloop (m.vec t) (m, []) hm
  refine hmap.put ht fun h hh => ?_
  exact hm.others t ht.1 h ((hkept h hh).resolve_right List.not_mem_nil)

/-- The hands of a high hand that is broken up are solos and a pair. -/
theorem breakHigh_bombsApart (s : AI) (hm : m.BombsApart) : (s.breakHigh m c).1.BombsApart := by
  have hdrop : (m.put .trio (m.vec .trio).dropLast).BombsApart :=
    hm.put (by decide) fun h hh => hm.others .trio (by decide) h
      ((List.dropLast_sublist _).subset hh)
  have hsolo : ∀ {t : HandType} {m : HandsMap} (keyPoint : Nat), m.BombsApart →
      t ≠ .bomb ∧ t ≠ .nuke ∧ t ≠ .lz →
      (m.push t { type := .solo, keyPoint := keyPoint, len := 1 }).BombsApart :=
    fun _ hm ht => hm.push ht ⟨rfl, HandType.noConfusion⟩
  unfold breakHigh
  dsimp only
  split
  · split
    · split
      · exact (hsolo _ hdrop (by decide)).push (by decide) ⟨rfl, HandType.noConfusion⟩
      · exact hsolo _ (hsolo _ (hsolo _ hdrop (by decide)) (by decide)) (by decide)
    · split
      · exact hsolo _ hm (by decide)
      · exact hm
  · exact hm

/-- Evaluating a map at the high level breaks hands up and kicks bodies, and
does no more to it. -/
theorem evaluate_bombsApart (s : AI) (hm : m.BombsApart) : (s.evaluate m c).1.BombsApart := by
  have hstart : (lvlStart m).BombsApart := (((hm.touch _).touch _).touch _).touch _
  unfold evaluate
  rw [getHandsMapSummaryLvl_map]
  exact s.breakHigh_bombsApart (kickLoop_bombsApart .trioSolo .trioPair
    (kickLoop_bombsApart .trioChainSolo .trioChainPair hstart))

/-- Whatever map `sortHandMapLvl` leaves, a split or one evaluated again, the
bombs are apart in it. -/
theorem sortHandMapLvl_bombsApart (s : AI) (hp : LegalCounts s.aiPoints) :
    s.sortHandMapLvl.handsMap.BombsApart := by
  have hsplit : ∀ x, (s.splitOf x).BombsApart := fun x => splitInto_bombsApart hp x false
  have hfirst : (s.own s.firstSplitter).1.BombsApart := by
    unfold firstSplitter
    split <;> exact s.evaluate_bombsApart (hsplit _)
  have hheld : s.heldMap.BombsApart := by
    unfold heldMap
    split
    · exact hsplit _
    · exact s.evaluate_bombsApart hfirst
  have hleft : s.leftMap.BombsApart := by
    unfold leftMap
    split_ifs
    · exact hheld
    · exact hsplit _
    · exact s.evaluate_bombsApart hheld
  rw [s.sortHandMapLvl_eq]
  exact hleft

end AI

/-- When the two searches find what they are for: the first only where the
lowest hand happens to be the largest and no bomb is lower, the second where
the first bomb does not come out on top. -/
theorem most_cards_iff (s : AI) (hm : s.handsMap.BombsApart) (hand : Hand) :
    ((s.handsMap.otherHands ≠ [] → findMostCardsHand s.handsMap hand ∈ s.handsMap.otherHands ∧
        ∀ h ∈ s.handsMap.otherHands,
          getHandCount h ≤ getHandCount (findMostCardsHand s.handsMap hand) ∧
          (getHandCount h = getHandCount (findMostCardsHand s.handsMap hand) →
            (findMostCardsHand s.handsMap hand).keyPoint ≤ h.keyPoint)) ↔
      s.handsMap.otherHands = [] ∨ ∃ c, FirstLeast Hand.keyPoint s.handsMap.otherHands c ∧
        (∀ b ∈ s.handsMap.vec .bomb, c.keyPoint ≤ b.keyPoint) ∧
        ∀ h ∈ s.handsMap.otherHands, getHandCount h ≤ getHandCount c) ∧
    (((s.findMostCardsHandNotBomb hand).type.isBomb = true → s.handsMap.otherHands = []) ∧
        (s.handsMap.otherHands ≠ [] →
          s.findMostCardsHandNotBomb hand ∈ s.handsMap.otherFronts ∧
          ∀ h ∈ s.handsMap.otherFronts,
            getHandCount h ≤ getHandCount (s.findMostCardsHandNotBomb hand)) ↔
      s.handsMap.otherHands = [] ∨ ∀ b, (s.handsMap.vec .bomb).head? = some b →
        ∃ h ∈ s.handsMap.otherFronts, getHandCount b < getHandCount h ∨
          getHandCount h = getHandCount b ∧ h.keyPoint ≤ b.keyPoint) :=
  ⟨hm.findMostCardsHand_iff hand, hm.findMostCardsHandNotBomb_iff hand⟩

/-- A three, two fives and four sevens. -/
def threeFivesAndSevens : Points := Points.ofList [1, 0, 2, 0, 4]

theorem legalHolding_threeFivesAndSevens : LegalHolding threeFivesAndSevens :=
  legalHolding_ofList (by decide) (by decide) (by decide)

/-- A robot with these cards. -/
def robotWithBomb : AI := { handsMap := splitInto .kind4 threeFivesAndSevens true }

/-- Its map comes from a splitter. -/
theorem robotWithBomb_bombsApart : robotWithBomb.handsMap.BombsApart := by
  have hlegal : LegalCounts threeFivesAndSevens := legalHolding_threeFivesAndSevens.toLegalCounts
  dsimp only [robotWithBomb]
  exact splitInto_bombsApart hlegal .kind4 true

theorem most_cards_iff_bomb :
    ((robotWithBomb.handsMap.otherHands ≠ [] →
        findMostCardsHand robotWithBomb.handsMap {} ∈ robotWithBomb.handsMap.otherHands ∧
        ∀ h ∈ robotWithBomb.handsMap.otherHands,
          getHandCount h ≤ getHandCount (findMostCardsHand robotWithBomb.handsMap {}) ∧
          (getHandCount h = getHandCount (findMostCardsHand robotWithBomb.handsMap {}) →
            (findMostCardsHand robotWithBomb.handsMap {}).keyPoint ≤ h.keyPoint)) ↔
      robotWithBomb.handsMap.otherHands = [] ∨
        ∃ c, FirstLeast Hand.keyPoint robotWithBomb.handsMap.otherHands c ∧
          (∀ b ∈ robotWithBomb.handsMap.vec .bomb, c.keyPoint ≤ b.keyPoint) ∧
          ∀ h ∈ robotWithBomb.handsMap.otherHands, getHandCount h ≤ getHandCount c) ∧
    (((robotWithBomb.findMostCardsHandNotBomb {}).type.isBomb = true →
        robotWithBomb.handsMap.otherHands = []) ∧
        (robotWithBomb.handsMap.otherHands ≠ [] →
          robotWithBomb.findMostCardsHandNotBomb {} ∈ robotWithBomb.handsMap.otherFronts ∧
          ∀ h ∈ robotWithBomb.handsMap.otherFronts,
            getHandCount h ≤ getHandCount (robotWithBomb.findMostCardsHandNotBomb {})) ↔
      robotWithBomb.handsMap.otherHands = [] ∨
        ∀ b, (robotWithBomb.handsMap.vec .bomb).head? = some b →
          ∃ h ∈ robotWithBomb.handsMap.otherFronts, getHandCount b < getHandCount h ∨
            getHandCount h = getHandCount b ∧ h.keyPoint ≤ b.keyPoint) :=
  most_cards_iff robotWithBomb robotWithBomb_bombsApart {}

/-- The first search returns the three although the pair has more cards, the
second one returns the bomb. -/
theorem robotWithBomb_most_cards :
    (⟨.pair, 2, 0, []⟩ ∈ robotWithBomb.handsMap.otherHands ∧
      findMostCardsHand robotWithBomb.handsMap {} = ⟨.solo, 0, 0, []⟩ ∧
      getHandCount ⟨.solo, 0, 0, []⟩ < getHandCount ⟨.pair, 2, 0, []⟩) ∧
    (robotWithBomb.findMostCardsHandNotBomb {}).type = .bomb ∧
      robotWithBomb.handsMap.otherHands ≠ [] := by
  refine ⟨⟨?_, ?_, ?_⟩, ?_, ?_⟩
  · decide +kernel
  · decide +kernel
  · decide
  · decide +kernel
  · decide +kernel

end RobotDdz
