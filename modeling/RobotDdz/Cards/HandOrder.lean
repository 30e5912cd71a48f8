import RobotDdz.Cards.Hand

/-!
# Hands compared

`isHandHigherThan` asks for the rocket, then for bombs, then for two hands of
one type. `isHandHigherThan_iff` says it in one formula; that it is a strict
order with the bombs and the rocket on top (`isHandHigherThan_order`) is read
off the formula.

The source returns from a cascade of tests: a rocket beats everything, nothing
beats a rocket, a bomb beats what is none, and two hands of one type are
compared by key, chains of one length only. The formula has the same cases as a
disjunction, so that transitivity is a case analysis over two of them and
irreflexivity one over one.

`NOTHING` is a type like any other here: two hands of it are compared by their
keys, and every bomb is higher.
-/

namespace RobotDdz

/-- A bomb or the rocket. -/
def HandType.isBomb (t : HandType) : Bool := t == .bomb || t == .nuke

theorem HandType.isBomb_iff {t : HandType} : t.isBomb = true ↔ t = .bomb ∨ t = .nuke := by
  rw [HandType.isBomb, Bool.or_eq_true, beq_iff_eq, beq_iff_eq]

/-- Two hands that are compared by their keys: of one type and, for chains, of
one length. -/
structure Hand.SameKind (a b : Hand) : Prop where
  type : a.type = b.type
  len : isChain a.type = true → a.len = b.len

theorem Hand.SameKind.trans {a b c : Hand} (h : a.SameKind b) (h' : b.SameKind c) :
    a.SameKind c := by
  refine ⟨h.type.trans h'.type, fun hc => (h.len hc).trans (h'.len ?_)⟩
  rw [← h.type]
  exact hc

theorem Hand.SameKind.symm {a b : Hand} (h : a.SameKind b) : b.SameKind a := by
  refine ⟨h.type.symm, fun hc => (h.len ?_).symm⟩
  rw [h.type]
  exact hc

/-- The rocket beats all but itself, a bomb all but higher bombs and the
rocket, and any other hand the lower ones of its kind. -/
theorem isHandHigherThan_iff (a b : Hand) : isHandHigherThan a b = true ↔
    b.type ≠ .nuke ∧ (a.type = .nuke ∨ a.type = .bomb ∧ b.type ≠ .bomb ∨
      a.SameKind b ∧ b.keyPoint < a.keyPoint) := by
  unfold isHandHigherThan
  by_cases hn : b.type = .nuke
  · rw [if_pos hn]
    exact ⟨fun h => Bool.noConfusion h, fun h => absurd hn h.1⟩
  rw [if_neg hn]
  by_cases hb : b.type = .bomb
  · rw [if_pos hb, Bool.or_eq_true, Bool.and_eq_true, decide_eq_true_iff, decide_eq_true_iff,
      decide_eq_true_iff]
    constructor
    · intro h
      rcases h with h | ⟨h, hk⟩
      · exact ⟨hn, Or.inl h⟩
      · refine ⟨hn, Or.inr (Or.inr ⟨⟨h.trans hb.symm, fun hc => ?_⟩, hk⟩)⟩
        rw [h] at hc
        exact Bool.noConfusion hc
    · intro h
      rcases h.2 with h | ⟨-, h⟩ | ⟨h, hk⟩
      · exact Or.inl h
      · exact absurd hb h
      · exact Or.inr ⟨h.type.trans hb, hk⟩
  rw [if_neg hb]
  by_cases ha : a.type = .nuke ∨ a.type = .bomb
  · rw [if_pos (by simpa using ha)]
    refine ⟨fun _ => ⟨hn, ?_⟩, fun _ => rfl⟩
    rcases ha with h | h
    · exact Or.inl h
    · exact Or.inr (Or.inl ⟨h, hb⟩)
  · rw [if_neg (by simpa using ha)]
    rw [not_or] at ha
    by_cases hk : a.type = b.type ∧ b.keyPoint < a.keyPoint
    · rw [if_pos (by simpa using hk)]
      by_cases hc : isChain a.type = true
      · rw [if_pos hc, decide_eq_true_iff]
        refine ⟨fun h => ⟨hn, Or.inr (Or.inr ⟨⟨hk.1, fun _ => h⟩, hk.2⟩)⟩, fun h => ?_⟩
        rcases h.2 with h | ⟨h, -⟩ | ⟨h, -⟩
        · exact absurd h ha.1
        · exact absurd h ha.2
        · exact h.len hc
      · rw [if_neg hc]
        exact ⟨fun _ => ⟨hn, Or.inr (Or.inr ⟨⟨hk.1, fun h => absurd h hc⟩, hk.2⟩)⟩, fun _ => rfl⟩
    · rw [if_neg (by simpa using hk)]
      refine ⟨fun h => Bool.noConfusion h, fun h => ?_⟩
      rcases h.2 with h | ⟨h, -⟩ | ⟨h, hlt⟩
      · exact absurd h ha.1
      · exact absurd h ha.2
      · exact absurd ⟨h.type, hlt⟩ hk

theorem isHandHigherThan_irrefl (a : Hand) : isHandHigherThan a a = false := by
  rw [← Bool.not_eq_true, isHandHigherThan_iff]
  intro h
  obtain ⟨hn, h⟩ := h
  rcases h with h | ⟨h, hb⟩ | ⟨-, h⟩
  · exact hn h
  · exact hb h
  · exact absurd h (Nat.lt_irrefl _)

theorem isHandHigherThan_trans {a b c : Hand} (hab : isHandHigherThan a b = true)
    (hbc : isHandHigherThan b c = true) : isHandHigherThan a c = true := by
  rw [isHandHigherThan_iff] at hab hbc ⊢
  obtain ⟨hbn, hab⟩ := hab
  obtain ⟨hcn, hbc⟩ := hbc
  refine ⟨hcn, ?_⟩
  rcases hab with ha | ⟨ha, hb⟩ | ⟨hab, hlt⟩
  · exact Or.inl ha
  · -- `b` is neither a bomb nor the rocket, so `c` is of the same kind
    rcases hbc with h | ⟨h, -⟩ | ⟨hbc, -⟩
    · exact absurd h hbn
    · exact absurd h hb
    · exact Or.inr (Or.inl ⟨ha, hbc.type ▸ hb⟩)
  · rcases hbc with h | ⟨h, hc⟩ | ⟨hbc, hlt'⟩
    · exact absurd h hbn
    · exact Or.inr (Or.inl ⟨hab.type.trans h, hc⟩)
    · exact Or.inr (Or.inr ⟨hab.trans hbc, Nat.lt_trans hlt' hlt⟩)

/-- Without bombs only hands of one kind are compared. -/
theorem sameKind_of_higher {a b : Hand} (ha : a.type.isBomb = false)
    (h : isHandHigherThan a b = true) : a.SameKind b := by
  obtain ⟨-, h⟩ := (isHandHigherThan_iff a b).mp h
  have hno : ¬(a.type = .bomb ∨ a.type = .nuke) := by
    rw [← HandType.isBomb_iff, ha]
    exact Bool.false_ne_true
  rcases h with h | ⟨h, -⟩ | ⟨h, -⟩
  · exact absurd (Or.inr h) hno
  · exact absurd (Or.inl h) hno
  · exact h

/-- A strict order: the rocket above all, the bombs above the rest, and the
rest comparable within a kind. -/
theorem isHandHigherThan_order :
    (∀ a, isHandHigherThan a a = false) ∧
    (∀ a b c, isHandHigherThan a b = true → isHandHigherThan b c = true →
      isHandHigherThan a c = true) ∧
    (∀ a b : Hand, a.type = .nuke → b.type ≠ .nuke → isHandHigherThan a b = true) ∧
    (∀ a b : Hand, a.type = .bomb → b.type ≠ .bomb → b.type ≠ .nuke →
      isHandHigherThan a b = true) ∧
    (∀ a b : Hand, a.type.isBomb = false → b.type.isBomb = false →
      isHandHigherThan a b = true ∨ isHandHigherThan b a = true → a.SameKind b) := by
  refine ⟨isHandHigherThan_irrefl, fun a b c => isHandHigherThan_trans, fun a b ha hb => ?_,
    fun a b ha hb hn => ?_, fun a b ha hb h => ?_⟩
  · exact (isHandHigherThan_iff a b).mpr ⟨hb, Or.inl ha⟩
  · exact (isHandHigherThan_iff a b).mpr ⟨hn, Or.inr (Or.inl ⟨ha, hb⟩)⟩
  · rcases h with h | h
    · exact sameKind_of_higher ha h
    · exact (sameKind_of_higher hb h).symm

/-- A bomb of eights, a bomb of threes and a pair of aces. -/
theorem isHandHigherThan_order_bombs :
    isHandHigherThan { type := .bomb, keyPoint := card8 } { type := .pair, keyPoint := cardA }
      = true :=
  isHandHigherThan_order.2.1 _ { type := .bomb, keyPoint := card3 } _ (by decide) (by decide)

end RobotDdz
