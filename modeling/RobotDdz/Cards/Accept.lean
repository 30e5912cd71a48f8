import RobotDdz.Cards.GetHand
import Mathlib.Algebra.Order.Ring.Int

/-!
# What the recogniser accepts

`GetHand` shows that every well-formed hand is recognised. This module is the
other direction: what an accepted point array looks like.

`getHand_recognised` sums up the chain of conditions in one structure
(`Recognised`): one bucket is the body of the hand, one its kickers, the others
are empty. From it, `getHand_wellFormed`: an accepted hand has a legal key,
length and kickers, and its kickers fit in `CardPoint kicker[5]`.

The body is only a run of ranks where the source tests it. The trio chains
compare `back() - front()` with the size of the bucket; the pair and the solo
chain do not. `Recognised.exact_iff` is the resulting law: an accepted hand
stands for the accepted cards exactly when its body leaves no gap, and
`getHand_exact_iff` reads it back on the cards.

The proof follows the chain of conditions once, in `classify_recognised`, with
one case for each return; `recognised_single` and `recognised_chain` build
the structure for the two kinds of bodies. Everything after that reads fields of
`Recognised` and never the conditions.

Mirroring notes vs `AIUtils.cpp`:
- The trio chain test is `back() - front() == size() - 1`. The pair chain asks
  for three pairs or more and the solo chain for five solos or more, both up to
  the ace, and neither compares the ends.
- Two jokers among other cards are refused before the buckets are made, so both
  are never kickers.
- `len` of a chain is the size of its bucket and not the distance of its ends.
-/

namespace RobotDdz

/-! ## Increasing lists of ranks -/

theorem front_mem {l : List Nat} (hne : l ≠ []) : front l ∈ l := by
  cases l with
  | nil => exact absurd rfl hne
  | cons a l => exact List.mem_cons_self

theorem back_mem {l : List Nat} (hne : l ≠ []) : back l ∈ l := by
  rw [back, List.getLastD_eq_getLast?, List.getLast?_eq_some_getLast hne]
  exact List.getLast_mem hne

theorem front_le {l : List Nat} (hs : l.Pairwise (· < ·)) {r : Nat} (hr : r ∈ l) :
    front l ≤ r := by
  cases l with
  | nil => exact absurd hr List.not_mem_nil
  | cons a l =>
    show a ≤ r
    rcases List.mem_cons.mp hr with heq | hin
    · exact heq.ge
    · exact le_of_lt (List.rel_of_pairwise_cons hs hin)

theorem le_back {l : List Nat} (hs : l.Pairwise (· < ·)) {r : Nat} (hr : r ∈ l) :
    r ≤ back l := by
  induction l with
  | nil => exact absurd hr List.not_mem_nil
  | cons a l ih =>
    obtain ⟨ha, hs'⟩ := List.pairwise_cons.mp hs
    cases l with
    | nil => exact (List.mem_singleton.mp hr).le
    | cons b l =>
      show r ≤ back (b :: l)
      rcases List.mem_cons.mp hr with heq | hin
      · rw [heq]
        exact le_of_lt (ha _ (back_mem (List.cons_ne_nil b l)))
      · exact ih hs' hin

/-- An increasing list is a run of ranks if it misses none between two of its
own. -/
theorem eq_range'_of_no_gap {l : List Nat} (hs : l.Pairwise (· < ·)) (hne : l ≠ [])
    (hgap : ∀ a b c, a ∈ l → c ∈ l → a < b → b < c → b ∈ l) :
    l = List.range' (front l) l.length := by
  have hrun : l = List.range' (front l) (back l + 1 - front l) := by
    apply List.Pairwise.eq_of_mem_iff hs List.pairwise_lt_range'
    intro r
    have hfb := front_le hs (back_mem hne)
    rw [List.mem_range'_1]
    constructor
    · intro hr
      have := front_le hs hr
      have := le_back hs hr
      omega
    · intro hr
      by_cases hf : r = front l
      · rw [hf]; exact front_mem hne
      by_cases hb : r = back l
      · rw [hb]; exact back_mem hne
      exact hgap (front l) r (back l) (front_mem hne) (back_mem hne) (by omega) (by omega)
  have hlen : l.length = back l + 1 - front l := by
    conv_lhs => rw [hrun]
    exact List.length_range'
  rw [hlen]
  exact hrun

/-- The members of an increasing list lie between its ends. -/
theorem subset_span {l : List Nat} (hs : l.Pairwise (· < ·)) :
    l ⊆ List.range' (front l) (back l - front l + 1) := by
  intro r hr
  have := front_le hs hr
  have := le_back hs hr
  rw [List.mem_range'_1]
  omega

/-- The test of the trio chains: an increasing list is a run if its ends are as
far apart as its length says. -/
theorem eq_range'_of_span {l : List Nat} (hs : l.Pairwise (· < ·)) (hne : l ≠ [])
    (hspan : back l - front l = l.length - 1) : l = List.range' (front l) l.length := by
  have hpos := List.length_pos_of_ne_nil hne
  have hlen : back l - front l + 1 = l.length := by omega
  have hsub : l.Subperm (List.range' (front l) l.length) := by
    have h := subset_span hs
    rw [hlen] at h
    exact hs.nodup.subperm h
  have hperm := hsub.perm_of_length_le (by rw [List.length_range'])
  exact List.Pairwise.eq_of_mem_iff hs List.pairwise_lt_range' fun r => hperm.mem_iff

/-- The ends of an increasing list are at least its length apart. -/
theorem front_add_length_le {l : List Nat} (hs : l.Pairwise (· < ·)) (hne : l ≠ []) :
    front l + l.length ≤ back l + 1 := by
  have hfb := front_le hs (back_mem hne)
  have hsub : l.Subperm (List.range' (front l) (back l - front l + 1)) :=
    hs.nodup.subperm (subset_span hs)
  have hle := hsub.length_le
  rw [List.length_range'] at hle
  omega

theorem sortedCard_increasing (p : Points) (k : Int) :
    (sortedCard p k).Pairwise (· < ·) :=
  List.pairwise_lt_range.filter _

/-! ## What an accepted array looks like -/

/-- The bucket of the body of a hand. -/
abbrev Hand.bodyOf (h : Hand) (p : Points) : List Nat := sortedCard p h.type.mult

/-- The hand of a rocket. -/
def rocket : Hand := { type := .nuke, keyPoint := blackJoker }

/-- `p` is accepted as the hand `h`: one bucket holds the body, one the
kickers, the others are empty, and the body passes the tests of its type. -/
structure Recognised (p : Points) (h : Hand) : Prop where
  width : (h.bodyOf p).length = h.width
  key : front (h.bodyOf p) = h.keyPoint
  kickers : h.type.kickMult ≠ 0 → sortedCard p h.type.kickMult = h.kicker
  filled : h.kicker.length = h.kickerCount
  rest : ∀ k : Int, 0 < k → k ≤ 4 → k ≠ h.type.mult → k ≠ h.type.kickMult → sortedCard p k = []
  mult : 0 < h.type.mult
  top : isChain h.type = true → back (h.bodyOf p) ≤ cardA
  long : isChain h.type = true → 2 ≤ h.len
  pairs : h.type = .pairChain → 3 ≤ h.len
  solos : h.type = .soloChain → 5 ≤ h.len
  span : h.type ≠ .soloChain → h.type ≠ .pairChain →
    back (h.bodyOf p) - front (h.bodyOf p) = (h.bodyOf p).length - 1
  nuke : h.type = .nuke → h = rocket
  jokers : h.type ≠ .nuke → ¬(p blackJoker = 1 ∧ p redJoker = 1)

theorem rocket_shaped : rocket.Shaped :=
  ⟨rfl, rfl, List.Pairwise.nil, fun _ hk => absurd hk List.not_mem_nil,
    fun _ hk => absurd hk List.not_mem_nil, fun hk => absurd hk.1 List.not_mem_nil⟩

/-- Two cards that hold both jokers hold nothing else: the rocket's array is
below theirs and has the same total. -/
theorem eq_rocket {p : Points} (hp : LegalCounts p) (hj : p blackJoker = 1 ∧ p redJoker = 1)
    (ht : p.total = 2) : p = handToPointsArray rocket := by
  obtain ⟨hb, hr⟩ := hj
  have hle : ∀ r, r < cardPointNum → handToPointsArray rocket r ≤ p r := by
    intro r _
    show Function.update (Function.update Points.zero blackJoker 1) redJoker 1 r ≤ p r
    rw [Function.update_apply, Function.update_apply]
    split
    next h => rw [h, hr]
    next =>
      split
      next h => rw [h, hb]
      next => exact hp.nonneg r
  have htot : (handToPointsArray rocket).total = 2 := by decide
  have heq := Points.eq_of_total_le hle (by omega)
  funext r
  by_cases h16 : r < cardPointNum
  · exact (heq r h16).symm
  · have hout : ¬(rocket.keyPoint ≤ r ∧ r < rocket.keyPoint + rocket.width) := by
      simp only [cardPointNum] at h16
      simp only [rocket, Hand.width, blackJoker]
      omega
    rw [hp.top r (by simp only [redJoker, cardPointNum] at *; omega),
      handToPointsArray_apply rocket_shaped.placed, if_neg hout]
    exact (if_neg List.not_mem_nil).symm

theorem recognised_rocket : Recognised (handToPointsArray rocket) rocket := by
  have hb := fun {k : Int} (hk : 0 < k) => sortedCard_hand rocket_shaped hk
  refine ⟨?_, ?_, fun h => absurd rfl h, rfl, ?_, ?_, ?_, ?_, ?_, ?_, ?_,
    fun _ => rfl, fun h => absurd rfl h⟩
  · decide
  · decide
  · intro k hk _ hne hne'
    rw [hb hk, if_neg hne.symm, if_neg hne'.symm]
  · decide
  · decide
  · decide
  · decide
  · decide
  · decide

/-- The four buckets, one number at a time. -/
theorem rest_of_four {P : Int → Prop} (h1 : P 1) (h2 : P 2) (h3 : P 3) (h4 : P 4) :
    ∀ k : Int, 0 < k → k ≤ 4 → P k := by
  intro k hk hk4
  have hcases : k = 1 ∨ k = 2 ∨ k = 3 ∨ k = 4 := by omega
  rcases hcases with rfl | rfl | rfl | rfl
  · exact h1
  · exact h2
  · exact h3
  · exact h4

/-- A body of one rank, with what the types of one rank have in common: the
bucket has one rank, which is the key, and the kickers are another bucket. -/
theorem recognised_single {p : Points} {t : HandType} {kicker : List Nat}
    (hj : ¬(p blackJoker = 1 ∧ p redJoker = 1)) (hm : 0 < t.mult) (ht : isChain t = false)
    (hnuke : t ≠ .nuke) (hlen : (sortedCard p t.mult).length = 1)
    (hk : t.kickMult ≠ 0 → sortedCard p t.kickMult = kicker)
    (hfill : kicker.length = Hand.kickerCount { type := t })
    (hrest : ∀ k : Int, 0 < k → k ≤ 4 → k ≠ t.mult → k ≠ t.kickMult → sortedCard p k = []) :
    Recognised p { type := t, keyPoint := front (sortedCard p t.mult), kicker := kicker } := by
  have hwidth : ∀ key l, Hand.width { type := t, keyPoint := key, kicker := l } = 1 := by
    cases t <;> first
      | exact fun _ _ => rfl
      | exact Bool.noConfusion ht
      | exact absurd rfl hnuke
  have hcount : ∀ key l, Hand.kickerCount { type := t, keyPoint := key, kicker := l }
      = Hand.kickerCount { type := t } := by
    cases t <;> exact fun _ _ => rfl
  have hspan : back (sortedCard p t.mult) - front (sortedCard p t.mult)
      = (sortedCard p t.mult).length - 1 := by
    obtain ⟨a, ha⟩ := List.length_eq_one_iff.mp hlen
    rw [ha]
    exact Nat.sub_self a
  have hno : isChain t ≠ true := ne_true_of_eq_false ht
  exact ⟨hlen.trans (hwidth ..).symm, rfl, hk, hfill.trans (hcount ..).symm, hrest, hm,
    fun h => absurd h hno, fun h => absurd h hno, fun h => absurd (congrArg isChain h) hno,
    fun h => absurd (congrArg isChain h) hno, fun _ _ => hspan, fun h => absurd h hnuke,
    fun _ => hj⟩

/-- A chain, with what the types of chains have in common: the bucket is the
body, its first rank the key and its size the length; that it is a run is asked
of the trio chains only. -/
theorem recognised_chain {p : Points} {t : HandType} {kicker : List Nat}
    (hj : ¬(p blackJoker = 1 ∧ p redJoker = 1)) (ht : isChain t = true)
    (htop : back (sortedCard p t.mult) ≤ cardA) (hlong : 2 ≤ (sortedCard p t.mult).length)
    (hpairs : t = .pairChain → 3 ≤ (sortedCard p t.mult).length)
    (hsolos : t = .soloChain → 5 ≤ (sortedCard p t.mult).length)
    (hspan : t ≠ .soloChain → t ≠ .pairChain →
      back (sortedCard p t.mult) - front (sortedCard p t.mult) = (sortedCard p t.mult).length - 1)
    (hk : t.kickMult ≠ 0 → sortedCard p t.kickMult = kicker)
    (hfill : kicker.length = if t.kickMult = 0 then 0 else (sortedCard p t.mult).length)
    (hrest : ∀ k : Int, 0 < k → k ≤ 4 → k ≠ t.mult → k ≠ t.kickMult → sortedCard p k = []) :
    Recognised p { type := t, keyPoint := front (sortedCard p t.mult)
                   len := (sortedCard p t.mult).length, kicker := kicker } := by
  have hchain : 0 < t.mult ∧ t ≠ .nuke ∧
      (∀ key n l, Hand.width { type := t, keyPoint := key, len := n, kicker := l } = n) ∧
      ∀ key n l, Hand.kickerCount { type := t, keyPoint := key, len := n, kicker := l }
        = if t.kickMult = 0 then 0 else n := by
    cases t <;> first
      | exact Bool.noConfusion ht
      | exact ⟨by decide, nofun, fun _ _ _ => rfl, fun _ _ _ => rfl⟩
  obtain ⟨hm, hnuke, hwidth, hcount⟩ := hchain
  exact ⟨(hwidth ..).symm, rfl, hk, hfill.trans (hcount ..).symm, hrest, hm, fun _ => htop,
    fun _ => hlong, hpairs, hsolos, hspan, fun h => absurd h hnuke, fun _ => hj⟩

/-- The chain of conditions reports a hand that describes the buckets. There is
one case for each hand the conditions end in, in the order they are asked, and
each gives the fields of `Recognised` from what has been tested on the way. -/
theorem classify_recognised {p : Points} (hj : ¬(p blackJoker = 1 ∧ p redJoker = 1)) :
    (classify (sortedCard p 1) (sortedCard p 2) (sortedCard p 3) (sortedCard p 4)).type ≠ .nothing →
    Recognised p
      (classify (sortedCard p 1) (sortedCard p 2) (sortedCard p 3) (sortedCard p 4)) := by
  have hnil : ∀ {k : Int} {a b : Prop}, (sortedCard p k).length = 0 →
      a → b → sortedCard p k = [] := fun h _ _ => List.length_eq_zero_iff.mp h
  have hmult : ∀ {k : Int} {b : Prop}, k ≠ k → b → sortedCard p k = [] := fun h _ => absurd rfl h
  have hkick : ∀ {k : Int} {a : Prop}, a → k ≠ k → sortedCard p k = [] := fun _ h => absurd rfl h
  have hno : ∀ h : ({} : Hand).type ≠ .nothing, Recognised p {} := fun h => absurd rfl h
  -- one case for each hand the conditions end in, in the order they are asked
  unfold classify
  split
  next h4 =>
    split
    next h3 =>
      -- a run of trios: bare, with as many solos, or with as many pairs
      obtain ⟨hlong, htop, hspan⟩ := h3
      split
      next h =>
        exact fun _ => recognised_chain (t := .trioChain) hj rfl htop hlong nofun nofun
          (fun _ _ => hspan) (fun h => absurd rfl h) rfl
          (rest_of_four (hnil h.1) (hnil h.2) hmult (hnil h4))
      next =>
        split
        next h =>
          exact fun _ => recognised_chain (t := .trioChainSolo) hj rfl htop hlong nofun nofun
            (fun _ _ => hspan) (fun _ => rfl) h.1 (rest_of_four hkick (hnil h.2) hmult (hnil h4))
        next =>
          split
          next h =>
            exact fun _ => recognised_chain (t := .trioChainPair) hj rfl htop hlong nofun nofun
              (fun _ _ => hspan) (fun _ => rfl) h.1 (rest_of_four (hnil h.2) hkick hmult (hnil h4))
          next => exact hno
    next =>
      split
      next h =>
        obtain ⟨h3, h1, hlong, htop⟩ := h
        exact fun _ => recognised_chain (t := .pairChain) hj rfl htop (Nat.le_of_succ_le hlong)
          (fun _ => hlong) nofun (fun _ h => absurd rfl h) (fun h => absurd rfl h) rfl
          (rest_of_four (hnil h1) hmult (hnil h3) (hnil h4))
      next =>
        split
        next h =>
          obtain ⟨h3, h2, hlong, htop⟩ := h
          exact fun _ => recognised_chain (t := .soloChain) hj rfl htop
            (le_trans (Nat.le_add_left 2 3) hlong) nofun (fun _ => hlong)
            (fun h => absurd rfl h) (fun h => absurd rfl h) rfl
            (rest_of_four hmult (hnil h2) (hnil h3) (hnil h4))
        next =>
          -- one rank: a trio with what is left over, a pair or a solo
          split
          next h3 =>
            split
            next h =>
              exact fun _ => recognised_single (t := .trio) hj (by decide) rfl nofun h3
                (fun h => absurd rfl h) rfl (rest_of_four (hnil h.2) (hnil h.1) hmult (hnil h4))
            next =>
              split
              next h =>
                exact fun _ => recognised_single (t := .trioPair) hj (by decide) rfl nofun h3
                  (fun _ => rfl) h.1 (rest_of_four (hnil h.2) hkick hmult (hnil h4))
              next =>
                split
                next h =>
                  exact fun _ => recognised_single (t := .trioSolo) hj (by decide) rfl nofun h3
                    (fun _ => rfl) h.2 (rest_of_four hkick (hnil h.1) hmult (hnil h4))
                next => exact hno
          next =>
            split
            next h =>
              exact fun _ => recognised_single (t := .pair) hj (by decide) rfl nofun h.2.1
                (fun h => absurd rfl h) rfl (rest_of_four (hnil h.2.2) hmult (hnil h.1) (hnil h4))
            next =>
              split
              next h =>
                exact fun _ => recognised_single (t := .solo) hj (by decide) rfl nofun h.2.2
                  (fun h => absurd rfl h) rfl (rest_of_four hmult (hnil h.2.1) (hnil h.1) (hnil h4))
              next => exact hno
  next =>
    -- ranks held four times: only one of them makes a hand
    split
    next h4 =>
      split
      next h =>
        exact fun _ => recognised_single (t := .bomb) hj (by decide) rfl nofun h4
          (fun h => absurd rfl h) rfl (rest_of_four (hnil h.2.2) (hnil h.2.1) (hnil h.1) hmult)
      next =>
        split
        next h =>
          exact fun _ => recognised_single (t := .fourDualPair) hj (by decide) rfl nofun h4
            (fun _ => rfl) h.2.1 (rest_of_four (hnil h.2.2) hkick (hnil h.1) hmult)
        next =>
          split
          next h =>
            exact fun _ => recognised_single (t := .fourDualSolo) hj (by decide) rfl nofun h4
              (fun _ => rfl) h.2.2 (rest_of_four hkick (hnil h.2.1) (hnil h.1) hmult)
          next => exact hno
    next => exact hno

/-- The hand `getHand` reports describes the buckets it was read from. -/
theorem getHand_recognised {p : Points} (hp : LegalCounts p) (hn : (getHand p).type ≠ .nothing) :
    Recognised p (getHand p) := by
  unfold getHand at hn ⊢
  split at hn
  next hj =>
    rw [if_pos hj]
    split at hn
    next ht =>
      rw [if_pos ht]
      rw [eq_rocket hp hj ht]
      exact recognised_rocket
    next => exact absurd rfl hn
  next hj =>
    rw [if_neg hj]
    exact classify_recognised hj hn

namespace Recognised

variable {p : Points} {h : Hand}

theorem width_pos (hr : Recognised p h) : 0 < h.width := by
  have hm := hr.mult
  have hl := hr.long
  cases ht : h.type <;> simp only [ht, HandType.mult, isChain, Hand.width] at hm hl ⊢ <;>
    first | omega | (specialize hl rfl; omega)

theorem body_ne_nil (hr : Recognised p h) : h.bodyOf p ≠ [] := by
  have hw := hr.width_pos
  rw [← hr.width] at hw
  exact List.ne_nil_of_length_pos hw

/-- The kicker slots in use are the bucket of the kickers. -/
theorem kickers_eq (hr : Recognised p h) : h.kickers = h.kicker := by
  rw [Hand.kickers, ← hr.filled]
  exact List.take_length

theorem mem_kickers (hr : Recognised p h) {r : Nat} (hk : r ∈ h.kickers) :
    r ≤ redJoker ∧ p r = h.type.kickMult ∧ h.type.kickMult ≠ 0 := by
  have hne : h.type.kickMult ≠ 0 := by
    intro h0
    rw [kickers_of_kickMult_zero h0] at hk
    exact absurd hk List.not_mem_nil
  rw [hr.kickers_eq, ← hr.kickers hne, mem_sortedCard] at hk
  exact ⟨hk.1, hk.2, hne⟩

/-- Outside the pair and the solo chain the tests force a run. -/
theorem body_eq_run (hr : Recognised p h) (hs : h.type ≠ .soloChain) (hp : h.type ≠ .pairChain) :
    h.bodyOf p = h.run := by
  have hrun := eq_range'_of_span (sortedCard_increasing p _) hr.body_ne_nil (hr.span hs hp)
  rw [hr.width, hr.key] at hrun
  exact hrun

/-- The chains end at the ace or below. -/
theorem chain_top (hr : Recognised p h) (hc : isChain h.type = true) :
    h.keyPoint + h.width ≤ cardA + 1 := by
  have hle := front_add_length_le (sortedCard_increasing p _) hr.body_ne_nil
  rw [hr.width, hr.key] at hle
  have htop : back (sortedCard p h.type.mult) ≤ cardA := hr.top hc
  omega

theorem key_mem (hr : Recognised p h) : h.keyPoint ≤ redJoker ∧ p h.keyPoint = h.type.mult := by
  have hm := front_mem hr.body_ne_nil
  rw [hr.key] at hm
  exact mem_sortedCard.mp hm

/-- A rank held twice or more is no joker. -/
theorem key_le_card2 (hr : Recognised p h) (hp : LegalCounts p) (hm : 2 ≤ h.type.mult) :
    h.keyPoint ≤ card2 := by
  obtain ⟨hle, hkey⟩ := hr.key_mem
  have hjoker := hp.joker h.keyPoint
  simp only [blackJoker, redJoker, card2] at hjoker hle ⊢
  omega

/-- The key and the length of an accepted hand are legal. -/
theorem bodyOk (hr : Recognised p h) (hp : LegalCounts p) : h.type.BodyOk h.keyPoint h.len := by
  have hm := hr.mult
  have hlong := hr.long
  have hpairs := hr.pairs
  have hsolos := hr.solos
  have htop := hr.chain_top
  have hlow := hr.key_le_card2 hp
  have hle := hr.key_mem.1
  have hnuke := hr.nuke
  cases ht : h.type <;>
    simp only [ht, HandType.mult, HandType.BodyOk, isChain, Hand.width] at *
  case nothing | lzBomb | lz => omega
  case solo | trioSolo | trioPair | fourDualSolo | fourDualPair => exact hle
  case pair | trio | bomb => exact hlow (by decide)
  case nuke => rw [hnuke trivial]; rfl
  case soloChain => exact ⟨hsolos trivial, htop rfl⟩
  case pairChain => exact ⟨hpairs trivial, htop rfl⟩
  case trioChain | trioChainSolo | trioChainPair => exact ⟨hlong rfl, htop rfl⟩

/-- The kickers of an accepted hand lie outside its body. -/
theorem outside (hr : Recognised p h) :
    ∀ k ∈ h.kickers, k < h.keyPoint ∨ h.keyPoint + h.width ≤ k := by
  intro k hk
  obtain ⟨_, hpk, hne⟩ := hr.mem_kickers hk
  have hlt := kickMult_lt h.type hne
  have hrun : h.bodyOf p = h.run := by
    apply hr.body_eq_run
    · intro ht; exact hne (by rw [ht]; rfl)
    · intro ht; exact hne (by rw [ht]; rfl)
  -- a kicker inside the run would be held as often as the body
  by_contra hin
  have hmem : k ∈ h.run := by
    rw [Hand.run, List.mem_range'_1]
    omega
  rw [← hrun, mem_sortedCard] at hmem
  omega

/-- Both jokers are never kickers: that hand is taken for a bad rocket. -/
theorem not_both_kickers (hr : Recognised p h) (hp : LegalCounts p) :
    ¬(blackJoker ∈ h.kickers ∧ redJoker ∈ h.kickers) := by
  intro hboth
  obtain ⟨_, hb, hne⟩ := hr.mem_kickers hboth.1
  obtain ⟨_, hr', _⟩ := hr.mem_kickers hboth.2
  have hjoker := hp.joker blackJoker (Or.inl rfl)
  have hnn : h.type.kickMult = 1 := by
    have hpos : 0 ≤ h.type.kickMult := by cases h.type <;> decide
    omega
  apply hr.jokers
  · intro ht
    rw [ht] at hne
    exact hne rfl
  · rw [hb, hr', hnn]
    exact ⟨rfl, rfl⟩

theorem shaped (hr : Recognised p h) (hp : LegalCounts p) : h.Shaped where
  body := hr.bodyOk hp
  filled := by rw [hr.kickers_eq]; exact hr.filled
  increasing := by
    by_cases hk : h.type.kickMult = 0
    · rw [kickers_of_kickMult_zero hk]; exact List.Pairwise.nil
    · rw [hr.kickers_eq, ← hr.kickers hk]; exact sortedCard_increasing p _
  outside := hr.outside
  kickerTop := fun k hk => (hr.mem_kickers hk).1
  jokers := hr.not_both_kickers hp

/-- An accepted hand stands for the accepted cards exactly when its body is a
run. -/
theorem exact_iff (hr : Recognised p h) (hp : LegalCounts p) :
    handToPointsArray h = p ↔ h.bodyOf p = h.run := by
  have hs := hr.shaped hp
  constructor
  · intro he
    show sortedCard p h.type.mult = h.run
    conv_lhs => rw [← he]
    rw [sortedCard_hand hs hr.mult, if_pos rfl]
  · intro hrun
    funext r
    rw [handToPointsArray_apply hs.placed]
    have hbody : (h.keyPoint ≤ r ∧ r < h.keyPoint + h.width)
        ↔ r ≤ redJoker ∧ p r = h.type.mult := by
      rw [← List.mem_range'_1, ← mem_sortedCard]
      show r ∈ h.run ↔ r ∈ h.bodyOf p
      rw [hrun]
    by_cases hin : h.keyPoint ≤ r ∧ r < h.keyPoint + h.width
    · rw [if_pos hin]
      exact (hbody.mp hin).2.symm
    · rw [if_neg hin]
      split
      next hk => exact (hr.mem_kickers hk).2.1.symm
      next hk =>
        -- any other count would fill a bucket that the tests found empty
        by_contra hne
        have hnn := hp.nonneg r
        have hle : r ≤ redJoker := by
          by_contra hgt
          exact hne (hp.top r (by omega)).symm
        have hmem : r ∈ sortedCard p (p r) := mem_sortedCard.mpr ⟨hle, rfl⟩
        have hnm : p r ≠ h.type.mult := fun he => hin (hbody.mpr ⟨hle, he⟩)
        have hnk : p r ≠ h.type.kickMult := by
          intro he
          apply hk
          rw [hr.kickers_eq, ← hr.kickers (by omega), ← he]
          exact hmem
        rw [hr.rest (p r) (by omega) (hp.four r) hnm hnk] at hmem
        exact List.not_mem_nil hmem

end Recognised

/-- An accepted play of at most twenty cards is a well-formed hand; its kickers
fit in `CardPoint kicker[5]`. -/
theorem getHand_wellFormed {p : Points} (hp : LegalCounts p) (ht : p.total ≤ 20)
    (hn : (getHand p).type ≠ .nothing) : (getHand p).WellFormed := by
  have hr := getHand_recognised hp hn
  have hs := hr.shaped hp
  refine ⟨hs, ?_⟩
  by_contra hcap
  -- the chains without kickers are the ones that need not stand for the cards
  have hplain : ∀ t, t = .soloChain ∨ t = .pairChain → (getHand p).type ≠ t := by
    rintro t ht rfl
    rcases ht with ht | ht <;> simp [Hand.kickerCount, ht] at hcap
  have hexact : handToPointsArray (getHand p) = p := by
    apply (hr.exact_iff hp).mpr
    exact hr.body_eq_run (hplain _ (Or.inl rfl)) (hplain _ (Or.inr rfl))
  rcases hs.kickers_le_total with hfew | ⟨hcards, -⟩
  · omega
  · rw [hexact] at hcards
    omega

/-! ## Chains with a gap -/

/-- Nothing but `k` copies each of some ranks up to the ace, at least `n` of
them and with a rank missing in between: what the pair and the solo chain test
lets through. -/
def Gapped (p : Points) (k : Int) (n : Nat) : Prop :=
  (∀ r ≤ redJoker, p r ≠ 0 → p r = k ∧ r ≤ cardA) ∧ k * n ≤ p.total ∧
    ∃ c ≤ cardA, ∃ b < c, ∃ a < b, p a = k ∧ p b = 0 ∧ p c = k

instance (p : Points) (k : Int) (n : Nat) : Decidable (Gapped p k n) :=
  inferInstanceAs (Decidable (_ ∧ _ ∧ _))

/-- The total of an array that holds every rank `k` times or not at all. -/
theorem total_uniform {p : Points} (hp : LegalCounts p) {k : Int}
    (hu : ∀ r ≤ redJoker, p r ≠ 0 → p r = k) (hk : k ≠ 0) :
    p.total = k * (sortedCard p k).length := by
  have heq : p = fun r => if r ∈ sortedCard p k then k else 0 := by
    funext r
    simp only [mem_sortedCard]
    by_cases hr : r ≤ redJoker
    · by_cases h0 : p r = 0
      · rw [if_neg (by omega), h0]
      · rw [if_pos ⟨hr, hu r hr h0⟩, hu r hr h0]
    · rw [if_neg (by omega), hp.top r (by omega)]
  have hlt : ∀ r ∈ sortedCard p k, r < cardPointNum := by
    intro r hr
    have := (mem_sortedCard.mp hr).1
    simp only [redJoker, cardPointNum] at this ⊢
    omega
  conv_lhs => rw [heq]
  exact total_members (sortedCard_increasing p k).nodup hlt k

/-- A gapped array fills one bucket only. -/
theorem Gapped.sortedCard_ne {p : Points} {k : Int} {n : Nat} (hg : Gapped p k n) {j : Int}
    (hj : 0 < j) (hne : j ≠ k) : sortedCard p j = [] := by
  rw [List.eq_nil_iff_forall_not_mem]
  intro r hr
  obtain ⟨hle, hpr⟩ := mem_sortedCard.mp hr
  have := (hg.1 r hle (by omega)).1
  omega

theorem Gapped.bucket {p : Points} (hp : LegalCounts p) {k : Int} {n : Nat} (hk : 0 < k)
    (hn : 0 < n) (hg : Gapped p k n) :
    n ≤ (sortedCard p k).length ∧ back (sortedCard p k) ≤ cardA ∧
      sortedCard p k ≠ List.range' (front (sortedCard p k)) (sortedCard p k).length := by
  obtain ⟨hu, htot, c, hc, b, hb, a, ha, hpa, hpb, hpc⟩ := hg
  rw [total_uniform hp (fun r hr h0 => (hu r hr h0).1) (by omega)] at htot
  have hlen : n ≤ (sortedCard p k).length := by
    have := le_of_mul_le_mul_left htot hk
    omega
  have hne : sortedCard p k ≠ [] := List.ne_nil_of_length_pos (by omega)
  refine ⟨hlen, ?_, ?_⟩
  · obtain ⟨hle, hback⟩ := mem_sortedCard.mp (back_mem hne)
    exact (hu _ hle (by omega)).2
  · -- the missing rank lies between two members, so it is in the run
    intro hrun
    simp only [cardA] at hc
    have hma : a ∈ sortedCard p k := mem_sortedCard.mpr ⟨by simp only [redJoker]; omega, hpa⟩
    have hmc : c ∈ sortedCard p k := mem_sortedCard.mpr ⟨by simp only [redJoker]; omega, hpc⟩
    have hmb : b ∈ sortedCard p k := by
      rw [hrun, List.mem_range'_1] at hma hmc ⊢
      omega
    have := (mem_sortedCard.mp hmb).2
    omega

/-- No gap, no miss: the bucket of an ungapped pair or solo chain is a run. A
rank missing between two of its ranks would be the gap. -/
theorem Recognised.run_of_not_gapped {p : Points} {h : Hand} (hr : Recognised p h)
    (hp : LegalCounts p) (hc : isChain h.type = true) (hk : h.type.kickMult = 0) {n : Nat}
    (hn : n ≤ h.width) (hg : ¬Gapped p h.type.mult n) : h.bodyOf p = h.run := by
  have hrun : h.bodyOf p = List.range' (front (h.bodyOf p)) (h.bodyOf p).length := by
    apply eq_range'_of_no_gap (sortedCard_increasing p _) hr.body_ne_nil
    intro a b c ha hcm hab hbc
    by_contra hb
    apply hg
    have hm := hr.mult
    have hu : ∀ r ≤ redJoker, p r ≠ 0 → p r = h.type.mult := by
      intro r hle h0
      by_contra hne
      have hnn := hp.nonneg r
      have hmem : r ∈ sortedCard p (p r) := mem_sortedCard.mpr ⟨hle, rfl⟩
      rw [hr.rest (p r) (by omega) (hp.four r) hne (by omega)] at hmem
      exact List.not_mem_nil hmem
    have htop : ∀ r ∈ h.bodyOf p, r ≤ cardA := fun r hr' =>
      le_trans (le_back (sortedCard_increasing p _) hr') (hr.top hc)
    obtain ⟨_, hpa⟩ := mem_sortedCard.mp ha
    obtain ⟨hcle, hpc⟩ := mem_sortedCard.mp hcm
    have hpb : p b = 0 := by
      by_contra h0
      exact hb (mem_sortedCard.mpr ⟨by omega, hu b (by omega) h0⟩)
    refine ⟨fun r hle h0 => ⟨hu r hle h0, htop r (mem_sortedCard.mpr ⟨hle, hu r hle h0⟩)⟩, ?_,
      c, htop c hcm, b, hbc, a, hab, hpa, hpb, hpc⟩
    rw [total_uniform hp hu (by omega)]
    have hw : n ≤ (sortedCard p h.type.mult).length := by
      have := hr.width
      simp only [Hand.bodyOf] at this
      omega
    exact mul_le_mul_of_nonneg_left (by exact_mod_cast hw) (by omega)
  rw [hr.width, hr.key] at hrun
  exact hrun

/-- An accepted hand that stands for its cards leaves no gap. -/
theorem Recognised.not_gapped {p : Points} {h : Hand} (hr : Recognised p h) (hp : LegalCounts p)
    (he : handToPointsArray h = p) {n : Nat} (hn : 0 < n) : ¬Gapped p h.type.mult n := by
  intro hg
  apply (hg.bucket hp hr.mult hn).2.2
  have hrun := (hr.exact_iff hp).mp he
  rw [Hand.run, ← hr.width, ← hr.key] at hrun
  exact hrun

/-- A gapped array is no rocket. -/
theorem Gapped.not_both_jokers {p : Points} {k : Int} {n : Nat} (hg : Gapped p k n) :
    ¬(p blackJoker = 1 ∧ p redJoker = 1) := by
  intro hboth
  have htop := (hg.1 blackJoker (by decide) (by rw [hboth.1]; decide)).2
  exact absurd htop (by decide)

/-- Gapped solos are taken for a solo chain. -/
theorem getHand_gapped_solos {p : Points} (hp : LegalCounts p) (hg : Gapped p 1 5) :
    (getHand p).type = .soloChain := by
  obtain ⟨hlen, hback, _⟩ := hg.bucket hp (by decide) (by decide)
  have h2 : sortedCard p 2 = [] := hg.sortedCard_ne (by decide) (by decide)
  have h3 : sortedCard p 3 = [] := hg.sortedCard_ne (by decide) (by decide)
  have h4 : sortedCard p 4 = [] := hg.sortedCard_ne (by decide) (by decide)
  rw [getHand, if_neg hg.not_both_jokers, classify, h2, h3, h4]
  simp [hlen, hback]

/-- Gapped pairs are taken for a pair chain. -/
theorem getHand_gapped_pairs {p : Points} (hp : LegalCounts p) (hg : Gapped p 2 3) :
    (getHand p).type = .pairChain := by
  obtain ⟨hlen, hback, _⟩ := hg.bucket hp (by decide) (by decide)
  have h1 : sortedCard p 1 = [] := hg.sortedCard_ne (by decide) (by decide)
  have h3 : sortedCard p 3 = [] := hg.sortedCard_ne (by decide) (by decide)
  have h4 : sortedCard p 4 = [] := hg.sortedCard_ne (by decide) (by decide)
  rw [getHand, if_neg hg.not_both_jokers, classify, h1, h3, h4]
  simp [hlen, hback]

/-- The recogniser is exact but for chains of solos or pairs with a gap: an
accepted hand stands for the accepted cards if and only if they are neither. -/
theorem getHand_exact_iff (p : Points) (hp : LegalCounts p) :
    ((getHand p).type ≠ .nothing → handToPointsArray (getHand p) = p)
      ↔ ¬Gapped p 1 5 ∧ ¬Gapped p 2 3 := by
  constructor
  · intro hexact
    constructor
    · intro hg
      have ht := getHand_gapped_solos hp hg
      have hn : (getHand p).type ≠ .nothing := by rw [ht]; decide
      have hno : ¬Gapped p (getHand p).type.mult 5 :=
        (getHand_recognised hp hn).not_gapped hp (hexact hn) (by decide)
      rw [ht] at hno
      exact hno hg
    · intro hg
      have ht := getHand_gapped_pairs hp hg
      have hn : (getHand p).type ≠ .nothing := by rw [ht]; decide
      have hno : ¬Gapped p (getHand p).type.mult 3 :=
        (getHand_recognised hp hn).not_gapped hp (hexact hn) (by decide)
      rw [ht] at hno
      exact hno hg
  · intro hg hn
    obtain ⟨hsolo, hpair⟩ := hg
    have hr := getHand_recognised hp hn
    apply (hr.exact_iff hp).mpr
    by_cases hs : (getHand p).type = .soloChain
    · have hw : 5 ≤ (getHand p).width := by
        have := hr.solos hs
        simpa [Hand.width, hs] using this
      exact hr.run_of_not_gapped hp (by rw [hs]; rfl) (by rw [hs]; rfl) hw (by rw [hs]; exact hsolo)
    by_cases hpc : (getHand p).type = .pairChain
    · have hw : 3 ≤ (getHand p).width := by
        have := hr.pairs hpc
        simpa [Hand.width, hpc] using this
      exact hr.run_of_not_gapped hp (by rw [hpc]; rfl) (by rw [hpc]; rfl) hw
        (by rw [hpc]; exact hpair)
    exact hr.body_eq_run hs hpc

/-- The cards 3, 4, 5, 6 and 8. -/
theorem legalCounts_gap : LegalCounts (cardVecToPointArr [0, 1, 2, 3, 5]) :=
  legalCounts_of_nodup (by decide) (by decide)

theorem getHand_exact_iff_at_gap :
    ((getHand (cardVecToPointArr [0, 1, 2, 3, 5])).type ≠ .nothing →
        handToPointsArray (getHand (cardVecToPointArr [0, 1, 2, 3, 5]))
          = cardVecToPointArr [0, 1, 2, 3, 5])
      ↔ ¬Gapped (cardVecToPointArr [0, 1, 2, 3, 5]) 1 5
        ∧ ¬Gapped (cardVecToPointArr [0, 1, 2, 3, 5]) 2 3 :=
  getHand_exact_iff _ legalCounts_gap

/-- 3, 4, 5, 6, 8 is accepted as the solo chain 3 to 7. -/
theorem getHand_accepts_gap :
    LegalCounts (cardVecToPointArr [0, 1, 2, 3, 5])
      ∧ getHand (cardVecToPointArr [0, 1, 2, 3, 5])
        = { type := .soloChain, keyPoint := card3, len := 5 }
      ∧ handToPointsArray (getHand (cardVecToPointArr [0, 1, 2, 3, 5]))
        ≠ cardVecToPointArr [0, 1, 2, 3, 5] :=
  ⟨legalCounts_gap, by decide, fun h => absurd (congrFun h 4) (by decide)⟩

end RobotDdz
