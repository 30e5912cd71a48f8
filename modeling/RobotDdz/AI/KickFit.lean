import RobotDdz.AI.Search
import RobotDdz.Cards.Accept
import RobotDdz.Split.Kicking
import Mathlib.Algebra.Order.Ring.Int

/-!
# Typed maps and kicked bodies

`HandsMap.Typed` says that every hand sits in the vector of its own type.

`kicked_account_iff` is the account of one trio or trio chain that gets
kickers, whatever these are: `handToPointsArray` writes a kicker's rank rather
than adding to it, so a kicker that repeats or lies on the body costs cards.
`readsBack_iff_fit` is what that means for `getHand`, in whatever order the
kickers come.

The reason for the condition is in `handToPointsArray`, which is also how
`takeOutHand` knows what to take: it writes the ranks of the body and those of
the kickers into one array, so that a later write wins. A kicker is a rank and
no card, and nothing in the type of a hand says that kickers are different or
off the body. `KickersFit` is that condition as a definition of its own, and
the modules on the second look, on the next higher hand and on the high level's
map all use it.
-/

namespace RobotDdz

/-- The hand belongs in the vector of type `t`: the rocket goes to the bombs. -/
def Hand.Sits (t : HandType) (h : Hand) : Prop := h.type = t ∨ t = .bomb ∧ h.type = .nuke

/-- Every hand sits in the vector of its own type. -/
def HandsMap.Typed (m : HandsMap) : Prop := ∀ t, ∀ h ∈ m.vec t, h.Sits t

namespace HandsMap.Typed

variable {m : HandsMap} (hm : m.Typed)

include hm

theorem type_eq {t : HandType} (ht : t ≠ .bomb) {h : Hand} (hh : h ∈ m.vec t) : h.type = t := by
  rcases hm t h hh with heq | ⟨hb, -⟩
  · exact heq
  · exact absurd hb ht

theorem put {t : HandType} {l : List Hand} (hl : ∀ h ∈ l, h.Sits t) : (m.put t l).Typed := by
  intro t' h hh
  rw [vec_put] at hh
  split at hh
  next ht =>
    rw [ht]
    exact hl h hh
  next => exact hm t' h hh

theorem push {t : HandType} {h : Hand} (hh : h.type = t) : (m.push t h).Typed := by
  refine hm.put fun h' hh' => ?_
  rw [List.mem_append, List.mem_singleton] at hh'
  rcases hh' with hold | rfl
  · exact hm t h' hold
  · exact Or.inl hh

theorem touch (t : HandType) : (m.touch t).Typed := hm.put (hm t)

/-- The map without its last trio: three cards of its rank fewer. -/
theorem dropTrio {h : Hand} (hlast : (m.vec .trio).getLast? = some h) :
    (m.put .trio (m.vec .trio).dropLast).Typed ∧
      ∀ r, (m.put .trio (m.vec .trio).dropLast).sum r
        = m.sum r - if r = h.keyPoint then 3 else 0 := by
  obtain ⟨rest, hrest⟩ := List.getLast?_eq_some_iff.mp hlast
  have hh : h.type = .trio := hm.type_eq (t := .trio) (by decide) (by rw [hrest]; simp)
  have hdrop : (m.vec .trio).dropLast = rest := by rw [hrest, List.dropLast_concat]
  rw [hdrop]
  refine ⟨hm.put fun h' hh' => hm .trio h' ?_, fun r => ?_⟩
  · rw [hrest]
    exact List.mem_append_left _ hh'
  · rw [HandsMap.sum_put, hrest, handsSum_append, handsSum_cons, handsSum_nil,
      handToPointsArray_ofSingle (by rw [hh]; rfl), hh]
    dsimp only [HandType.mult]
    omega

end HandsMap.Typed

/-! ## Kickers on a body -/

/-- The solos or pairs of a vector, as copies of their ranks. -/
theorem handsSum_singles {t : HandType} (ht : t.isSingle = true) (hands : List Hand)
    (htype : ∀ h ∈ hands, h.type = t) (r : Nat) :
    handsSum hands r = t.mult * (hands.map Hand.keyPoint).count r := by
  induction hands with
  | nil => simp
  | cons h hands ih =>
    have hh := htype h List.mem_cons_self
    have harr : handToPointsArray h r = if r = h.keyPoint then h.type.mult else 0 :=
      handToPointsArray_ofSingle (by rw [hh]; exact ht) r
    rw [handsSum_cons, ih fun x hx => htype x (List.mem_cons_of_mem _ hx), harr, hh,
      List.map_cons, List.count_cons]
    by_cases hr : r = h.keyPoint
    · rw [if_pos hr, if_pos (beq_iff_eq.mpr hr.symm)]
      push_cast
      ring
    · rw [if_neg hr, if_neg (fun he => hr (beq_iff_eq.mp he).symm)]
      push_cast
      ring

/-- A loop that writes 3 to a run of ranks and `v` to one kicker a round,
wherever the kickers lie. -/
theorem forUp_update_kicked_le (key : Nat) {v : Int} (hv0 : 0 ≤ v) (hv : v ≤ 3)
    (kick : Nat → Nat) (n r : Nat) :
    Loops.forUp (fun i points => Function.update (Function.update points (key + i) 3) (kick i) v)
        0 n Points.zero r
      ≤ if key ≤ r ∧ r < key + n then 3 else if ∃ i, i < n ∧ kick i = r then v else 0 := by
  have h := Loops.forUp_inv
    (b := fun i points => Function.update (Function.update points (key + i) 3) (kick i) v)
    (fun i (points : Points) => ∀ r, points r
      ≤ if key ≤ r ∧ r < key + i then 3 else if ∃ j, j < i ∧ kick j = r then v else 0)
    0 n (s := Points.zero) ?_ ?_
  · simpa using h r
  · intro i s _ _ hs r
    rw [Function.update_apply, Function.update_apply]
    by_cases hk : r = kick i
    · rw [if_pos hk]
      split
      · exact hv
      · rw [if_pos ⟨i, by omega, hk.symm⟩]
    · rw [if_neg hk]
      by_cases hr : r = key + i
      · rw [if_pos hr, if_pos (by omega)]
      · rw [if_neg hr]
        refine le_trans (hs r) ?_
        by_cases hrun : key ≤ r ∧ r < key + i
        · rw [if_pos hrun, if_pos (by omega)]
        · have hrun' : ¬(key ≤ r ∧ r < key + (i + 1)) := by omega
          rw [if_neg hrun, if_neg hrun']
          by_cases hex : ∃ j, j < i ∧ kick j = r
          · obtain ⟨j, hj, he⟩ := hex
            rw [if_pos ⟨j, hj, he⟩, if_pos ⟨j, by omega, he⟩]
          · rw [if_neg hex]
            split
            · exact hv0
            · exact le_refl 0
  · intro r
    rw [if_neg (by omega), if_neg (by simp)]
    exact le_refl 0

section Kicked

variable {b : Hand} {t : HandType} {ks : List Nat}

/-- The kickers of a body: as many as its run is wide. -/
theorem kickers_kicked (hk : Kicks b.type t) (hlen : ks.length = b.width) :
    (Hand.setKickers { b with type := t } ks).kickers = ks := by
  obtain ⟨type, key, len, kicker⟩ := b
  rw [Hand.kickers]
  refine List.take_left' ?_
  cases hk <;> exact hlen

theorem filled_kicked (hk : Kicks b.type t) (hlen : ks.length = b.width) :
    (Hand.setKickers { b with type := t } ks).kickerCount = b.width ∧
      b.width ≤ (Hand.setKickers { b with type := t } ks).kicker.length := by
  refine ⟨?_, ?_⟩
  · cases b
    cases hk <;> rfl
  · rw [← hlen]
    exact (List.length_append ▸ Nat.le_add_right _ _)

/-- A kicked body holds at most three cards of a rank of its run, and elsewhere
the copies of one kicker. -/
theorem kicked_le (hk : Kicks b.type t) (hlen : ks.length = b.width) (r : Nat) :
    handToPointsArray (Hand.setKickers { b with type := t } ks) r
      ≤ if b.keyPoint ≤ r ∧ r < b.keyPoint + b.width then 3
        else if r ∈ ks then t.kickMult else 0 := by
  have hks := kickers_kicked hk hlen
  obtain ⟨hcount, hfilled⟩ := filled_kicked hk hlen
  have hmem : (∃ i, i < b.width ∧ (Hand.setKickers { b with type := t } ks).kickerAt i = r)
      ↔ r ∈ ks := by
    rw [exists_kickerAt_iff hfilled, ← hcount]
    exact iff_of_eq (congrArg (r ∈ ·) hks)
  rw [← if_congr hmem rfl rfl]
  cases b
  cases hk <;> exact forUp_update_kicked_le _ (by decide) (by decide) _ _ r

/-- The cards of a bare trio or trio chain. -/
theorem handToPointsArray_body (hk : Kicks b.type t) (r : Nat) :
    handToPointsArray b r = if b.keyPoint ≤ r ∧ r < b.keyPoint + b.width then 3 else 0 := by
  obtain ⟨type, key, len, kicker⟩ := b
  have hplain : Hand.Placed ⟨type, key, len, kicker⟩ := by
    cases hk <;>
      exact ⟨fun h => HandType.noConfusion h, Nat.zero_le _,
        fun k hk => absurd hk List.not_mem_nil⟩
  rw [handToPointsArray_apply hplain]
  cases hk <;> exact if_congr Iff.rfl rfl (if_neg List.not_mem_nil)

theorem kickMult_pos (hk : Kicks b.type t) : 0 < t.kickMult := by
  cases b
  cases hk <;> decide

/-- Each kicker stands for its copies at least. -/
theorem kickMult_le_count (hk : Kicks b.type t) {r : Nat} (hr : r ∈ ks) :
    t.kickMult ≤ t.kickMult * ks.count r :=
  le_mul_of_one_le_right (kickMult_pos hk).le (by exact_mod_cast List.count_pos_iff.mpr hr)

/-- Hanging kickers on a body never makes a card. -/
theorem kicked_le_account (hk : Kicks b.type t) (hlen : ks.length = b.width) (r : Nat) :
    handToPointsArray (Hand.setKickers { b with type := t } ks) r
      ≤ handToPointsArray b r + t.kickMult * ks.count r := by
  have hle := kicked_le hk hlen r
  have hb := handToPointsArray_body hk r
  have h0 : 0 ≤ t.kickMult * (ks.count r : Int) :=
    mul_nonneg (kickMult_pos hk).le (Int.natCast_nonneg _)
  split at hle
  next hrun =>
    rw [if_pos hrun] at hb
    omega
  next hrun =>
    rw [if_neg hrun] at hb
    split at hle
    next hr =>
      have := kickMult_le_count hk hr
      omega
    next => omega

/-- A kicker twice, or one on the body, has more cards than the array shows. -/
theorem kickers_of_account (hk : Kicks b.type t) (hlen : ks.length = b.width) {r : Nat}
    (heq : handToPointsArray (Hand.setKickers { b with type := t } ks) r
      = handToPointsArray b r + t.kickMult * ks.count r) (hr : r ∈ ks) :
    ¬(b.keyPoint ≤ r ∧ r < b.keyPoint + b.width) ∧ ks.count r ≤ 1 := by
  have hle := kicked_le hk hlen r
  rw [heq, handToPointsArray_body hk r, if_pos hr] at hle
  have hcount := kickMult_le_count hk hr
  have hpos := kickMult_pos hk
  by_cases hrun : b.keyPoint ≤ r ∧ r < b.keyPoint + b.width
  · rw [if_pos hrun, if_pos hrun] at hle
    omega
  · rw [if_neg hrun, if_neg hrun, zero_add] at hle
    refine ⟨hrun, ?_⟩
    have : (ks.count r : Int) ≤ 1 := by
      by_contra hlt
      have := mul_lt_mul_of_pos_left (not_le.mp hlt) hpos
      omega
    exact_mod_cast this

/-- Different kickers off the body are all in the array: the body's ranks keep
the body's count, and each kicker adds what the type takes of it. -/
theorem kicked_account_of_fit (hk : Kicks b.type t) (hlen : ks.length = b.width) (hnd : ks.Nodup)
    (hout : ∀ k ∈ ks, k < b.keyPoint ∨ b.keyPoint + b.width ≤ k) (r : Nat) :
    handToPointsArray (Hand.setKickers { b with type := t } ks) r
      = handToPointsArray b r + t.kickMult * ks.count r := by
  have hks := kickers_kicked hk hlen
  obtain ⟨hcount, hfilled⟩ := filled_kicked hk hlen
  have hwidth : (Hand.setKickers { b with type := t } ks).width = b.width := by
    cases b
    cases hk <;> rfl
  have hplaced : (Hand.setKickers { b with type := t } ks).Placed := by
    refine ⟨fun h => ?_, ?_, ?_⟩
    · cases b
      cases hk <;> exact HandType.noConfusion h
    · rw [hcount]
      exact hfilled
    · rw [hks, hwidth]
      exact hout
  have hmult : t.mult = 3 := by
    cases b
    cases hk <;> rfl
  rw [handToPointsArray_apply hplaced, handToPointsArray_body hk, hks, hwidth]
  show (if b.keyPoint ≤ r ∧ r < b.keyPoint + b.width then t.mult
    else if r ∈ ks then t.kickMult else 0) = _
  by_cases hr : r ∈ ks
  · have hrun : ¬(b.keyPoint ≤ r ∧ r < b.keyPoint + b.width) := by
      have := hout r hr
      omega
    rw [if_neg hrun, if_neg hrun, if_pos hr, List.count_eq_one_of_mem hnd hr]
    simp
  · rw [List.count_eq_zero.mpr hr, if_neg hr, hmult]
    simp

/-- Hanging kickers on a body loses no card just when no kicker repeats and
none lies on the body. -/
theorem kicked_account_iff (hk : Kicks b.type t) (hlen : ks.length = b.width) :
    (∀ r, handToPointsArray (Hand.setKickers { b with type := t } ks) r
        = handToPointsArray b r + t.kickMult * ks.count r) ↔
      ks.Nodup ∧ ∀ k ∈ ks, k < b.keyPoint ∨ b.keyPoint + b.width ≤ k := by
  refine ⟨fun heq => ?_, fun hfit r => kicked_account_of_fit hk hlen hfit.1 hfit.2 r⟩
  refine ⟨List.nodup_iff_count_le_one.mpr fun r => ?_, fun k hkm => ?_⟩
  · by_cases hr : r ∈ ks
    · exact (kickers_of_account hk hlen (heq r) hr).2
    · rw [List.count_eq_zero.mpr hr]
      exact Nat.zero_le 1
  · have := (kickers_of_account hk hlen (heq k) hkm).1
    omega

end Kicked

/-! ## Kickers in any order -/

/-- What `getHand` says of the cards of a hand agrees with the hand. -/
def Hand.ReadsBack (h : Hand) : Prop :=
  (getHand (handToPointsArray h)).type = h.type ∧
    (getHand (handToPointsArray h)).keyPoint = h.keyPoint ∧
    (isChain h.type = true → (getHand (handToPointsArray h)).len = h.len)

/-- Kickers that make a hand with the body from `keyPoint` on: none repeats,
none is on the body, and they are not both jokers. -/
structure KickersFit (keyPoint width : Nat) (ks : List Nat) : Prop where
  nodup : ks.Nodup
  outside : ∀ k ∈ ks, k < keyPoint ∨ keyPoint + width ≤ k
  jokers : ¬(blackJoker ∈ ks ∧ redJoker ∈ ks)

/-- A hand with all it needs: a body, as many kickers as it has slots, and
these fit. Unlike for a `Shaped` hand they need not be in order. -/
structure Hand.Complete (h : Hand) : Prop where
  body : h.type.BodyOk h.keyPoint h.len
  filled : h.kickers.length = h.kickerCount
  fit : KickersFit h.keyPoint h.width h.kickers
  top : ∀ k ∈ h.kickers, k ≤ redJoker

theorem Hand.Shaped.complete {h : Hand} (hs : h.Shaped) : h.Complete :=
  ⟨hs.body, hs.filled,
    ⟨hs.increasing.imp fun hlt => Nat.ne_of_lt hlt, hs.outside, hs.jokers⟩, hs.kickerTop⟩

theorem Hand.Complete.placed {h : Hand} (hc : h.Complete) : h.Placed := by
  refine ⟨fun ht => ?_, ?_, hc.fit.outside⟩
  · have hb := hc.body
    rw [ht] at hb
    exact hb
  · rw [← hc.filled, Hand.kickers, List.length_take]
    exact min_le_right _ _

/-- A hand with fitting kickers is recognised, whatever their order. The
recogniser lists kickers in increasing order, so the hand is compared with the
one whose kickers are sorted, which has the same array. -/
theorem Hand.readsBack_of_fit {h : Hand} (hb : h.type.BodyOk h.keyPoint h.len)
    (hfill : h.kickers.length = h.kickerCount) (hfit : KickersFit h.keyPoint h.width h.kickers)
    (htop : ∀ k ∈ h.kickers, k ≤ redJoker) : h.ReadsBack := by
  have hplaced := (⟨hb, hfill, hfit, htop⟩ : h.Complete).placed
  obtain ⟨hnd, hout, hjok⟩ := hfit
  -- the same hand with its kickers sorted
  have hperm := List.perm_insertionSort (· ≤ ·) h.kickers
  have hsorted : Hand.kickers { h with kicker := h.kickers.insertionSort (· ≤ ·) }
      = h.kickers.insertionSort (· ≤ ·) := by
    refine List.take_of_length_le (Nat.le_of_eq ?_)
    rw [List.length_insertionSort, hfill]
    rfl
  have hmem : ∀ k, k ∈ Hand.kickers { h with kicker := h.kickers.insertionSort (· ≤ ·) }
      ↔ k ∈ h.kickers := by
    intro k
    rw [hsorted]
    exact hperm.mem_iff
  have hshaped : Hand.Shaped { h with kicker := h.kickers.insertionSort (· ≤ ·) } := by
    refine ⟨hb, ?_, ?_, fun k hk => hout k ((hmem k).mp hk), fun k hk => htop k ((hmem k).mp hk),
      fun hboth => hjok ⟨(hmem _).mp hboth.1, (hmem _).mp hboth.2⟩⟩
    · rw [hsorted, List.length_insertionSort, hfill]
      rfl
    · rw [hsorted]
      have hle := List.pairwise_insertionSort (· ≤ ·) h.kickers
      exact (hle.and (hperm.nodup_iff.mpr hnd)).imp fun hlt => Nat.lt_of_le_of_ne hlt.1 hlt.2
  have harray : handToPointsArray { h with kicker := h.kickers.insertionSort (· ≤ ·) }
      = handToPointsArray h := by
    funext r
    rw [handToPointsArray_apply hshaped.placed, handToPointsArray_apply hplaced]
    refine if_congr Iff.rfl rfl (if_congr (hmem r) rfl rfl)
  unfold Hand.ReadsBack
  rw [← harray, getHand_eq_canonical hshaped]
  exact ⟨rfl, rfl, fun hc => if_pos hc⟩

/-- Counts on a run and its kickers that are recognised as a `TRIO_CHAIN_SOLO`
of the run's length: the trios are the run and the solos are the kickers. -/
theorem kickersFit_of_recognised {q : Points} {g : Hand} {keyPoint n : Nat} {ks : List Nat}
    (hr : Recognised q g) (htype : g.type = .trioChainSolo) (hlength : g.len = n)
    (hlen : ks.length = n)
    (hbound : ∀ r, q r ≤ if keyPoint ≤ r ∧ r < keyPoint + n then 3 else if r ∈ ks then 1 else 0) :
    KickersFit keyPoint n ks := by
  have hbody := hr.width
  have hkicker := hr.kickers (by rw [htype]; decide)
  have hfilled := hr.filled
  have hjok := hr.jokers (by rw [htype]; exact HandType.noConfusion)
  -- as many trios as the chain is long, and as many solos
  have h3 : (sortedCard q 3).length = n := by
    rw [Hand.width_of_isChain (by rw [htype]; rfl), hlength, Hand.bodyOf, htype] at hbody
    exact hbody
  have h1 : (sortedCard q 1).length = n := by
    rw [htype] at hkicker
    change sortedCard q 1 = _ at hkicker
    rw [hkicker, hfilled, Hand.kickerCount, htype, hlength]
  have hnd : ∀ k : Int, (sortedCard q k).Nodup := fun k =>
    (sortedCard_increasing q k).imp fun hlt => Nat.ne_of_lt hlt
  -- the trios are the run
  have hrun : ∀ r, keyPoint ≤ r → r < keyPoint + n → q r = 3 := by
    have hsub : sortedCard q 3 ⊆ List.range' keyPoint n := by
      intro r hr
      have hqr := (mem_sortedCard.mp hr).2
      have hbr := hbound r
      rw [List.mem_range'_1]
      by_contra hin
      rw [if_neg hin, hqr] at hbr
      split at hbr
      · exact absurd hbr (by decide)
      · exact absurd hbr (by decide)
    have hperm := ((hnd 3).subperm hsub).perm_of_length_le (by rw [h3, List.length_range'])
    intro r hlo hhi
    exact (mem_sortedCard.mp (hperm.mem_iff.mpr (List.mem_range'_1.mpr ⟨hlo, hhi⟩))).2
  -- so the solos are the kickers
  have hsub : sortedCard q 1 ⊆ ks := by
    intro r hr
    have hqr := (mem_sortedCard.mp hr).2
    have hbr := hbound r
    by_contra hno
    by_cases hin : keyPoint ≤ r ∧ r < keyPoint + n
    · rw [hrun r hin.1 hin.2] at hqr
      exact absurd hqr (by decide)
    · rw [if_neg hin, if_neg hno, hqr] at hbr
      exact absurd hbr (by decide)
  have hperm := ((hnd 1).subperm hsub).perm_of_length_le (by rw [h1, hlen])
  have hone : ∀ k ∈ ks, q k = 1 := fun k hk => (mem_sortedCard.mp (hperm.mem_iff.mpr hk)).2
  refine ⟨hperm.nodup_iff.mp (hnd 1), fun k hk => ?_, fun hboth => ?_⟩
  · by_contra hin
    have hqk := hone k hk
    rw [hrun k (by omega) (by omega)] at hqk
    exact absurd hqk (by decide)
  · exact hjok ⟨hone _ hboth.1, hone _ hboth.2⟩

/-- Kickers hung on a chain make a `TRIO_CHAIN_SOLO` of its length just when
they fit it. -/
theorem readsBack_iff_fit {p : Points} (hp : LegalCounts p) {b : Hand} (hb : b.type = .trioChain)
    (hbody : HandType.BodyOk .trioChainSolo b.keyPoint b.len) {ks : List Nat}
    (hlen : ks.length = b.len) (htop : ∀ k ∈ ks, k ≤ redJoker)
    (hle : ∀ r, handToPointsArray (Hand.setKickers { b with type := .trioChainSolo } ks) r ≤ p r) :
    (Hand.setKickers { b with type := .trioChainSolo } ks).ReadsBack ↔
      KickersFit b.keyPoint b.len ks := by
  have hkick : Kicks b.type .trioChainSolo := by
    rw [hb]
    exact .trioChainSolo
  have hw : b.width = b.len := Hand.width_of_isChain (by rw [hb]; rfl)
  have hks := kickers_kicked hkick (hlen.trans hw.symm)
  constructor
  · intro hrec
    obtain ⟨htype, -, hlength⟩ := hrec
    have hq := hp.of_le (handToPointsArray_nonneg _) hle
    have hr := getHand_recognised hq (by rw [htype]; exact HandType.noConfusion)
    have hbound := kicked_le hkick (hlen.trans hw.symm)
    rw [hw] at hbound
    exact kickersFit_of_recognised hr htype (hlength rfl) hlen hbound
  · intro hfit
    refine Hand.readsBack_of_fit hbody ?_ ?_ ?_
    · rw [hks]
      exact hlen
    · rw [hks]
      exact hfit
    · rw [hks]
      exact htop

theorem Hand.Complete.readsBack {h : Hand} (hc : h.Complete) : h.ReadsBack :=
  Hand.readsBack_of_fit hc.body hc.filled hc.fit hc.top

/-- A body with fitting kickers from the cards is a complete hand of held
cards. -/
theorem complete_kicked {b : Hand} {t : HandType} {ks : List Nat} {p : Points}
    (hk : Kicks b.type t) (hp : ∀ r, 0 ≤ p r) (hbody : t.BodyOk b.keyPoint b.len)
    (hlen : ks.length = b.width) (hfit : KickersFit b.keyPoint b.width ks)
    (hrun : ∀ r, b.keyPoint ≤ r → r < b.keyPoint + b.width → 3 ≤ p r)
    (hheld : ∀ k ∈ ks, k ≤ redJoker ∧ t.kickMult ≤ p k) :
    (Hand.setKickers { b with type := t } ks).Complete ∧
      ∀ r, handToPointsArray (Hand.setKickers { b with type := t } ks) r ≤ p r := by
  have hks := kickers_kicked hk hlen
  obtain ⟨hcount, -⟩ := filled_kicked hk hlen
  have hw : (Hand.setKickers { b with type := t } ks).width = b.width := by
    cases b
    cases hk <;> rfl
  refine ⟨⟨hbody, ?_, ?_, ?_⟩, fun r => ?_⟩
  · rw [hks, hcount, hlen]
  · rw [hks, hw]
    exact hfit
  · rw [hks]
    exact fun k hkm => (hheld k hkm).1
  · refine Int.le_trans (kicked_le hk hlen r) ?_
    split
    next hin => exact hrun r hin.1 hin.2
    next =>
      split
      next hr => exact (hheld r hr).2
      next => exact hp r

end RobotDdz
