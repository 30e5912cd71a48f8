import RobotDdz.AI.Higher
import RobotDdz.AI.KickFit
import RobotDdz.AI.KickerSources

/-!
# Kickers for the next higher hand

What `findHigherHandFromPoints` returns for the types with kickers. The trio
types without a chain are sound. The fours never get kickers. A chain with
solos is sound when the first of its sources fit the body, and a chain with
pairs is never completed as one: the test for it is never reached.

The proofs split by the type of the hand to beat. The body that the search
takes out of the points is described once (`TrioTaken`): the run of three cards
a rank, and the rest, which are legal counts. Whether kickers from the rest fit
the body decides everything for the trio types; `kickerSources` lists what the
search is offered, in its order.

Mirroring notes vs `AIUtils.cpp`:
- The hand is passed to the search to write to, and fields it does not write
  keep what was in them. So a search is judged for every hand it may be given
  (`SearchSound`).
- The third test of `findKickerFromPoints` assigns `TRIO_CHAIN_SOLO` to the
  type instead of comparing. The fourth branch, for pairs, is never reached.
- For a `FOUR_DUAL_SOLO` or a `FOUR_DUAL_PAIR` no kicker is looked for: the
  search returns the four as it finds it.
-/

namespace RobotDdz

open Fill

/-! ## The search -/

/-- The types with kickers. -/
def HandType.kicked : List HandType :=
  [.trioSolo, .trioPair, .trioChainSolo, .trioChainPair, .fourDualSolo, .fourDualPair]

/-- The trio types with kickers, for which the search looks for kickers. -/
def HandType.trioKicked : List HandType := [.trioSolo, .trioPair, .trioChainSolo, .trioChainPair]

/-- A hand of the same type that beats `hand`, complete, made of held cards,
and recognised. -/
structure GoodAnswer (hand : Hand) (p : Points) (found : Hand) : Prop where
  type : found.type = hand.type
  higher : isHandHigherThan found hand = true
  filled : found.kickers.length = found.kickerCount
  held : ∀ r, handToPointsArray found r ≤ p r
  readsBack : found.ReadsBack

section Search

variable (u : Undef) (lowestControl : Nat) (maxOppNumber : Int) (otherPoints : Points)

/-- What a search that is passed the hand `higher` must do: answer well, keep
the type of a hand it completes, and read the solos within their vector. -/
structure SearchSound (hand : Hand) (p : Points) (higher : Hand) : Prop where
  answer : (findHigherHandFromPoints u lowestControl maxOppNumber otherPoints hand p higher).type
      ≠ .nothing → GoodAnswer hand p
        (findHigherHandFromPoints u lowestControl maxOppNumber otherPoints hand p higher)
  keepsType : ∀ body rest, findHigherBody hand p higher.clear = (body, rest) →
    body.type ∈ HandType.trioKicked →
      let r := findKickerFromPoints u lowestControl maxOppNumber otherPoints rest body
      r.1 = true → r.2.type = body.type
  inBounds : ∀ body rest, findHigherBody hand p higher.clear = (body, rest) →
    body.type = .trioChainSolo ∨ body.type = .trioChainPair →
      ¬ReadsPastEnd u (kickerMap u lowestControl maxOppNumber otherPoints rest) body

/-- The body of a chain from rank `k` on. -/
def chainBody (k len : Nat) : Hand := { type := .trioChainSolo, keyPoint := k, len := len }

/-- When the search is sound. A trio is always completed well; a four never is.
A chain must not run past the solos, and what the sources offer must be too
little or, for solo kickers, fit the body. -/
def KickersOk (hand : Hand) (p : Points) : Prop :=
  ∀ k, IsLeast {k | HigherKey (bodyNumber hand.type) hand p k} k →
    let rest := p.addRange k hand.len (-3)
    let m := kickerMap u lowestControl maxOppNumber otherPoints rest
    let sources := kickerSources u rest m (chainBody k hand.len)
    match hand.type with
    | .trioSolo | .trioPair => True
    | .trioChainSolo => ¬Overruns u m (chainBody k hand.len) ∧
        (sources.length < hand.len ∨ KickersFit k hand.len (sources.take hand.len))
    | .trioChainPair => ¬Overruns u m (chainBody k hand.len) ∧ sources.length < hand.len
    | _ => False

/-- The search completes the body it has found, or gives up. -/
theorem found_eq (hand : Hand) (p : Points) (higher : Hand)
    (ht : (findHigherBody hand p higher.clear).1.type ∈ HandType.trioKicked) :
    findHigherHandFromPoints u lowestControl maxOppNumber otherPoints hand p higher
      = let r := findKickerFromPoints u lowestControl maxOppNumber otherPoints
          (findHigherBody hand p higher.clear).2 (findHigherBody hand p higher.clear).1
        if r.1 then r.2 else r.2.clear := by
  have hor : ∀ t : HandType, t ∈ HandType.trioKicked →
      t = .trioSolo ∨ t = .trioPair ∨ t = .trioChainSolo ∨ t = .trioChainPair := by
    intro t ht
    simpa [HandType.trioKicked] using ht
  unfold findHigherHandFromPoints
  dsimp only
  rw [if_pos (hor _ ht)]

/-- The kicker of a trio. -/
def trioKicker (points : Points) (m : HandsMap) (hand : Hand) : Option Nat :=
  if hand.type = .trioSolo then soloKicker points m hand.keyPoint
  else pairKicker points m hand.keyPoint

theorem findKickerFromPoints_trio (rest : Points) {body : Hand}
    (ht : body.type = .trioSolo ∨ body.type = .trioPair) :
    findKickerFromPoints u lowestControl maxOppNumber otherPoints rest body
      = match trioKicker rest (kickerMap u lowestControl maxOppNumber otherPoints rest) body with
        | some k => (true, body.setKickers [k])
        | none => (false, body) := by
  unfold findKickerFromPoints trioKicker kickerMap
  dsimp only
  generalize (sortHandsWithBestKind u rest lowestControl maxOppNumber otherPoints false).1 = m
  rcases ht with ht | ht
  · cases soloKicker rest m body.keyPoint <;> simp only [if_pos ht]
  · have hne : body.type ≠ .trioSolo := by
      rw [ht]
      exact HandType.noConfusion
    cases pairKicker rest m body.keyPoint <;> simp only [if_neg hne, if_pos ht]

theorem findKickerFromPoints_chain (rest : Points) {body : Hand}
    (ht : body.type = .trioChainSolo ∨ body.type = .trioChainPair) :
    findKickerFromPoints u lowestControl maxOppNumber otherPoints rest body
      = if body.len ≤ (chainKickers u rest (kickerMap u lowestControl maxOppNumber otherPoints rest)
            { body with type := .trioChainSolo }).length
        then (true, Hand.setKickers { body with type := .trioChainSolo }
          ((chainKickers u rest (kickerMap u lowestControl maxOppNumber otherPoints rest)
            { body with type := .trioChainSolo }).take body.len))
        else (false, { body with type := .trioChainSolo }) := by
  have hne : body.type ≠ .trioSolo ∧ body.type ≠ .trioPair := by
    rcases ht with h | h <;> rw [h] <;> decide
  unfold findKickerFromPoints kickerMap
  dsimp only
  rw [if_neg hne.1, if_neg hne.2]

theorem overruns_congr (u : Undef) (m : HandsMap) (h h' : Hand) (hk : h.keyPoint = h'.keyPoint)
    (hl : h.len = h'.len) : Overruns u m h = Overruns u m h' := by
  obtain ⟨type, key, len, kicker⟩ := h
  obtain ⟨type', key', len', kicker'⟩ := h'
  cases hk
  cases hl
  rfl

theorem kickerSources_congr (u : Undef) (p : Points) (m : HandsMap) (h h' : Hand)
    (hk : h.keyPoint = h'.keyPoint) (hl : h.len = h'.len) :
    kickerSources u p m h = kickerSources u p m h' := by
  obtain ⟨type, key, len, kicker⟩ := h
  obtain ⟨type', key', len', kicker'⟩ := h'
  cases hk
  cases hl
  rfl

/-- A chain takes the first of its sources, when there are enough. -/
theorem findKickerFromPoints_sources (rest : Points) {body : Hand}
    (ht : body.type = .trioChainSolo ∨ body.type = .trioChainPair) {sources : List Nat}
    (hsources : kickerSources u rest (kickerMap u lowestControl maxOppNumber otherPoints rest)
      (chainBody body.keyPoint body.len) = sources) :
    findKickerFromPoints u lowestControl maxOppNumber otherPoints rest body
      = if body.len ≤ sources.length
        then (true, Hand.setKickers { body with type := .trioChainSolo } (sources.take body.len))
        else (false, { body with type := .trioChainSolo }) := by
  have hagree := chainKickers_agree u (kickerMap u lowestControl maxOppNumber otherPoints rest)
    { body with type := .trioChainSolo } rest
  rw [kickerSources_congr u rest _ { body with type := .trioChainSolo }
    (chainBody body.keyPoint body.len) rfl rfl, hsources] at hagree
  have htake : (chainKickers u rest (kickerMap u lowestControl maxOppNumber otherPoints rest)
      { body with type := .trioChainSolo }).take body.len = sources.take body.len := hagree
  rw [findKickerFromPoints_chain u lowestControl maxOppNumber otherPoints rest ht, htake]
  exact if_congr hagree.length_iff rfl rfl

variable {u lowestControl maxOppNumber otherPoints}

/-- The points without a trio or trio chain are still legal counts. -/
theorem legalCounts_rest {p : Points} (hp : LegalCounts p) {k n : Nat}
    (hrun : ∀ r, k ≤ r → r < k + n → 3 ≤ p r) : LegalCounts (p.addRange k n (-3)) := by
  refine hp.of_le (fun r => ?_) (fun r => ?_)
  · by_cases hin : k ≤ r ∧ r < k + n
    · have := hrun r hin.1 hin.2
      rw [Points.addRange_in hin]
      omega
    · rw [Points.addRange_out hin]
      exact hp.nonneg r
  · by_cases hin : k ≤ r ∧ r < k + n
    · rw [Points.addRange_in hin]
      omega
    · rw [Points.addRange_out hin]

/-- The body the search takes out of the points for a trio type, and the rest. -/
structure TrioTaken (hand : Hand) (p : Points) (body : Hand) (rest : Points) : Prop where
  type : body.type = hand.type
  above : hand.keyPoint < body.keyPoint
  len : isChain hand.type = true → body.len = hand.len
  bodyOk : hand.type.BodyOk body.keyPoint body.len
  held : ∀ r, body.keyPoint ≤ r → r < body.keyPoint + body.width → 3 ≤ p r
  rest_eq : rest = p.addRange body.keyPoint body.width (-3)

theorem BodyFound.trioTaken {hand higher body : Hand} {p rest : Points}
    (hbody : BodyFound hand p higher (body, rest)) (ht : hand.type ∈ HandType.trioKicked)
    (hlong : isChain hand.type = true → 2 ≤ hand.len) : TrioTaken hand p body rest := by
  obtain ⟨⟨⟨habove, hhigher⟩, -⟩, heq, hrest⟩ := hbody
  dsimp only at habove hhigher heq hrest
  have hnumber : ∀ t ∈ HandType.trioKicked, bodyNumber t = 3 := by decide
  rw [hnumber _ ht] at hhigher hrest
  have htype : body.type = hand.type := by rw [heq]
  have hblen : isChain hand.type = true → body.len = hand.len := fun hc => by rw [heq, if_pos hc]
  simp only [HandType.trioKicked, List.mem_cons, List.not_mem_nil, or_false] at ht
  by_cases hc : isChain hand.type = true
  · rw [if_pos hc] at hhigher hrest
    obtain ⟨htop, hrun⟩ := hhigher
    have hw : body.width = hand.len :=
      (Hand.width_of_isChain (by rw [htype]; exact hc)).trans (hblen hc)
    refine ⟨htype, habove, hblen, ?_, by rw [hw]; exact hrun, by rw [hw]; exact hrest⟩
    rw [hblen hc]
    rcases ht with h | h | h | h <;> rw [h] at hc ⊢
    · exact Bool.noConfusion hc
    · exact Bool.noConfusion hc
    · exact ⟨hlong (by rw [h]; rfl), htop⟩
    · exact ⟨hlong (by rw [h]; rfl), htop⟩
  · rw [if_neg hc] at hhigher hrest
    obtain ⟨htop, hthree⟩ := hhigher
    have hsingle : body.width = 1 ∧ hand.type.BodyOk body.keyPoint body.len := by
      unfold Hand.width
      rw [htype]
      rcases ht with h | h | h | h <;> rw [h] at hc ⊢
      · exact ⟨rfl, htop⟩
      · exact ⟨rfl, htop⟩
      · exact absurd rfl hc
      · exact absurd rfl hc
    obtain ⟨hw, hok⟩ := hsingle
    refine ⟨htype, habove, hblen, hok, fun r hlo hhi => ?_, by rw [hw]; exact hrest⟩
    rw [show r = body.keyPoint by omega]
    exact hthree

section Taken

variable {hand body : Hand} {p rest : Points} (ht : TrioTaken hand p body rest)

include ht

theorem TrioTaken.legalRest (hp : LegalCounts p) : LegalCounts rest := by
  rw [ht.rest_eq]
  exact legalCounts_rest hp ht.held

/-- A body with fitting kickers from the rest of the cards is a complete hand
of held cards. -/
theorem TrioTaken.complete (hp : LegalCounts p) (hmem : hand.type ∈ HandType.trioKicked)
    (ks : List Nat) (hks : ks.length = body.width)
    (hheld : ∀ k ∈ ks, k ≤ redJoker ∧ hand.type.kickMult ≤ rest k)
    (hfit : KickersFit body.keyPoint body.width ks) :
    (body.setKickers ks).Complete ∧ ∀ r, handToPointsArray (body.setKickers ks) r ≤ p r := by
  -- the same body without kickers
  obtain ⟨b, hb, hkicks, hw⟩ : ∃ b : Hand, body = { b with type := hand.type } ∧
      Kicks b.type hand.type ∧ body.width = b.width := by
    have htype := ht.type
    obtain ⟨type, key, len, kicker⟩ := body
    obtain ⟨type', key', len', kicker'⟩ := hand
    simp only [HandType.trioKicked, List.mem_cons, List.not_mem_nil, or_false] at htype hmem
    rcases hmem with rfl | rfl | rfl | rfl <;> rw [htype]
    · exact ⟨⟨.trio, key, len, kicker⟩, rfl, .trioSolo, rfl⟩
    · exact ⟨⟨.trio, key, len, kicker⟩, rfl, .trioPair, rfl⟩
    · exact ⟨⟨.trioChain, key, len, kicker⟩, rfl, .trioChainSolo, rfl⟩
    · exact ⟨⟨.trioChain, key, len, kicker⟩, rfl, .trioChainPair, rfl⟩
  obtain ⟨-, -, -, hok, hrun, hrest⟩ := ht
  have hoff := hfit.outside
  rw [hw] at hks hfit hrun hrest hoff
  subst hb
  refine complete_kicked hkicks hp.nonneg hok hks hfit hrun fun k hkm => ⟨(hheld k hkm).1, ?_⟩
  have hcards := (hheld k hkm).2
  rwa [hrest, Points.addRange_out (by have := hoff k hkm; dsimp only at this ⊢; omega)] at hcards

/-- It is a good answer. -/
theorem TrioTaken.goodAnswer (hp : LegalCounts p) (hmem : hand.type ∈ HandType.trioKicked)
    (ks : List Nat) (hks : ks.length = body.width)
    (hheld : ∀ k ∈ ks, k ≤ redJoker ∧ hand.type.kickMult ≤ rest k)
    (hfit : KickersFit body.keyPoint body.width ks) : GoodAnswer hand p (body.setKickers ks) := by
  obtain ⟨hcomplete, hcards⟩ := ht.complete hp hmem ks hks hheld hfit
  refine ⟨ht.type, ?_, hcomplete.filled, hcards, hcomplete.readsBack⟩
  have habove := ht.above
  have htype := ht.type
  have hlen := ht.len
  unfold isHandHigherThan Hand.setKickers
  obtain ⟨type, key, len, kicker⟩ := body
  obtain ⟨type', key', len', kicker'⟩ := hand
  simp only [HandType.trioKicked, List.mem_cons, List.not_mem_nil, or_false] at hmem
  rcases hmem with rfl | rfl | rfl | rfl <;> simp_all [isChain]

/-- The kicker found for a trio is held and off it. One kicker on one body
always fits: it is not the trio's own rank, and a single rank is not both
jokers. -/
theorem TrioTaken.trioKicker_fits (hp : LegalCounts p)
    (hkind : hand.type = .trioSolo ∨ hand.type = .trioPair) {m : HandsMap} (ho : Offers rest m)
    {x : Nat} (hx : trioKicker rest m body = some x) : body.width = 1 ∧
      KickersFit body.keyPoint body.width [x] ∧ x ≤ redJoker ∧ hand.type.kickMult ≤ rest x := by
  have hbt : body.type = .trioSolo ∨ body.type = .trioPair := by rwa [ht.type]
  have hw : body.width = 1 := by
    unfold Hand.width
    rcases hbt with h | h <;> rw [h]
  have hspec : x ≠ body.keyPoint ∧ x ≤ redJoker ∧ hand.type.kickMult ≤ rest x := by
    rw [← ht.type]
    unfold trioKicker at hx
    split at hx
    next hsolo =>
      rw [hsolo]
      exact soloKicker_spec ho hx
    next hsolo =>
      obtain ⟨htop, htwo⟩ := pairKicker_spec ho hx
      rw [hbt.resolve_left hsolo]
      refine ⟨fun hxk => ?_, htop, htwo⟩
      -- a trio leaves at most one card of its rank
      have := hp.four body.keyPoint
      rw [hxk, ht.rest_eq, hw, Points.addRange_in (by omega)] at htwo
      omega
  refine ⟨hw, ⟨List.nodup_singleton x, fun k hk => ?_, fun hboth => ?_⟩, hspec.2⟩
  · rw [List.mem_singleton.mp hk, hw]
    have := hspec.1
    omega
  · have h1 := List.mem_singleton.mp hboth.1
    have h2 := List.mem_singleton.mp hboth.2
    exact absurd (h1.trans h2.symm) (by decide)

end Taken

/-- Without a higher body there is nothing to get wrong. -/
theorem searchSound_of_none {hand : Hand} {p : Points} {higher : Hand}
    (h : findHigherBody hand p higher.clear = (higher.clear, p)) :
    SearchSound u lowestControl maxOppNumber otherPoints hand p higher := by
  refine ⟨fun hsome => ?_, fun body rest hb ht => ?_, fun body rest hb ht => ?_⟩
  · have hfound : findHigherHandFromPoints u lowestControl maxOppNumber otherPoints hand p higher
        = higher.clear := by
      unfold findHigherHandFromPoints
      rw [h]
      rfl
    rw [hfound] at hsome
    exact absurd rfl hsome
  · rw [h] at hb
    obtain ⟨rfl, rfl⟩ := Prod.mk.inj hb
    exact absurd ht (by simp [Hand.clear, HandType.trioKicked])
  · rw [h] at hb
    obtain ⟨rfl, rfl⟩ := Prod.mk.inj hb
    exact absurd ht (by simp [Hand.clear])

/-- A search that finds a body is sound when it completes the body well or not
at all, and reads the solos within their vector. -/
theorem searchSound_iff {hand higher body : Hand} {p rest : Points}
    (hr : findHigherBody hand p higher.clear = (body, rest))
    (hmem : body.type ∈ HandType.trioKicked) {r : Bool × Hand}
    (hkicker : findKickerFromPoints u lowestControl maxOppNumber otherPoints rest body = r) :
    SearchSound u lowestControl maxOppNumber otherPoints hand p higher ↔
      (r.1 = true → r.2.type = body.type ∧ GoodAnswer hand p r.2) ∧
      (body.type = .trioChainSolo ∨ body.type = .trioChainPair →
        ¬ReadsPastEnd u (kickerMap u lowestControl maxOppNumber otherPoints rest) body) := by
  have hfound := found_eq u lowestControl maxOppNumber otherPoints hand p higher
  rw [hr] at hfound
  have hfound := hfound hmem
  dsimp only at hfound
  rw [hkicker] at hfound
  constructor
  · intro hs
    refine ⟨fun hdone => ?_, hs.inBounds body rest hr⟩
    have htype : r.2.type = body.type := by
      have hkeeps := hs.keepsType body rest hr hmem
      rw [hkicker] at hkeeps
      exact hkeeps hdone
    have hanswer := hs.answer
    rw [hfound, if_pos hdone] at hanswer
    refine ⟨htype, hanswer fun hno => ?_⟩
    rw [← htype, hno] at hmem
    exact absurd hmem (by decide)
  · intro hcond
    obtain ⟨hgood, hin⟩ := hcond
    refine ⟨fun hsome => ?_, fun body' rest' hb _ => ?_, fun body' rest' hb => ?_⟩
    · rw [hfound] at hsome ⊢
      by_cases hdone : r.1 = true
      · rw [if_pos hdone]
        exact (hgood hdone).2
      · rw [if_neg hdone] at hsome
        exact absurd rfl hsome
    · obtain ⟨rfl, rfl⟩ := Prod.mk.inj (hr.symm.trans hb)
      rw [hkicker]
      exact fun hdone => (hgood hdone).1
    · obtain ⟨rfl, rfl⟩ := Prod.mk.inj (hr.symm.trans hb)
      exact hin

/-- A trio gets a good kicker or none, and without one the search returns
nothing. So nothing is asked of the split of the rest here. -/
theorem searchSound_trio {hand higher : Hand} {p : Points} (hp : LegalCounts p)
    (ht : hand.type = .trioSolo ∨ hand.type = .trioPair)
    (hbody : BodyFound hand p higher.clear (findHigherBody hand p higher.clear)) :
    SearchSound u lowestControl maxOppNumber otherPoints hand p higher := by
  obtain ⟨body, rest, hr⟩ : ∃ body rest, findHigherBody hand p higher.clear = (body, rest) :=
    ⟨_, _, rfl⟩
  rw [hr] at hbody
  have hmem : hand.type ∈ HandType.trioKicked := by rcases ht with h | h <;> rw [h] <;> decide
  have htaken := hbody.trioTaken hmem fun hc => by
    rcases ht with h | h <;> rw [h] at hc <;> exact Bool.noConfusion hc
  have hbt : body.type = .trioSolo ∨ body.type = .trioPair := by rwa [htaken.type]
  have ho := kickerMap_offers u lowestControl maxOppNumber otherPoints (htaken.legalRest hp)
  rw [searchSound_iff hr (by rw [htaken.type]; exact hmem)
    (findKickerFromPoints_trio u lowestControl maxOppNumber otherPoints rest hbt)]
  generalize kickerMap u lowestControl maxOppNumber otherPoints rest = m at *
  refine ⟨?_, fun hc => by rcases hbt with h | h <;> rw [h] at hc <;> exact absurd hc (by decide)⟩
  cases hk : trioKicker rest m body with
  | none => exact fun h => Bool.noConfusion h
  | some x =>
    obtain ⟨hw, hfit, hheld⟩ := htaken.trioKicker_fits hp ht ho hk
    refine fun _ => ⟨rfl, htaken.goodAnswer hp hmem [x] hw.symm (fun k hk => ?_) hfit⟩
    rw [List.mem_singleton.mp hk]
    exact hheld

/-- A four is returned as it is found, without kickers: `findKickerFromPoints`
has no branch for it, so both slots are still to be filled. -/
theorem not_searchSound_four {hand : Hand} {p : Points}
    (ht : hand.type = .fourDualSolo ∨ hand.type = .fourDualPair)
    (hbody : BodyFound hand p {} (findHigherBody hand p {})) :
    ¬SearchSound u lowestControl maxOppNumber otherPoints hand p {} := by
  intro hs
  have heq := hbody.hand_eq
  have hanswer := hs.answer
  have htype : (findHigherBody hand p {}).1.type = hand.type := by rw [heq]
  have hfound : findHigherHandFromPoints u lowestControl maxOppNumber otherPoints hand p {}
      = (findHigherBody hand p {}).1 := by
    unfold findHigherHandFromPoints
    change (if _ then _ else (findHigherBody hand p {}).1) = _
    refine if_neg ?_
    change ¬((findHigherBody hand p {}).1.type = _ ∨ (findHigherBody hand p {}).1.type = _
      ∨ (findHigherBody hand p {}).1.type = _ ∨ (findHigherBody hand p {}).1.type = _)
    rw [htype]
    rcases ht with h | h <;> rw [h] <;> decide
  rw [hfound] at hanswer
  have hfilled := (hanswer (by
    rw [htype]
    rcases ht with h | h <;> rw [h] <;> exact HandType.noConfusion)).filled
  have hkicker : (findHigherBody hand p {}).1.kicker = [] := by rw [heq]
  rw [Hand.kickers, hkicker, List.take_nil, Hand.kickerCount, htype] at hfilled
  rcases ht with h | h <;> rw [h] at hfilled <;> cases hfilled

/-- A chain with solos from the rest of the cards is a good answer just when
they fit. -/
theorem TrioTaken.goodAnswer_iff {hand body : Hand} {p rest : Points}
    (ht : TrioTaken hand p body rest) (hp : LegalCounts p) (hsolo : hand.type = .trioChainSolo)
    (ks : List Nat) (hks : ks.length = body.len) (hheld : ∀ k ∈ ks, k ≤ redJoker ∧ 1 ≤ rest k) :
    GoodAnswer hand p (body.setKickers ks) ↔ KickersFit body.keyPoint body.len ks := by
  have htype : body.type = .trioChainSolo := ht.type.trans hsolo
  have hw : body.width = body.len := Hand.width_of_isChain (by rw [htype]; rfl)
  constructor
  · intro hgood
    have hbody := ht.bodyOk
    rw [hsolo] at hbody
    obtain ⟨type, key, len, kicker⟩ := body
    cases htype
    exact (readsBack_iff_fit hp (b := { type := .trioChain, keyPoint := key, len, kicker }) rfl
      hbody hks (fun k hk => (hheld k hk).1) hgood.held).mp hgood.readsBack
  · intro hfit
    refine ht.goodAnswer hp (by rw [hsolo]; decide) ks (hks.trans hw.symm) (fun k hk => ?_) ?_
    · rw [hsolo]
      exact hheld k hk
    · rw [hw]
      exact hfit

/-- A chain is answered soundly when the solos are read within bounds and the
sources offer too little, or solo kickers that fit. -/
theorem searchSound_chain_iff {hand higher : Hand} {p : Points} (hp : LegalCounts p)
    (ht : hand.type = .trioChainSolo ∨ hand.type = .trioChainPair) (hlen : 2 ≤ hand.len)
    (hbody : BodyFound hand p higher.clear (findHigherBody hand p higher.clear))
    {k : Nat} (hk : (findHigherBody hand p higher.clear).1.keyPoint = k) {rest : Points}
    (hrest : p.addRange k hand.len (-3) = rest) {m : HandsMap}
    (hm : kickerMap u lowestControl maxOppNumber otherPoints rest = m) :
    SearchSound u lowestControl maxOppNumber otherPoints hand p higher ↔
      ¬Overruns u m (chainBody k hand.len) ∧
        ((kickerSources u rest m (chainBody k hand.len)).length < hand.len ∨
          hand.type = .trioChainSolo ∧
            KickersFit k hand.len
              ((kickerSources u rest m (chainBody k hand.len)).take hand.len)) := by
  obtain ⟨body, rest', hr⟩ : ∃ body rest', findHigherBody hand p higher.clear = (body, rest') :=
    ⟨_, _, rfl⟩
  rw [hr] at hbody hk
  obtain rfl : body.keyPoint = k := hk
  have hmem : hand.type ∈ HandType.trioKicked := by rcases ht with h | h <;> rw [h] <;> decide
  have htaken := hbody.trioTaken hmem fun _ => hlen
  have hbt : body.type = .trioChainSolo ∨ body.type = .trioChainPair := by rwa [htaken.type]
  have hchain : isChain hand.type = true := by rcases ht with h | h <;> rw [h] <;> rfl
  have hblen := htaken.len hchain
  have hw : body.width = body.len := Hand.width_of_isChain (by rw [htaken.type]; exact hchain)
  obtain rfl : rest = rest' := by rw [← hrest, htaken.rest_eq, hw, hblen]
  have hheld := kickerSources_held (u := u)
    (kickerMap_offers u lowestControl maxOppNumber otherPoints (htaken.legalRest hp))
    (chainBody body.keyPoint body.len)
  rw [searchSound_iff hr (by rw [htaken.type]; exact hmem)
    (findKickerFromPoints_sources u lowestControl maxOppNumber otherPoints rest hbt rfl),
    readsPastEnd_iff, overruns_congr u _ body (chainBody body.keyPoint body.len) rfl rfl]
  rw [hm] at hheld ⊢
  rw [← hblen]
  generalize kickerSources u rest m (chainBody body.keyPoint body.len) = sources at *
  rw [and_comm]
  refine and_congr ⟨fun h => h hbt, fun h _ => h⟩ ?_
  by_cases hmany : body.len ≤ sources.length
  · rw [if_pos hmany]
    have hfew : ¬sources.length < body.len := Nat.not_lt.mpr hmany
    have hks : (sources.take body.len).length = body.len := by
      rw [List.length_take, min_eq_left hmany]
    have hgood := fun hsolo => htaken.goodAnswer_iff hp hsolo (sources.take body.len) hks
      fun x hx => hheld x (List.mem_of_mem_take hx)
    constructor
    · intro h
      obtain ⟨htype, hanswer⟩ := h rfl
      have hsolo : hand.type = .trioChainSolo := htaken.type.symm.trans htype.symm
      have hsame : ({ body with type := .trioChainSolo } : Hand) = body := by
        rw [← htaken.type.trans hsolo]
      rw [hsame] at hanswer
      exact Or.inr ⟨hsolo, (hgood hsolo).mp hanswer⟩
    · intro h _
      obtain ⟨hsolo, hfit⟩ := h.resolve_left hfew
      have htype : body.type = .trioChainSolo := htaken.type.trans hsolo
      have hsame : ({ body with type := .trioChainSolo } : Hand) = body := by rw [← htype]
      refine ⟨htype.symm, ?_⟩
      rw [hsame]
      exact (hgood hsolo).mpr hfit
  · rw [if_neg hmany]
    exact ⟨fun _ => Or.inl (Nat.lt_of_not_le hmany), fun _ h => Bool.noConfusion h⟩

/-- The search for a higher hand with kickers is sound, whatever hand it is
passed to write to, just when the kickers are as `KickersOk` says. -/
theorem findHigherHandFromPoints_sound_iff (u : Undef) (lowestControl : Nat) (maxOppNumber : Int)
    (otherPoints : Points) {p : Points} (hp : LegalHolding p) {q : Points} (hq : LegalCounts q)
    {hand : Hand} (hhand : getHand q = hand) (hkick : hand.type ∈ HandType.kicked) :
    (∀ higher, SearchSound u lowestControl maxOppNumber otherPoints hand p higher) ↔
      KickersOk u lowestControl maxOppNumber otherPoints hand p := by
  have hlong : isChain hand.type = true → 2 ≤ hand.len := by
    intro hc
    have hne : (getHand q).type ≠ .nothing := by
      rw [hhand]
      intro h
      rw [h] at hc
      exact Bool.noConfusion hc
    have hlong := (getHand_recognised hq hne).long
    rw [hhand] at hlong
    exact hlong hc
  have hspec := fun higher : Hand => findHigherBody_spec hand p higher.clear fun hc =>
    Nat.le_trans (by decide) (hlong hc)
  by_cases hex : ∃ k, HigherKey (bodyNumber hand.type) hand p k
  case neg =>
    -- no body: nothing is found and nothing is asked of the kickers
    refine ⟨fun _ k hk => absurd ⟨k, hk.1⟩ hex, fun _ higher => ?_⟩
    rcases hspec higher with hbody | ⟨-, hnone⟩
    · exact absurd ⟨_, hbody.least.1⟩ hex
    · exact searchSound_of_none hnone
  have hbody : ∀ higher : Hand,
      BodyFound hand p higher.clear (findHigherBody hand p higher.clear) := by
    intro higher
    rcases hspec higher with hbody | ⟨hnone, -⟩
    · exact hbody
    · obtain ⟨k, hk⟩ := hex
      exact absurd hk (hnone k)
  -- whatever the search writes to, it finds the same body
  obtain ⟨k, hk⟩ : ∃ k, IsLeast {k | HigherKey (bodyNumber hand.type) hand p k} k :=
    ⟨_, (hbody {}).least⟩
  have hkey : ∀ higher : Hand, (findHigherBody hand p higher.clear).1.keyPoint = k :=
    fun higher => (hbody higher).least.unique hk
  have hone : KickersOk u lowestControl maxOppNumber otherPoints hand p ↔
      let rest := p.addRange k hand.len (-3)
      let m := kickerMap u lowestControl maxOppNumber otherPoints rest
      let sources := kickerSources u rest m (chainBody k hand.len)
      match hand.type with
      | .trioSolo | .trioPair => True
      | .trioChainSolo => ¬Overruns u m (chainBody k hand.len) ∧
          (sources.length < hand.len ∨ KickersFit k hand.len (sources.take hand.len))
      | .trioChainPair => ¬Overruns u m (chainBody k hand.len) ∧ sources.length < hand.len
      | _ => False := by
    refine ⟨fun h => h k hk, fun h k' hk' => ?_⟩
    obtain rfl := hk.unique hk'
    exact h
  rw [hone]
  have hchain : hand.type = .trioChainSolo ∨ hand.type = .trioChainPair → ∀ higher,
      (SearchSound u lowestControl maxOppNumber otherPoints hand p higher ↔ _) := fun ht higher =>
    searchSound_chain_iff hp.toLegalCounts ht
      (hlong (by rcases ht with h | h <;> rw [h] <;> rfl)) (hbody higher) (hkey higher) rfl rfl
  dsimp only
  simp only [HandType.kicked, List.mem_cons, List.not_mem_nil, or_false] at hkick
  rcases hkick with ht | ht | ht | ht | ht | ht
  · rw [ht]
    exact iff_of_true
      (fun higher => searchSound_trio hp.toLegalCounts (Or.inl ht) (hbody higher)) trivial
  · rw [ht]
    exact iff_of_true
      (fun higher => searchSound_trio hp.toLegalCounts (Or.inr ht) (hbody higher)) trivial
  · simp only [hchain (Or.inl ht), ht, true_and]
    exact ⟨fun h => h {}, fun h _ => h⟩
  · simp only [hchain (Or.inr ht), ht]
    refine ⟨fun h => ⟨(h {}).1, (h {}).2.resolve_right fun hsolo => ?_⟩,
      fun h _ => ⟨h.1, Or.inl h.2⟩⟩
    exact HandType.noConfusion hsolo.1
  · rw [ht]
    exact iff_of_false (fun h => not_searchSound_four (Or.inl ht) (hbody {}) (h {})) id
  · rw [ht]
    exact iff_of_false (fun h => not_searchSound_four (Or.inr ht) (hbody {}) (h {})) id

/-- Five, six, three of each, a nine and a jack. -/
def fivesAndSixes : Points := .ofList [0, 0, 3, 3, 0, 0, 1, 0, 1]

/-- Threes and fours with a seven and an eight. The least higher body is that
of the fives and sixes; no solo chain is left for the search to run past, and
the nine and the jack fit the body. -/
theorem findHigherHandFromPoints_sound_iff_chain :
    let hand := getHand (.ofList [3, 3, 0, 0, 1, 1])
    hand.type = .trioChainSolo ∧
      (∀ higher, SearchSound .zero 12 17 .zero hand fivesAndSixes higher) ∧
      (findHigherHandFromPoints .zero 12 17 .zero hand fivesAndSixes {}).kicker = [6, 8] := by
  refine ⟨by decide, ?_, by decide +kernel⟩
  refine (findHigherHandFromPoints_sound_iff .zero 12 17 .zero
    (legalHolding_ofList (by decide) (by decide) (by decide))
    (legalHolding_ofList (l := [3, 3, 0, 0, 1, 1]) (by decide) (by decide)
      (by decide)).toLegalCounts rfl (by decide)).mpr fun k hk => ?_
  have hbody := (findHigherBody_spec (getHand (.ofList [3, 3, 0, 0, 1, 1])) fivesAndSixes {}
    fun _ => by decide).resolve_right fun h => absurd (congrArg (·.1.type) h.2) (by decide +kernel)
  obtain rfl : k = 2 := (hk.unique hbody.least).trans (by decide +kernel)
  have hchains : (kickerMap .zero 12 17 .zero (fivesAndSixes.addRange 2 2 (-3))).vec .soloChain
      = [] := by decide +kernel
  refine ⟨?_, .inr ⟨by decide +kernel, by decide +kernel, by decide +kernel⟩⟩
  rintro ⟨i, c, hget, -⟩
  change (HandsMap.vec (kickerMap .zero 12 17 .zero (fivesAndSixes.addRange 2 2 (-3)))
    .soloChain)[i]? = _ at hget
  rw [hchains] at hget
  cases hget

/-- Threes and fours with two pairs, against fives, sixes and two pairs: the
answer is a chain with the solos seven and eight. -/
theorem findHigherHandFromPoints_other_type :
    let hand := getHand (.ofList [3, 3, 0, 0, 0, 0, 2, 2])
    let holding := Points.ofList [0, 0, 3, 3, 2, 2]
    let found := findHigherHandFromPoints .zero 12 17 .zero hand holding {}
    LegalHolding holding ∧ hand.type = .trioChainPair ∧ found.type = .trioChainSolo ∧
      isHandHigherThan found hand = false ∧
      ¬∀ higher, SearchSound .zero 12 17 .zero hand holding higher := by
  refine ⟨legalHolding_ofList (by decide) (by decide) (by decide), by decide, by decide +kernel,
    by decide +kernel, fun hsound => ?_⟩
  have htype := ((hsound {}).answer (by decide +kernel)).type
  revert htype
  decide +kernel

end Search

end RobotDdz
