import Mathlib.Order.Bounds.Basic

/-!
# The highest run, by one scan from the top

A scan from the top looks for the highest `len` neighbouring places where `P`
holds. It keeps `top`, the top of the run it is in, and `start`, the last place
that continued a run.

`scan_spec` says what a scan finds that starts above all places. `scan_stale`
says what it finds when it starts with the `top` of another scan: the runs
above the first gap are lost, and of the rest it finds the highest.

The scan is given by its code: one pass over the places downwards with two
variables, no second loop for a run. `Scanned` is its invariant before a run is
found and `Finds` its result, each in terms of the places alone. A place can
change the scan in four ways, and there is a lemma for each: it opens a run,
extends one, closes one, or completes one. `scan_spec` is the induction over
the places with these four.

`scan_stale` is for programs that run the scan twice with the same variables
and do not set them back in between. What it finds then is still determined by
the places, and the theorem says how.
-/

namespace TopRun

variable (P : Nat → Prop)

/-- A run of `len` places below `n` starts at `s`. -/
def RunAt (n len s : Nat) : Prop := s + len ≤ n ∧ ∀ r, s ≤ r → r < s + len → P r

/-- Two neighbouring places below `n`, from `i`. -/
def PairAt (n i : Nat) : Prop := i + 1 < n ∧ P i ∧ P (i + 1)

/-- What a scan returns: where the run it found starts, and `top` and `start`
as it leaves them. -/
structure Scan where
  found : Option Nat
  top : Option Nat
  start : Option Nat

/-- The scan over the places `n - 1` down to `lo`. -/
def scan [DecidablePred P] (len lo : Nat) : (n : Nat) → (top start : Option Nat) → Scan
  | 0, top, start => ⟨none, top, start⟩
  | i + 1, top, start =>
    if i < lo then ⟨none, top, start⟩
    else if P i then
      match top with
      | none => scan len lo i (some i) start
      | some t =>
        if t + 1 = i + len then ⟨some i, some t, some i⟩ else scan len lo i (some t) (some i)
    else scan len lo i none start

/-- The scan has come down to `n` from `N` and has found nothing: `top` is the
top of the run that goes on at `n`, a run that is still too short. -/
structure Scanned (N len n : Nat) (top : Option Nat) : Prop where
  le : n ≤ N
  gap : top = none → n = N ∨ ¬P n
  run : ∀ t, top = some t → n ≤ t ∧ t < N ∧ t + 1 < n + len ∧ ∀ r, n ≤ r → r ≤ t → P r
  edge : ∀ t, top = some t → t + 1 = N ∨ ¬P (t + 1)
  noRun : ∀ s, n ≤ s → ¬RunAt P N len s

/-- `start` is the lowest of the pairs down to `n`. -/
def PairsSeen (N n : Nat) : Option Nat → Prop
  | none => ∀ i, n ≤ i → ¬PairAt P N i
  | some i => IsLeast {i | n ≤ i ∧ PairAt P N i} i

/-- What a scan down from `n` finds: the highest run not below `lo`, with `top`
and `start` at its ends, or else it has come down to `lo` without one. -/
structure Finds (N len lo n : Nat) (start : Option Nat) (r : Scan) : Prop where
  found : ∀ s, r.found = some s → IsGreatest {s | lo ≤ s ∧ RunAt P N len s} s ∧
    r.top = some (s + len - 1) ∧ r.start = some s
  none : r.found = none → ∃ k ≤ lo, Scanned P N len k r.top ∧
    (PairsSeen P N n start → PairsSeen P N k r.start)

variable {P} {N len lo n t : Nat} {top start : Option Nat}

/-- Before the first place. -/
theorem Scanned.initial (hl : 1 ≤ len) : Scanned P N len N none where
  le := Nat.le_refl N
  gap _ := Or.inl rfl
  run _ h := nomatch h
  edge _ h := nomatch h
  noRun s hs h := by
    have := h.1
    omega

theorem PairsSeen.initial : PairsSeen P N N none := fun i hi h => by
  have := h.1
  omega

/-- A place that is no pair changes nothing. -/
theorem PairsSeen.skip (h : PairsSeen P N (n + 1) start) (hn : ¬PairAt P N n) :
    PairsSeen P N n start := by
  cases start with
  | none =>
    intro i hi hp
    rcases Nat.eq_or_lt_of_le hi with rfl | hlt
    · exact hn hp
    · exact h i hlt hp
  | some j =>
    refine ⟨⟨Nat.le_of_succ_le h.1.1, h.1.2⟩, fun i hi => ?_⟩
    rcases Nat.eq_or_lt_of_le hi.1 with rfl | hlt
    · exact absurd hi.2 hn
    · exact h.2 ⟨hlt, hi.2⟩

/-- A place below a gap starts a run. It is not yet one of length two, as the
place above it is not in. -/
theorem Scanned.opened (h : Scanned P N len (n + 1) none) (hl : 2 ≤ len) (hp : P n) :
    Scanned P N len n (some n) ∧ ¬PairAt P N n := by
  have hgap := h.gap rfl
  have hpair : ¬PairAt P N n := by
    intro hpair
    rcases hgap with hN | hP
    · have := hpair.1
      omega
    · exact hP hpair.2.2
  refine ⟨⟨Nat.le_of_succ_le h.le, nofun, fun t ht => ?_, fun t ht => ?_, fun s hs hrun => ?_⟩,
    hpair⟩
  · obtain rfl := Option.some.inj ht
    refine ⟨Nat.le_refl _, h.le, by omega, fun r hr hr' => ?_⟩
    rw [Nat.le_antisymm hr' hr]
    exact hp
  · obtain rfl := Option.some.inj ht
    exact hgap
  · rcases Nat.eq_or_lt_of_le hs with rfl | hlt
    · exact hpair ⟨by have := hrun.1; omega, hp, hrun.2 _ (by omega) (by omega)⟩
    · exact h.noRun s hlt hrun

/-- A place that continues a run which stays too short. -/
theorem Scanned.extended (h : Scanned P N len (n + 1) (some t)) (hp : P n) (ht : t + 1 ≠ n + len) :
    Scanned P N len n (some t) := by
  obtain ⟨hle, hlt, hshort, hrun⟩ := h.run t rfl
  refine ⟨Nat.le_of_succ_le h.le, nofun, fun t' ht' => ?_, h.edge, fun s hs hs' => ?_⟩
  · obtain rfl := Option.some.inj ht'
    refine ⟨by omega, hlt, by omega, fun r hr hr' => ?_⟩
    rcases Nat.eq_or_lt_of_le hr with rfl | hnr
    · exact hp
    · exact hrun r hnr hr'
  · rcases Nat.eq_or_lt_of_le hs with rfl | hns
    · -- a run from here would go on above its own top
      rcases h.edge t rfl with hN | hP
      · have := hs'.1
        omega
      · exact hP (hs'.2 _ (by omega) (by omega))
    · exact h.noRun s hns hs'

/-- A gap ends the run. -/
theorem Scanned.closed (h : Scanned P N len (n + 1) top) (hl : 1 ≤ len) (hp : ¬P n) :
    Scanned P N len n none := by
  refine ⟨Nat.le_of_succ_le h.le, fun _ => Or.inr hp, nofun, nofun, fun s hs hrun => ?_⟩
  rcases Nat.eq_or_lt_of_le hs with rfl | hlt
  · exact hp (hrun.2 _ (Nat.le_refl _) (by omega))
  · exact h.noRun s hlt hrun

/-- A place that completes a run starts the highest one. -/
theorem Scanned.completed (h : Scanned P N len (n + 1) (some t)) (hp : P n) (hlo : lo ≤ n)
    (ht : t + 1 = n + len) : IsGreatest {s | lo ≤ s ∧ RunAt P N len s} n := by
  obtain ⟨hle, hlt, hshort, hrun⟩ := h.run t rfl
  refine ⟨⟨hlo, by omega, fun r hr hr' => ?_⟩, fun s hs => ?_⟩
  · rcases Nat.eq_or_lt_of_le hr with rfl | hnr
    · exact hp
    · exact hrun r hnr (by omega)
  · by_contra hns
    exact h.noRun s (by omega) hs.2

/-- What the places below find is found with one place more. -/
theorem Finds.step {start' : Option Nat} {r : Scan} (h : Finds P N len lo n start' r)
    (hseen : PairsSeen P N (n + 1) start → PairsSeen P N n start') :
    Finds P N len lo (n + 1) start r := by
  refine ⟨h.found, fun hf => ?_⟩
  obtain ⟨k, hk, hs, hpairs⟩ := h.none hf
  exact ⟨k, hk, hs, fun hstart => hpairs (hseen hstart)⟩

variable [DecidablePred P]

/-- A scan from above all places finds the highest run not below `lo`, by
induction on the places left, whatever `start` was before. -/
theorem scan_spec (lo : Nat) (hl : 2 ≤ len) : ∀ {n : Nat} {top : Option Nat} (start : Option Nat),
    Scanned P N len n top → Finds P N len lo n start (scan P len lo n top start) := by
  intro n
  induction n with
  | zero => exact fun _ h => ⟨nofun, fun _ => ⟨0, Nat.zero_le _, h, id⟩⟩
  | succ i ih =>
    intro top start h
    unfold scan
    by_cases hlo : i < lo
    · rw [if_pos hlo]
      exact ⟨nofun, fun _ => ⟨i + 1, hlo, h, id⟩⟩
    rw [if_neg hlo]
    by_cases hp : P i
    · rw [if_pos hp]
      cases top with
      | none =>
        obtain ⟨hopen, hpair⟩ := h.opened hl hp
        exact (ih start hopen).step fun hseen => hseen.skip hpair
      | some t =>
        obtain ⟨hle, hlt, -, hrun⟩ := h.run t rfl
        dsimp only
        by_cases ht : t + 1 = i + len
        · rw [if_pos ht]
          refine ⟨fun s hs => ?_, nofun⟩
          obtain rfl := Option.some.inj hs
          exact ⟨h.completed hp (Nat.le_of_not_lt hlo) ht, congrArg some (by omega), rfl⟩
        · rw [if_neg ht]
          -- the place and the one above it are the lowest pair
          have hpair : PairAt P N i := ⟨by omega, hp, hrun _ (Nat.le_refl _) (by omega)⟩
          exact (ih (some i) (h.extended hp ht)).step fun _ =>
            ⟨⟨Nat.le_refl _, hpair⟩, fun j hj => hj.1⟩
    · rw [if_neg hp]
      exact (ih start (h.closed (by omega) hp)).step fun hseen => hseen.skip fun h => hp h.2.1

/-- A scan that starts with a `top` of its own finds the highest run with a gap
above it, when no place it visits is `len` places below that `top`. -/
theorem scan_stale (lo : Nat) (hl : 2 ≤ len) (ht : t + 1 < lo + len) :
    ∀ (n : Nat) (start : Option Nat),
    match (scan P len lo n (some t) start).found with
    | some s => IsGreatest {s | lo ≤ s ∧ ∃ r < n, ¬P r ∧ RunAt P r len s} s
    | none => ∀ s, lo ≤ s → ∀ r < n, ¬P r → ¬RunAt P r len s := by
  intro n
  induction n with
  | zero => exact fun _ s _ r hr => absurd hr (Nat.not_lt_zero r)
  | succ i ih =>
    intro start
    unfold scan
    by_cases hlo : i < lo
    · rw [if_pos hlo]
      intro s hs r hr _ hrun
      have := hrun.1
      omega
    rw [if_neg hlo]
    by_cases hp : P i
    · rw [if_pos hp]
      dsimp only
      rw [if_neg (by omega)]
      -- the gaps below `i + 1` are those below `i`
      have hgap : ∀ r, (r < i + 1 ∧ ¬P r) ↔ (r < i ∧ ¬P r) := by
        intro r
        refine ⟨fun h => ⟨?_, h.2⟩, fun h => ⟨by omega, h.2⟩⟩
        exact Nat.lt_of_le_of_ne (Nat.le_of_lt_succ h.1) fun he => h.2 (he ▸ hp)
      have hih := ih (some i)
      cases hf : (scan P len lo i (some t) (some i)).found with
      | none =>
        rw [hf] at hih
        exact fun s hs r hr hr' => hih s hs r ((hgap r).mp ⟨hr, hr'⟩).1 hr'
      | some s =>
        rw [hf] at hih
        obtain ⟨⟨hs, r, hr, hr', hrun⟩, hmax⟩ := hih
        refine ⟨⟨hs, r, by omega, hr', hrun⟩, fun s' hs' => ?_⟩
        obtain ⟨hs', r', hr, hr', hrun⟩ := hs'
        exact hmax ⟨hs', r', ((hgap r').mp ⟨hr, hr'⟩).1, hr', hrun⟩
    · rw [if_neg hp]
      -- from the first gap on the scan is one that starts above all places left
      obtain ⟨hsome, hnone⟩ := scan_spec (P := P) lo hl start
        (Scanned.initial (N := i) (by omega))
      cases hf : (scan P len lo i none start).found with
      | none =>
        obtain ⟨k, hk, hs, -⟩ := hnone hf
        intro s hs' r hr hr' hrun
        exact hs.noRun s (by omega) ⟨by have := hrun.1; omega, hrun.2⟩
      | some s =>
        obtain ⟨hgreatest, -⟩ := hsome s hf
        refine ⟨⟨hgreatest.1.1, i, by omega, hp, hgreatest.1.2⟩, fun s' hs' => ?_⟩
        obtain ⟨hs', r, hr, hr', hrun⟩ := hs'
        exact hgreatest.2 ⟨hs', by have := hrun.1; omega, hrun.2⟩

end TopRun
