import Mathlib.Logic.Function.Basic
import Mathlib.Data.List.Basic

/-!
# Imperative loops as structural recursions

The three loop shapes a C-like program is written with, as executable
functions over an explicit state, and one proof rule for each:

* `whileLoop cond body fuel s` is `while (cond) body`, cut off after `fuel`
  rounds. `whileLoop_inv` carries an invariant through it whatever the fuel;
  `whileLoop_exit` shows that a variant bounded by the fuel makes the cut-off
  unreachable, so that the loop condition is false at the end.
* `forUp body lo n s` is `for (i = lo; i < lo + n; ++i) body(i)`, with
  `forUp_inv` for an invariant indexed by the loop counter.
* `mapState f s xs` is the loop over a vector that rewrites each element while
  it updates a shared state, with `mapState_inv` for an invariant that relates
  the state, the part already rewritten and the part still to come.

Everything recurses on a `Nat` or on the list, so the loops evaluate in the
kernel.

The rules are stated for relations and predicates of any kind, so that one rule
serves an invariant, a bound and a simulation. Where two programs run the same
loop over different states, `whileLoop_rel` and `forUp_rel` carry a relation
between them, which is how frames and congruences are proved in this
development.
-/

namespace Loops

variable {σ α β : Type}

/-- `while (cond s) s = body s`, at most `fuel` rounds. -/
def whileLoop (cond : σ → Bool) (body : σ → σ) : (fuel : Nat) → σ → σ
  | 0, s => s
  | fuel + 1, s => if cond s then whileLoop cond body fuel (body s) else s

/-- The while rule for partial correctness: what one round preserves, the loop
preserves. -/
theorem whileLoop_inv {c : σ → Bool} {b : σ → σ} (I : σ → Prop)
    (hstep : ∀ s, I s → c s = true → I (b s)) :
    ∀ (fuel : Nat) {s : σ}, I s → I (whileLoop c b fuel s) := by
  intro fuel
  induction fuel with
  | zero => intro s hs; exact hs
  | succ fuel ih =>
    intro s hs
    unfold whileLoop
    split
    next hc => exact ih (hstep s hs hc)
    next => exact hs

/-- The while rule for termination: a variant that every round lowers and that
the fuel bounds leaves the loop with its condition false. -/
theorem whileLoop_exit {c : σ → Bool} {b : σ → σ} (I : σ → Prop) (μ : σ → Nat)
    (hstep : ∀ s, I s → c s = true → I (b s) ∧ μ (b s) < μ s) :
    ∀ (fuel : Nat) {s : σ}, I s → μ s ≤ fuel → c (whileLoop c b fuel s) = false := by
  intro fuel
  induction fuel with
  | zero =>
    intro s hs hμ
    unfold whileLoop
    cases hc : c s with
    | false => rfl
    | true => have := (hstep s hs hc).2; omega
  | succ fuel ih =>
    intro s hs hμ
    unfold whileLoop
    split
    next hc =>
      obtain ⟨hI, hlt⟩ := hstep s hs hc
      exact ih hI (by omega)
    next hc => simpa using hc

/-- A loop that has ended stays as it is with more fuel: the condition is false
from there on, so the rounds that are left do nothing. -/
theorem whileLoop_more {c : σ → Bool} {b : σ → σ} :
    ∀ (fuel more : Nat) {s : σ}, c (whileLoop c b fuel s) = false → fuel ≤ more →
      whileLoop c b more s = whileLoop c b fuel s := by
  intro fuel
  induction fuel with
  | zero =>
    intro more s hend _
    have hc : c s = false := hend
    cases more with
    | zero => rfl
    | succ more =>
      show (if c s then _ else s) = s
      rw [hc]
      rfl
  | succ fuel ih =>
    intro more s hend hle
    obtain ⟨more, rfl⟩ := Nat.exists_eq_add_of_le' (Nat.le_trans (Nat.le_add_left 1 fuel) hle)
    unfold whileLoop at hend ⊢
    split
    next hc =>
      rw [if_pos hc] at hend
      exact ih more hend (by omega)
    next => rfl

/-- Two loops that agree where an invariant holds end in the same state. -/
theorem whileLoop_congr {c c' : σ → Bool} {b b' : σ → σ} (I : σ → Prop)
    (hcond : ∀ s, I s → c s = c' s) (hbody : ∀ s, I s → c s = true → b s = b' s)
    (hstep : ∀ s, I s → c s = true → I (b s)) :
    ∀ (fuel : Nat) {s : σ}, I s → whileLoop c b fuel s = whileLoop c' b' fuel s := by
  intro fuel
  induction fuel with
  | zero => intro s _; rfl
  | succ fuel ih =>
    intro s hs
    unfold whileLoop
    rw [← hcond s hs]
    split
    next hc =>
      rw [← hbody s hs hc]
      exact ih (hstep s hs hc)
    next => rfl

/-- Two loops over related states take the same rounds and end in related
states. -/
theorem whileLoop_rel {τ : Type} {c : σ → Bool} {c' : τ → Bool} {b : σ → σ} {b' : τ → τ}
    (R : σ → τ → Prop) (hcond : ∀ s t, R s t → c s = c' t)
    (hstep : ∀ s t, R s t → c s = true → R (b s) (b' t)) :
    ∀ (fuel : Nat) {s : σ} {t : τ}, R s t → R (whileLoop c b fuel s) (whileLoop c' b' fuel t) := by
  intro fuel
  induction fuel with
  | zero => intro s t h; exact h
  | succ fuel ih =>
    intro s t h
    unfold whileLoop
    rw [← hcond s t h]
    split
    next hc => exact ih (hstep s t h hc)
    next => exact h

/-- `for (i = lo; i < lo + n; ++i) s = body i s`. -/
def forUp (body : Nat → σ → σ) : (lo n : Nat) → σ → σ
  | _, 0, s => s
  | lo, n + 1, s => forUp body (lo + 1) n (body lo s)

/-- The for rule: `I i s` describes the state before round `i`. -/
theorem forUp_inv {b : Nat → σ → σ} (I : Nat → σ → Prop) :
    ∀ (lo n : Nat) {s : σ},
      (∀ i s, lo ≤ i → i < lo + n → I i s → I (i + 1) (b i s)) →
      I lo s → I (lo + n) (forUp b lo n s) := by
  intro lo n
  induction n generalizing lo with
  | zero => intro s _ h0; exact h0
  | succ n ih =>
    intro s hstep h0
    unfold forUp
    have h1 := hstep lo s (Nat.le_refl _) (by omega) h0
    have h2 := ih (lo + 1) (fun i s hi hin => hstep i s (by omega) (by omega)) h1
    rwa [show lo + 1 + n = lo + (n + 1) by omega] at h2

/-- Two for loops over related states end in related states. -/
theorem forUp_rel {τ : Type} {b : Nat → σ → σ} {b' : Nat → τ → τ} (R : σ → τ → Prop) :
    ∀ (lo n : Nat) {s : σ} {t : τ},
      (∀ i s t, lo ≤ i → i < lo + n → R s t → R (b i s) (b' i t)) →
      R s t → R (forUp b lo n s) (forUp b' lo n t) := by
  intro lo n
  induction n generalizing lo with
  | zero => intro s t _ h; exact h
  | succ n ih =>
    intro s t hstep h
    unfold forUp
    exact ih (lo + 1) (fun i s t hi hin => hstep i s t (by omega) (by omega))
      (hstep lo s t (Nat.le_refl _) (by omega) h)

/-- `for (x : xs) { (s, x) = f(s, x); }`: the elements are rewritten in place
while the state is threaded through. -/
def mapState (f : σ → α → σ × β) : σ → List α → σ × List β
  | s, [] => (s, [])
  | s, x :: xs => ((mapState f (f s x).1 xs).1, (f s x).2 :: (mapState f (f s x).1 xs).2)

/-- The rule for `mapState`: `I s done todo` relates the state to the elements
already rewritten and to those still to come. -/
theorem mapState_inv {f : σ → α → σ × β} (I : σ → List β → List α → Prop)
    (hstep : ∀ s ys x xs, I s ys (x :: xs) → I (f s x).1 (ys ++ [(f s x).2]) xs) :
    ∀ (xs : List α) {s : σ} (ys : List β), I s ys xs →
      I (mapState f s xs).1 (ys ++ (mapState f s xs).2) [] := by
  intro xs
  induction xs with
  | nil => intro s ys h; simpa [mapState] using h
  | cons x xs ih =>
    intro s ys h
    have := ih _ (hstep s ys x xs h)
    simpa [mapState] using this

theorem length_mapState (f : σ → α → σ × β) (xs : List α) : ∀ s : σ,
    (mapState f s xs).2.length = xs.length := by
  induction xs with
  | nil => exact fun s => rfl
  | cons x xs ih =>
    intro s
    exact congrArg (· + 1) (ih (f s x).1)

/-- A rewriting of the second components. -/
def onSecond {γ : Type} (f : σ → β → σ × γ) (s : σ) (x : α × β) : σ × α × γ :=
  ((f s x.2).1, x.1, (f s x.2).2)

/-- Beside labels the loop goes through the same states and rewrites the same
elements. -/
theorem mapState_onSecond {γ : Type} (f : σ → β → σ × γ) (xs : List (α × β)) : ∀ s : σ,
    (mapState (onSecond f) s xs).1 = (mapState f s (xs.map Prod.snd)).1 ∧
      (mapState (onSecond f) s xs).2.map Prod.snd = (mapState f s (xs.map Prod.snd)).2 ∧
      (mapState (onSecond f) s xs).2.map Prod.fst = xs.map Prod.fst := by
  induction xs with
  | nil => exact fun s => ⟨rfl, rfl, rfl⟩
  | cons x xs ih =>
    intro s
    obtain ⟨h1, h2, h3⟩ := ih (f s x.2).1
    exact ⟨h1, congrArg ((f s x.2).2 :: ·) h2, congrArg (x.1 :: ·) h3⟩

end Loops
