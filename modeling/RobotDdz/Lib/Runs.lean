import Mathlib.Data.List.Basic
import Mathlib.Data.List.Induction
import Mathlib.Algebra.GroupWithZero.Nat
import Mathlib.Algebra.Order.Group.Defs
import Mathlib.Algebra.BigOperators.Group.List.Basic

/-!
# Runs of a step function

A system is a step function on states and events, a run a list of events.
`Along P s es` says that every event of the run satisfies `P` in the state it
meets. `Along.inv` is the invariant rule: what holds at the start and is kept
by every such step holds in every state of the run. `Along.good_iff` is its
exact form.

Three kinds of conditions occur along a run, and they are kept apart. Some
steps cannot happen at all; a run that is not `Along` the others (`P`) is no
run of the system. A good state is what is to be shown. Steps that are as they
should be (`Q`) are what it is shown from. `Along.good_iff` then has two
obligations: a `Q` step keeps the invariant, and a step that is not `Q` leads
out of the good states. With both, the condition on the steps is exact.

`Along.history` is for invariants about the events so far, for instance a count
of them; `run_account` and `scanl_falls` are for quantities that the steps
spend.
-/

namespace Runs

variable {σ ε : Type} (f : σ → ε → σ)

/-- The state after a run. -/
def run (s : σ) (es : List ε) : σ := es.foldl f s

@[simp] theorem run_nil (s : σ) : run f s [] = s := rfl

@[simp] theorem run_cons (s : σ) (e : ε) (es : List ε) : run f s (e :: es) = run f (f s e) es := rfl

/-- Every event meets a state in which it is as `P` says. -/
def Along (P : σ → ε → Prop) : σ → List ε → Prop
  | _, [] => True
  | s, e :: es => P s e ∧ Along P (f s e) es

instance decidableAlong (P : σ → ε → Prop) [∀ s e, Decidable (P s e)] :
    ∀ (s : σ) (es : List ε), Decidable (Along f P s es)
  | _, [] => inferInstanceAs (Decidable True)
  | s, e :: es =>
    have := decidableAlong P (f s e) es
    inferInstanceAs (Decidable (_ ∧ _))

variable {f}

/-- The invariant rule. -/
theorem Along.inv {P : σ → ε → Prop} (I : σ → Prop)
    (hstep : ∀ s e, I s → P s e → I (f s e)) :
    ∀ {s : σ} {es : List ε}, Along f P s es → I s → I (run f s es) := by
  intro s es
  induction es generalizing s with
  | nil => intro _ h; exact h
  | cons e es ih =>
    intro ha h
    exact ih ha.2 (hstep s e h ha.1)

/-- A value that no step raises while the events have cost no more than `limit`
falls along the states of a run within it. The invariant knows what has been
spent. -/
theorem scanl_falls {β : Type} [Preorder β] (I : σ → Nat → Prop) (m : σ → β) (cost : ε → Nat)
    {limit : Nat} (hstep : ∀ s e n, n + cost e ≤ limit → I s n →
      I (f s e) (n + cost e) ∧ m (f s e) ≤ m s) :
    ∀ (es : List ε) {s : σ} {n : Nat}, n + (es.map cost).sum ≤ limit → I s n →
      ((es.scanl f s).map m).Pairwise (· ≥ ·) := by
  have hbelow : ∀ (es : List ε) {s : σ} {n : Nat}, n + (es.map cost).sum ≤ limit → I s n →
      ∀ t ∈ es.scanl f s, m t ≤ m s := by
    intro es
    induction es with
    | nil =>
      intro s n _ _ t ht
      exact le_of_eq (congrArg m (List.mem_singleton.mp ht))
    | cons e es ih =>
      intro s n hn hs t ht
      rw [List.map_cons, List.sum_cons] at hn
      obtain ⟨hs', hle⟩ := hstep s e n (by omega) hs
      rw [List.scanl_cons] at ht
      cases List.mem_cons.mp ht with
      | inl heq => exact le_of_eq (congrArg m heq)
      | inr hin => exact le_trans (ih (by omega) hs' t hin) hle
  intro es
  induction es with
  | nil => intro s n _ _; exact List.pairwise_singleton _ _
  | cons e es ih =>
    intro s n hn hs
    rw [List.map_cons, List.sum_cons] at hn
    obtain ⟨hs', hle⟩ := hstep s e n (by omega) hs
    rw [List.scanl_cons, List.map_cons, List.pairwise_cons]
    refine ⟨fun v hv => ?_, ih (by omega) hs'⟩
    obtain ⟨t, ht, rfl⟩ := List.mem_map.mp hv
    exact le_trans (hbelow es (by omega) hs' t ht) hle

/-- The rule for an account that no step overdraws: what each event may add is
a bound on what the run adds, and the run reaches it just when every step does. -/
theorem run_account {β : Type} [AddCommGroup β] [PartialOrder β] [IsOrderedAddMonoid β]
    (I : σ → Prop) (A : σ → β) {P : σ → ε → Prop} {W : ε → Prop} (w : ε → β)
    (hstep : ∀ s e, I s → W e → I (f s e) ∧ A (f s e) ≤ A s + w e ∧
      (A (f s e) = A s + w e ↔ P s e)) :
    ∀ (es : List ε) {s : σ}, (∀ e ∈ es, W e) → I s →
      I (run f s es) ∧ A (run f s es) ≤ A s + (es.map w).sum ∧
        (A (run f s es) = A s + (es.map w).sum ↔ Along f P s es) := by
  intro es
  induction es with
  | nil =>
    intro s _ hs
    rw [run_nil, List.map_nil, List.sum_nil, add_zero]
    exact ⟨hs, le_refl _, fun _ => trivial, fun _ => rfl⟩
  | cons e es ih =>
    intro s hw hs
    obtain ⟨hI, hle, hiff⟩ := hstep s e hs (hw e List.mem_cons_self)
    obtain ⟨hI', hle', hiff'⟩ := ih (fun e' he' => hw e' (List.mem_cons_of_mem e he')) hI
    have hmid : A (f s e) + (es.map w).sum ≤ A s + w e + (es.map w).sum :=
      add_le_add_left hle _
    rw [run_cons, List.map_cons, List.sum_cons, ← add_assoc]
    refine ⟨hI', le_trans hle' hmid, fun heq => ?_, fun hall => ?_⟩
    · -- what the rest reaches, the first step cannot have missed
      have hback : A s + w e + (es.map w).sum ≤ A (f s e) + (es.map w).sum := by
        rw [← heq]
        exact hle'
      have hfirst : A (f s e) = A s + w e := le_antisymm hle (le_of_add_le_add_right hback)
      refine ⟨hiff.mp hfirst, hiff'.mp ?_⟩
      rw [heq, hfirst]
    · rw [hiff'.mpr hall.2, hiff.mpr hall.1]

/-- What every step with the invariant keeps and satisfies holds along the run. -/
theorem along_of_inv {P : σ → ε → Prop} {W : ε → Prop} (I : σ → Prop)
    (hstep : ∀ s e, I s → W e → I (f s e) ∧ P s e) :
    ∀ {s : σ} {es : List ε}, (∀ e ∈ es, W e) → I s → I (run f s es) ∧ Along f P s es := by
  intro s es
  induction es generalizing s with
  | nil => intro _ hs; exact ⟨hs, trivial⟩
  | cons e es ih =>
    intro hw hs
    obtain ⟨hI, hP⟩ := hstep s e hs (hw e List.mem_cons_self)
    obtain ⟨hI', hrest⟩ := ih (fun e' he' => hw e' (List.mem_cons_of_mem e he')) hI
    exact ⟨hI', hP, hrest⟩

theorem Along.and {P Q : σ → ε → Prop} : ∀ {s : σ} {es : List ε},
    Along f P s es → Along f Q s es → Along f (fun s e => P s e ∧ Q s e) s es := by
  intro s es
  induction es generalizing s with
  | nil => intro _ _; trivial
  | cons e es ih =>
    intro hp hq
    exact ⟨⟨hp.1, hq.1⟩, ih hp.2 hq.2⟩

/-- A run in two parts. -/
theorem run_append (s : σ) (es es' : List ε) :
    run f s (es ++ es') = run f (run f s es) es' := List.foldl_append ..

/-- A condition along a run in two parts is one along each. -/
theorem along_append {P : σ → ε → Prop} : ∀ {s : σ} {es es' : List ε},
    Along f P s (es ++ es') ↔ Along f P s es ∧ Along f P (run f s es) es' := by
  intro s es es'
  induction es generalizing s with
  | nil => exact ⟨fun h => ⟨trivial, h⟩, fun h => h.2⟩
  | cons e es ih =>
    show P s e ∧ Along f P (f s e) (es ++ es') ↔ (P s e ∧ Along f P (f s e) es) ∧ _
    rw [ih, and_assoc]
    exact Iff.rfl

/-- The invariant rule for an invariant that speaks about the events so far. -/
theorem Along.history {P : σ → ε → Prop} (I : List ε → σ → Prop) {s : σ} (h0 : I [] s)
    (hstep : ∀ es t e, I es t → P t e → I (es ++ [e]) (f t e)) :
    ∀ {es : List ε}, Along f P s es → I es (run f s es) := by
  intro es
  induction es using List.reverseRecOn with
  | nil => intro _; exact h0
  | append_singleton es e ih =>
    intro ha
    obtain ⟨hpre, hlast, -⟩ := along_append.mp ha
    rw [run_append]
    exact hstep es _ e (ih hpre) hlast

/-- A condition along a run holds along its beginnings. -/
theorem Along.start {P : σ → ε → Prop} {s : σ} {es pre : List ε} (h : Along f P s es)
    (hpre : pre <+: es) : Along f P s pre := by
  obtain ⟨rest, rfl⟩ := hpre
  exact (along_append.mp h).1

/-- Two conditions that agree wherever an invariant holds agree along every
run. -/
theorem along_congr {P Q : σ → ε → Prop} {W : ε → Prop} (I : σ → Prop)
    (hiff : ∀ s e, I s → W e → (P s e ↔ Q s e)) (hstep : ∀ s e, I s → W e → I (f s e)) :
    ∀ {s : σ} {es : List ε}, (∀ e ∈ es, W e) → I s → (Along f P s es ↔ Along f Q s es) := by
  intro s es
  induction es generalizing s with
  | nil => intro _ _; exact Iff.rfl
  | cons e es ih =>
    intro hw h
    have he := hw e List.mem_cons_self
    have hrest := ih (fun e' he' => hw e' (List.mem_cons_of_mem e he')) (hstep s e h he)
    exact and_congr (hiff s e h he) hrest

/-- The exact rule. If `Q` steps keep an invariant that makes a state good, and
a step into a good state is a `Q` step, a run visits good states only just when
all its steps are `Q` steps. -/
theorem Along.good_iff {P Q : σ → ε → Prop} (I Good : σ → Prop) (hgood : ∀ s, I s → Good s)
    (hstep : ∀ s e, I s → P s e → Q s e → I (f s e))
    (hback : ∀ s e, I s → P s e → Good (f s e) → Q s e) :
    ∀ {s : σ} {es : List ε}, Along f P s es → I s →
      ((∀ pre, pre <+: es → Good (run f s pre)) ↔ Along f Q s es) := by
  intro s es
  induction es generalizing s with
  | nil =>
    intro _ h
    refine ⟨fun _ => trivial, fun _ pre hpre => ?_⟩
    rw [List.prefix_nil.mp hpre]
    exact hgood s h
  | cons e es ih =>
    intro ha h
    constructor
    · intro hall
      have hq : Q s e := hback s e h ha.1 (hall [e] (List.prefix_append [e] es))
      refine ⟨hq, (ih ha.2 (hstep s e h ha.1 hq)).mp fun pre hpre => ?_⟩
      exact hall (e :: pre) (List.cons_prefix_cons.mpr ⟨rfl, hpre⟩)
    · intro hq pre hpre
      cases pre with
      | nil => exact hgood s h
      | cons e' pre =>
        obtain ⟨rfl, hrest⟩ := List.cons_prefix_cons.mp hpre
        exact (ih ha.2 (hstep s _ h ha.1 hq.1)).mpr hq.2 pre hrest

/-- Two conditions that agree at every allowed event of a state with the
invariant agree along a run, when either of them keeps the invariant. -/
theorem Along.congr {P Q R : σ → ε → Prop} (I : σ → Prop)
    (hiff : ∀ s e, I s → R s e → (P s e ↔ Q s e))
    (hstep : ∀ s e, I s → R s e → P s e → I (f s e)) :
    ∀ {s : σ} {es : List ε}, Along f R s es → I s → (Along f P s es ↔ Along f Q s es) := by
  intro s es
  induction es generalizing s with
  | nil => intro _ _; exact Iff.rfl
  | cons e es ih =>
    intro hr h
    have he := hiff s e h hr.1
    refine ⟨fun hp => ?_, fun hq => ?_⟩
    · exact ⟨he.mp hp.1, (ih hr.2 (hstep s e h hr.1 hp.1)).mp hp.2⟩
    · have hp := he.mpr hq.1
      exact ⟨hp, (ih hr.2 (hstep s e h hr.1 hp)).mpr hq.2⟩

/-- What every allowed step with the invariant keeps and satisfies holds along
the run. -/
theorem Along.imp_of_inv {P R : σ → ε → Prop} (I : σ → Prop)
    (hstep : ∀ s e, I s → R s e → I (f s e) ∧ P s e) :
    ∀ {s : σ} {es : List ε}, Along f R s es → I s → I (run f s es) ∧ Along f P s es := by
  intro s es
  induction es generalizing s with
  | nil => intro _ h; exact ⟨h, trivial⟩
  | cons e es ih =>
    intro hr h
    obtain ⟨hI, hP⟩ := hstep s e h hr.1
    obtain ⟨hend, hrest⟩ := ih hr.2 hI
    exact ⟨hend, hP, hrest⟩

/-- A measure that every step lowers until a goal is reached bounds the steps
before it. -/
theorem done_or_length_le (I Done : σ → Prop) (m : σ → Nat)
    (hstep : ∀ s e, I s → ¬Done s → I (f s e) ∧ m (f s e) < m s)
    (hdone : ∀ s e, Done s → Done (f s e)) :
    ∀ (es : List ε) {s : σ}, I s → Done (run f s es) ∨ es.length + m (run f s es) ≤ m s := by
  have hstays : ∀ (es : List ε) {s : σ}, Done s → Done (run f s es) := by
    intro es
    induction es with
    | nil => intro s h; exact h
    | cons e es ih => intro s h; exact ih (hdone s e h)
  intro es
  induction es with
  | nil => intro s _; exact .inr (Nat.le_of_eq (Nat.zero_add _))
  | cons e es ih =>
    intro s h
    by_cases hd : Done s
    · exact .inl (hstays (e :: es) hd)
    · obtain ⟨hI, hlt⟩ := hstep s e h hd
      refine (ih hI).imp_right fun hrest => ?_
      rw [List.length_cons, run_cons]
      omega

/-- A run is no longer than a measure that every event lowers. -/
theorem Along.length_le {P : σ → ε → Prop} (I : σ → Prop) (m : σ → Nat)
    (hstep : ∀ s e, I s → P s e → I (f s e) ∧ m (f s e) < m s) :
    ∀ {s : σ} {es : List ε}, Along f P s es → I s → es.length + m (run f s es) ≤ m s := by
  intro s es
  induction es generalizing s with
  | nil => intro _ _; exact Nat.le_of_eq (Nat.zero_add _)
  | cons e es ih =>
    intro ha h
    obtain ⟨hI, hlt⟩ := hstep s e h ha.1
    have hrest := ih ha.2 hI
    rw [List.length_cons, run_cons]
    omega

end Runs
