import Mathlib.Tactic

/-!
# Runs of a transition relation

A server that holds a lock during each call is a transition relation
`R : σ → ι → σ → Prop`: a call, with everything that its surroundings decide, is a label
`ι`. A *run* (`Gomi.Steps`) is a list of labels that leads from a state to another one.

A result that holds only of careful callers is about the runs whose every step meets a
condition, which may look at the state before the step: the runs of `Gomi.Under R C`. The
two rules that the proofs about runs use are `Gomi.Steps.invariant`, for what holds in every
state, and `Gomi.steps_append`, which cuts a run at a point, for what relates two points of
a run.

For a relation that is given by a function, `Gomi.execute` is its runs by evaluation.
-/

namespace Gomi

variable {σ ι : Type} {R S : σ → ι → σ → Prop} {s s' s'' : σ} {i : ι} {is js : List ι}

variable (R) in
/-- **The runs of a transition relation.** -/
inductive Steps : σ → List ι → σ → Prop
  /-- Nothing has happened. -/
  | nil (s : σ) : Steps s [] s
  /-- One step, and a run from where it leads. -/
  | cons {s s' s'' : σ} {i : ι} {is : List ι} (hstep : R s i s') (hrest : Steps s' is s'') :
      Steps s (i :: is) s''

@[simp] theorem steps_nil : Steps R s [] s' ↔ s = s' := by
  constructor
  · rintro ⟨⟩
    rfl
  · rintro rfl
    exact Steps.nil s

theorem steps_cons : Steps R s (i :: is) s'' ↔ ∃ s', R s i s' ∧ Steps R s' is s'' := by
  constructor
  · rintro ⟨⟩
    exact ⟨_, ‹_›, ‹_›⟩
  · rintro ⟨s', hstep, hrest⟩
    exact Steps.cons hstep hrest

/-- **A run can be cut at any point.** -/
theorem steps_append : Steps R s (is ++ js) s'' ↔ ∃ s', Steps R s is s' ∧ Steps R s' js s'' := by
  induction is generalizing s with
  | nil => simp
  | cons i is ih =>
    simp only [List.cons_append, steps_cons, ih]
    constructor
    · rintro ⟨s₁, h₁, s₂, h₂, h₃⟩
      exact ⟨s₂, ⟨s₁, h₁, h₂⟩, h₃⟩
    · rintro ⟨s₂, ⟨s₁, h₁, h₂⟩, h₃⟩
      exact ⟨s₁, h₁, s₂, h₂, h₃⟩

/-- **The invariant rule.** -/
theorem Steps.invariant {I : σ → Prop} (hstep : ∀ {s i s'}, R s i s' → I s → I s')
    (h : Steps R s is s') (hs : I s) : I s' := by
  induction h with
  | nil => exact hs
  | cons h₁ _ ih => exact ih (hstep h₁ hs)

/-- **The steps that meet a condition** on the state before the step and on its label. -/
def Under (R : σ → ι → σ → Prop) (C : σ → ι → Prop) (s : σ) (i : ι) (s' : σ) : Prop :=
  R s i s' ∧ C s i

/-- A run whose labels all meet a condition. -/
theorem Steps.under {C : ι → Prop} (h : Steps R s is s') (hC : ∀ i ∈ is, C i) :
    Steps (Under R fun _ => C) s is s' := by
  induction h with
  | nil => exact Steps.nil _
  | cons h₁ _ ih =>
    refine Steps.cons ⟨h₁, hC _ List.mem_cons_self⟩ (ih fun i hi => ?_)
    exact hC i (List.mem_cons_of_mem _ hi)

/-! ### Functions -/

/-- A run of a partial function, by evaluation. -/
def execute (step : σ → ι → Option σ) : σ → List ι → Option σ
  | s, [] => some s
  | s, i :: is => (step s i).bind fun s' => execute step s' is

/-- The relation of a partial function. -/
def Graph (step : σ → ι → Option σ) (s : σ) (i : ι) (s' : σ) : Prop := step s i = some s'

/-- **The runs of a function are its evaluations.** -/
theorem steps_graph {step : σ → ι → Option σ} :
    Steps (Graph step) s is s' ↔ execute step s is = some s' := by
  induction is generalizing s with
  | nil => simp [execute]
  | cons i is ih => simp [steps_cons, execute, ih, Graph, Option.bind_eq_some_iff]

/-- An evaluation whose every step passes a check. -/
def executeUnder (step : σ → ι → Option σ) (ok : σ → ι → Bool) : σ → List ι → Option σ
  | s, [] => some s
  | s, i :: is => if ok s i then (step s i).bind fun s' => executeUnder step ok s' is else none

/-- An evaluation in which every step is checked for a condition is a run under it. -/
theorem steps_under_of_execute {step : σ → ι → Option σ} {C : σ → ι → Prop} [∀ s i, Decidable (C s i)]
    (h : executeUnder step (fun s i => decide (C s i)) s is = some s') :
    Steps (Under (Graph step) C) s is s' := by
  induction is generalizing s with
  | nil =>
    obtain rfl : s = s' := by simpa [executeUnder] using h
    exact Steps.nil s
  | cons i is ih =>
    rw [executeUnder] at h
    split at h
    · rename_i hi
      obtain ⟨s₁, h₁, h₂⟩ := Option.bind_eq_some_iff.mp h
      exact Steps.cons ⟨h₁, of_decide_eq_true hi⟩ (ih h₂)
    · cases h

end Gomi
