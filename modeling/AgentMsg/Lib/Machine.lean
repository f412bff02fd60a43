import Mathlib.Data.List.Induction
import Mathlib.Tactic.Common

/-!
# Machines that take one step after another

A machine is a step function.  A condition on the steps of a run is a condition on each
step in the state it is taken in, and an invariant that such steps keep holds in every
state the run reaches.
-/

namespace Machine

variable {σ ι : Type}

/-- Take the steps one after another. -/
def run (step : σ → ι → σ) (state : σ) (steps : List ι) : σ :=
  steps.foldl step state

variable {step : σ → ι → σ} {state : σ}

@[simp]
theorem run_nil : run step state [] = state :=
  rfl

@[simp]
theorem run_cons {item : ι} {steps : List ι} :
    run step state (item :: steps) = run step (step state item) steps :=
  rfl

theorem run_append {earlier later : List ι} :
    run step state (earlier ++ later) = run step (run step state earlier) later :=
  List.foldl_append

theorem run_concat {earlier : List ι} {item : ι} :
    run step state (earlier ++ [item]) = step (run step state earlier) item :=
  run_append

/-- Every step of the run meets the condition in the state it is taken in. -/
def EveryStep (step : σ → ι → σ) (condition : σ → ι → Prop) (state : σ) (steps : List ι) :
    Prop :=
  ∀ earlier item later, steps = earlier ++ item :: later →
    condition (run step state earlier) item

variable {condition : σ → ι → Prop} {steps : List ι}

theorem everyStep_nil : EveryStep step condition state [] := by
  intro earlier item later split
  simp at split

theorem everyStep_cons
    {item : ι} (here : condition state item)
    (rest : EveryStep step condition (step state item) steps) :
    EveryStep step condition state (item :: steps) := by
  intro earlier other later split
  cases earlier with
  | nil =>
      cases split
      exact here
  | cons first earlier =>
      cases split
      exact rest earlier other later rfl

theorem everyStep_cons_iff
    {item : ι} :
    EveryStep step condition state (item :: steps) ↔
      condition state item ∧ EveryStep step condition (step state item) steps := by
  constructor
  · intro every
    refine ⟨every [] item steps rfl, ?_⟩
    rintro earlier other later rfl
    exact every (item :: earlier) other later rfl
  · exact fun every => everyStep_cons every.1 every.2

theorem EveryStep.head
    {item : ι} (every : EveryStep step condition state (item :: steps)) : condition state item :=
  (everyStep_cons_iff.mp every).1

theorem EveryStep.tail
    {item : ι} (every : EveryStep step condition state (item :: steps)) :
    EveryStep step condition (step state item) steps :=
  (everyStep_cons_iff.mp every).2

theorem everyStep_append_iff
    {earlier later : List ι} :
    EveryStep step condition state (earlier ++ later) ↔
      EveryStep step condition state earlier ∧
        EveryStep step condition (run step state earlier) later := by
  induction earlier generalizing state with
  | nil =>
      exact (and_iff_right everyStep_nil).symm
  | cons item earlier inductionHypothesis =>
      rw [List.cons_append, everyStep_cons_iff, everyStep_cons_iff, inductionHypothesis,
        run_cons, and_assoc]

theorem EveryStep.initial
    {earlier later : List ι} (every : EveryStep step condition state (earlier ++ later)) :
    EveryStep step condition state earlier :=
  (everyStep_append_iff.mp every).1

theorem EveryStep.later
    {earlier later : List ι} (every : EveryStep step condition state (earlier ++ later)) :
    EveryStep step condition (run step state earlier) later :=
  (everyStep_append_iff.mp every).2

theorem EveryStep.last
    {earlier : List ι} {item : ι} (every : EveryStep step condition state (earlier ++ [item])) :
    condition (run step state earlier) item :=
  every earlier item [] rfl

/-- A condition on the steps alone. -/
theorem everyStep_of_forall
    (all : ∀ item ∈ steps, ∀ reached, condition reached item) :
    EveryStep step condition state steps := by
  rintro earlier item later rfl
  exact all item (by simp) _

theorem everyStep_congr
    {other : σ → ι → Prop} (same : ∀ state item, condition state item ↔ other state item) :
    EveryStep step condition state steps ↔ EveryStep step other state steps := by
  simp only [EveryStep, same]

/-- What holds at the start and is kept by the steps holds in the end. -/
theorem EveryStep.invariant
    {holds : σ → Prop} (every : EveryStep step condition state steps) (start : holds state)
    (keeps : ∀ state item, holds state → condition state item → holds (step state item)) :
    holds (run step state steps) := by
  induction steps using List.reverseRecOn with
  | nil =>
      exact start
  | append_singleton earlier item inductionHypothesis =>
      rw [run_concat]
      exact keeps _ item (inductionHypothesis every.initial) every.last

/-- What holds at the start and is kept by all steps holds in every run. -/
theorem run_invariant
    {holds : σ → Prop} (start : holds state)
    (keeps : ∀ state item, holds state → holds (step state item)) (steps : List ι) :
    holds (run step state steps) := by
  have every : EveryStep step (fun _ _ => True) state steps := fun _ _ _ _ => trivial
  exact every.invariant start fun state item before _ => keeps state item before

/-! ## Flags -/

/-- Every step that raises a flag is followed by one that clears it. -/
def Cleared (step : σ → ι → σ) (raises clears : σ → ι → Prop) (state : σ) (steps : List ι) :
    Prop :=
  ∀ earlier item later, steps = earlier ++ item :: later →
    raises (run step state earlier) item →
    ∃ before other after, later = before ++ other :: after ∧
      clears (run step state (earlier ++ item :: before)) other

section Flags

variable {raises clears : σ → ι → Prop}

theorem Cleared.concat_of_clears
    {item : ι} (ends : clears (run step state steps) item)
    (single : ¬ raises (run step state steps) item) :
    Cleared step raises clears state (steps ++ [item]) := by
  intro earlier raising later split raised
  rcases List.eq_nil_or_concat later with rfl | ⟨before, last, rfl⟩
  · obtain ⟨rfl, same⟩ := List.append_inj' split rfl
    cases same
    exact absurd raised single
  · rw [List.concat_eq_append, ← List.cons_append, ← List.append_assoc] at split
    obtain ⟨rfl, same⟩ := List.append_inj' split rfl
    cases same
    exact ⟨before, item, [], List.concat_eq_append, ends⟩

theorem cleared_concat_iff
    {item : ι} (raisesNot : ¬ raises (run step state steps) item)
    (clearsNot : ¬ clears (run step state steps) item) :
    Cleared step raises clears state (steps ++ [item]) ↔
      Cleared step raises clears state steps := by
  constructor
  · rintro cleared earlier raising later rfl raised
    obtain ⟨before, other, after, split, ends⟩ :=
      cleared earlier raising (later ++ [item]) (by simp) raised
    rcases List.eq_nil_or_concat after with rfl | ⟨rest, last, rfl⟩
    · obtain ⟨rfl, same⟩ := List.append_inj' split rfl
      cases same
      exact absurd ends clearsNot
    · rw [List.concat_eq_append, ← List.cons_append, ← List.append_assoc] at split
      obtain ⟨rfl, _⟩ := List.append_inj' split rfl
      exact ⟨before, other, rest, rfl, ends⟩
  · intro cleared earlier raising later split raised
    rcases List.eq_nil_or_concat later with rfl | ⟨rest, last, rfl⟩
    · obtain ⟨rfl, same⟩ := List.append_inj' split rfl
      cases same
      exact absurd raised raisesNot
    · rw [List.concat_eq_append, ← List.cons_append, ← List.append_assoc] at split
      obtain ⟨rfl, same⟩ := List.append_inj' split rfl
      cases same
      obtain ⟨before, other, after, rfl, ends⟩ := cleared earlier raising rest rfl raised
      exact ⟨before, other, after ++ [item], by simp, ends⟩

/-- A flag that is down at the start is down in the end exactly when it was cleared each
time after it was raised. -/
theorem cleared_iff
    {flag : σ → Prop} (start : ¬ flag state)
    (raised : ∀ state item, raises state item → flag (step state item))
    (cleared : ∀ state item, clears state item → ¬ flag (step state item))
    (kept : ∀ state item, ¬ raises state item → ¬ clears state item →
      (flag (step state item) ↔ flag state)) :
    Cleared step raises clears state steps ↔ ¬ flag (run step state steps) := by
  induction steps using List.reverseRecOn with
  | nil =>
      refine iff_of_true ?_ start
      intro earlier item later split
      simp at split
  | append_singleton earlier item inductionHypothesis =>
      rw [run_concat]
      by_cases raising : raises (run step state earlier) item
      · refine iff_of_false (fun all => ?_) (not_not_intro (raised _ _ raising))
        obtain ⟨before, other, after, split, _⟩ := all earlier item [] rfl raising
        simp at split
      · by_cases clearing : clears (run step state earlier) item
        · exact iff_of_true (Cleared.concat_of_clears clearing raising) (cleared _ _ clearing)
        · rw [cleared_concat_iff raising clearing, kept _ _ raising clearing]
          exact inductionHypothesis

end Flags

end Machine
