import Mathlib.Data.List.Basic
import Mathlib.Tactic.Common

/-!
# Checked computations

A pipeline of checks is a computation in `Except`: each check either hands a
value to the next or stops with an error.  The lemmas here read a successful
pipeline backwards: from the success of the whole they give the success of
each check, with the value it handed on.
-/

namespace Checked

variable {ε α β : Type}

/-- Continue when the condition holds, else stop with the error. -/
def ensure (condition : Prop) [Decidable condition] (error : ε) : Except ε Unit :=
  if condition then .ok () else .error error

/-- Take the value of an option, else stop with the error. -/
def okOr (value : Option α) (error : ε) : Except ε α :=
  match value with
  | some found => .ok found
  | none => .error error

/-- Replace the error of a failed computation. -/
def mapErr {δ : Type} (relabel : ε → δ) (computation : Except ε α) : Except δ α :=
  match computation with
  | .ok value => .ok value
  | .error error => .error (relabel error)

/-- The value of a computation, or a default when it failed. -/
def unwrapOr (fallback : α) (computation : Except ε α) : α :=
  match computation with
  | .ok value => value
  | .error _ => fallback

@[simp]
theorem ensure_eq_ok {condition : Prop} [Decidable condition] {error : ε} {value : Unit} :
    ensure condition error = .ok value ↔ condition := by
  unfold ensure
  split <;> simp_all

@[simp]
theorem okOr_eq_ok {value : Option α} {error : ε} {found : α} :
    okOr value error = .ok found ↔ value = some found := by
  cases value <;> simp [okOr]

@[simp]
theorem mapErr_eq_ok {δ : Type} {relabel : ε → δ} {computation : Except ε α} {value : α} :
    mapErr relabel computation = .ok value ↔ computation = .ok value := by
  cases computation <;> simp [mapErr]

@[simp]
theorem bind_eq_ok {computation : Except ε α} {next : α → Except ε β} {value : β} :
    (computation >>= next) = .ok value ↔
      ∃ middle, computation = .ok middle ∧ next middle = .ok value := by
  cases computation <;> simp [bind, Except.bind]

@[simp]
theorem pure_eq_ok {value result : α} :
    (pure value : Except ε α) = .ok result ↔ value = result := by
  simp [pure, Except.pure]

/-! ## Which errors may come -/

/-- Every error of the computation is allowed. -/
def Fails (allowed : ε → Prop) (computation : Except ε α) : Prop :=
  ∀ error, computation = .error error → allowed error

variable {allowed : ε → Prop}

theorem Fails.pure {value : α} : Fails allowed (Pure.pure value : Except ε α) :=
  fun _ failed => nomatch failed

theorem Fails.ensure
    {condition : Prop} [Decidable condition] {error : ε}
    (may : ¬ condition → allowed error) : Fails allowed (ensure condition error) := by
  intro found failed
  unfold Checked.ensure at failed
  split at failed
  · exact nomatch failed
  · rename_i absent
    cases failed
    exact may absent

theorem Fails.okOr {value : Option α} {error : ε} (may : allowed error) :
    Fails allowed (okOr value error) := by
  intro found failed
  cases value with
  | none =>
      cases failed
      exact may
  | some value =>
      exact nomatch failed

theorem Fails.mapErr
    {δ : Type} {relabel : ε → δ} {computation : Except ε α} {relabelled : δ → Prop}
    (fails : Fails allowed computation)
    (may : ∀ error, allowed error → relabelled (relabel error)) :
    Fails relabelled (mapErr relabel computation) := by
  intro found failed
  cases computation with
  | ok value =>
      exact nomatch failed
  | error error =>
      cases failed
      exact may error (fails error rfl)

theorem Fails.bind
    {computation : Except ε α} {next : α → Except ε β} (first : Fails allowed computation)
    (second : ∀ value, computation = .ok value → Fails allowed (next value)) :
    Fails allowed (computation >>= next) := by
  intro error failed
  cases found : computation with
  | ok value =>
      rw [found] at failed
      exact second value found error failed
  | error other =>
      rw [found] at failed
      cases failed
      exact first error found

end Checked
