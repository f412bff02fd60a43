import Mathlib.Data.List.Induction

/-!
# Registers that keep the newest value

A register takes a value unless the one it holds has a greater rank.  After a list of
values it holds the last of those with the greatest rank.  When no two values have the
same rank, neither their order nor repetitions matter.
-/

namespace Latest

variable {α β ι : Type} {rank : α → ι}

section Keep

variable [LE ι] [DecidableLE ι]

/-- Take a value unless a newer one is held. -/
def keep (rank : α → ι) (held : Option α) (value : α) : Option α :=
  match held with
  | none => some value
  | some old => if rank old ≤ rank value then some value else some old

/-- What a register holds after some values. -/
def latest (rank : α → ι) (values : List α) : Option α :=
  values.foldl (keep rank) none

theorem latest_append_singleton (values : List α) (value : α) :
    latest rank (values ++ [value]) = keep rank (latest rank values) value := by
  rw [latest, List.foldl_append]
  rfl

theorem latest_eq_none {values : List α} : latest rank values = none ↔ values = [] := by
  induction values using List.reverseRecOn with
  | nil =>
      exact iff_of_true rfl rfl
  | append_singleton values value inductionHypothesis =>
      refine iff_of_false ?_ (List.append_ne_nil_of_right_ne_nil values (List.cons_ne_nil _ _))
      rw [latest_append_singleton]
      unfold keep
      split
      · exact Option.some_ne_none _
      · split <;> exact Option.some_ne_none _

/-- What is not ranked may be forgotten before or after. -/
theorem map_latest {smaller : β → ι} {forget : α → β}
    (ranks : ∀ value, smaller (forget value) = rank value) (values : List α) :
    (latest rank values).map forget = latest smaller (values.map forget) := by
  induction values using List.reverseRecOn with
  | nil =>
      rfl
  | append_singleton values value inductionHypothesis =>
      rw [latest_append_singleton, List.map_append, List.map_singleton, latest_append_singleton,
        ← inductionHypothesis]
      cases latest rank values with
      | none => rfl
      | some old =>
          simp only [keep, Option.map_some, ranks]
          split <;> rfl

end Keep

section Order

variable [LE ι] [LT ι]

/-- The value is the last one of those with the greatest rank. -/
def IsLatest (rank : α → ι) (values : List α) (value : α) : Prop :=
  ∃ before after, values = before ++ value :: after ∧
    (∀ earlier ∈ before, rank earlier ≤ rank value) ∧
    ∀ later ∈ after, rank later < rank value

theorem IsLatest.mem {values : List α} {value : α} (last : IsLatest rank values value) :
    value ∈ values := by
  obtain ⟨before, after, rfl, -, -⟩ := last
  exact List.mem_append_right before List.mem_cons_self

variable [Std.IsLinearOrder ι] [Std.LawfulOrderLT ι]

theorem IsLatest.le {values : List α} {value other : α} (last : IsLatest rank values value)
    (member : other ∈ values) : rank other ≤ rank value := by
  obtain ⟨before, after, rfl, earlier, later⟩ := last
  rcases List.mem_append.mp member with front | back
  · exact earlier other front
  · rcases List.mem_cons.mp back with rfl | back
    · exact Std.le_refl _
    · exact Std.le_of_lt (later other back)

/-- A list has one latest value. -/
theorem IsLatest.unique {values : List α} {first second : α}
    (one : IsLatest rank values first) (two : IsLatest rank values second) : first = second := by
  obtain ⟨before, after, rfl, earlier, later⟩ := one
  obtain ⟨otherBefore, otherAfter, whole, otherEarlier, otherLater⟩ := two
  rcases List.append_eq_append_iff.mp whole with ⟨middle, rfl, rest⟩ | ⟨middle, rfl, rest⟩
  · cases middle with
    | nil => exact (List.cons.inj rest).1
    | cons head tail =>
        obtain ⟨rfl, rfl⟩ := List.cons.inj rest
        have below := later second (List.mem_append_right tail List.mem_cons_self)
        have above := otherEarlier first (List.mem_append_right before List.mem_cons_self)
        exact absurd below (Std.not_lt.mpr above)
  · cases middle with
    | nil => exact (List.cons.inj rest).1.symm
    | cons head tail =>
        obtain ⟨rfl, rfl⟩ := List.cons.inj rest
        have below := otherLater first (List.mem_append_right tail List.mem_cons_self)
        have above := earlier second (List.mem_append_right otherBefore List.mem_cons_self)
        exact absurd below (Std.not_lt.mpr above)

variable [DecidableLE ι]

theorem isLatest_of_latest {values : List α} {value : α} (held : latest rank values = some value) :
    IsLatest rank values value := by
  induction values using List.reverseRecOn generalizing value with
  | nil =>
      cases held
  | append_singleton values next inductionHypothesis =>
      rw [latest_append_singleton] at held
      unfold keep at held
      split at held
      · next none =>
          cases held
          rw [latest_eq_none.mp none]
          exact ⟨[], [], rfl, fun _ member => absurd member List.not_mem_nil,
            fun _ member => absurd member List.not_mem_nil⟩
      · next old found =>
          obtain ⟨before, after, rfl, earlier, later⟩ := inductionHypothesis found
          split at held
          · next newer =>
              cases held
              refine ⟨before ++ old :: after, [], rfl, ?_,
                fun _ member => absurd member List.not_mem_nil⟩
              intro other member
              rcases List.mem_append.mp member with front | back
              · exact Std.le_trans (earlier other front) newer
              · rcases List.mem_cons.mp back with rfl | back
                · exact newer
                · exact Std.le_trans (Std.le_of_lt (later other back)) newer
          · next older =>
              cases held
              refine ⟨before, after ++ [next], by rw [List.append_assoc, List.cons_append], earlier,
                ?_⟩
              intro other member
              rcases List.mem_append.mp member with back | final
              · exact later other back
              · rw [List.mem_singleton.mp final]
                exact Std.not_le.mp older

/-- A register holds the last of the values with the greatest rank. -/
theorem latest_eq_some {values : List α} {value : α} :
    latest rank values = some value ↔ IsLatest rank values value := by
  constructor
  · exact isLatest_of_latest
  · intro last
    cases held : latest rank values with
    | none =>
        obtain ⟨before, after, whole, -, -⟩ := last
        rw [latest_eq_none.mp held] at whole
        exact absurd whole.symm (List.append_ne_nil_of_right_ne_nil before (List.cons_ne_nil _ _))
    | some other =>
        rw [(isLatest_of_latest held).unique last]

/-- Registers that take the same values, no two of one rank, hold the same. -/
theorem latest_congr {first second : List α} (same : ∀ value, value ∈ first ↔ value ∈ second)
    (distinct : ∀ value ∈ first, ∀ other ∈ first, rank value = rank other → value = other) :
    latest rank first = latest rank second := by
  cases held : latest rank first with
  | none =>
      refine (latest_eq_none.mpr ?_).symm
      refine List.eq_nil_iff_forall_not_mem.mpr fun value member => ?_
      have taken := (same value).mpr member
      rw [latest_eq_none.mp held] at taken
      exact List.not_mem_nil taken
  | some value =>
      have last := isLatest_of_latest held
      cases other : latest rank second with
      | none =>
          have taken := (same value).mp last.mem
          rw [latest_eq_none.mp other] at taken
          exact absurd taken List.not_mem_nil
      | some rival =>
          have rivalLast := isLatest_of_latest other
          have rivalTaken := (same rival).mpr rivalLast.mem
          have ranks : rank value = rank rival :=
            Std.le_antisymm (rivalLast.le ((same value).mp last.mem)) (last.le rivalTaken)
          rw [distinct value last.mem rival rivalTaken ranks]

end Order

end Latest
