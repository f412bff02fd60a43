import Mathlib.Data.List.Basic
import Mathlib.Tactic.Common

/-!
# Parts joined with a separator

Parts that are joined with a separator can be told apart, given their number, exactly
when none of them contains the separator.
-/

namespace Joined

variable {α : Type} {separator : α}

/-- A text that begins with a part without the separator begins with it however it is
divided. -/
theorem append_cons_cases {first other rest more : List α} (clear : separator ∉ first)
    (same : other ++ separator :: more = first ++ separator :: rest) :
    (other = first ∧ more = rest) ∨
      ∃ between, other = first ++ separator :: between ∧
        rest = between ++ separator :: more := by
  rcases List.append_eq_append_iff.mp same with ⟨tail, whole, after⟩ | ⟨tail, whole, after⟩
  · cases tail with
    | nil =>
        rw [List.append_nil] at whole
        exact Or.inl ⟨whole.symm, (List.cons.inj after).2⟩
    | cons letter tail =>
        obtain ⟨rfl, -⟩ := List.cons.inj after
        rw [whole] at clear
        exact absurd (List.mem_append_right other List.mem_cons_self) clear
  · cases tail with
    | nil =>
        rw [List.append_nil] at whole
        exact Or.inl ⟨whole, (List.cons.inj after).2.symm⟩
    | cons letter tail =>
        obtain ⟨rfl, equal⟩ := List.cons.inj after
        exact Or.inr ⟨tail, whole, equal⟩

theorem ne_append_cons (text tail : List α) : text ≠ text ++ separator :: tail := fun same =>
  List.cons_ne_nil _ _ (List.self_eq_append_right.mp same)

theorem intercalate_four (one two three four : List α) :
    [separator].intercalate [one, two, three, four] =
      one ++ separator :: (two ++ separator :: (three ++ separator :: four)) := by
  simp only [List.intercalate_cons_cons, List.intercalate_singleton, List.append_assoc,
    List.cons_append, List.nil_append]

/-- A separator in a part and the one behind the part can change their roles. -/
theorem intercalate_shift (before after next : List α) (rest : List (List α)) :
    [separator].intercalate (before :: (after ++ separator :: next) :: rest) =
      [separator].intercalate ((before ++ separator :: after) :: next :: rest) := by
  cases rest with
  | nil =>
      simp only [List.intercalate_cons_cons, List.intercalate_singleton, List.append_assoc,
        List.cons_append, List.nil_append]
  | cons _ _ =>
      simp only [List.intercalate_cons_cons, List.append_assoc, List.cons_append,
        List.nil_append]

/-- A part with the separator can be divided in another place. -/
theorem exists_other {parts : List (List α)} (two : 2 ≤ parts.length) {part : List α}
    (member : part ∈ parts) (contains : separator ∈ part) :
    ∃ others, others.length = parts.length ∧
      [separator].intercalate others = [separator].intercalate parts ∧ others ≠ parts := by
  induction parts with
  | nil =>
      exact absurd member List.not_mem_nil
  | cons first rest inductionHypothesis =>
      cases rest with
      | nil =>
          rw [List.length_singleton] at two
          omega
      | cons second rest =>
          obtain ⟨before, after, whole⟩ := List.append_of_mem contains
          rcases List.mem_cons.mp member with rfl | later
          · refine ⟨before :: (after ++ separator :: second) :: rest, rfl, ?_, fun same => ?_⟩
            · rw [whole, intercalate_shift]
            · exact ne_append_cons before after ((List.cons.inj same).1.trans whole)
          · rcases List.mem_cons.mp later with rfl | last
            · refine ⟨(first ++ separator :: before) :: after :: rest, rfl, ?_, fun same => ?_⟩
              · rw [whole, ← intercalate_shift]
              · exact ne_append_cons first before (List.cons.inj same).1.symm
            · have long : 2 ≤ (second :: rest).length := by
                have some := List.length_pos_of_mem last
                rw [List.length_cons]
                omega
              obtain ⟨others, length, same, differs⟩ := inductionHypothesis long later
              have some : others ≠ [] := by
                rintro rfl
                rw [← length, List.length_nil] at long
                omega
              refine ⟨first :: others, congrArg (· + 1) length, ?_, fun equal => ?_⟩
              · rw [List.intercalate_cons_of_ne_nil some, same,
                  List.intercalate_cons_of_ne_nil (List.cons_ne_nil _ _)]
              · exact differs (List.cons.inj equal).2

variable [DecidableEq α]

/-- The separators of a joined text are those between the parts and those in them. -/
theorem count_intercalate {parts : List (List α)} (some : parts ≠ []) :
    ([separator].intercalate parts).count separator + 1 =
      parts.flatten.count separator + parts.length := by
  induction parts with
  | nil =>
      exact absurd rfl some
  | cons first rest inductionHypothesis =>
      cases rest with
      | nil =>
          rw [List.intercalate_singleton, List.flatten_singleton, List.length_singleton]
      | cons second rest =>
          have counted := inductionHypothesis (List.cons_ne_nil _ _)
          rw [List.intercalate_cons_cons, List.count_append, List.count_append,
            List.count_singleton_self, List.flatten_cons, List.count_append, List.length_cons]
          omega

/-- Parts without the separator are found by splitting. -/
theorem eq_of_intercalate_eq {parts others : List (List α)}
    (clear : ∀ part ∈ parts, separator ∉ part) (length : others.length = parts.length)
    (same : [separator].intercalate others = [separator].intercalate parts) :
    others = parts := by
  by_cases some : parts = []
  · rw [some, List.length_nil] at length
    rw [some, List.length_eq_zero_iff.mp length]
  · have someOther : others ≠ [] := by
      rintro rfl
      exact some (List.length_eq_zero_iff.mp length.symm)
    have none : parts.flatten.count separator = 0 := by
      refine List.count_eq_zero.mpr fun member => ?_
      obtain ⟨part, isPart, contains⟩ := List.mem_flatten.mp member
      exact clear part isPart contains
    have counted := @count_intercalate _ separator _ _ some
    have countedOther := @count_intercalate _ separator _ _ someOther
    rw [same] at countedOther
    have noneOther : others.flatten.count separator = 0 := by
      omega
    have clearOther : ∀ other ∈ others, separator ∉ other := fun other isOther contains =>
      List.count_eq_zero.mp noneOther (List.mem_flatten.mpr ⟨other, isOther, contains⟩)
    rw [← List.splitOn_intercalate separator clearOther someOther, same,
      List.splitOn_intercalate separator clear some]

/-- Joined parts can be told apart, given their number, exactly when none contains the
separator. -/
theorem joins_uniquely_iff {parts : List (List α)} (two : 2 ≤ parts.length) :
    (∀ others : List (List α), others.length = parts.length →
        [separator].intercalate others = [separator].intercalate parts → others = parts) ↔
      ∀ part ∈ parts, separator ∉ part := by
  constructor
  · intro unique part member contains
    obtain ⟨others, length, same, differs⟩ := exists_other two member contains
    exact differs (unique others length same)
  · intro clear others length same
    exact eq_of_intercalate_eq clear length same

/-! ## A part that is the separator -/

/-- Four parts of which the second is the separator, and no other contains it, are the
only ones with their join whose second part is not empty. -/
theorem eq_of_separator_second {first third fourth one two three four : List α}
    (clearFirst : separator ∉ first) (clearThird : separator ∉ third)
    (clearFourth : separator ∉ fourth) (some : two ≠ [])
    (same : one ++ separator :: (two ++ separator :: (three ++ separator :: four)) =
      first ++ separator :: ([separator] ++ separator :: (third ++ separator :: fourth))) :
    one = first ∧ two = [separator] ∧ three = third ∧ four = fourth := by
  have free {text : List α} (clear : separator ∉ text) : text.count separator = 0 :=
    List.count_eq_zero.mpr clear
  rcases append_cons_cases clearFirst same with ⟨rfl, rest⟩ | ⟨between, _, rest⟩
  · obtain ⟨letter, tail, rfl⟩ := List.exists_cons_of_ne_nil some
    obtain ⟨rfl, behind⟩ := List.cons.inj rest
    have divided : tail ++ letter :: (three ++ letter :: four) =
        [] ++ letter :: (third ++ letter :: fourth) := behind
    rcases append_cons_cases List.not_mem_nil divided with ⟨rfl, last⟩ | ⟨between, _, last⟩
    · rcases append_cons_cases clearThird last with ⟨rfl, rfl⟩ | ⟨between, _, final⟩
      · exact ⟨rfl, rfl, rfl, rfl⟩
      · rw [final] at clearFourth
        exact absurd (List.mem_append_right between List.mem_cons_self) clearFourth
    · have counted := congrArg (List.count letter) last
      simp only [List.count_append, List.count_cons_self, free clearThird, free clearFourth]
        at counted
      omega
  · have counted := congrArg (List.count separator) rest
    simp only [List.count_append, List.count_cons_self, List.count_nil, free clearThird,
      free clearFourth] at counted
    have noneBetween : separator ∉ between := List.count_eq_zero.mp (by omega)
    have noneTwo : separator ∉ two := List.count_eq_zero.mp (by omega)
    obtain ⟨letter, tail, rfl⟩ := List.exists_cons_of_ne_nil some
    cases between with
    | nil =>
        obtain ⟨-, behind⟩ := List.cons.inj rest
        obtain ⟨rfl, -⟩ := List.cons.inj behind
        exact absurd List.mem_cons_self noneTwo
    | cons other between =>
        obtain ⟨rfl, -⟩ := List.cons.inj rest
        exact absurd List.mem_cons_self noneBetween

end Joined
