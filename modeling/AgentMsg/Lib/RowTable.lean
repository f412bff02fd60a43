import Mathlib.Data.List.Basic
import Mathlib.Data.List.Pairwise
import Mathlib.Tactic.Common

/-!
# Tables with an autoincrement row id and one unique column

A table is kept in row-id order.  Row ids are drawn from a counter that only
grows: a deleted row's id is never drawn again, and an insertion that is ignored
because its unique column is taken has drawn its id all the same.

The order, the bounds on the ids and the uniqueness of the column are fields of
the structure, so every table that can be written down has them.
-/

/-- Rows in row-id order, and the largest row id drawn so far. -/
structure RowTable (α κ : Type) (key : α → κ) where
  rows : List (Int × α)
  last : Int
  sorted : rows.Pairwise fun earlier later => earlier.1 < later.1
  positive : ∀ row ∈ rows, 0 < row.1
  bounded : ∀ row ∈ rows, row.1 ≤ last
  distinct : rows.Pairwise fun earlier later => key earlier.2 ≠ key later.2
  nonneg : 0 ≤ last

namespace RowTable

variable {α κ : Type} {key : α → κ}

/-- The table with no rows. -/
def empty : RowTable α κ key where
  rows := []
  last := 0
  sorted := .nil
  positive := by simp
  bounded := by simp
  distinct := .nil
  nonneg := Int.le_refl 0

instance : Inhabited (RowTable α κ key) := ⟨empty⟩

/-- Draw the next row id without storing a row. -/
def skip (table : RowTable α κ key) : RowTable α κ key where
  rows := table.rows
  last := table.last + 1
  sorted := table.sorted
  positive := table.positive
  bounded row member := by
    have bound := table.bounded row member
    omega
  distinct := table.distinct
  nonneg := by
    have bound := table.nonneg
    omega

/-- Store a row whose unique column is not taken. -/
def append (table : RowTable α κ key) (value : α)
    (fresh : ∀ row ∈ table.rows, key row.2 ≠ key value) : RowTable α κ key where
  rows := table.rows ++ [(table.last + 1, value)]
  last := table.last + 1
  sorted := by
    rw [List.pairwise_append]
    refine ⟨table.sorted, List.pairwise_singleton _ _, ?_⟩
    intro row member other otherMember
    have bound := table.bounded row member
    simp only [List.mem_singleton] at otherMember
    subst otherMember
    dsimp only
    omega
  positive := by
    intro row member
    rcases List.mem_append.mp member with old | new
    · exact table.positive row old
    · have bound := table.nonneg
      simp only [List.mem_singleton] at new
      subst new
      dsimp only
      omega
  bounded := by
    intro row member
    rcases List.mem_append.mp member with old | new
    · have bound := table.bounded row old
      omega
    · simp only [List.mem_singleton] at new
      subst new
      exact Int.le_refl _
  distinct := by
    rw [List.pairwise_append]
    refine ⟨table.distinct, List.pairwise_singleton _ _, ?_⟩
    intro row member other otherMember
    simp only [List.mem_singleton] at otherMember
    subst otherMember
    exact fresh row member
  nonneg := by
    have bound := table.nonneg
    omega

/-- Is the value of the unique column taken? -/
def holds [DecidableEq κ] (table : RowTable α κ key) (wanted : κ) : Bool :=
  table.rows.any fun row => key row.2 = wanted

theorem holds_eq_false_iff [DecidableEq κ] {table : RowTable α κ key} {wanted : κ} :
    table.holds wanted = false ↔ ∀ row ∈ table.rows, key row.2 ≠ wanted := by
  simp [holds]

theorem holds_eq_true_iff [DecidableEq κ] {table : RowTable α κ key} {wanted : κ} :
    table.holds wanted = true ↔ ∃ row ∈ table.rows, key row.2 = wanted := by
  simp only [holds, List.any_eq_true, decide_eq_true_eq]

/-- `INSERT OR IGNORE`: the new row id, or nothing when the column is taken. -/
def insertOrIgnore [DecidableEq κ] (table : RowTable α κ key) (value : α) :
    RowTable α κ key × Option Int :=
  if taken : table.holds (key value) = true then
    (table.skip, none)
  else
    (table.append value (holds_eq_false_iff.mp (Bool.eq_false_iff.mpr taken)),
      some (table.last + 1))

/-- `DELETE` of the rows that satisfy a condition. -/
def deleteWhere (table : RowTable α κ key) (doomed : Int × α → Bool) :
    RowTable α κ key where
  rows := table.rows.filter fun row => !doomed row
  last := table.last
  sorted := table.sorted.filter _
  positive row member := table.positive row (List.mem_filter.mp member).1
  bounded row member := table.bounded row (List.mem_filter.mp member).1
  distinct := table.distinct.filter _
  nonneg := table.nonneg

/-- `UPDATE` that leaves the unique column alone. -/
def updateWhere (table : RowTable α κ key) (selected : α → Bool) (change : α → α)
    (keeps : ∀ value, key (change value) = key value) : RowTable α κ key where
  rows := table.rows.map fun row =>
    (row.1, if selected row.2 then change row.2 else row.2)
  last := table.last
  sorted := List.pairwise_map.mpr table.sorted
  positive := by
    intro row member
    obtain ⟨old, oldMember, rfl⟩ := List.mem_map.mp member
    exact table.positive old oldMember
  bounded := by
    intro row member
    obtain ⟨old, oldMember, rfl⟩ := List.mem_map.mp member
    exact table.bounded old oldMember
  distinct := by
    refine List.pairwise_map.mpr (table.distinct.imp ?_)
    intro earlier later different
    dsimp only
    split <;> split <;> simpa only [keeps] using different
  nonneg := table.nonneg

/-- The first rows, in row-id order, that satisfy a condition. -/
def firstWhere (table : RowTable α κ key) (selected : Int × α → Bool) (limit : Nat) :
    List (Int × α) :=
  (table.rows.filter selected).take limit

/-- `DELETE` of the first rows, in row-id order, that satisfy a condition. -/
def deleteFirst (table : RowTable α κ key) (selected : Int × α → Bool) (limit : Nat) :
    RowTable α κ key :=
  table.deleteWhere fun row => row.1 ∈ (table.firstWhere selected limit).map Prod.fst

/-- The row with a given row id. -/
def byRowid (table : RowTable α κ key) (rowid : Int) : Option (Int × α) :=
  table.rows.find? fun row => row.1 = rowid

/-- The row with a given value of the unique column. -/
def byKey [DecidableEq κ] (table : RowTable α κ key) (wanted : κ) : Option (Int × α) :=
  table.rows.find? fun row => key row.2 = wanted

/-! ## Row ids and unique columns identify rows -/

private theorem eq_of_pairwise_ne
    {β γ : Type} {project : β → γ} :
    ∀ {items : List β},
      items.Pairwise (fun earlier later => project earlier ≠ project later) →
        ∀ {left right : β}, left ∈ items → right ∈ items →
          project left = project right → left = right
  | [], _, _, _, member, _, _ => by
      simp at member
  | head :: tail, pairwise, left, right, leftMember, rightMember, equal => by
      rw [List.pairwise_cons] at pairwise
      rcases List.mem_cons.mp leftMember with rfl | leftTail
      · rcases List.mem_cons.mp rightMember with rfl | rightTail
        · rfl
        · exact absurd equal (pairwise.1 right rightTail)
      · rcases List.mem_cons.mp rightMember with rfl | rightTail
        · exact absurd equal.symm (pairwise.1 left leftTail)
        · exact eq_of_pairwise_ne pairwise.2 leftTail rightTail equal

theorem rowid_injective
    (table : RowTable α κ key) {left right : Int × α}
    (leftMember : left ∈ table.rows) (rightMember : right ∈ table.rows)
    (equal : left.1 = right.1) : left = right :=
  eq_of_pairwise_ne
    (table.sorted.imp fun order => Int.ne_of_lt order)
    leftMember rightMember equal

theorem key_injective
    (table : RowTable α κ key) {left right : Int × α}
    (leftMember : left ∈ table.rows) (rightMember : right ∈ table.rows)
    (equal : key left.2 = key right.2) : left = right :=
  eq_of_pairwise_ne table.distinct leftMember rightMember equal

theorem byRowid_eq_some_iff {table : RowTable α κ key} {rowid : Int} {row : Int × α} :
    table.byRowid rowid = some row ↔ row ∈ table.rows ∧ row.1 = rowid := by
  constructor
  · intro found
    have hit := List.find?_some found
    exact ⟨List.mem_of_find?_eq_some found, by simpa using hit⟩
  · rintro ⟨member, rfl⟩
    cases found : table.byRowid row.1 with
    | none =>
        have missing := List.find?_eq_none.mp found row member
        simp at missing
    | some other =>
        have hit := List.find?_some found
        have same : other = row :=
          table.rowid_injective (List.mem_of_find?_eq_some found) member
            (by simpa using hit)
        rw [same]

/-! ## What each operation does to the rows -/

theorem insertOrIgnore_taken [DecidableEq κ]
    {table : RowTable α κ key} {value : α} (taken : table.holds (key value) = true) :
    table.insertOrIgnore value = (table.skip, none) := by
  rw [insertOrIgnore, dif_pos taken]

theorem insertOrIgnore_fresh [DecidableEq κ]
    {table : RowTable α κ key} {value : α} (fresh : table.holds (key value) = false) :
    (table.insertOrIgnore value).1.rows = table.rows ++ [(table.last + 1, value)] ∧
      (table.insertOrIgnore value).2 = some (table.last + 1) := by
  rw [insertOrIgnore, dif_neg (by simp [fresh])]
  exact ⟨rfl, rfl⟩

@[simp]
theorem insertOrIgnore_last [DecidableEq κ] (table : RowTable α κ key) (value : α) :
    (table.insertOrIgnore value).1.last = table.last + 1 := by
  unfold insertOrIgnore
  split <;> rfl

/-- What an insertion can do: draw an id in vain, or store the value under it. -/
theorem insertOrIgnore_cases [DecidableEq κ] (table : RowTable α κ key) (value : α) :
    (table.holds (key value) = true ∧
        (table.insertOrIgnore value).1.rows = table.rows ∧
        (table.insertOrIgnore value).2 = none) ∨
      (table.holds (key value) = false ∧
        (table.insertOrIgnore value).1.rows = table.rows ++ [(table.last + 1, value)] ∧
        (table.insertOrIgnore value).2 = some (table.last + 1)) := by
  cases taken : table.holds (key value) with
  | true =>
      rw [insertOrIgnore_taken taken]
      exact Or.inl ⟨rfl, rfl, rfl⟩
  | false =>
      exact Or.inr ⟨rfl, insertOrIgnore_fresh taken⟩

theorem mem_insertOrIgnore [DecidableEq κ]
    {table : RowTable α κ key} {value : α} {row : Int × α} :
    row ∈ (table.insertOrIgnore value).1.rows ↔
      row ∈ table.rows ∨
        (table.holds (key value) = false ∧ row = (table.last + 1, value)) := by
  rcases table.insertOrIgnore_cases value with ⟨taken, rows, _⟩ | ⟨fresh, rows, _⟩
  · rw [rows, taken]
    simp
  · rw [rows, fresh]
    simp

/-- An insertion takes its value of the unique column, if it was not taken before. -/
theorem holds_insertOrIgnore [DecidableEq κ]
    (table : RowTable α κ key) (value : α) (wanted : κ) :
    (table.insertOrIgnore value).1.holds wanted =
      (table.holds wanted || decide (key value = wanted)) := by
  rcases table.insertOrIgnore_cases value with ⟨taken, rows, _⟩ | ⟨_, rows, _⟩
  · have same : (table.insertOrIgnore value).1.holds wanted = table.holds wanted := by
      rw [holds, rows, holds]
    rw [same]
    by_cases equal : key value = wanted
    · rw [← equal, taken, Bool.true_or]
    · rw [decide_eq_false equal, Bool.or_false]
  · rw [holds, rows, List.any_append, holds]
    simp

theorem holds_updateWhere [DecidableEq κ]
    (table : RowTable α κ key) (selected : α → Bool) (change : α → α)
    (keeps : ∀ value, key (change value) = key value) (wanted : κ) :
    (table.updateWhere selected change keeps).holds wanted = table.holds wanted := by
  rw [holds, holds, updateWhere, List.any_map]
  congr 1
  funext row
  by_cases chosen : selected row.2 = true
  · simp [chosen, keeps]
  · simp [chosen]

theorem mem_deleteWhere
    {table : RowTable α κ key} {doomed : Int × α → Bool} {row : Int × α} :
    row ∈ (table.deleteWhere doomed).rows ↔ row ∈ table.rows ∧ doomed row = false := by
  simp [deleteWhere]

theorem mem_updateWhere
    {table : RowTable α κ key} {selected : α → Bool} {change : α → α}
    {keeps : ∀ value, key (change value) = key value} {row : Int × α} :
    row ∈ (table.updateWhere selected change keeps).rows ↔
      ∃ old ∈ table.rows,
        row = (old.1, if selected old.2 then change old.2 else old.2) := by
  simp only [updateWhere, List.mem_map]
  constructor
  · rintro ⟨old, member, rfl⟩
    exact ⟨old, member, rfl⟩
  · rintro ⟨old, member, rfl⟩
    exact ⟨old, member, rfl⟩

/-- An update that has nothing left to change is done when it is made once. -/
theorem rows_updateWhere_updateWhere
    {table : RowTable α κ key} {selected : α → Bool} {change : α → α}
    {keeps : ∀ value, key (change value) = key value}
    (settled : ∀ value, change (change value) = change value) :
    ((table.updateWhere selected change keeps).updateWhere selected change keeps).rows =
      (table.updateWhere selected change keeps).rows := by
  simp only [updateWhere, List.map_map]
  refine List.map_congr_left fun row _ => ?_
  by_cases chosen : selected row.2 = true
  · simp only [Function.comp_apply, chosen, if_true, settled, ite_self]
  · simp only [Function.comp_apply, chosen, if_false, Bool.false_eq_true]

/-! ## Deleting the first rows -/

theorem nodup_rows (table : RowTable α κ key) : table.rows.Nodup :=
  table.sorted.imp fun order equal => by
    rw [equal] at order
    omega

private theorem filter_not_mem_take
    {β : Type} [DecidableEq β] {items : List β} (nodup : items.Nodup) (limit : Nat) :
    (items.filter fun item => decide (item ∉ items.take limit)) = items.drop limit := by
  have split : items = items.take limit ++ items.drop limit :=
    (List.take_append_drop limit items).symm
  have disjoint : ∀ item ∈ items.drop limit, item ∉ items.take limit := by
    intro item dropped taken
    rw [split] at nodup
    exact (List.nodup_append.mp nodup).2.2 item taken item dropped rfl
  calc
    (items.filter fun item => decide (item ∉ items.take limit)) =
        (items.take limit).filter (fun item => decide (item ∉ items.take limit)) ++
          (items.drop limit).filter (fun item => decide (item ∉ items.take limit)) := by
      rw [← List.filter_append, ← split]
    _ = [] ++ items.drop limit := by
      congr 1
      · simp
      · exact List.filter_eq_self.mpr fun item dropped => by
          simpa using disjoint item dropped
    _ = items.drop limit := by
      simp

section DeleteFirst

variable (table : RowTable α κ key) (selected : Int × α → Bool) (limit : Nat)

private theorem deleteFirst_doomed
    {row : Int × α} (member : row ∈ table.rows) :
    row.1 ∈ (table.firstWhere selected limit).map Prod.fst ↔
      row ∈ table.firstWhere selected limit := by
  constructor
  · intro found
    obtain ⟨other, otherMember, equal⟩ := List.mem_map.mp found
    have stored : other ∈ table.rows :=
      (List.mem_filter.mp (List.mem_of_mem_take otherMember)).1
    rw [← table.rowid_injective stored member equal]
    exact otherMember
  · exact fun found => List.mem_map_of_mem found

/-- The rows that do not satisfy the condition all stay. -/
theorem filter_not_deleteFirst :
    (table.deleteFirst selected limit).rows.filter (fun row => !selected row) =
      table.rows.filter fun row => !selected row := by
  rw [deleteFirst, deleteWhere, List.filter_filter]
  refine List.filter_congr fun row member => ?_
  cases chosen : selected row with
  | true =>
      simp
  | false =>
      have kept : row ∉ table.firstWhere selected limit := fun found => by
        have satisfied := (List.mem_filter.mp (List.mem_of_mem_take found)).2
        rw [chosen] at satisfied
        exact nomatch satisfied
      have notDoomed := mt (table.deleteFirst_doomed selected limit member).mp kept
      simp [notDoomed]

/-- Of the rows that satisfy the condition, the first ones are gone. -/
theorem filter_deleteFirst :
    (table.deleteFirst selected limit).rows.filter selected =
      (table.rows.filter selected).drop limit := by
  classical
  have nodup : (table.rows.filter selected).Nodup := table.nodup_rows.filter _
  rw [← filter_not_mem_take nodup limit, deleteFirst, deleteWhere, List.filter_filter,
    List.filter_filter]
  refine List.filter_congr fun row member => ?_
  have doomed := table.deleteFirst_doomed selected limit member
  rw [firstWhere] at doomed
  cases chosen : selected row with
  | true =>
      simp only [Bool.true_and, Bool.and_true, firstWhere, doomed, decide_not]
  | false =>
      simp

theorem deleteFirst_zero : table.deleteFirst selected 0 = table := by
  have rows : (table.deleteFirst selected 0).rows = table.rows := by
    simp [deleteFirst, deleteWhere, firstWhere]
  cases table
  simp only [deleteFirst, deleteWhere, mk.injEq] at rows ⊢
  exact ⟨rows, trivial⟩

theorem deleteFirst_rows :
    (table.deleteFirst selected limit).rows =
      table.rows.filter fun row =>
        !decide (row.1 ∈ (table.firstWhere selected limit).map Prod.fst) :=
  rfl

/-- The rows that stay are those not among the first. -/
theorem mem_deleteFirst {row : Int × α} :
    row ∈ (table.deleteFirst selected limit).rows ↔
      row ∈ table.rows ∧ row ∉ table.firstWhere selected limit := by
  rw [deleteFirst_rows, List.mem_filter]
  refine and_congr_right fun member => ?_
  rw [Bool.not_eq_true', decide_eq_false_iff_not, table.deleteFirst_doomed selected limit member]

/-- Which rows are deleted is said by their list. -/
theorem deleteFirst_congr {first second : Nat}
    (same : table.firstWhere selected first = table.firstWhere selected second) :
    table.deleteFirst selected first = table.deleteFirst selected second := by
  rw [deleteFirst, deleteFirst, same]

/-- Two deletions of first rows are one. -/
theorem deleteFirst_deleteFirst (first second : Nat) :
    (table.deleteFirst selected first).deleteFirst selected second =
      table.deleteFirst selected (first + second) := by
  have later : (table.deleteFirst selected first).firstWhere selected second =
      ((table.rows.filter selected).drop first).take second := by
    rw [firstWhere, filter_deleteFirst]
  have both : table.firstWhere selected (first + second) =
      table.firstWhere selected first ++
        (table.deleteFirst selected first).firstWhere selected second := by
    rw [later, firstWhere, firstWhere, List.take_add]
  have rows : ((table.deleteFirst selected first).deleteFirst selected second).rows =
      (table.deleteFirst selected (first + second)).rows := by
    rw [deleteFirst_rows, deleteFirst_rows, deleteFirst_rows, List.filter_filter]
    refine List.filter_congr fun row _ => ?_
    rw [both, List.map_append]
    simp only [List.mem_append, Bool.decide_or, Bool.not_or]
    exact Bool.and_comm _ _
  simp only [deleteFirst, deleteWhere, mk.injEq] at rows ⊢
  exact ⟨rows, trivial⟩

/-- Every row satisfies the condition or does not. -/
theorem length_filter_add
    (rows : List (Int × α)) :
    (rows.filter selected).length + (rows.filter fun row => !selected row).length =
      rows.length := by
  have split := List.length_eq_length_filter_add (l := rows) selected
  omega

theorem length_deleteFirst :
    (table.deleteFirst selected limit).rows.length + (table.firstWhere selected limit).length =
      table.rows.length := by
  have before := length_filter_add selected table.rows
  have after := length_filter_add selected (table.deleteFirst selected limit).rows
  rw [filter_deleteFirst, filter_not_deleteFirst] at after
  simp only [List.length_drop] at after
  have taken : (table.firstWhere selected limit).length =
      min limit (table.rows.filter selected).length := by
    rw [firstWhere, List.length_take]
  omega

end DeleteFirst

end RowTable
