import Mathlib.Data.List.Basic
import Mathlib.Tactic.Common

/-!
# Tables and the statements that define them

A database is a list of named tables with aligned rows.  `CREATE ... IF NOT EXISTS` leaves
an existing object alone, `ALTER TABLE ... ADD COLUMN` appends a column and fills it with
its default, and both are described by what they make of each table.
-/

namespace Sql

/-! ## Values and rows -/

inductive Value where
  | null
  | integer (value : Int)
  | text (value : String)
  | blob (value : List UInt8)
  deriving DecidableEq, Repr

def Value.ofOption : Option String → Value
  | some value => .text value
  | none => .null

/-- The default of a column: a constant, or an expression that is evaluated at each
insertion. -/
inductive Default where
  | constant (value : Value)
  | expression (source : String)
  deriving DecidableEq, Repr

def Default.text (value : String) : Default :=
  .constant (.text value)

def Default.integer (value : Int) : Default :=
  .constant (.integer value)

structure Column where
  name : String
  type : String
  notNull : Bool := false
  primaryKey : Bool := false
  autoincrement : Bool := false
  unique : Bool := false
  default : Option Default := none
  deriving DecidableEq, Repr

/-- What a column reads as in the rows that were there before it. -/
def Column.fill (column : Column) : Value :=
  match column.default with
  | some (.constant value) => value
  | _ => .null

/-- The value of a named column in a row. -/
def valueOf (columns : List Column) (row : List Value) (name : String) : Option Value :=
  ((columns.zip row).find? fun cell => cell.1.name = name).map Prod.snd

/-- `SELECT` of named columns from a row. -/
def select (columns : List Column) (names : List String) (row : List Value) :
    Option (List Value) :=
  names.mapM (valueOf columns row)

/-- An item of a `VALUES` list: the `n`-th parameter, or a literal. -/
inductive Expr where
  | param (index : Nat)
  | literal (value : Value)
  deriving DecidableEq, Repr

def Expr.eval (params : List Value) : Expr → Value
  | .param index => params.getD (index - 1) .null
  | .literal value => value

/-- The row that `INSERT INTO ... (names) VALUES (values)` stores under a row id: columns
that are not named get the row id or their default. -/
def insertedRow (columns : List Column) (names : List String) (values : List Expr)
    (params : List Value) (rowid : Int) : List Value :=
  columns.map fun column =>
    match (names.zip values).find? fun item => item.1 = column.name with
    | some item => item.2.eval params
    | none => if column.autoincrement then .integer rowid else column.fill

/-! ## Tables -/

/-- The rows of a table have one value for each column. -/
structure Table where
  columns : List Column
  rows : List (List Value)
  aligned : ∀ row ∈ rows, row.length = columns.length

def Table.empty (columns : List Column) : Table :=
  ⟨columns, [], by simp⟩

def Table.names (table : Table) : List String :=
  table.columns.map Column.name

/-- Append a column, filled with its default. -/
def Table.addColumn (table : Table) (column : Column) : Table where
  columns := table.columns ++ [column]
  rows := table.rows.map fun row => row ++ [column.fill]
  aligned := by
    intro row member
    obtain ⟨old, oldMember, rfl⟩ := List.mem_map.mp member
    simp [table.aligned old oldMember]

/-- Append a column unless there is one of its name. -/
def Table.ensureColumn (table : Table) (column : Column) : Table :=
  if column.name ∈ table.names then table else table.addColumn column

theorem Table.ext
    {first second : Table} (columns : first.columns = second.columns)
    (rows : first.rows = second.rows) : first = second := by
  cases first
  cases second
  cases columns
  cases rows
  rfl

/-- Columns that are all there already change nothing. -/
theorem foldl_ensureColumn_of_mem
    {table : Table} {added : List Column}
    (there : ∀ column ∈ added, column.name ∈ table.names) :
    added.foldl Table.ensureColumn table = table := by
  induction added with
  | nil =>
      rfl
  | cons column added inductionHypothesis =>
      have kept : table.ensureColumn column = table :=
        if_pos (there column List.mem_cons_self)
      rw [List.foldl_cons, kept]
      exact inductionHypothesis fun other member => there other (List.mem_cons_of_mem _ member)

/-- Columns that are all new are appended in order. -/
theorem foldl_ensureColumn_of_new
    {table : Table} {added : List Column}
    (distinct : (table.names ++ added.map Column.name).Nodup) :
    (added.foldl Table.ensureColumn table).columns = table.columns ++ added ∧
      (added.foldl Table.ensureColumn table).rows =
        table.rows.map fun row => row ++ added.map Column.fill := by
  induction added generalizing table with
  | nil =>
      simp
  | cons column added inductionHypothesis =>
      have new : column.name ∉ table.names := by
        intro old
        have apart := (List.nodup_append.mp distinct).2.2
        exact apart _ old _ List.mem_cons_self rfl
      have appended : table.ensureColumn column = table.addColumn column := if_neg new
      have names : (table.addColumn column).names = table.names ++ [column.name] := by
        simp [Table.names, Table.addColumn]
      have rest := @inductionHypothesis (table.addColumn column) (by
        rw [names]
        simpa using distinct)
      rw [List.foldl_cons, appended, rest.1, rest.2]
      simp [Table.addColumn, Function.comp_def]

/-- Some columns of a list are there already, the first ones; then the others are
appended. -/
theorem foldl_ensureColumn
    {table : Table} {base added : List Column} {count reached : Nat}
    (columns : table.columns = base ++ added.take count)
    (distinct : ((base ++ added).map Column.name).Nodup) :
    ((added.take reached).foldl Table.ensureColumn table).columns =
        base ++ added.take (max count reached) ∧
      ((added.take reached).foldl Table.ensureColumn table).rows =
        table.rows.map fun row =>
          row ++ ((added.take reached).drop count).map Column.fill := by
  have early : (added.take (min reached count)).foldl Table.ensureColumn table = table := by
    refine foldl_ensureColumn_of_mem fun column member => ?_
    have there : column ∈ added.take count :=
      List.take_subset_take_left added (Nat.min_le_right _ _) member
    rw [Table.names, columns]
    exact List.mem_map_of_mem (List.mem_append_right _ there)
  by_cases within : reached ≤ count
  · rw [Nat.min_eq_left within] at early
    have nothing : (added.take reached).drop count = [] :=
      List.drop_eq_nil_of_le (by simp; omega)
    rw [early, columns, Nat.max_eq_left within, nothing]
    simp
  · have beyond : count ≤ reached := by omega
    rw [Nat.min_eq_right beyond] at early
    have split : added.take reached = added.take count ++ (added.take reached).drop count := by
      conv_lhs => rw [← List.take_append_drop count (added.take reached)]
      rw [List.take_take, Nat.min_eq_left beyond]
    have fresh : (table.names ++ ((added.take reached).drop count).map Column.name).Nodup := by
      have sublist : (base ++ added.take reached).Sublist (base ++ added) :=
        List.Sublist.append_left (List.take_sublist _ _) base
      have names := (sublist.map Column.name).nodup distinct
      rw [split] at names
      rw [Table.names, columns]
      simpa only [List.map_append, List.append_assoc] using names
    obtain ⟨appended, filled⟩ := foldl_ensureColumn_of_new fresh
    rw [split, List.foldl_append, early, ← split, appended, filled, columns,
      Nat.max_eq_right beyond, List.append_assoc, ← split]
    exact ⟨rfl, rfl⟩

/-! ## Databases -/

structure Index where
  table : String
  columns : List String
  deriving DecidableEq, Repr

structure Database where
  tables : List (String × Table) := []
  indexes : List (String × Index) := []
  userVersion : Int := 0

/-- The statements that define tables.  Creation is `IF NOT EXISTS`. -/
inductive Statement where
  | createTable (name : String) (columns : List Column)
  | createIndex (name : String) (index : Index)
  | addColumn (table : String) (column : Column)
  deriving DecidableEq, Repr

namespace Database

def table? (db : Database) (name : String) : Option Table :=
  (db.tables.find? fun entry => entry.1 = name).map Prod.snd

def hasTable (db : Database) (name : String) : Bool :=
  (db.table? name).isSome

/-- Change the table of a name. -/
def alter (db : Database) (name : String) (change : Table → Table) : Database :=
  { db with tables := db.tables.map fun entry =>
      if entry.1 = name then (entry.1, change entry.2) else entry }

/-- The text of the error for a column that is there already. -/
def duplicateColumn (name : String) : String :=
  "duplicate column name: " ++ name

/-- Why a column cannot be added to a table. -/
def refusal (table : Table) (column : Column) : Option String :=
  if column.name ∈ table.names then some (duplicateColumn column.name)
  else if column.primaryKey then some "Cannot add a PRIMARY KEY column"
  else if column.unique then some "Cannot add a UNIQUE column"
  else if table.rows = [] then none
  else if column.notNull ∧ column.fill = .null then
    some "Cannot add a NOT NULL column with default value NULL"
  else match column.default with
    | some (.expression _) => some "Cannot add a column with non-constant default"
    | _ => none

def execute (db : Database) : Statement → Except String Database
  | .createTable name columns =>
      if db.hasTable name then .ok db
      else .ok { db with tables := db.tables ++ [(name, .empty columns)] }
  | .createIndex name index =>
      if (db.indexes.find? fun entry => entry.1 = name).isSome then .ok db
      else match db.table? index.table with
        | none => .error ("no such table: main." ++ index.table)
        | some table =>
            match index.columns.find? fun column => column ∉ table.names with
            | some column => .error ("no such column: " ++ column)
            | none => .ok { db with indexes := db.indexes ++ [(name, index)] }
  | .addColumn table column =>
      match db.table? table with
      | none => .error ("no such table: " ++ table)
      | some found =>
          match refusal found column with
          | some error => .error error
          | none => .ok (db.alter table (·.addColumn column))

/-- Execute statements one after the other; the first error ends the batch. -/
def executeBatch (db : Database) (statements : List Statement) : Except String Database :=
  statements.foldlM execute db

theorem table?_alter (db : Database) (name other : String) (change : Table → Table) :
    (db.alter name change).table? other =
      if other = name then (db.table? other).map change else db.table? other := by
  rw [table?, table?, alter, List.find?_map, Option.map_map]
  have same : (fun entry : String × Table => decide (entry.1 = other)) ∘
      (fun entry => if entry.1 = name then (entry.1, change entry.2) else entry) =
      fun entry => decide (entry.1 = other) := by
    funext entry
    by_cases here : entry.1 = name
    · simp [here]
    · simp [here]
  rw [same]
  cases found : db.tables.find? fun entry => entry.1 = other with
  | none =>
      simp
  | some entry =>
      have named : entry.1 = other := by simpa using List.find?_some found
      by_cases here : other = name
      · simp [named, here]
      · simp [named, here]

theorem table?_append (db : Database) (name other : String) (table : Table) :
    ({ db with tables := db.tables ++ [(name, table)] } : Database).table? other =
      (db.table? other).or (if name = other then some table else none) := by
  rw [table?, table?, List.find?_append]
  cases db.tables.find? fun entry => entry.1 = other with
  | none =>
      by_cases here : name = other
      · simp [here]
      · simp [here]
  | some entry =>
      simp

/-! ## Batches of creations -/

/-- The columns with which the statements create a table. -/
def created (name : String) (statements : List Statement) : Option (List Column) :=
  statements.findSome? fun statement =>
    match statement with
    | .createTable other columns => if other = name then some columns else none
    | _ => none

/-- The names of the tables that the statements create. -/
def createdNames (statements : List Statement) : List String :=
  statements.filterMap fun statement =>
    match statement with
    | .createTable name _ => some name
    | _ => none

theorem mem_createdNames {name : String} {statements : List Statement} :
    name ∈ createdNames statements ↔ ∃ columns, created name statements = some columns := by
  rw [← Option.isSome_iff_exists, created, List.isSome_findSome?, List.any_eq_true, createdNames,
    List.mem_filterMap]
  refine exists_congr fun statement => and_congr_right fun _ => ?_
  cases statement with
  | createTable other columns =>
      by_cases same : other = name
      · simp [same]
      · simp [same]
  | _ =>
      simp

/-- The first statements create nothing else than all of them. -/
theorem created_of_take
    {name : String} {statements : List Statement} {columns : List Column} {count : Nat}
    (found : created name (statements.take count) = some columns) :
    created name statements = some columns := by
  rw [← List.take_append_drop count statements, created, List.findSome?_append]
  exact Option.or_eq_some_iff.mpr (Or.inl found)

/-- A batch that creates tables, with some columns at least, and then indexes of these. -/
def creates (base : String → List String) : List String → List Statement → Bool
  | _, [] => true
  | known, .createTable name columns :: rest =>
      decide (base name ⊆ columns.map Column.name) && creates base (name :: known) rest
  | known, .createIndex _ index :: rest =>
      decide (index.table ∈ known) && decide (index.columns ⊆ base index.table) &&
        creates base known rest
  | _, .addColumn _ _ :: _ => false

theorem creates_take
    {base : String → List String} {known : List String} {statements : List Statement}
    (batch : creates base known statements = true) (count : Nat) :
    creates base known (statements.take count) = true := by
  induction count generalizing known statements with
  | zero =>
      rfl
  | succ count inductionHypothesis =>
      cases statements with
      | nil =>
          rfl
      | cons statement rest =>
          rw [List.take_succ_cons]
          cases statement with
          | createTable name columns =>
              simp only [creates, Bool.and_eq_true] at batch ⊢
              exact ⟨batch.1, inductionHypothesis batch.2⟩
          | createIndex name index =>
              simp only [creates, Bool.and_eq_true] at batch ⊢
              exact ⟨batch.1, inductionHypothesis batch.2⟩
          | addColumn table column =>
              cases batch

/-- Every table has some columns at least. -/
def HasColumns (base : String → List String) (db : Database) : Prop :=
  ∀ name table, db.table? name = some table → base name ⊆ table.names

theorem execute_createTable (db : Database) (name : String) (columns : List Column) :
    ∃ after, db.execute (.createTable name columns) = .ok after ∧
      after.userVersion = db.userVersion ∧
      ∀ other, after.table? other =
        (db.table? other).or (if name = other then some (.empty columns) else none) := by
  by_cases there : db.hasTable name = true
  · refine ⟨db, by rw [execute, if_pos there], rfl, fun other => ?_⟩
    by_cases here : name = other
    · obtain ⟨found, present⟩ := Option.isSome_iff_exists.mp there
      rw [← here, present]
      rfl
    · simp [here]
  · exact ⟨{ db with tables := db.tables ++ [(name, .empty columns)] },
      by rw [execute, if_neg there], rfl, fun other => db.table?_append name other _⟩

section Created

variable {db middle : Database} {name : String} {columns : List Column}

/-- A table that is created has the columns it is declared with. -/
theorem HasColumns.create
    {base : String → List String} (has : HasColumns base db)
    (tables : ∀ other, middle.table? other =
      (db.table? other).or (if name = other then some (.empty columns) else none))
    (declared : base name ⊆ columns.map Column.name) : HasColumns base middle := by
  intro other table found
  rw [tables, Option.or_eq_some_iff] at found
  rcases found with old | ⟨_, new⟩
  · exact has other table old
  · split at new
    · next same =>
        cases new
        exact same ▸ declared
    · cases new

/-- After a creation the table is there, and so are the others. -/
theorem hasTable_create
    {known : List String} (there : ∀ name ∈ known, db.hasTable name = true)
    (tables : ∀ other, middle.table? other =
      (db.table? other).or (if name = other then some (.empty columns) else none)) :
    ∀ other ∈ name :: known, middle.hasTable other = true := by
  intro other member
  rw [hasTable, tables]
  rcases List.mem_cons.mp member with rfl | old
  · simp
  · have present := there other old
    rw [hasTable] at present
    simp [present]

end Created

theorem execute_createIndex
    {db : Database} {index : Index} {table : Table} (name : String)
    (there : db.table? index.table = some table) (columns : index.columns ⊆ table.names) :
    ∃ after, db.execute (.createIndex name index) = .ok after ∧
      after.userVersion = db.userVersion ∧ ∀ other, after.table? other = db.table? other := by
  by_cases old : (db.indexes.find? fun entry => entry.1 = name).isSome = true
  · exact ⟨db, by rw [execute, if_pos old], rfl, fun _ => rfl⟩
  · have known : (index.columns.find? fun column => column ∉ table.names) = none :=
      List.find?_eq_none.mpr fun column member => by simpa using columns member
    exact ⟨{ db with indexes := db.indexes ++ [(name, index)] },
      by rw [execute, if_neg old]; simp only [there, known], rfl, fun _ => rfl⟩

/-- Creations leave the tables alone that are there, and create the others. -/
theorem executeBatch_creates
    {base : String → List String} {known : List String} {statements : List Statement}
    {db : Database} (batch : creates base known statements = true) (has : HasColumns base db)
    (there : ∀ name ∈ known, db.hasTable name = true) :
    ∃ after, db.executeBatch statements = .ok after ∧ after.userVersion = db.userVersion ∧
      ∀ name, after.table? name =
        (db.table? name).or ((created name statements).map .empty) := by
  induction statements generalizing known db with
  | nil =>
      exact ⟨db, rfl, rfl, fun name => by simp [created]⟩
  | cons statement rest inductionHypothesis =>
      cases statement with
      | createTable name columns =>
          simp only [creates, Bool.and_eq_true, decide_eq_true_eq] at batch
          obtain ⟨middle, executed, version, tables⟩ := db.execute_createTable name columns
          obtain ⟨after, ran, versions, later⟩ :=
            inductionHypothesis batch.2 (has.create tables batch.1) (hasTable_create there tables)
          refine ⟨after, ?_, versions.trans version, fun other => ?_⟩
          · rw [executeBatch, List.foldlM_cons, executed]
            exact ran
          · rw [later, tables, created, created, List.findSome?_cons]
            by_cases here : name = other
            · cases db.table? other <;> simp [here]
            · simp [here]
      | createIndex name index =>
          simp only [creates, Bool.and_eq_true, decide_eq_true_eq] at batch
          obtain ⟨table, found⟩ := Option.isSome_iff_exists.mp (there index.table batch.1.1)
          obtain ⟨middle, executed, version, tables⟩ :=
            execute_createIndex name found (List.Subset.trans batch.1.2 (has _ _ found))
          obtain ⟨after, ran, versions, later⟩ := @inductionHypothesis known middle batch.2
            (fun other table found => has other table (tables other ▸ found))
            fun other member => by
              rw [hasTable, tables]
              exact there other member
          refine ⟨after, ?_, versions.trans version, fun other => ?_⟩
          · rw [executeBatch, List.foldlM_cons, executed]
            exact ran
          · rw [later, tables]
            rfl
      | addColumn table column =>
          cases batch

/-! ## Batches of added columns -/

/-- The columns that the statements add to a table. -/
def added (name : String) (statements : List Statement) : List Column :=
  statements.filterMap fun statement =>
    match statement with
    | .addColumn table column => if table = name then some column else none
    | _ => none

/-- Can the column be added to every table that has none of its name? -/
def Column.addable (column : Column) : Bool :=
  !column.primaryKey && !column.unique && (!column.notNull || decide (column.fill ≠ .null)) &&
    match column.default with
    | some (.expression _) => false
    | _ => true

theorem refusal_eq_none
    {table : Table} {column : Column} (addable : Column.addable column = true)
    (new : column.name ∉ table.names) : refusal table column = none := by
  simp only [Column.addable, Bool.and_eq_true, Bool.not_eq_true', Bool.or_eq_true,
    decide_eq_true_eq] at addable
  obtain ⟨⟨⟨noKey, notUnique⟩, filled⟩, constant⟩ := addable
  have allowed : ¬ (column.notNull = true ∧ column.fill = .null) := by
    rintro ⟨notNull, null⟩
    rcases filled with nullable | filled
    · rw [notNull] at nullable
      cases nullable
    · exact filled null
  rw [refusal, if_neg new, if_neg (by simp [noKey]), if_neg (by simp [notUnique]), if_neg allowed]
  split
  · rfl
  · split at constant
    · cases constant
    · rfl

/-- Execute a statement, and go on after an error whose text is ignored. -/
def executeIgnoring (ignored : String → Bool) (db : Database) (statement : Statement) :
    Except String Database :=
  match db.execute statement with
  | .ok after => .ok after
  | .error message => if ignored message then .ok db else .error message

/-- A batch that adds columns to tables that are there. -/
def adds (known : List String) (statements : List Statement) : Bool :=
  statements.all fun statement =>
    match statement with
    | .addColumn table column => decide (table ∈ known) && Column.addable column
    | _ => false

/-- When duplicates are ignored, adding a column ensures that it is there. -/
theorem executeIgnoring_addColumn
    {ignored : String → Bool} (duplicates : ∀ name, ignored (duplicateColumn name) = true)
    {db : Database} {table : String} {found : Table} {column : Column}
    (there : db.table? table = some found) (addable : Column.addable column = true) :
    ∃ after, db.executeIgnoring ignored (.addColumn table column) = .ok after ∧
      after.userVersion = db.userVersion ∧
      ∀ name, after.table? name = (db.table? name).map fun old =>
        (added name [.addColumn table column]).foldl Table.ensureColumn old := by
  have others {name : String} (other : name ≠ table) (old : Table) :
      (added name [.addColumn table column]).foldl Table.ensureColumn old = old := by
    simp [added, Ne.symm other]
  have this (old : Table) :
      (added table [.addColumn table column]).foldl Table.ensureColumn old =
        old.ensureColumn column := by
    simp [added]
  by_cases old : column.name ∈ found.names
  · have refused : refusal found column = some (duplicateColumn column.name) := if_pos old
    refine ⟨db, by simp [executeIgnoring, execute, there, refused, duplicates], rfl, fun name => ?_⟩
    by_cases here : name = table
    · rw [here, there, Option.map_some, this, Table.ensureColumn, if_pos old]
    · simp [others here]
  · have allowed := refusal_eq_none addable old
    refine ⟨db.alter table (·.addColumn column),
      by simp only [executeIgnoring, execute, there, allowed], rfl, fun name => ?_⟩
    rw [table?_alter]
    by_cases here : name = table
    · rw [if_pos here, here, there, Option.map_some, Option.map_some, this, Table.ensureColumn,
        if_neg old]
    · simp [here, others here]

theorem foldlM_executeIgnoring
    {ignored : String → Bool} (duplicates : ∀ name, ignored (duplicateColumn name) = true)
    {known : List String} {statements : List Statement} {db : Database}
    (batch : adds known statements = true) (there : ∀ name ∈ known, db.hasTable name = true) :
    ∃ after, statements.foldlM (executeIgnoring ignored) db = .ok after ∧
      after.userVersion = db.userVersion ∧
      ∀ name, after.table? name = (db.table? name).map fun old =>
        (added name statements).foldl Table.ensureColumn old := by
  induction statements generalizing db with
  | nil =>
      exact ⟨db, rfl, rfl, fun name => by simp [added]⟩
  | cons statement rest inductionHypothesis =>
      cases statement with
      | addColumn table column =>
          simp only [adds, List.all_cons, Bool.and_eq_true, decide_eq_true_eq] at batch
          obtain ⟨⟨member, addable⟩, batch⟩ := batch
          obtain ⟨found, present⟩ := Option.isSome_iff_exists.mp (there table member)
          obtain ⟨middle, executed, version, tables⟩ :=
            executeIgnoring_addColumn duplicates present addable
          obtain ⟨after, ran, versions, later⟩ := @inductionHypothesis middle batch
            fun name member => by
              have old := there name member
              rw [hasTable] at old ⊢
              rw [tables, Option.isSome_map]
              exact old
          refine ⟨after, ?_, versions.trans version, fun name => ?_⟩
          · rw [List.foldlM_cons, executed]
            exact ran
          · have split : added name (.addColumn table column :: rest) =
                added name [.addColumn table column] ++ added name rest :=
              List.filterMap_append (l := [Statement.addColumn table column])
            rw [later, tables, Option.map_map, split]
            simp only [List.foldl_append, Function.comp_def]
      | _ =>
          cases batch

theorem adds_take
    {known : List String} {statements : List Statement} (batch : adds known statements = true)
    (count : Nat) : adds known (statements.take count) = true :=
  List.all_eq_true.mpr fun statement member =>
    List.all_eq_true.mp batch statement (List.mem_of_mem_take member)

/-- The first statements add the first columns. -/
theorem added_take (name : String) (statements : List Statement) (count : Nat) :
    ∃ reached, added name (statements.take count) = (added name statements).take reached :=
  ⟨_, List.prefix_iff_eq_take.mp ((List.take_prefix count statements).filterMap _)⟩

end Database

end Sql
