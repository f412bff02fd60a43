import AgentMsg.Schema
import Mathlib.Data.List.Infix

/-!
# Upgrading a database

`migrate` creates what is missing and, when there were messages before, adds the columns of
version 2 one by one, going on when a column is there already.  Each table grows through
prefixes of the same list of columns, so that an upgrade ends with the schema of a fresh
database wherever an earlier one stopped.
-/

namespace AgentMsg

open Sql

/-! ## The upgrade -/

/-- `msg.contains("duplicate column")` -/
def isDuplicateColumn (message : String) : Bool :=
  message.toList.tails.any fun rest => "duplicate column".toList.isPrefixOf rest

/-- One statement of `MIGRATE_V2`, with its error ignored when the column was there. -/
def addColumnOnce (db : Database) (statement : Statement) : Except String Database :=
  db.executeIgnoring isDuplicateColumn statement

def migrate (db : Database) : Except String Database :=
  if 2 ≤ db.userVersion then .ok db
  else do
    let hasMessages := db.hasTable "messages"
    let schema ← db.executeBatch SCHEMA
    let altered ← if hasMessages then MIGRATE_V2.foldlM addColumnOnce schema else .ok schema
    return { altered with userVersion := 2 }

/-- The state after the first statements of `migrate`, before the version is set. -/
def interrupted (db : Database) (count : Nat) : Except String Database :=
  if 2 ≤ db.userVersion then .ok db
  else do
    let hasMessages := db.hasTable "messages"
    let schema ← db.executeBatch (SCHEMA.take count)
    if hasMessages then (MIGRATE_V2.take (count - SCHEMA.length)).foldlM addColumnOnce schema
      else .ok schema

/-- `migrate` is all of its statements, and then the version. -/
theorem migrate_eq_interrupted {db : Database} (old : db.userVersion < 2) :
    migrate db = (interrupted db (SCHEMA.length + MIGRATE_V2.length)).map fun after =>
      { after with userVersion := 2 } := by
  have below : ¬ 2 ≤ db.userVersion := by omega
  have schema : SCHEMA.take (SCHEMA.length + MIGRATE_V2.length) = SCHEMA :=
    List.take_of_length_le (Nat.le_add_right _ _)
  have alters : MIGRATE_V2.take (SCHEMA.length + MIGRATE_V2.length - SCHEMA.length) = MIGRATE_V2 :=
    List.take_of_length_le (by omega)
  rw [migrate, interrupted, if_neg below, if_neg below, schema, alters]
  cases db.executeBatch SCHEMA with
  | error message =>
      rfl
  | ok created =>
      by_cases messages : db.hasTable "messages" = true
      · simp only [messages, if_true]
        cases MIGRATE_V2.foldlM addColumnOnce created <;> rfl
      · simp only [messages]
        rfl

/-! ## Databases of version 1 -/

def V1_MESSAGES : List Column :=
  [ { name := "seq", type := "INTEGER", primaryKey := true, autoincrement := true },
    { name := "id", type := "TEXT", notNull := true, unique := true },
    { name := "direction", type := "TEXT", notNull := true },
    { name := "sender", type := "TEXT", notNull := true },
    { name := "recipient", type := "TEXT", notNull := true },
    { name := "topic", type := "TEXT", notNull := true },
    { name := "ts", type := "TEXT", notNull := true },
    { name := "ctype", type := "TEXT", notNull := true },
    { name := "in_reply_to", type := "TEXT" },
    { name := "body", type := "TEXT", notNull := true } ]

def V1_CURSORS : List Column :=
  [ { name := "consumer", type := "TEXT", primaryKey := true },
    { name := "last_seq", type := "INTEGER", notNull := true } ]

def V1_REJECTIONS : List Column :=
  [ { name := "seq", type := "INTEGER", primaryKey := true, autoincrement := true },
    { name := "at", type := "TEXT", notNull := true,
      default := some (.expression "datetime('now')") },
    { name := "reason", type := "TEXT", notNull := true },
    { name := "detail", type := "TEXT", notNull := true } ]

/-- The tables of version 1. -/
def V1 : List (String × List Column) :=
  [("messages", V1_MESSAGES), ("cursors", V1_CURSORS), ("rejections", V1_REJECTIONS),
    ("outbox", OUTBOX)]

/-- A database of version 1: messages, perhaps some of the other tables, and any rows. -/
structure IsV1 (db : Database) : Prop where
  version : db.userVersion < 2
  messages : db.hasTable "messages" = true
  tables : ∀ name table, db.table? name = some table → (name, table.columns) ∈ V1

/-- What an upgrade starts from: nothing, version 1, or what an interrupted one left. -/
inductive Migratable : Database → Prop
  | empty {db : Database} (version : db.userVersion < 2) (tables : db.tables = []) :
      Migratable db
  | v1 {db : Database} (legacy : IsV1 db) : Migratable db
  | crashed {db after : Database} (before : Migratable db) (count : Nat)
      (stopped : interrupted db count = .ok after) : Migratable after

/-! ## The two schemas agree -/

/-- The columns that a table has before any are added. -/
def baseColumns (name : String) : List Column :=
  ((V1.lookup name).or (Database.created name SCHEMA)).getD []

/-- The columns that are added to a table. -/
def addedColumns (name : String) : List Column :=
  Database.added name MIGRATE_V2

/-- What `SCHEMA` creates is what there was in version 1 and what `MIGRATE_V2` adds. -/
theorem created_schema {name : String} {columns : List Column}
    (created : Database.created name SCHEMA = some columns) :
    columns = baseColumns name ++ addedColumns name := by
  have agree : ∀ name ∈ Database.createdNames SCHEMA,
      Database.created name SCHEMA = some (baseColumns name ++ addedColumns name) := by
    decide
  rw [agree name (Database.mem_createdNames.mpr ⟨_, created⟩)] at created
  exact (Option.some.inj created).symm

theorem names_distinct {name : String} {columns : List Column}
    (created : Database.created name SCHEMA = some columns) :
    ((baseColumns name ++ addedColumns name).map Column.name).Nodup := by
  have distinct : ∀ name ∈ Database.createdNames SCHEMA,
      ((baseColumns name ++ addedColumns name).map Column.name).Nodup := by
    decide
  exact distinct name (Database.mem_createdNames.mpr ⟨_, created⟩)

/-- The tables of version 1 have these columns. -/
theorem v1_columns {name : String} {columns : List Column} (legacy : (name, columns) ∈ V1) :
    columns = baseColumns name ∧ ∃ full, Database.created name SCHEMA = some full := by
  have agree : ∀ entry ∈ V1, entry.2 = baseColumns entry.1 ∧
      (Database.created entry.1 SCHEMA).isSome = true := by
    decide
  have here := agree _ legacy
  exact ⟨here.1, Option.isSome_iff_exists.mp here.2⟩

/-! ## Partly upgraded databases -/

/-- Every table is one of the schema, with the columns of version 1 and the first of those
that are added; and there is no other table without the messages. -/
structure Upgradable (db : Database) : Prop where
  version : db.userVersion < 2
  columns : ∀ name table, db.table? name = some table →
    (∃ full, Database.created name SCHEMA = some full) ∧
      ∃ count, table.columns = baseColumns name ++ (addedColumns name).take count
  messages : db.hasTable "messages" = false → ∀ name, db.table? name = none

theorem Upgradable.empty
    {db : Database} (version : db.userVersion < 2) (tables : db.tables = []) : Upgradable db := by
  have none (name : String) : db.table? name = none := by
    rw [Database.table?, tables]
    rfl
  refine ⟨version, fun name table found => ?_, fun _ => none⟩
  rw [none] at found
  cases found

theorem IsV1.upgradable {db : Database} (legacy : IsV1 db) : Upgradable db := by
  refine ⟨legacy.version, fun name table found => ?_, fun messages => ?_⟩
  · obtain ⟨columns, full⟩ := v1_columns (legacy.tables name table found)
    exact ⟨full, 0, by rw [columns]; simp⟩
  · rw [legacy.messages] at messages
    cases messages

/-- All tables have the columns that the indexes are about. -/
theorem Upgradable.hasColumns
    {db : Database} (start : Upgradable db) :
    Database.HasColumns (fun name => (baseColumns name).map Column.name) db := by
  intro name table found
  obtain ⟨_, count, columns⟩ := start.columns name table found
  rw [Table.names, columns, List.map_append]
  exact List.subset_append_left _ _

theorem schema_creates :
    Database.creates (fun name => (baseColumns name).map Column.name) [] SCHEMA = true := by
  decide +kernel

theorem migrate_v2_adds : Database.adds (Database.createdNames SCHEMA) MIGRATE_V2 = true := by
  decide

theorem isDuplicateColumn_duplicateColumn (name : String) :
    isDuplicateColumn (Database.duplicateColumn name) = true := by
  have literal : "duplicate column name: ".toList =
      "duplicate column".toList ++ " name: ".toList := by
    decide
  have text : (Database.duplicateColumn name).toList =
      "duplicate column name: ".toList ++ name.toList := String.toList_append
  have front : "duplicate column".toList <+: (Database.duplicateColumn name).toList := by
    refine ⟨" name: ".toList ++ name.toList, ?_⟩
    calc "duplicate column".toList ++ (" name: ".toList ++ name.toList)
        = ("duplicate column".toList ++ " name: ".toList) ++ name.toList :=
          (List.append_assoc _ _ _).symm
      _ = "duplicate column name: ".toList ++ name.toList :=
          congrArg (· ++ name.toList) literal.symm
      _ = (Database.duplicateColumn name).toList := text.symm
  exact List.any_eq_true.mpr ⟨_, (List.mem_tails _ _).mpr List.suffix_rfl,
    List.isPrefixOf_iff_prefix.mpr front⟩

/-- What the first statements make of a table, when there were messages before. -/
def alteredBy (count : Nat) (messages : Bool) (name : String) (table : Table) : Table :=
  if messages then
    (Database.added name (MIGRATE_V2.take (count - SCHEMA.length))).foldl Table.ensureColumn table
  else table

/-- The first statements create what is missing and add columns in order. -/
theorem interrupted_spec {db : Database} (start : Upgradable db) (count : Nat) :
    ∃ after, interrupted db count = .ok after ∧ after.userVersion = db.userVersion ∧
      ∀ name, after.table? name =
        ((db.table? name).or ((Database.created name (SCHEMA.take count)).map .empty)).map
          (alteredBy count (db.hasTable "messages") name) := by
  have below : ¬ 2 ≤ db.userVersion := Int.not_le.mpr start.version
  obtain ⟨schema, created, version, tables⟩ :=
    Database.executeBatch_creates (Database.creates_take schema_creates count) start.hasColumns
      nofun
  rw [interrupted, if_neg below, created]
  have alters : ∃ after, (MIGRATE_V2.take (count - SCHEMA.length)).foldlM addColumnOnce schema =
      .ok after ∧ after.userVersion = schema.userVersion ∧
      ∀ name, after.table? name = (schema.table? name).map fun old =>
        (Database.added name (MIGRATE_V2.take (count - SCHEMA.length))).foldl
          Table.ensureColumn old := by
    by_cases all : SCHEMA.length ≤ count
    · refine Database.foldlM_executeIgnoring isDuplicateColumn_duplicateColumn
        (Database.adds_take migrate_v2_adds _) fun name member => ?_
      obtain ⟨columns, known⟩ := Database.mem_createdNames.mp member
      rw [Database.hasTable, tables, List.take_of_length_le all, known]
      simp
    · rw [Nat.sub_eq_zero_of_le (by omega)]
      exact ⟨schema, rfl, rfl, fun name => by simp [Database.added]⟩
  cases messages : db.hasTable "messages" with
  | true =>
      obtain ⟨after, ran, versions, later⟩ := alters
      refine ⟨after, ran, versions.trans version, fun name => ?_⟩
      rw [later, tables]
      rfl
  | false =>
      refine ⟨schema, rfl, version, fun name => ?_⟩
      rw [tables]
      exact Option.map_id'.symm

/-- A table that was there gets the first of the columns that it lacks. -/
theorem alteredBy_columns
    {table : Table} {name : String} {full : List Column} {count next reached : Nat}
    (known : Database.created name SCHEMA = some full)
    (first : Database.added name (MIGRATE_V2.take (count - SCHEMA.length)) =
      (addedColumns name).take next)
    (columns : table.columns = baseColumns name ++ (addedColumns name).take reached) :
    (alteredBy count true name table).columns =
        baseColumns name ++ (addedColumns name).take (max reached next) ∧
      (alteredBy count true name table).rows = table.rows.map fun row =>
        row ++ (((addedColumns name).take next).drop reached).map Column.fill := by
  rw [alteredBy, if_pos rfl, first]
  exact foldl_ensureColumn columns (names_distinct known)

theorem created_columns
    {name : String} {full : List Column} (known : Database.created name SCHEMA = some full) :
    (Table.empty full).columns =
      baseColumns name ++ (addedColumns name).take (addedColumns name).length := by
  rw [List.take_length]
  exact created_schema known

theorem Upgradable.interrupted
    {db after : Database} (start : Upgradable db) {count : Nat}
    (stopped : AgentMsg.interrupted db count = .ok after) : Upgradable after := by
  obtain ⟨reached, ran, version, tables⟩ := interrupted_spec start count
  cases ran.symm.trans stopped
  have before (name : String) (table : Table)
      (found : (db.table? name).or ((Database.created name (SCHEMA.take count)).map .empty) =
        some table) :
      (∃ full, Database.created name SCHEMA = some full) ∧
        ∃ count, table.columns = baseColumns name ++ (addedColumns name).take count := by
    rcases Option.or_eq_some_iff.mp found with old | ⟨_, new⟩
    · exact start.columns name table old
    · obtain ⟨full, created, rfl⟩ := Option.map_eq_some_iff.mp new
      have known := Database.created_of_take created
      exact ⟨⟨full, known⟩, _, created_columns known⟩
  refine ⟨version.symm ▸ start.version, fun name table found => ?_, fun messages name => ?_⟩
  · rw [tables] at found
    obtain ⟨old, present, rfl⟩ := Option.map_eq_some_iff.mp found
    obtain ⟨⟨full, known⟩, earlier, columns⟩ := before name old present
    refine ⟨⟨full, known⟩, ?_⟩
    cases db.hasTable "messages" with
    | true =>
        obtain ⟨next, first⟩ := Database.added_take name MIGRATE_V2 (count - SCHEMA.length)
        exact ⟨_, (alteredBy_columns known first columns).1⟩
    | false =>
        exact ⟨earlier, columns⟩
  · have none : db.table? "messages" = none ∧
        Database.created "messages" (SCHEMA.take count) = none := by
      rw [Database.hasTable, tables, Option.isSome_map, ← Bool.not_eq_true,
        Option.not_isSome_iff_eq_none, Option.or_eq_none_iff, Option.map_eq_none_iff] at messages
      exact messages
    have nothing : count = 0 := by
      cases count with
      | zero =>
          rfl
      | succ count =>
          cases none.2
    subst nothing
    have old : db.table? name = .none :=
      start.messages (by rw [Database.hasTable, none.1]; rfl) name
    rw [tables, old]
    rfl

theorem Migratable.upgradable {db : Database} (start : Migratable db) : Upgradable db := by
  induction start with
  | empty version tables =>
      exact .empty version tables
  | v1 legacy =>
      exact legacy.upgradable
  | crashed _ count stopped inductionHypothesis =>
      exact inductionHypothesis.interrupted stopped

/-! ## Every upgrade ends in the same schema -/

/-- The rows are those of the table before, with the columns that it had as they were, and
with the new columns as these declare. -/
def ExtendsRows (before after : Table) : Prop :=
  ∃ new, after.columns = before.columns ++ new ∧
    after.rows = before.rows.map fun row => row ++ new.map Column.fill

/-- All the statements together complete a table of the schema. -/
theorem alteredBy_complete
    {table : Table} {name : String} {full : List Column} {reached : Nat}
    (known : Database.created name SCHEMA = some full)
    (columns : table.columns = baseColumns name ++ (addedColumns name).take reached) :
    (alteredBy (SCHEMA.length + MIGRATE_V2.length) true name table).columns = full ∧
      ExtendsRows table (alteredBy (SCHEMA.length + MIGRATE_V2.length) true name table) := by
  have first : Database.added name
      (MIGRATE_V2.take (SCHEMA.length + MIGRATE_V2.length - SCHEMA.length)) =
      (addedColumns name).take (addedColumns name).length := by
    rw [List.take_of_length_le (by omega), List.take_length]
    rfl
  obtain ⟨grown, filled⟩ := alteredBy_columns known first columns
  have complete : baseColumns name ++
      (addedColumns name).take (max reached (addedColumns name).length) = full := by
    rw [List.take_of_length_le (Nat.le_max_right _ _)]
    exact (created_schema known).symm
  rw [List.take_length] at filled
  refine ⟨grown.trans complete, (addedColumns name).drop reached, ?_, filled⟩
  rw [grown, complete, columns, List.append_assoc, List.take_append_drop]
  exact created_schema known

/-- An upgrade sets the version, leaves every table with the columns that `SCHEMA` gives it
and its rows, and creates the others without rows. -/
theorem migrate_spec {db : Database} (start : Upgradable db) :
    ∃ after, migrate db = .ok after ∧ after.userVersion = 2 ∧
      (∀ name, (after.table? name).map Table.columns = Database.created name SCHEMA) ∧
      (∀ name table, db.table? name = some table →
        ∃ upgraded, after.table? name = some upgraded ∧ ExtendsRows table upgraded) ∧
      ∀ name new, db.table? name = none → after.table? name = some new → new.rows = [] := by
  obtain ⟨last, ran, _, tables⟩ :=
    interrupted_spec start (SCHEMA.length + MIGRATE_V2.length)
  rw [List.take_of_length_le (Nat.le_add_right _ _)] at tables
  have same (name : String) :
      ({ last with userVersion := 2 } : Database).table? name = last.table? name := rfl
  have done : migrate db = .ok { last with userVersion := 2 } := by
    rw [migrate_eq_interrupted start.version, ran]
    rfl
  cases messages : db.hasTable "messages" with
  | true =>
      rw [messages] at tables
      refine ⟨_, done, rfl, fun name => ?_, fun name table found => ?_,
        fun name new absent found => ?_⟩
      · rw [same, tables]
        cases found : db.table? name with
        | some table =>
            obtain ⟨⟨full, known⟩, count, columns⟩ := start.columns name table found
            rw [known]
            exact congrArg some (alteredBy_complete known columns).1
        | none =>
            cases known : Database.created name SCHEMA with
            | some full =>
                exact congrArg some (alteredBy_complete known (created_columns known)).1
            | none =>
                rfl
      · obtain ⟨⟨full, known⟩, count, columns⟩ := start.columns name table found
        refine ⟨_, ?_, (alteredBy_complete known columns).2⟩
        rw [same, tables, found]
        rfl
      · rw [same, tables, absent] at found
        obtain ⟨old, present, rfl⟩ := Option.map_eq_some_iff.mp found
        obtain ⟨full, known, rfl⟩ := Option.map_eq_some_iff.mp present
        obtain ⟨_, _, rows⟩ := (alteredBy_complete known (created_columns known)).2
        rw [rows]
        rfl
  | false =>
      have nothing := start.messages messages
      refine ⟨_, done, rfl, fun name => ?_, fun name table found => ?_,
        fun name new _ found => ?_⟩
      · rw [same, tables, nothing name, messages]
        cases Database.created name SCHEMA <;> rfl
      · rw [nothing name] at found
        cases found
      · rw [same, tables, nothing name, messages] at found
        obtain ⟨old, present, rfl⟩ := Option.map_eq_some_iff.mp found
        obtain ⟨full, _, rfl⟩ := Option.map_eq_some_iff.mp present
        rfl

/-- From nothing, from version 1 and from wherever an upgrade stopped, `migrate` succeeds
and ends with the version, the tables and the columns of a fresh database; the rows keep
their values, the new columns have their defaults, and a second upgrade changes nothing. -/
theorem migrate_converges (db : Database) (start : Migratable db) :
    ∃ after fresh, migrate db = .ok after ∧ migrate {} = .ok fresh ∧
      after.userVersion = 2 ∧
      (∀ name, (after.table? name).map Table.columns = (fresh.table? name).map Table.columns) ∧
      (∀ name table, db.table? name = some table →
        ∃ upgraded, after.table? name = some upgraded ∧ ExtendsRows table upgraded) ∧
      (∀ name new, db.table? name = none → after.table? name = some new → new.rows = []) ∧
      migrate after = .ok after := by
  obtain ⟨after, done, version, columns, rows, created⟩ := migrate_spec start.upgradable
  obtain ⟨fresh, created', _, columns', _⟩ :=
    migrate_spec (@Upgradable.empty {} (by decide) rfl)
  refine ⟨after, fresh, done, created', version, fun name => ?_, rows, created, ?_⟩
  · rw [columns, columns']
  · exact if_pos (Int.le_of_eq version.symm)

/-! ## A legacy database, stopped in the middle -/

/-- Version 1 with a message and without rejections. -/
def legacy : Database where
  tables :=
    [("messages",
        { columns := V1_MESSAGES
          rows := [[.integer 1, .text "old1", .text "in", .text "alice", .text "me", .text "t",
            .text "2020-01-01T00:00:00Z", .text "text/plain", .null, .text "legacy"]]
          aligned := by decide }),
      ("cursors", .empty V1_CURSORS)]

theorem legacy_isV1 : IsV1 legacy := by
  refine ⟨by decide, by decide, fun name table found => ?_⟩
  obtain ⟨entry, located, rfl⟩ := Option.map_eq_some_iff.mp found
  have named := List.find?_some located
  have known : ∀ entry ∈ legacy.tables, (entry.1, entry.2.columns) ∈ V1 := by
    decide
  simp only [decide_eq_true_eq] at named
  exact named ▸ known entry (List.mem_of_find?_eq_some located)

/-- The upgrade stops with the schema created and two columns added, and is run again. -/
theorem migrate_converges_legacy :
    ∃ stopped, interrupted legacy 10 = .ok stopped ∧
      ∃ after fresh, migrate stopped = .ok after ∧ migrate {} = .ok fresh ∧
        after.userVersion = 2 ∧
        (∀ name, (after.table? name).map Table.columns =
          (fresh.table? name).map Table.columns) ∧
        (∀ name table, stopped.table? name = some table →
          ∃ upgraded, after.table? name = some upgraded ∧ ExtendsRows table upgraded) ∧
        (∀ name new, stopped.table? name = none → after.table? name = some new →
          new.rows = []) ∧
        migrate after = .ok after := by
  obtain ⟨stopped, reached, _⟩ := interrupted_spec legacy_isV1.upgradable 10
  exact ⟨stopped, reached, migrate_converges stopped (.crashed (.v1 legacy_isV1) 10 reached)⟩

end AgentMsg
