import AgentMsg.Lib.Sql
import AgentMsg.Store

/-!
# The schema of the store

The tables as `SCHEMA` declares them, the columns that an upgrade adds, and the three
places that depend on positions: the column lists of the insertions, `MSG_COLS`, and the
indices with which a selected row is read back.  Together they are the store's rows.
-/

namespace AgentMsg

open Sql

/-! ## Tables -/

def MESSAGES : List Column :=
  [ { name := "seq", type := "INTEGER", primaryKey := true, autoincrement := true },
    { name := "id", type := "TEXT", notNull := true, unique := true },
    { name := "direction", type := "TEXT", notNull := true },
    { name := "sender", type := "TEXT", notNull := true },
    { name := "recipient", type := "TEXT", notNull := true },
    { name := "topic", type := "TEXT", notNull := true },
    { name := "ts", type := "TEXT", notNull := true },
    { name := "ctype", type := "TEXT", notNull := true },
    { name := "in_reply_to", type := "TEXT" },
    { name := "body", type := "TEXT", notNull := true },
    { name := "kind", type := "TEXT", notNull := true, default := some (.text "message") },
    { name := "correlation_id", type := "TEXT" },
    { name := "supersedes", type := "TEXT" },
    { name := "encrypted", type := "INTEGER", notNull := true, default := some (.integer 0) },
    { name := "delivery_state", type := "TEXT", notNull := true, default := some (.text "none") },
    { name := "broker_ack_ts", type := "TEXT" },
    { name := "delivered_ts", type := "TEXT" },
    { name := "read_ts", type := "TEXT" } ]

def CURSORS : List Column :=
  [ { name := "consumer", type := "TEXT", primaryKey := true },
    { name := "last_seq", type := "INTEGER", notNull := true },
    { name := "updated_at", type := "TEXT" } ]

def OUTBOX : List Column :=
  [ { name := "seq", type := "INTEGER", primaryKey := true, autoincrement := true },
    { name := "id", type := "TEXT", notNull := true, unique := true },
    { name := "topic", type := "TEXT", notNull := true },
    { name := "payload", type := "BLOB", notNull := true },
    { name := "qos", type := "INTEGER", notNull := true },
    { name := "retain", type := "INTEGER", notNull := true } ]

def REJECTIONS : List Column :=
  [ { name := "seq", type := "INTEGER", primaryKey := true, autoincrement := true },
    { name := "at", type := "TEXT", notNull := true,
      default := some (.expression "datetime('now')") },
    { name := "reason", type := "TEXT", notNull := true },
    { name := "detail", type := "TEXT", notNull := true },
    { name := "claimed_sender", type := "TEXT" },
    { name := "topic", type := "TEXT" } ]

def PRESENCE : List Column :=
  [ { name := "agent", type := "TEXT", primaryKey := true },
    { name := "state", type := "TEXT" },
    { name := "source", type := "TEXT" },
    { name := "ttl_secs", type := "INTEGER" },
    { name := "detail", type := "TEXT" },
    { name := "seq", type := "INTEGER", notNull := true, default := some (.integer 0) },
    { name := "last_seen", type := "TEXT", notNull := true },
    { name := "updated_at", type := "TEXT" } ]

def SEEN_GRANTS : List Column :=
  [ { name := "grant_id", type := "TEXT", primaryKey := true },
    { name := "at", type := "TEXT", notNull := true,
      default := some (.expression "datetime('now')") } ]

/-- The statements of the full schema. -/
def SCHEMA : List Statement :=
  [ .createTable "messages" MESSAGES,
    .createIndex "idx_messages_dir_seq" ⟨"messages", ["direction", "seq"]⟩,
    .createIndex "idx_messages_id" ⟨"messages", ["id"]⟩,
    .createTable "cursors" CURSORS,
    .createTable "outbox" OUTBOX,
    .createTable "rejections" REJECTIONS,
    .createTable "presence" PRESENCE,
    .createTable "seen_grants" SEEN_GRANTS ]

/-- The columns that are added in place to a database of version 1. -/
def MIGRATE_V2 : List Statement :=
  [ .addColumn "messages"
      { name := "kind", type := "TEXT", notNull := true, default := some (.text "message") },
    .addColumn "messages" { name := "correlation_id", type := "TEXT" },
    .addColumn "messages" { name := "supersedes", type := "TEXT" },
    .addColumn "messages"
      { name := "encrypted", type := "INTEGER", notNull := true, default := some (.integer 0) },
    .addColumn "messages"
      { name := "delivery_state", type := "TEXT", notNull := true, default := some (.text "none") },
    .addColumn "messages" { name := "broker_ack_ts", type := "TEXT" },
    .addColumn "messages" { name := "delivered_ts", type := "TEXT" },
    .addColumn "messages" { name := "read_ts", type := "TEXT" },
    .addColumn "rejections" { name := "claimed_sender", type := "TEXT" },
    .addColumn "rejections" { name := "topic", type := "TEXT" },
    .addColumn "cursors" { name := "updated_at", type := "TEXT" } ]

/-! ## Message rows by position -/

/-- The canonical column list of every `SELECT` of messages. -/
def MSG_COLS : List String :=
  ["seq", "id", "direction", "sender", "recipient", "topic", "ts", "ctype", "in_reply_to",
    "body", "kind", "correlation_id", "supersedes", "encrypted", "delivery_state",
    "broker_ack_ts", "delivered_ts", "read_ts"]

/-- The named columns and the values of `INSERT OR IGNORE INTO messages`. -/
structure Insertion where
  names : List String
  values : List Expr

/-- The statement of `insert_inbound`. -/
def INSERT_INBOUND : Insertion where
  names := ["id", "direction", "sender", "recipient", "topic", "ts", "ctype", "in_reply_to",
    "body", "kind", "correlation_id", "supersedes", "encrypted"]
  values := [.param 1, .literal (.text "in"), .param 2, .param 3, .param 4, .param 5, .param 6,
    .param 7, .param 8, .param 9, .param 10, .param 11, .param 12]

/-- The statement of `insert_outbound_log`. -/
def INSERT_OUTBOUND_LOG : Insertion where
  names := ["id", "direction", "sender", "recipient", "topic", "ts", "ctype", "in_reply_to",
    "body", "kind", "correlation_id", "supersedes", "encrypted", "delivery_state"]
  values := [.param 1, .literal (.text "out"), .param 2, .param 3, .param 4, .param 5, .param 6,
    .param 7, .param 8, .param 9, .param 10, .param 11, .param 12, .literal (.text "pending")]

/-- The parameters of both. -/
def insertParams (inner : Inner) (topic : String) : List Value :=
  [.text inner.id, .text inner.sender, .text inner.recipient, .text topic, .text inner.ts,
    .text inner.ctype, .ofOption inner.inReplyTo, .text inner.body, .text (kindStr inner.kind),
    .ofOption inner.correlationId, .ofOption inner.supersedes,
    .integer (if inner.enc.isSome then 1 else 0)]

/-- The row an insertion stores under a row id. -/
def Insertion.row (insertion : Insertion) (inner : Inner) (topic : String) (seq : Int) :
    List Value :=
  insertedRow MESSAGES insertion.names insertion.values (insertParams inner topic) seq

def getInteger (row : List Value) (index : Nat) : Option Int :=
  match row[index]? with
  | some (.integer value) => some value
  | _ => none

def getText (row : List Value) (index : Nat) : Option String :=
  match row[index]? with
  | some (.text value) => some value
  | _ => none

/-- A column that may be NULL. -/
def getOptional (row : List Value) (index : Nat) : Option (Option String) :=
  match row[index]? with
  | some .null => some none
  | some (.text value) => some (some value)
  | _ => none

def Direction.parse : String → Option Direction
  | "in" => some .inbound
  | "out" => some .outbound
  | _ => none

def DeliveryState.parse : String → Option DeliveryState
  | "none" => some .none
  | "pending" => some .pending
  | "sent" => some .sent
  | "delivered" => some .delivered
  | "read" => some .read
  | "failed" => some .failed
  | _ => none

/-- A stored message from a selected row, by the indices of `row_to_msg`. -/
def readRow (r : List Value) : Option StoredMsg := do
  return {
    seq := ← getInteger r 0
    id := ← getText r 1
    direction := ← (getText r 2).bind Direction.parse
    sender := ← getText r 3
    recipient := ← getText r 4
    topic := ← getText r 5
    ts := ← getText r 6
    ctype := ← getText r 7
    inReplyTo := ← getOptional r 8
    body := ← getText r 9
    kind := ← getText r 10
    correlationId := ← getOptional r 11
    supersedes := ← getOptional r 12
    encrypted := (← getInteger r 13) != 0
    deliveryState := ← (getText r 14).bind DeliveryState.parse
    brokerAckTs := ← getOptional r 15
    deliveredTs := ← getOptional r 16
    readTs := ← getOptional r 17 }

/-! ## They are the rows of the store -/

/-- The values of a row in the order of the schema. -/
def columnValues (row : Int × MsgRow) : List Value :=
  [.integer row.1, .text row.2.id, .text row.2.direction.text, .text row.2.sender,
    .text row.2.recipient, .text row.2.topic, .text row.2.ts, .text row.2.ctype,
    .ofOption row.2.inReplyTo, .text row.2.body, .text row.2.kind,
    .ofOption row.2.correlationId, .ofOption row.2.supersedes,
    .integer (if row.2.encrypted then 1 else 0), .text row.2.deliveryState.text,
    .ofOption row.2.brokerAckTs, .ofOption row.2.deliveredTs, .ofOption row.2.readTs]

/-- Every column gets the field that it is named after. -/
theorem inbound_columns (inner : Inner) (topic : String) (seq : Int) :
    INSERT_INBOUND.row inner topic seq = columnValues (seq, Store.inboundRow inner topic) :=
  rfl

theorem outbound_columns (inner : Inner) (topic : String) (seq : Int) :
    INSERT_OUTBOUND_LOG.row inner topic seq =
      columnValues (seq, Store.outboundRow inner topic) :=
  rfl

@[simp]
theorem parse_direction (direction : Direction) :
    Direction.parse direction.text = some direction := by
  cases direction <;> rfl

@[simp]
theorem parse_deliveryState (state : DeliveryState) :
    DeliveryState.parse state.text = some state := by
  cases state <;> rfl

/-- The selected columns are those of the schema, in its order. -/
theorem select_columns (row : Int × MsgRow) :
    select MESSAGES MSG_COLS (columnValues row) = some (columnValues row) :=
  rfl

/-- Every field is read from the column that it is named after. -/
theorem readRow_columns (row : Int × MsgRow) :
    readRow (columnValues row) = some (rowToMsg row) := by
  have optional (index : Nat) (value : Option String)
      (here : (columnValues row)[index]? = some (.ofOption value)) :
      getOptional (columnValues row) index = some value := by
    cases value <;> simp [getOptional, here, Value.ofOption]
  have text (index : Nat) (value : String)
      (here : (columnValues row)[index]? = some (.text value)) :
      getText (columnValues row) index = some value := by
    simp [getText, here]
  have integer (index : Nat) (value : Int)
      (here : (columnValues row)[index]? = some (.integer value)) :
      getInteger (columnValues row) index = some value := by
    simp [getInteger, here]
  have flag : ((if row.2.encrypted then (1 : Int) else 0) != 0) = row.2.encrypted := by
    cases row.2.encrypted <;> rfl
  simp only [readRow, integer 0 _ rfl, text 1 _ rfl, text 2 _ rfl, text 3 _ rfl, text 4 _ rfl,
    text 5 _ rfl, text 6 _ rfl, text 7 _ rfl, optional 8 _ rfl, text 9 _ rfl, text 10 _ rfl,
    optional 11 _ rfl, optional 12 _ rfl, integer 13 _ rfl, text 14 _ rfl, optional 15 _ rfl,
    optional 16 _ rfl, optional 17 _ rfl, Option.bind_eq_bind, Option.bind_some, parse_direction,
    parse_deliveryState, flag]
  rfl

end AgentMsg
