import AgentMsg.Lib.Machine
import AgentMsg.Lib.RowTable
import AgentMsg.Message
import Mathlib.Algebra.GroupWithZero.Nat

/-!
# The durable local store

The SQLite tables of the daemon: the message log, the per-consumer cursors, the
outbox, the rejection log, the presence table and the grant replay table, with
every statement that reads or writes them.  A value of `datetime('now')` is an
argument of the operation that stamps it.
-/

namespace AgentMsg

/-! ## Rows -/

inductive Direction where
  | inbound
  | outbound
  deriving DecidableEq, Repr

/-- The text of the `direction` column. -/
def Direction.text : Direction → String
  | .inbound => "in"
  | .outbound => "out"

/-- Delivery lifecycle of a message. -/
inductive DeliveryState where
  | none
  | pending
  | sent
  | delivered
  | read
  | failed
  deriving DecidableEq, Repr

/-- The text of the `delivery_state` column. -/
def DeliveryState.text : DeliveryState → String
  | .none => "none"
  | .pending => "pending"
  | .sent => "sent"
  | .delivered => "delivered"
  | .read => "read"
  | .failed => "failed"

/-- The columns of a `messages` row besides its `seq`. -/
structure MsgRow where
  id : String
  direction : Direction
  sender : String
  recipient : String
  topic : String
  ts : String
  ctype : String
  inReplyTo : Option String
  body : String
  kind : String
  correlationId : Option String
  supersedes : Option String
  encrypted : Bool
  deliveryState : DeliveryState := .none
  brokerAckTs : Option String := none
  deliveredTs : Option String := none
  readTs : Option String := none
  deriving DecidableEq, Repr

/-- A stored message row returned to readers. -/
structure StoredMsg extends MsgRow where
  seq : Int
  deriving DecidableEq, Repr

/-- A pending outbound message awaiting broker confirmation. -/
structure Outbound where
  id : String
  topic : String
  payload : Bytes
  qos : Nat := 1
  retain : Bool := false
  deriving DecidableEq, Repr

structure CursorRow where
  lastSeq : Int
  updatedAt : String
  deriving DecidableEq, Repr

/-- A per-consumer cursor summary. -/
structure ConsumerRow where
  consumer : String
  lastSeq : Int
  unread : Nat
  lastReadAt : String
  deriving DecidableEq, Repr

structure RejectionRow where
  seq : Nat
  recordedAt : String
  reason : String
  claimedSender : Option String
  topic : String
  detail : String
  deriving DecidableEq, Repr

structure PresenceRow where
  state : String
  source : String
  ttlSecs : Int
  detail : Option String
  seq : Int
  lastSeen : String
  updatedAt : String
  deriving DecidableEq, Repr

/-- The message log: rows in `seq` order with a unique `id` column. -/
abbrev MessageTable := RowTable MsgRow String MsgRow.id

/-- The tables of the store. -/
structure Store where
  messages : MessageTable := .empty
  cursors : Std.TreeMap String CursorRow := ∅
  outbox : RowTable Outbound String Outbound.id := .empty
  rejections : List RejectionRow := []
  presence : Std.TreeMap String PresenceRow := ∅
  seenGrants : Std.TreeMap String String := ∅

instance : Inhabited Store := ⟨{}⟩

/-- Stable text of a message kind. -/
def kindStr : MsgKind → String
  | .message => "message"
  | .command => "command"
  | .query => "query"
  | .result => "result"
  | .ack => "ack"
  | .error => "error"
  | .grant => "grant"
  | .receipt => "receipt"

def rowToMsg (row : Int × MsgRow) : StoredMsg :=
  { row.2 with seq := row.1 }

/-- `LIMIT`: a negative limit is no limit. -/
def limitRows {α : Type} (limit : Int) (rows : List α) : List α :=
  if limit < 0 then rows else rows.take limit.toNat

/-- A row without its delivery columns, the only ones that change after insertion. -/
def MsgRow.content (row : MsgRow) : MsgRow :=
  { row with deliveryState := .none, brokerAckTs := none, deliveredTs := none, readTs := none }

namespace Store

/-! ## Message log -/

/-- The columns an inbound message is stored with. -/
def inboundRow (inner : Inner) (topic : String) : MsgRow :=
  { id := inner.id, direction := .inbound, sender := inner.sender,
    recipient := inner.recipient, topic, ts := inner.ts, ctype := inner.ctype,
    inReplyTo := inner.inReplyTo, body := inner.body, kind := kindStr inner.kind,
    correlationId := inner.correlationId, supersedes := inner.supersedes,
    encrypted := inner.enc.isSome }

/-- The columns an outbound message is logged with. -/
def outboundRow (inner : Inner) (topic : String) : MsgRow :=
  { inboundRow inner topic with direction := .outbound, deliveryState := .pending }

/-- Has this message id already been stored? -/
def containsId (store : Store) (id : String) : Bool :=
  store.messages.holds id

/-- Store an accepted inbound message; the `seq` of a freshly inserted row, or
nothing for a duplicate. -/
def insertInbound (store : Store) (inner : Inner) (topic : String) :
    Store × Option Int :=
  let inserted := store.messages.insertOrIgnore (inboundRow inner topic)
  ({ store with messages := inserted.1 }, inserted.2)

/-- Record a locally originated message with a `pending` delivery state. -/
def insertOutboundLog (store : Store) (inner : Inner) (topic : String) : Store :=
  { store with messages := (store.messages.insertOrIgnore (outboundRow inner topic)).1 }

/-- Fetch a single message by its `seq`. -/
def messageBySeq (store : Store) (seq : Int) : Option StoredMsg :=
  (store.messages.byRowid seq).map rowToMsg

/-- Fetch a single message by its id. -/
def getMessage (store : Store) (id : String) : Option StoredMsg :=
  (store.messages.byKey id).map rowToMsg

def messageCount (store : Store) : Nat :=
  store.messages.rows.length

/-! ## Queue drain -/

/-- Last acknowledged `seq` of a consumer. -/
def cursor (store : Store) (consumer : String) : Int :=
  match store.cursors[consumer]? with
  | some row => row.lastSeq
  | none => 0

/-- Is the row inbound and newer than a cursor? -/
def unreadAfter (after : Int) (row : Int × MsgRow) : Bool :=
  row.2.direction == .inbound && decide (after < row.1)

/-- Inbound rows newer than a cursor value, oldest first. -/
def selectAfter (store : Store) (after : Int) (limit : Int) : List StoredMsg :=
  (limitRows limit (store.messages.rows.filter (unreadAfter after))).map rowToMsg

/-- Inbound messages newer than the consumer's cursor, oldest first. -/
def readAfterCursor (store : Store) (consumer : String) (limit : Int) : List StoredMsg :=
  store.selectAfter (store.cursor consumer) limit

/-- Acknowledge up to and including `seq`; the cursor only moves up. -/
def ack (store : Store) (consumer : String) (seq : Int) (now : String) : Store :=
  match store.cursors[consumer]? with
  | none => { store with cursors := store.cursors.insert consumer ⟨seq, now⟩ }
  | some row =>
      if seq > row.lastSeq then
        { store with cursors := store.cursors.insert consumer ⟨seq, now⟩ }
      else store

/-- Per-consumer cursor summaries with unread counts. -/
def consumers (store : Store) : List ConsumerRow :=
  store.cursors.toList.map fun entry =>
    { consumer := entry.1, lastSeq := entry.2.lastSeq,
      unread := (store.messages.rows.filter (unreadAfter entry.2.lastSeq)).length,
      lastReadAt := entry.2.updatedAt }

/-! ## Non-destructive browsing -/

/-- Does an optional filter admit a value? -/
def admits (filter : Option String) (value : String) : Bool :=
  match filter with
  | some wanted => value == wanted
  | none => true

/-- Recent messages, newest first; `direction` is "in", "out" or "all". -/
def browse (store : Store) (limit : Int) (fromFilter toFilter : Option String)
    (direction : String) : List StoredMsg :=
  (limitRows limit <| (store.messages.rows.filter fun row =>
      (direction == "all" || row.2.direction.text == direction) &&
        admits fromFilter row.2.sender &&
        (admits toFilter row.2.recipient || row.2.recipient == "*")).reverse).map rowToMsg

/-- Chronological transcript across both directions. -/
def transcript (store : Store) (limit : Int) (fromFilter toFilter peer : Option String) :
    List StoredMsg :=
  (limitRows limit <| store.messages.rows.filter fun row =>
      admits fromFilter row.2.sender && admits toFilter row.2.recipient &&
        (admits peer row.2.sender || admits peer row.2.recipient)).map rowToMsg

/-- Outbound messages and their delivery state, newest first. -/
def outboundReceipts (store : Store) (limit : Int) (state : Option String) :
    List StoredMsg :=
  (limitRows limit <| (store.messages.rows.filter fun row =>
      row.2.direction == .outbound && admits state row.2.deliveryState.text).reverse).map
    rowToMsg

/-! ## Outbox and delivery state -/

def enqueueOutbound (store : Store) (ob : Outbound) : Store :=
  { store with outbox := (store.outbox.insertOrIgnore ob).1 }

def pendingOutbound (store : Store) : List Outbound :=
  store.outbox.rows.map Prod.snd

/-- `UPDATE messages ... WHERE id = ? AND direction = 'out' AND` a condition on the
delivery state. -/
def updateOutbound (store : Store) (id : String) (guard : DeliveryState → Bool)
    (change : MsgRow → MsgRow) (keeps : ∀ row, (change row).id = row.id) : Store :=
  { store with
    messages := store.messages.updateWhere
      (fun row => row.id == id && row.direction == .outbound && guard row.deliveryState)
      change keeps }

/-- The first statement of `markDelivered`: advance the log to `sent`, unless a later
state is recorded. -/
def markSent (store : Store) (id : String) (now : String) : Store :=
  store.updateOutbound id
    (fun state => state == .pending || state == .none)
    (fun row => { row with deliveryState := .sent, brokerAckTs := some now })
    (fun _ => rfl)

/-- The broker took the message: advance the log and drop it from the outbox. -/
def markDelivered (store : Store) (id : String) (now : String) : Store :=
  let updated := store.markSent id now
  { updated with outbox := updated.outbox.deleteWhere fun row => row.2.id == id }

/-- Apply an inbound delivery receipt to the referenced outbound message. -/
def applyDeliveryReceipt (store : Store) (origId ts : String) : Store :=
  store.updateOutbound origId
    (fun state => !(state == .read || state == .failed))
    (fun row => { row with deliveryState := .delivered, deliveredTs := some ts })
    (fun _ => rfl)

/-- Apply an inbound read receipt to the referenced outbound message. -/
def applyReadReceipt (store : Store) (origId ts : String) : Store :=
  store.updateOutbound origId
    (fun state => !(state == .failed))
    (fun row => { row with deliveryState := .read, readTs := some ts })
    (fun _ => rfl)

/-- Mark an outbound message as permanently failed. -/
def markFailed (store : Store) (id : String) : Store :=
  store.updateOutbound id (fun _ => true)
    (fun row => { row with deliveryState := .failed })
    (fun _ => rfl)

/-! ## Rejections, presence and grants -/

def recordRejection (store : Store) (reason : RejectReason) (claimedSender : Option String)
    (topic detail now : String) : Store :=
  { store with
    rejections := store.rejections ++
      [{ seq := store.rejections.length + 1, recordedAt := now, reason := reason.code,
         claimedSender, topic, detail }] }

def rejectionCount (store : Store) : Nat :=
  store.rejections.length

/-- Recent rejections, newest first, filtered by reason code and by time. -/
def rejectionRows (store : Store) (limit : Int) (reason since : Option String) :
    List RejectionRow :=
  limitRows limit <| (store.rejections.filter fun row =>
    admits reason row.reason &&
      match since with
      | some bound => decide (bound ≤ row.recordedAt)
      | none => true).reverse

/-- Upsert a presence record, keeping the beacon with the highest `seq`. -/
def upsertPresence (store : Store) (agent : String) (beacon : PresenceBeacon)
    (lastSeen now : String) : Store :=
  let row : PresenceRow :=
    { state := beacon.state, source := beacon.source, ttlSecs := beacon.ttlSecs,
      detail := beacon.detail, seq := beacon.seq, lastSeen, updatedAt := now }
  match store.presence[agent]? with
  | none => { store with presence := store.presence.insert agent row }
  | some old =>
      if beacon.seq ≥ old.seq then
        { store with presence := store.presence.insert agent row }
      else store

def listPresence (store : Store) : List (String × PresenceRow) :=
  store.presence.toList

/-- Record a grant id as seen; true if it was already seen. -/
def seenGrant (store : Store) (grantId now : String) : Store × Bool :=
  if (store.seenGrants[grantId]?).isSome then (store, true)
  else ({ store with seenGrants := store.seenGrants.insert grantId now }, false)

/-! ## Bounds -/

/-- May the row be evicted?  Outbound rows awaiting a receipt may not. -/
def evictable (row : MsgRow) : Bool :=
  !(row.direction == .outbound &&
    !(row.deliveryState == .delivered || row.deliveryState == .read ||
      row.deliveryState == .failed || row.deliveryState == .none))

/-- SQLite `LENGTH` of a text: its characters before the first NUL. -/
def sqlLength (text : String) : Nat :=
  (text.toList.takeWhile fun letter => letter.toNat != 0).length

/-- `SUM(LENGTH(body))` over the message log. -/
def totalBytes (table : MessageTable) : Nat :=
  (table.rows.map fun row => sqlLength row.2.body).sum

/-- Rows deleted in one round of the byte trim. -/
def TRIM_BATCH : Nat := 64

/-- `DELETE` of the oldest evictable rows. -/
def evictOldest (table : MessageTable) (count : Nat) : MessageTable :=
  table.deleteFirst (fun row => evictable row.2) count

/-- How many rows `evictOldest` deletes. -/
def evictCount (table : MessageTable) (count : Nat) : Nat :=
  (table.firstWhere (fun row => evictable row.2) count).length

/-- Delete batches of the oldest evictable rows until the byte budget holds or no
evictable row is left. -/
def trimLoop (maxBytes : Nat) : Nat → MessageTable → MessageTable × Nat
  | 0, table => (table, 0)
  | fuel + 1, table =>
      if totalBytes table ≤ maxBytes then (table, 0)
      else if evictCount table TRIM_BATCH = 0 then (table, 0)
      else
        let rest := trimLoop maxBytes fuel (evictOldest table TRIM_BATCH)
        (rest.1, evictCount table TRIM_BATCH + rest.2)

/-- The byte trim.  Every round that continues deletes a row, so one round for
each row and a last one to stop are enough. -/
def trimBytes (maxBytes : Nat) (table : MessageTable) : MessageTable × Nat :=
  trimLoop maxBytes (table.rows.length + 1) table

/-- Evict the oldest rows of a table until it is within the bounds, with the number
of evicted rows. -/
def boundTable (table : MessageTable) (maxMessages maxBytes : Nat) : MessageTable × Nat :=
  if table.rows.length > maxMessages ∨ totalBytes table > maxBytes then
    let excess := table.rows.length - maxMessages
    let trimmed := trimBytes maxBytes (evictOldest table excess)
    (trimmed.1, evictCount table excess + trimmed.2)
  else (table, 0)

/-- Evict the oldest messages until the store is within the configured bounds. -/
def enforceBounds (store : Store) (maxMessages maxBytes : Nat) : Store × Nat :=
  let bounded := boundTable store.messages maxMessages maxBytes
  ({ store with messages := bounded.1 }, bounded.2)

/-- The rows that remain when `enforceBounds` fails after some of its deletions. -/
def boundTableUpTo (table : MessageTable) (maxMessages maxBytes deletions : Nat) :
    MessageTable :=
  if table.rows.length > maxMessages ∨ totalBytes table > maxBytes then
    let excess := table.rows.length - maxMessages
    if excess = 0 then (trimLoop maxBytes deletions table).1
    else
      match deletions with
      | 0 => table
      | rest + 1 => (trimLoop maxBytes rest (evictOldest table excess)).1
  else table

/-! ## Operations -/

/-- The calls that write to the store. -/
inductive Op where
  | insertInbound (inner : Inner) (topic : String)
  | insertOutboundLog (inner : Inner) (topic : String)
  | ack (consumer : String) (seq : Int) (now : String)
  | enqueueOutbound (ob : Outbound)
  | markSent (id now : String)
  | markDelivered (id now : String)
  | applyDeliveryReceipt (origId ts : String)
  | applyReadReceipt (origId ts : String)
  | markFailed (id : String)
  | recordRejection (reason : RejectReason) (claimedSender : Option String)
      (topic detail now : String)
  | upsertPresence (agent : String) (beacon : PresenceBeacon) (lastSeen now : String)
  | seenGrant (grantId now : String)
  | enforceBounds (maxMessages maxBytes : Nat)
  | enforceBoundsUpTo (maxMessages maxBytes deletions : Nat)
  deriving DecidableEq

def apply (store : Store) : Op → Store
  | .insertInbound inner topic => (store.insertInbound inner topic).1
  | .insertOutboundLog inner topic => store.insertOutboundLog inner topic
  | .ack consumer seq now => store.ack consumer seq now
  | .enqueueOutbound ob => store.enqueueOutbound ob
  | .markSent id now => store.markSent id now
  | .markDelivered id now => store.markDelivered id now
  | .applyDeliveryReceipt origId ts => store.applyDeliveryReceipt origId ts
  | .applyReadReceipt origId ts => store.applyReadReceipt origId ts
  | .markFailed id => store.markFailed id
  | .recordRejection reason claimedSender topic detail now =>
      store.recordRejection reason claimedSender topic detail now
  | .upsertPresence agent beacon lastSeen now =>
      store.upsertPresence agent beacon lastSeen now
  | .seenGrant grantId now => (store.seenGrant grantId now).1
  | .enforceBounds maxMessages maxBytes => (store.enforceBounds maxMessages maxBytes).1
  | .enforceBoundsUpTo maxMessages maxBytes deletions =>
      { store with messages :=
          boundTableUpTo store.messages maxMessages maxBytes deletions }

/-- The store after some calls. -/
def run (store : Store) (operations : List Op) : Store :=
  Machine.run apply store operations

@[simp]
theorem run_nil (store : Store) : store.run [] = store :=
  rfl

@[simp]
theorem run_cons (store : Store) (operation : Op) (operations : List Op) :
    store.run (operation :: operations) = (store.apply operation).run operations :=
  rfl

theorem run_concat (store : Store) (operations : List Op) (operation : Op) :
    store.run (operations ++ [operation]) = (store.run operations).apply operation :=
  Machine.run_concat

theorem run_append (store : Store) (first second : List Op) :
    store.run (first ++ second) = (store.run first).run second :=
  Machine.run_append

/-- What is left of a call that fails after some of its writing statements.  A call
of a single statement leaves nothing. -/
def Op.upTo (writes : Nat) : Op → Option Op
  | .markDelivered id now => if writes = 0 then none else some (.markSent id now)
  | .enforceBounds maxMessages maxBytes =>
      some (.enforceBoundsUpTo maxMessages maxBytes writes)
  | _ => none

/-! ## Delivery columns -/

/-- The delivery-state update of one outbound row. -/
structure DeliveryUpdate where
  id : String
  guard : DeliveryState → Bool
  change : MsgRow → MsgRow
  keeps : ∀ row, (change row).id = row.id
  content : ∀ row, (change row).content = row.content

/-- Does the update apply to the row? -/
def DeliveryUpdate.selects (update : DeliveryUpdate) (row : MsgRow) : Bool :=
  row.id == update.id && row.direction == .outbound && update.guard row.deliveryState

/-- The broker took the message. -/
def sentUpdate (id now : String) : DeliveryUpdate :=
  ⟨id, fun state => state == .pending || state == .none,
    fun row => { row with deliveryState := .sent, brokerAckTs := some now },
    fun _ => rfl, fun _ => rfl⟩

def deliveredUpdate (origId ts : String) : DeliveryUpdate :=
  ⟨origId, fun state => !(state == .read || state == .failed),
    fun row => { row with deliveryState := .delivered, deliveredTs := some ts },
    fun _ => rfl, fun _ => rfl⟩

def readUpdate (origId ts : String) : DeliveryUpdate :=
  ⟨origId, fun state => !(state == .failed),
    fun row => { row with deliveryState := .read, readTs := some ts },
    fun _ => rfl, fun _ => rfl⟩

def failedUpdate (id : String) : DeliveryUpdate :=
  ⟨id, fun _ => true, fun row => { row with deliveryState := .failed },
    fun _ => rfl, fun _ => rfl⟩

/-- The update an operation makes to the delivery columns. -/
def Op.update : Op → Option DeliveryUpdate
  | .markSent id now => some (sentUpdate id now)
  | .markDelivered id now => some (sentUpdate id now)
  | .applyDeliveryReceipt origId ts => some (deliveredUpdate origId ts)
  | .applyReadReceipt origId ts => some (readUpdate origId ts)
  | .markFailed id => some (failedUpdate id)
  | _ => none

end Store

end AgentMsg
