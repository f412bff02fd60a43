import AgentMsg.IpcCodec
import AgentMsg.Schema

/-!
# Responses and stream frames as documents

What the daemon writes back.  Fields that are absent or unset are left out where the source
leaves them out.  Reading gives back the response, except for the time of a presence row's
update, which no response has.
-/

namespace AgentMsg

namespace Ipc

open Document

/-! ## Rows -/

/-- A count or a number that the daemon draws from a table. -/
def count : Shape Nat :=
  .natural 9223372036854775808

def listOfText : Shape (List String) :=
  .listed .text

/-- `StoredMsg` -/
def storedMsgRecord : Record (Int × String × Direction × String × String × String × String ×
    String × Option String × String × String × Option String × Option String × Bool ×
    DeliveryState × Option String × Option String × Option String) :=
  .and (.plain "seq") i64 <|
  .and (.plain "id") .text <|
  .and (.plain "direction") (Shape.text.via Direction.text Direction.parse) <|
  .and (.plain "from") .text <|
  .and (.plain "to") .text <|
  .and (.plain "topic") .text <|
  .and (.plain "ts") .text <|
  .and (.plain "ctype") .text <|
  .and (.sparse "in_reply_to") optText <|
  .and (.plain "body") .text <|
  .and (.plain "kind") .text <|
  .and (.sparse "correlation_id") optText <|
  .and (.sparse "supersedes") optText <|
  .and (.sparseFlag "encrypted") .flag <|
  .and (.plain "delivery_state") (Shape.text.via DeliveryState.text DeliveryState.parse) <|
  .and (.sparse "broker_ack_ts") optText <|
  .and (.sparse "delivered_ts") optText <|
  .single (.sparse "read_ts") optText

def storedMsg : Shape StoredMsg :=
  (storedMsgRecord.shape (by decide)).via
    (fun msg => (msg.seq, msg.id, msg.direction, msg.sender, msg.recipient, msg.topic, msg.ts,
      msg.ctype, msg.inReplyTo, msg.body, msg.kind, msg.correlationId, msg.supersedes,
      msg.encrypted, msg.deliveryState, msg.brokerAckTs, msg.deliveredTs, msg.readTs))
    (fun (seq, id, direction, sender, recipient, topic, ts, ctype, inReplyTo, body, kind,
        correlationId, supersedes, encrypted, deliveryState, brokerAckTs, deliveredTs, readTs) =>
      some
        { seq := seq, id, direction, sender, recipient, topic, ts, ctype, inReplyTo, body, kind,
          correlationId, supersedes, encrypted, deliveryState, brokerAckTs, deliveredTs,
          readTs })

/-- `RejectionRow` -/
def rejectionRecord : Record (Nat × String × String × Option String × Option String × String) :=
  .and (.plain "seq") count <|
  .and (.plain "at") .text <|
  .and (.plain "reason") .text <|
  .and (.sparse "claimed_sender") optText <|
  .and (.sparse "topic") optText <|
  .single (.plain "detail") .text

/-- A row of the rejection log, which always has a topic. -/
def rejectionRow : Shape RejectionRow :=
  (rejectionRecord.shape (by decide)).via
    (fun row => (row.seq, row.recordedAt, row.reason, row.claimedSender, some row.topic,
      row.detail))
    (fun (seq, recordedAt, reason, claimedSender, topic, detail) =>
      topic.map fun topic => { seq := seq, recordedAt, reason, claimedSender, topic, detail })

/-- `ConsumerRow` -/
def consumerRecord : Record (String × Int × Nat × Option String) :=
  .and (.plain "consumer") .text <|
  .and (.plain "last_seq") i64 <|
  .and (.plain "unread") count <|
  .single (.sparse "last_read_at") optText

/-- A consumer of the cursor table, which always has a time. -/
def consumerRow : Shape ConsumerRow :=
  (consumerRecord.shape (by decide)).via
    (fun row => (row.consumer, row.lastSeq, row.unread, some row.lastReadAt))
    (fun (consumer, lastSeq, unread, lastReadAt) =>
      lastReadAt.map fun lastReadAt => { consumer := consumer, lastSeq, unread, lastReadAt })

/-- `PresenceRow` -/
def presenceRowRecord : Record (String × Option String × Option String × Option Int ×
    Option String × Int × String) :=
  .and (.plain "agent") .text <|
  .and (.sparse "state") optText <|
  .and (.sparse "source") optText <|
  .and (.sparse "ttl_secs") optI64 <|
  .and (.sparse "detail") optText <|
  .and (.plain "seq") i64 <|
  .single (.plain "last_seen") .text

/-- A row of the presence table, without the time of its update. -/
def presenceRow : Shape (String × PresenceRow) :=
  (presenceRowRecord.shape (by decide)).via
    (fun row => (row.1, some row.2.state, some row.2.source, some row.2.ttlSecs, row.2.detail,
      row.2.seq, row.2.lastSeen))
    (fun (agent, state, source, ttlSecs, detail, seq, lastSeen) =>
      match state, source, ttlSecs with
      | some state, some source, some ttlSecs =>
          some (agent, { state, source, ttlSecs, detail, seq, lastSeen, updatedAt := "" })
      | _, _, _ => none)

/-- `PendingPairView` -/
def pendingPairRecord : Record (String × String × String × Bool) :=
  .and (.plain "name") .text <|
  .and (.plain "fingerprint") .text <|
  .and (.plain "sas") .text <|
  .single (.plain "kem") .flag

def pendingPair : Shape PendingPairView :=
  (pendingPairRecord.shape (by decide)).via
    (fun view => (view.name, view.fingerprint, view.sas, view.kem))
    (fun (name, fingerprint, sas, kem) => some { name := name, fingerprint, sas, kem })

/-- `StatusInfo` -/
def statusRecord : Record (Option String × Option String × String × Bool × List String × Nat ×
    Nat × Nat × Nat × Nat × List (String × PresenceRow) × Bool × Bool × Bool × Bool) :=
  .and (.optional "identity") optText <|
  .and (.optional "fingerprint") optText <|
  .and (.plain "broker") .text <|
  .and (.plain "connected") .flag <|
  .and (.plain "topics") listOfText <|
  .and (.plain "stored") count <|
  .and (.plain "rejected") count <|
  .and (.plain "pending_out") count <|
  .and (.plain "known_agents") u64 <|
  .and (.defaulted "ipc_proto" (.number 0)) u32 <|
  .and (.defaulted "presence" (.list [])) (.listed presenceRow) <|
  .and (.defaulted "allow_unsigned" (.bool false)) .flag <|
  .and (.defaulted "accept_v1" (.bool false)) .flag <|
  .and (.defaulted "require_encryption" (.bool false)) .flag <|
  .single (.defaulted "auto_receipts" (.bool false)) .flag

def statusInfo : Shape StatusInfo :=
  (statusRecord.shape (by decide)).via
    (fun info => (info.identity, info.fingerprint, info.broker, info.connected, info.topics,
      info.stored, info.rejected, info.pendingOut, info.knownAgents, info.ipcProto,
      info.presence, info.allowUnsigned, info.acceptV1, info.requireEncryption,
      info.autoReceipts))
    (fun (identity, fingerprint, broker, connected, topics, stored, rejected, pendingOut,
        knownAgents, ipcProto, presence, allowUnsigned, acceptV1, requireEncryption,
        autoReceipts) =>
      some
        { identity := identity, fingerprint, broker, connected, topics, stored, rejected,
          pendingOut, knownAgents, ipcProto, presence, allowUnsigned, acceptV1,
          requireEncryption, autoReceipts })

/-! ## Responses -/

/-- `Hello` -/
def helloReply : Shape (Nat × String × List String) :=
  Record.shape
    (.and (.plain "ipc_proto") u32 <|
      .and (.plain "version") .text <|
      .single (.plain "caps") listOfText)
    (by decide)

/-- `Sent` -/
def sentReply : Shape (String × String) :=
  Record.shape
    (.and (.plain "id") .text <|
      .single (.plain "delivery_state") .text)
    (by decide)

/-- `Messages` -/
def messagesReply : Shape (List StoredMsg × Option String) :=
  Record.shape
    (.and (.plain "msgs") (.listed storedMsg) <|
      .single (.sparse "consumer_warning") optText)
    (by decide)

/-- `Error` -/
def errorReply : Shape String :=
  Record.shape (.single (.plain "message") .text) (by decide)

/-- The document of a response. -/
def Response.toDocument : Response → Document
  | .pong => .text "Pong"
  | .ok => .text "Ok"
  | .status info => tagged "Status" (statusInfo.write info)
  | .hello ipcProto version caps => tagged "Hello" (helloReply.write (ipcProto, version, caps))
  | .sent id deliveryState => tagged "Sent" (sentReply.write (id, deliveryState))
  | .messages msgs consumerWarning =>
      tagged "Messages" (messagesReply.write (msgs, consumerWarning))
  | .rejections rows => tagged "Rejections" ((Shape.listed rejectionRow).write rows)
  | .consumers rows => tagged "Consumers" ((Shape.listed consumerRow).write rows)
  | .presence rows => tagged "Presence" ((Shape.listed presenceRow).write rows)
  | .pairs views => tagged "Pairs" ((Shape.listed pendingPair).write views)
  | .error message => tagged "Error" (errorReply.write message)

/-- What the daemon writes into a frame. -/
def Response.bytes (response : Response) : Bytes :=
  toVec (Response.toDocument response)

/-- The response of a variant. -/
def Response.ofVariant (name : String) (body : Option Document) : Option Response :=
  match name with
  | "Pong" => readBare .pong body
  | "Ok" => readBare .ok body
  | "Status" => readBody statusInfo .status body
  | "Hello" => readBody helloReply
      (fun (ipcProto, version, caps) => .hello ipcProto version caps) body
  | "Sent" => readBody sentReply (fun (id, deliveryState) => .sent id deliveryState) body
  | "Messages" => readBody messagesReply
      (fun (msgs, consumerWarning) => .messages msgs consumerWarning) body
  | "Rejections" => readBody (.listed rejectionRow) .rejections body
  | "Consumers" => readBody (.listed consumerRow) .consumers body
  | "Presence" => readBody (.listed presenceRow) .presence body
  | "Pairs" => readBody (.listed pendingPair) .pairs body
  | "Error" => readBody errorReply .error body
  | _ => none

/-- The response that a document is of. -/
def Response.ofDocument (document : Document) : Option Response :=
  (variantOf document).bind fun (name, body) => Response.ofVariant name body

/-! ## Stream frames -/

/-- `Lagged` -/
def laggedFrame : Shape Nat :=
  Record.shape (.single (.plain "dropped") u64) (by decide)

/-- The document of a stream frame. -/
def StreamFrame.toDocument : StreamFrame → Document
  | .message msg => tagged "Message" (storedMsg.write msg)
  | .lagged dropped => tagged "Lagged" (laggedFrame.write dropped)

def StreamFrame.bytes (frame : StreamFrame) : Bytes :=
  toVec (StreamFrame.toDocument frame)

/-- The stream frame that a document is of. -/
def StreamFrame.ofDocument (document : Document) : Option StreamFrame :=
  (variantOf document).bind fun (name, body) =>
    match name with
    | "Message" => readBody storedMsg .message body
    | "Lagged" => readBody laggedFrame .lagged body
    | _ => none

/-! ## Reading responses back -/

theorem storedMsg_fits {msg : StoredMsg} (small : i64.Fits msg.seq) : storedMsg.Fits msg := by
  have optional : ∀ value, optText.Fits value := fun _ _ _ => trivial
  refine ⟨⟨small, trivial, ⟨trivial, parse_direction _⟩, trivial, trivial, trivial, trivial,
    trivial, optional _, trivial, trivial, optional _, optional _, trivial,
    ⟨trivial, parse_deliveryState _⟩, optional _, optional _, optional _⟩, rfl⟩

theorem rejectionRow_fits {row : RejectionRow} (small : count.Fits row.seq) :
    rejectionRow.Fits row :=
  ⟨⟨small, trivial, trivial, fun _ _ => trivial, fun _ _ => trivial, trivial⟩, rfl⟩

theorem consumerRow_fits {row : ConsumerRow} (last : i64.Fits row.lastSeq)
    (unread : count.Fits row.unread) : consumerRow.Fits row :=
  ⟨⟨trivial, last, unread, fun _ _ => trivial⟩, rfl⟩

theorem pendingPair_fits (view : PendingPairView) : pendingPair.Fits view :=
  ⟨⟨trivial, trivial, trivial, trivial⟩, rfl⟩

/-- A presence row as a response has it. -/
def shownRow (row : String × PresenceRow) : String × PresenceRow :=
  (row.1, { row.2 with updatedAt := "" })

/-- The numbers of a presence row fit their types. -/
def RowFits (row : String × PresenceRow) : Prop :=
  i64.Fits row.2.ttlSecs ∧ i64.Fits row.2.seq

theorem shownRow_fits {row : String × PresenceRow} (small : RowFits row) :
    presenceRow.Fits (shownRow row) := by
  have some : ∀ value ∈ Option.some row.2.ttlSecs, i64.Fits value := by
    rintro value ⟨⟩
    exact small.1
  exact ⟨⟨trivial, fun _ _ => trivial, fun _ _ => trivial, some, fun _ _ => trivial, small.2,
    trivial⟩, rfl⟩

theorem shownRows_fits {rows : List (String × PresenceRow)} (small : ∀ row ∈ rows, RowFits row) :
    (Shape.listed presenceRow).Fits (rows.map shownRow) := by
  intro row member
  obtain ⟨original, was, rfl⟩ := List.mem_map.mp member
  exact shownRow_fits (small original was)

theorem write_shownRows (rows : List (String × PresenceRow)) :
    (Shape.listed presenceRow).write (rows.map shownRow) =
      (Shape.listed presenceRow).write rows :=
  congrArg Document.list (List.map_map.trans rfl)

/-- The numbers of a status fit their types. -/
def StatusFits (info : StatusInfo) : Prop :=
  count.Fits info.stored ∧ count.Fits info.rejected ∧ count.Fits info.pendingOut ∧
    u64.Fits info.knownAgents ∧ u32.Fits info.ipcProto ∧ ∀ row ∈ info.presence, RowFits row

/-- A status as a response has it. -/
def shownStatus (info : StatusInfo) : StatusInfo :=
  { info with presence := info.presence.map shownRow }

theorem shownStatus_fits {info : StatusInfo} (small : StatusFits info) :
    statusInfo.Fits (shownStatus info) := by
  obtain ⟨stored, rejected, pending, known, proto, rows⟩ := small
  have optional : ∀ value, optText.Fits value := fun _ _ _ => trivial
  exact ⟨⟨optional _, optional _, trivial, trivial, fun _ _ => trivial, stored, rejected, pending,
    known, proto, shownRows_fits rows, trivial, trivial, trivial, trivial⟩, rfl⟩

theorem write_shownStatus (info : StatusInfo) :
    statusInfo.write (shownStatus info) = statusInfo.write info := by
  simp only [statusInfo, Shape.via, Record.shape, statusRecord, Record.and, Record.single,
    shownStatus]
  rw [write_shownRows]

/-- The numbers of a response fit their types. -/
def Response.Fits : Response → Prop
  | .status info => StatusFits info
  | .hello ipcProto _ _ => u32.Fits ipcProto
  | .messages msgs _ => ∀ msg ∈ msgs, i64.Fits msg.seq
  | .rejections rows => ∀ row ∈ rows, count.Fits row.seq
  | .consumers rows => ∀ row ∈ rows, i64.Fits row.lastSeq ∧ count.Fits row.unread
  | .presence rows => ∀ row ∈ rows, RowFits row
  | _ => True

/-- A response as the client has it: the times of the presence rows' updates are not sent. -/
def Response.shown : Response → Response
  | .status info => .status (shownStatus info)
  | .presence rows => .presence (rows.map shownRow)
  | response => response

theorem readBody_tagged {α β : Type} {shape : Shape α} {value : α} (fits : shape.Fits value)
    (make : α → β) : readBody shape make (some (shape.write value)) = some (make value) := by
  rw [readBody, Option.bind_some, shape.reads value fits, Option.map_some]

/-- The client reads the response that the daemon has written. -/
theorem Response.ofDocument_toDocument {response : Response} (fits : Response.Fits response) :
    Response.ofDocument (Response.toDocument response) = some (Response.shown response) := by
  cases response with
  | pong =>
      rfl
  | ok =>
      rfl
  | status info =>
      rw [Response.toDocument, ← write_shownStatus]
      exact readBody_tagged (shownStatus_fits fits) _
  | hello ipcProto version caps =>
      exact @readBody_tagged _ _ helloReply (ipcProto, version, caps)
        ⟨fits, trivial, fun _ _ => trivial⟩ _
  | sent id deliveryState =>
      have fits : sentReply.Fits (id, deliveryState) := ⟨trivial, trivial⟩
      exact readBody_tagged fits fun found : String × String => Response.sent found.1 found.2
  | messages msgs consumerWarning =>
      exact @readBody_tagged _ _ messagesReply (msgs, consumerWarning)
        ⟨fun msg member => storedMsg_fits (fits msg member), fun _ _ => trivial⟩ _
  | rejections rows =>
      exact @readBody_tagged _ _ (.listed rejectionRow) rows
        (fun row member => rejectionRow_fits (fits row member)) _
  | consumers rows =>
      exact @readBody_tagged _ _ (.listed consumerRow) rows
        (fun row member => consumerRow_fits (fits row member).1 (fits row member).2) _
  | presence rows =>
      rw [Response.toDocument, ← write_shownRows]
      exact readBody_tagged (shownRows_fits fits) _
  | pairs views =>
      exact @readBody_tagged _ _ (.listed pendingPair) views
        (fun view _ => pendingPair_fits view) _
  | error message =>
      exact @readBody_tagged _ _ errorReply message trivial _

/-- The numbers of a stream frame fit their types. -/
def StreamFrame.Fits : StreamFrame → Prop
  | .message msg => i64.Fits msg.seq
  | .lagged dropped => u64.Fits dropped

/-- The client reads the stream frame that the daemon has written. -/
theorem StreamFrame.ofDocument_toDocument {frame : StreamFrame}
    (fits : StreamFrame.Fits frame) :
    StreamFrame.ofDocument (StreamFrame.toDocument frame) = some frame := by
  cases frame with
  | message msg =>
      exact readBody_tagged (storedMsg_fits fits) _
  | lagged dropped =>
      exact @readBody_tagged _ _ laggedFrame dropped fits _

end Ipc

end AgentMsg
