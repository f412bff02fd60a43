import AgentMsg.Requests
import AgentMsg.Serde

/-!
# Requests and responses as documents

The documents that the client and the daemon put into their frames.  A variant without fields is
its name; every other variant is an object with the name as its only key.  The fields of a
request have the defaults that let an older client leave them out.
-/

namespace AgentMsg

namespace Ipc

open Document

/-! ## Shapes of the fields -/

def u32 : Shape Nat :=
  .natural 4294967296

def u64 : Shape Nat :=
  .natural 18446744073709551616

def optI64 : Shape (Option Int) :=
  Shape.optional i64 (Shape.solid_integer _ _)

/-! ## Requests -/

/-- All requests: those that a single response answers, and the subscription to a stream. -/
inductive Command where
  | single (request : Request)
  | subscribe (consumer : String) (ack : Bool)
  deriving DecidableEq, Repr

/-- `Hello` -/
def helloRecord : Record Nat :=
  .single (.plain "ipc_proto") u32

/-- `Send` -/
def sendRecord : Record (String × String × String × Option String × Option String × String ×
    Option String × Option String × Bool × Option String × Bool) :=
  .and (.plain "to") .text <|
  .and (.plain "ctype") .text <|
  .and (.plain "body") .text <|
  .and (.optional "in_reply_to") optText <|
  .and (.defaulted "topic" .null) optText <|
  .and (.defaulted "kind" (.text "")) .text <|
  .and (.defaulted "correlation_id" .null) optText <|
  .and (.defaulted "supersedes" .null) optText <|
  .and (.defaulted "encrypt" (.bool false)) .flag <|
  .and (.defaulted "grant" .null) optText <|
  .single (.defaulted "unsigned" (.bool false)) .flag

/-- `Read` -/
def readRecord : Record (String × Int) :=
  .and (.plain "consumer") .text <|
  .single (.plain "limit") i64

/-- `Ack` -/
def ackRecord : Record (String × Int) :=
  .and (.plain "consumer") .text <|
  .single (.plain "seq") i64

/-- `Subscribe` -/
def subscribeRecord : Record (String × Bool) :=
  .and (.plain "consumer") .text <|
  .single (.plain "ack") .flag

/-- `Browse` -/
def browseRecord : Record (Int × Option String × Option String) :=
  .and (.plain "limit") i64 <|
  .and (.optional "from") optText <|
  .single (.optional "to") optText

/-- `Transcript` -/
def transcriptRecord : Record (Int × Option String × Option String × Option String) :=
  .and (.plain "limit") i64 <|
  .and (.optional "from") optText <|
  .and (.optional "to") optText <|
  .single (.optional "peer") optText

/-- `Rejections` -/
def rejectionsRecord : Record (Int × Option String × Option String) :=
  .and (.plain "limit") i64 <|
  .and (.optional "reason") optText <|
  .single (.optional "since") optText

/-- `Receipts` -/
def receiptsRecord : Record (Option String × Int × Option String) :=
  .and (.optional "id") optText <|
  .and (.plain "limit") i64 <|
  .single (.optional "state") optText

/-- `Reply` -/
def replyRecord : Record (String × String × String) :=
  .and (.plain "msg_id") .text <|
  .and (.plain "ctype") .text <|
  .single (.plain "body") .text

/-- `Presence` -/
def presenceRecord : Record (String × Option Int × Option String) :=
  .and (.plain "state") .text <|
  .and (.optional "ttl_secs") optI64 <|
  .single (.optional "detail") optText

/-- `PairStart` -/
def pairStartRecord : Record (Option String) :=
  .single (.defaulted "topic" .null) optText

/-- `PairConfirm` -/
def pairConfirmRecord : Record String :=
  .single (.plain "name") .text

def Command.variant : Command → Variant
  | .single .ping => .bare "Ping"
  | .single .status => .bare "Status"
  | .single (.hello ipcProto) => .struct "Hello" helloRecord ipcProto
  | .single (.send p) => .struct "Send" sendRecord
      (p.recipient, p.ctype, p.body, p.inReplyTo, p.topic, p.kind, p.correlationId, p.supersedes,
        p.encrypt, p.grant, p.unsigned)
  | .single (.read consumer limit) => .struct "Read" readRecord (consumer, limit)
  | .single (.ack consumer seq) => .struct "Ack" ackRecord (consumer, seq)
  | .subscribe consumer ack => .struct "Subscribe" subscribeRecord (consumer, ack)
  | .single (.browse limit fromFilter toFilter) =>
      .struct "Browse" browseRecord (limit, fromFilter, toFilter)
  | .single (.transcript limit fromFilter toFilter peer) =>
      .struct "Transcript" transcriptRecord (limit, fromFilter, toFilter, peer)
  | .single (.rejections limit reason since) =>
      .struct "Rejections" rejectionsRecord (limit, reason, since)
  | .single .consumers => .bare "Consumers"
  | .single (.receipts id limit state) => .struct "Receipts" receiptsRecord (id, limit, state)
  | .single (.reply msgId ctype body) => .struct "Reply" replyRecord (msgId, ctype, body)
  | .single (.presence state ttlSecs detail) =>
      .struct "Presence" presenceRecord (state, ttlSecs, detail)
  | .single .presenceList => .bare "PresenceList"
  | .single (.pairStart topic) => .struct "PairStart" pairStartRecord topic
  | .single .pairList => .bare "PairList"
  | .single (.pairConfirm name) => .struct "PairConfirm" pairConfirmRecord name
  | .single .connect => .bare "Connect"
  | .single .disconnect => .bare "Disconnect"
  | .single .shutdown => .bare "Shutdown"

/-- The numbers of the request fit their types. -/
def Command.Fits (command : Command) : Prop :=
  command.variant.Fits

/-- The document of a request. -/
def Command.toDocument (command : Command) : Document :=
  command.variant.toDocument

/-- What the client writes into a frame. -/
def Command.bytes (command : Command) : Bytes :=
  toVec command.toDocument

/-- The request of a variant. -/
def Command.ofVariant (name : String) (body : Option Document) : Option Command :=
  match name with
  | "Ping" => readBare (.single .ping) body
  | "Status" => readBare (.single .status) body
  | "Hello" => readBody (helloRecord.shape (by decide)) (fun ipcProto =>
      .single (.hello ipcProto)) body
  | "Send" => readBody (sendRecord.shape (by decide))
      (fun (recipient, ctype, content, inReplyTo, topic, kind, correlationId, supersedes, encrypt,
        grant, unsigned) => .single (.send
          { recipient, ctype, body := content, inReplyTo, topic, kind, correlationId, supersedes,
            encrypt, grant, unsigned })) body
  | "Read" => readBody (readRecord.shape (by decide))
      (fun (consumer, limit) => .single (.read consumer limit)) body
  | "Ack" => readBody (ackRecord.shape (by decide))
      (fun (consumer, seq) => .single (.ack consumer seq)) body
  | "Subscribe" => readBody (subscribeRecord.shape (by decide))
      (fun (consumer, ack) => .subscribe consumer ack) body
  | "Browse" => readBody (browseRecord.shape (by decide))
      (fun (limit, fromFilter, toFilter) => .single (.browse limit fromFilter toFilter)) body
  | "Transcript" => readBody (transcriptRecord.shape (by decide))
      (fun (limit, fromFilter, toFilter, peer) =>
        .single (.transcript limit fromFilter toFilter peer)) body
  | "Rejections" => readBody (rejectionsRecord.shape (by decide))
      (fun (limit, reason, since) => .single (.rejections limit reason since)) body
  | "Consumers" => readBare (.single .consumers) body
  | "Receipts" => readBody (receiptsRecord.shape (by decide))
      (fun (id, limit, state) => .single (.receipts id limit state)) body
  | "Reply" => readBody (replyRecord.shape (by decide))
      (fun (msgId, ctype, content) => .single (.reply msgId ctype content)) body
  | "Presence" => readBody (presenceRecord.shape (by decide))
      (fun (state, ttlSecs, detail) => .single (.presence state ttlSecs detail)) body
  | "PresenceList" => readBare (.single .presenceList) body
  | "PairStart" => readBody (pairStartRecord.shape (by decide))
      (fun topic => .single (.pairStart topic)) body
  | "PairList" => readBare (.single .pairList) body
  | "PairConfirm" => readBody (pairConfirmRecord.shape (by decide))
      (fun name => .single (.pairConfirm name)) body
  | "Connect" => readBare (.single .connect) body
  | "Disconnect" => readBare (.single .disconnect) body
  | "Shutdown" => readBare (.single .shutdown) body
  | _ => none

/-- The request that a document is of. -/
def Command.ofDocument (document : Document) : Option Command :=
  (variantOf document).bind fun (name, body) => Command.ofVariant name body

/-! ## What is read as a request -/

theorem exact_i64 : i64.Exact :=
  Shape.exact_integer _ _

theorem exact_u32 : u32.Exact :=
  Shape.exact_natural _

theorem exact_optText : optText.Exact :=
  Shape.exact_optional Shape.exact_text _

theorem exact_optI64 : optI64.Exact :=
  Shape.exact_optional exact_i64 _

theorem exact_helloRecord : helloRecord.Exact :=
  Record.exact_single _ exact_u32

theorem exact_sendRecord : sendRecord.Exact :=
  Record.exact_and _ Shape.exact_text <|
  Record.exact_and _ Shape.exact_text <|
  Record.exact_and _ Shape.exact_text <|
  Record.exact_and _ exact_optText <|
  Record.exact_and _ exact_optText <|
  Record.exact_and _ Shape.exact_text <|
  Record.exact_and _ exact_optText <|
  Record.exact_and _ exact_optText <|
  Record.exact_and _ Shape.exact_flag <|
  Record.exact_and _ exact_optText <|
  Record.exact_single _ Shape.exact_flag

theorem exact_readRecord : readRecord.Exact :=
  Record.exact_and _ Shape.exact_text (Record.exact_single _ exact_i64)

theorem exact_ackRecord : ackRecord.Exact :=
  Record.exact_and _ Shape.exact_text (Record.exact_single _ exact_i64)

theorem exact_subscribeRecord : subscribeRecord.Exact :=
  Record.exact_and _ Shape.exact_text (Record.exact_single _ Shape.exact_flag)

theorem exact_browseRecord : browseRecord.Exact :=
  Record.exact_and _ exact_i64 <|
  Record.exact_and _ exact_optText <|
  Record.exact_single _ exact_optText

theorem exact_transcriptRecord : transcriptRecord.Exact :=
  Record.exact_and _ exact_i64 <|
  Record.exact_and _ exact_optText <|
  Record.exact_and _ exact_optText <|
  Record.exact_single _ exact_optText

theorem exact_rejectionsRecord : rejectionsRecord.Exact :=
  Record.exact_and _ exact_i64 <|
  Record.exact_and _ exact_optText <|
  Record.exact_single _ exact_optText

theorem exact_receiptsRecord : receiptsRecord.Exact :=
  Record.exact_and _ exact_optText <|
  Record.exact_and _ exact_i64 <|
  Record.exact_single _ exact_optText

theorem exact_replyRecord : replyRecord.Exact :=
  Record.exact_and _ Shape.exact_text <|
  Record.exact_and _ Shape.exact_text <|
  Record.exact_single _ Shape.exact_text

theorem exact_presenceRecord : presenceRecord.Exact :=
  Record.exact_and _ Shape.exact_text <|
  Record.exact_and _ exact_optI64 <|
  Record.exact_single _ exact_optText

theorem exact_pairStartRecord : pairStartRecord.Exact :=
  Record.exact_single _ exact_optText

theorem exact_pairConfirmRecord : pairConfirmRecord.Exact :=
  Record.exact_single _ Shape.exact_text

section Reading

variable {document : Document} {name : String} {body : Option Document} {command : Command}

private theorem shown_bare {value : Command} (named : variantOf document = some (name, body))
    (read : readBare value body = some command) (same : value.variant = .bare name) :
    command.Fits ∧ command.variant.ShownBy document := by
  obtain ⟨rfl, shown⟩ := shownBy_of_bare named read
  rw [Command.Fits, same]
  exact ⟨trivial, shown⟩

private theorem shown_body {α : Type} {record : Record α}
    {distinct : (record.fields.map Field.key).Nodup} {make : α → Command}
    (exact' : record.Exact) (named : variantOf document = some (name, body))
    (read : readBody (record.shape distinct) make body = some command)
    (same : ∀ value, (make value).variant = .struct name record value) :
    command.Fits ∧ command.variant.ShownBy document := by
  obtain ⟨value, rfl, fits, shown⟩ := shownBy_of_body exact' named read
  rw [Command.Fits, same]
  exact ⟨fits, shown⟩

/-- A request is read only from a document that shows it. -/
theorem Command.shown_of_ofVariant (named : variantOf document = some (name, body))
    (read : Command.ofVariant name body = some command) :
    command.Fits ∧ command.variant.ShownBy document := by
  rw [Command.ofVariant.eq_def] at read
  split at read
  · exact shown_bare named read rfl
  · exact shown_bare named read rfl
  · exact shown_body exact_helloRecord named read fun _ => rfl
  · exact shown_body exact_sendRecord named read fun _ => rfl
  · exact shown_body exact_readRecord named read fun _ => rfl
  · exact shown_body exact_ackRecord named read fun _ => rfl
  · exact shown_body exact_subscribeRecord named read fun _ => rfl
  · exact shown_body exact_browseRecord named read fun _ => rfl
  · exact shown_body exact_transcriptRecord named read fun _ => rfl
  · exact shown_body exact_rejectionsRecord named read fun _ => rfl
  · exact shown_bare named read rfl
  · exact shown_body exact_receiptsRecord named read fun _ => rfl
  · exact shown_body exact_replyRecord named read fun _ => rfl
  · exact shown_body exact_presenceRecord named read fun _ => rfl
  · exact shown_bare named read rfl
  · exact shown_body exact_pairStartRecord named read fun _ => rfl
  · exact shown_bare named read rfl
  · exact shown_body exact_pairConfirmRecord named read fun _ => rfl
  · exact shown_bare named read rfl
  · exact shown_bare named read rfl
  · exact shown_bare named read rfl
  · cases read

/-- A request is read from every document that shows it. -/
theorem Command.ofDocument_of_shown (fits : command.Fits)
    (shown : command.variant.ShownBy document) :
    Command.ofDocument document = some command := by
  obtain ⟨body, named⟩ := variantOf_of_shownBy shown
  rw [Command.ofDocument, named, Option.bind_some]
  cases command with
  | subscribe consumer ack =>
      exact readBody_of_shownBy exact_subscribeRecord fits shown named _
  | single request =>
      cases request with
      | ping =>
          exact readBare_of_shownBy shown named _
      | status =>
          exact readBare_of_shownBy shown named _
      | hello ipcProto =>
          exact readBody_of_shownBy exact_helloRecord fits shown named _
      | send p =>
          exact readBody_of_shownBy exact_sendRecord fits shown named _
      | read consumer limit =>
          exact readBody_of_shownBy exact_readRecord fits shown named _
      | ack consumer seq =>
          exact readBody_of_shownBy exact_ackRecord fits shown named _
      | browse limit fromFilter toFilter =>
          exact readBody_of_shownBy exact_browseRecord fits shown named _
      | transcript limit fromFilter toFilter peer =>
          exact readBody_of_shownBy exact_transcriptRecord fits shown named _
      | rejections limit reason since =>
          exact readBody_of_shownBy exact_rejectionsRecord fits shown named _
      | consumers =>
          exact readBare_of_shownBy shown named _
      | receipts id limit state =>
          exact readBody_of_shownBy exact_receiptsRecord fits shown named _
      | reply msgId ctype body =>
          exact readBody_of_shownBy exact_replyRecord fits shown named _
      | presence state ttlSecs detail =>
          exact readBody_of_shownBy exact_presenceRecord fits shown named _
      | presenceList =>
          exact readBare_of_shownBy shown named _
      | pairStart topic =>
          exact readBody_of_shownBy exact_pairStartRecord fits shown named _
      | pairList =>
          exact readBare_of_shownBy shown named _
      | pairConfirm name =>
          exact readBody_of_shownBy exact_pairConfirmRecord fits shown named _
      | connect =>
          exact readBare_of_shownBy shown named _
      | disconnect =>
          exact readBare_of_shownBy shown named _
      | shutdown =>
          exact readBare_of_shownBy shown named _

end Reading

/-- The document of a request shows it. -/
theorem Command.shownBy_toDocument (command : Command) :
    command.variant.ShownBy command.toDocument := by
  cases command with
  | subscribe consumer ack =>
      exact shownBy_struct (by decide) _ _
  | single request =>
      cases request with
      | ping | status | consumers | presenceList | pairList | connect | disconnect | shutdown =>
          exact shownBy_bare _
      | _ =>
          exact shownBy_struct (by decide) _ _

theorem Command.ofDocument_eq_some {document : Document} {command : Command} :
    Command.ofDocument document = some command ↔
      command.Fits ∧ command.variant.ShownBy document := by
  constructor
  · intro read
    obtain ⟨⟨name, body⟩, named, found⟩ := Option.bind_eq_some_iff.mp read
    exact Command.shown_of_ofVariant named found
  · rintro ⟨fits, shown⟩
    exact Command.ofDocument_of_shown fits shown

/-- A text is read as a request exactly when it is a document that shows the request: the
name alone or with a body that gives every field its value, in any order and among any other
members, where a field with a default may be left out, and none is given twice.  A document is
there in every layout of white space. -/
theorem request_read_iff (command : Command) :
    (∀ text, (fromSlice (asBytes text)).bind Command.ofDocument = some command ↔
      ∃ document, decode text = some document ∧ command.Fits ∧
        command.variant.ShownBy document) ∧
    ∀ (layout : Layout) (document : Document),
      (fromSlice (asBytes (encode layout document))).bind Command.ofDocument = some command ↔
        command.Fits ∧ command.variant.ShownBy document := by
  constructor
  · intro text
    rw [fromSlice, fromUtf8_asBytes, Option.bind_some]
    simp only [Option.bind_eq_some_iff, Command.ofDocument_eq_some]
  · intro layout document
    rw [fromSlice, fromUtf8_asBytes, Option.bind_some, decode_encode, Option.bind_some,
      Command.ofDocument_eq_some]

/-- Members that are not read may hold what has no value here. -/
example :
    (decode (" \x7b \"Read\" : \x7b\"x\" : [-1.5e+3, -0, \"\\ud800\"] ," ++
        "\"limit\":5,\"consumer\":\"c\"\x7d \x7d\n")).bind Command.ofDocument =
      some (.single (.read "c" 5)) := by
  decide +kernel

end Ipc

end AgentMsg
