import AgentMsg.Lib.Record
import AgentMsg.Store

/-!
# The wire documents in JSON

How the derived serializers lay out the records of the wire and of the files: the fields in the
order of their declaration, some of them left out when they are absent.  Reading takes what the
derived deserializers take: the fields in any order and among any others, or their values in a
list.
-/

namespace AgentMsg

open Document

/-! ## Texts as bytes -/

@[simp]
theorem fromUtf8_asBytes (text : String) : fromUtf8 (asBytes text) = some text := by
  have bytes : (⟨(asBytes text).toArray⟩ : ByteArray) = text.toUTF8 := by
    simp [asBytes]
  rw [fromUtf8, bytes, String.fromUTF8?, String.toUTF8_eq_toByteArray, dif_pos text.isValidUTF8]
  rfl

theorem asBytes_injective {first second : String} (same : asBytes first = asBytes second) :
    first = second := by
  have decoded := fromUtf8_asBytes first
  rw [same, fromUtf8_asBytes] at decoded
  exact (Option.some.inj decoded).symm

theorem asBytes_of_fromUtf8 {bytes : Bytes} {text : String}
    (decoded : fromUtf8 bytes = some text) : asBytes text = bytes := by
  rw [fromUtf8, String.fromUTF8?] at decoded
  split at decoded
  · cases decoded
    rfl
  · cases decoded

theorem length_asBytes (text : String) : (asBytes text).length = text.utf8ByteSize := by
  rw [asBytes, Array.length_toList, String.toUTF8_eq_toByteArray, ← String.size_toByteArray]
  rfl

/-- A text of which only the first bytes are there is a beginning of it. -/
theorem prefix_of_fromUtf8_take {text front : String} {count : Nat}
    (decoded : fromUtf8 ((asBytes text).take count) = some front)
    (short : count < (asBytes text).length) :
    ∃ missing, front.toList ++ missing = text.toList ∧ missing ≠ [] := by
  have bytes := asBytes_of_fromUtf8 decoded
  have whole : front.toByteArray ++ ⟨((asBytes text).drop count).toArray⟩ =
      text.toByteArray := by
    apply ByteArray.ext
    apply Array.toList_inj.mp
    have same : asBytes front ++ (asBytes text).drop count = asBytes text := by
      rw [bytes, List.take_append_drop]
    simpa [asBytes, ByteArray.data_append] using same
  rw [← String.utf8Encode_toList (b := front), ← String.utf8Encode_toList (b := text)] at whole
  obtain ⟨missing, joined⟩ := List.isPrefix_of_utf8Encode_append_eq_utf8Encode _ whole
  refine ⟨missing, joined, ?_⟩
  rintro rfl
  rw [List.append_nil] at joined
  have same : front = text := String.toList_injective joined
  have length := congrArg List.length bytes
  rw [same, List.length_take] at length
  omega

/-! ## Documents as bytes and as texts -/

def toVec (document : Document) : Bytes :=
  asBytes (encode .compact document)

def fromSlice (bytes : Bytes) : Option Document :=
  (fromUtf8 bytes).bind decode

@[simp]
theorem fromSlice_toVec (document : Document) : fromSlice (toVec document) = some document := by
  rw [fromSlice, toVec, fromUtf8_asBytes, Option.bind_some, decode_encode]

/-- The codec that writes values of a shape as the bytes of a document. -/
def documentBytes {α : Type} (shape : Shape α) : Codec Bytes α where
  encode value := toVec (shape.write value)
  decode bytes := (fromSlice bytes).bind shape.read

/-- The codec that writes values of a shape as the text of a document. -/
def documentText {α : Type} (shape : Shape α) : Codec String α where
  encode value := encode .compact (shape.write value)
  decode text := (decode text).bind shape.read

theorem documentBytes_lawful
    {α : Type} {shape : Shape α} (fits : ∀ value, shape.Fits value) :
    (documentBytes shape).Lawful := by
  intro value
  simp only [documentBytes, fromSlice_toVec, Option.bind_some, shape.reads value (fits value)]

theorem documentText_lawful
    {α : Type} {shape : Shape α} (fits : ∀ value, shape.Fits value) :
    (documentText shape).Lawful := by
  intro value
  simp only [documentText, decode_encode, Option.bind_some, shape.reads value (fits value)]

/-! ## Enumerations -/

/-- The kind with the given name. -/
def MsgKind.ofName (name : String) : Option MsgKind :=
  [.message, .command, .query, .result, .ack, .error, .grant, .receipt].find?
    fun kind => kindStr kind == name

@[simp]
theorem MsgKind.ofName_kindStr (kind : MsgKind) : ofName (kindStr kind) = some kind := by
  cases kind <;> decide

def ReceiptStatus.name : ReceiptStatus → String
  | .delivered => "delivered"
  | .read => "read"

def ReceiptStatus.ofName (name : String) : Option ReceiptStatus :=
  [.delivered, .read].find? fun status => status.name == name

@[simp]
theorem ReceiptStatus.ofName_name (status : ReceiptStatus) :
    ofName status.name = some status := by
  cases status <;> decide

def MsgKind.shape : Shape MsgKind :=
  .variant kindStr ofName

def ReceiptStatus.shape : Shape ReceiptStatus :=
  .variant name ofName

/-! ## Fields -/

def u8 : Shape UInt8 :=
  (Shape.natural 256).via UInt8.toNat fun value => some (UInt8.ofNat value)

theorem u8_fits (value : UInt8) : u8.Fits value :=
  ⟨value.toNat_lt, congrArg some (UInt8.ofNat_toNat)⟩

def i64 : Shape Int :=
  .integer (-9223372036854775808) 9223372036854775807

def optText : Shape (Option String) :=
  .optional .text Shape.solid_text

theorem optText_fits (value : Option String) : optText.Fits value :=
  fun _ _ => trivial

/-! ## Wrappers -/

namespace Wrapper

def record : Document.Record (UInt8 × String × Option String × String × Option String) :=
  .and (.plain "v") u8 <|
  .and (.plain "alg") .text <|
  .and (.sparse "kid") optText <|
  .and (.plain "msg") .text <|
  .single (.sparse "sig") optText

def shape : Shape Wrapper :=
  (record.shape (by decide)).via
    (fun wrapper => (wrapper.v, wrapper.alg, wrapper.kid, wrapper.msg, wrapper.sig))
    (fun (v, alg, kid, msg, sig) => some { v, alg, kid, msg, sig })

theorem fits (wrapper : Wrapper) : shape.Fits wrapper :=
  ⟨⟨u8_fits _, trivial, optText_fits _, trivial, optText_fits _⟩, rfl⟩

end Wrapper

/-! ## Inner messages -/

namespace EncInfo

def record : Document.Record (String × String × String × String × String) :=
  .and (.plain "alg") .text <|
  .and (.plain "kem_ct") .text <|
  .and (.plain "recipient_kid") .text <|
  .and (.plain "nonce") .text <|
  .single (.plain "ptype") .text

def shape : Shape EncInfo :=
  (record.shape (by decide)).via
    (fun enc => (enc.alg, enc.kemCt, enc.recipientKid, enc.nonce, enc.ptype))
    (fun (alg, kemCt, recipientKid, nonce, ptype) =>
      some { alg, kemCt, recipientKid, nonce, ptype })

theorem fits (enc : EncInfo) : shape.Fits enc :=
  ⟨⟨trivial, trivial, trivial, trivial, trivial⟩, rfl⟩

theorem solid : shape.Solid :=
  nofun

end EncInfo

namespace SignedGrant

def record : Document.Record (String × String × String × String) :=
  .and (.plain "alg") .text <|
  .and (.plain "authority_kid") .text <|
  .and (.plain "grant") .text <|
  .single (.plain "sig") .text

def shape : Shape SignedGrant :=
  (record.shape (by decide)).via (fun sg => (sg.alg, sg.authorityKid, sg.grant, sg.sig))
    (fun (alg, authorityKid, grant, sig) => some { alg, authorityKid, grant, sig })

theorem fits (sg : SignedGrant) : shape.Fits sg :=
  ⟨⟨trivial, trivial, trivial, trivial⟩, rfl⟩

theorem solid : shape.Solid :=
  nofun

end SignedGrant

namespace Receipt

def record : Document.Record (String × ReceiptStatus) :=
  .and (.plain "ref_id") .text <|
  .single (.plain "status") ReceiptStatus.shape

def shape : Shape Receipt :=
  (record.shape (by decide)).via (fun receipt => (receipt.refId, receipt.status))
    (fun (refId, status) => some { refId, status })

theorem fits (receipt : Receipt) : shape.Fits receipt :=
  ⟨⟨trivial, ReceiptStatus.ofName_name _⟩, rfl⟩

theorem solid : shape.Solid :=
  nofun

end Receipt

namespace Inner

def record : Document.Record (String × UInt8 × String × String × String × String × String ×
    Option String × String × MsgKind × Option String × Option String × Option EncInfo ×
    Option SignedGrant × Option Receipt) :=
  .and (.plain "id") .text <|
  .and (.plain "v") u8 <|
  .and (.plain "from") .text <|
  .and (.plain "to") .text <|
  .and (.plain "ts") .text <|
  .and (.plain "nonce") .text <|
  .and (.plain "ctype") .text <|
  .and (.sparse "in_reply_to") optText <|
  .and (.plain "body") .text <|
  .and (.defaulted "kind" (.text "message")) MsgKind.shape <|
  .and (.sparse "correlation_id") optText <|
  .and (.sparse "supersedes") optText <|
  .and (.sparse "enc") (.optional EncInfo.shape EncInfo.solid) <|
  .and (.sparse "grant") (.optional SignedGrant.shape SignedGrant.solid) <|
  .single (.sparse "receipt") (.optional Receipt.shape Receipt.solid)

def shape : Shape Inner :=
  (record.shape (by decide)).via
    (fun inner => (inner.id, inner.v, inner.sender, inner.recipient, inner.ts, inner.nonce,
      inner.ctype, inner.inReplyTo, inner.body, inner.kind, inner.correlationId,
      inner.supersedes, inner.enc, inner.grant, inner.receipt))
    (fun (id, v, sender, recipient, ts, nonce, ctype, inReplyTo, body, kind, correlationId,
        supersedes, enc, grant, receipt) =>
      some
        { id, v, sender, recipient, ts, nonce, ctype, inReplyTo, body, kind, correlationId,
          supersedes, enc, grant, receipt })

theorem fits (inner : Inner) : shape.Fits inner :=
  ⟨⟨trivial, u8_fits _, trivial, trivial, trivial, trivial, trivial, optText_fits _, trivial,
    MsgKind.ofName_kindStr _, optText_fits _, optText_fits _, fun enc _ => enc.fits,
    fun sg _ => sg.fits, fun receipt _ => receipt.fits⟩, rfl⟩

end Inner

/-! ## Documents inside a message -/

namespace GrantClaims

def record : Document.Record (String × String × String × String × String × String) :=
  .and (.plain "id") .text <|
  .and (.plain "action") .text <|
  .and (.plain "scope") .text <|
  .and (.plain "subject") .text <|
  .and (.plain "expiry") .text <|
  .single (.plain "nonce") .text

def shape : Shape GrantClaims :=
  (record.shape (by decide)).via
    (fun claims => (claims.id, claims.action, claims.scope, claims.subject, claims.expiry,
      claims.nonce))
    (fun (id, action, scope, subject, expiry, nonce) =>
      some { id := id, action, scope, subject, expiry, nonce })

theorem fits (claims : GrantClaims) : shape.Fits claims :=
  ⟨⟨trivial, trivial, trivial, trivial, trivial, trivial⟩, rfl⟩

end GrantClaims

namespace PairBody

/-- A hello without an encapsulation key says so with `null`. -/
def record : Document.Record (String × String × Option String) :=
  .and (.plain "name") .text <|
  .and (.plain "pk") .text <|
  .single (.defaulted "kem_pk" .null) optText

def shape : Shape PairBody :=
  (record.shape (by decide)).via (fun body => (body.name, body.pk, body.kemPk))
    (fun (name, pk, kemPk) => some { name := name, pk, kemPk })

theorem fits (body : PairBody) : shape.Fits body :=
  ⟨⟨trivial, trivial, optText_fits _⟩, rfl⟩

end PairBody

namespace PresenceBeacon

def record : Document.Record (String × String × Int × Int × Option String) :=
  .and (.plain "state") .text <|
  .and (.defaulted "source" (.text "")) .text <|
  .and (.defaulted "ttl_secs" (.number 0)) i64 <|
  .and (.defaulted "seq" (.number 0)) i64 <|
  .single (.sparse "detail") optText

def shape : Shape PresenceBeacon :=
  (record.shape (by decide)).via
    (fun beacon => (beacon.state, beacon.source, beacon.ttlSecs, beacon.seq, beacon.detail))
    (fun (state, source, ttlSecs, seq, detail) =>
      some { state := state, source, ttlSecs, seq, detail })

end PresenceBeacon

/-! ## Tokens -/

namespace TokenBodyV1

def record : Document.Record (String × String) :=
  .and (.plain "name") .text <|
  .single (.plain "pk") .text

def shape : Shape TokenBodyV1 :=
  (record.shape (by decide)).via (fun token => (token.name, token.pk))
    (fun (name, pk) => some { name := name, pk })

end TokenBodyV1

namespace TokenBodyV2

def record : Document.Record (String × String × Option String) :=
  .and (.plain "name") .text <|
  .and (.plain "pk") .text <|
  .single (.sparse "kem_pk") optText

def shape : Shape TokenBodyV2 :=
  (record.shape (by decide)).via (fun token => (token.name, token.pk, token.kemPk))
    (fun (name, pk, kemPk) => some { name := name, pk, kemPk })

theorem fits (token : TokenBodyV2) : shape.Fits token :=
  ⟨⟨trivial, trivial, optText_fits _⟩, rfl⟩

end TokenBodyV2

namespace AuthTokenBody

def record : Document.Record (String × String) :=
  .and (.plain "name") .text <|
  .single (.plain "pk") .text

def shape : Shape AuthTokenBody :=
  (record.shape (by decide)).via (fun token => (token.name, token.pk))
    (fun (name, pk) => some { name := name, pk })

theorem fits (token : AuthTokenBody) : shape.Fits token :=
  ⟨⟨trivial, trivial⟩, rfl⟩

end AuthTokenBody

/-! ## The trust file -/

namespace KnownAgentRecord

def record : Document.Record (String × Option String) :=
  .and (.plain "pk") .text <|
  .single (.sparse "kem_pk") optText

def shape : Shape KnownAgentRecord :=
  (record.shape (by decide)).via (fun record => (record.pk, record.kemPk))
    (fun (pk, kemPk) => some { pk := pk, kemPk })

theorem fits (record : KnownAgentRecord) : shape.Fits record :=
  ⟨⟨trivial, optText_fits _⟩, rfl⟩

end KnownAgentRecord

namespace TrustStore

def record : Document.Record
    (List (String × KnownAgentRecord) × List (String × KnownAgentRecord)) :=
  .and (.defaulted "agents" (.object [])) (.entries KnownAgentRecord.shape) <|
  .single (.sparseTable "authorities") (.entries KnownAgentRecord.shape)

def shape : Shape (List (String × KnownAgentRecord) × List (String × KnownAgentRecord)) :=
  record.shape (by decide)

def toDocument (trust : TrustStore) : Document :=
  shape.write (trust.agents.toList, trust.authorities.toList)

def ofDocument (document : Document) : Option TrustStore :=
  (shape.read document).map fun found =>
    { agents := Std.TreeMap.ofList found.1, authorities := Std.TreeMap.ofList found.2 }

/-- A table that is read back has the entries of the one that was written. -/
theorem getElem?_ofList_toList (records : Std.TreeMap String KnownAgentRecord) (name : String) :
    (Std.TreeMap.ofList records.toList)[name]? = records[name]? := by
  cases found : records[name]? with
  | some record =>
      have listed : (name, record) ∈ records.toList :=
        Std.TreeMap.mem_toList_iff_getElem?_eq_some.mpr found
      exact Std.TreeMap.getElem?_ofList_of_mem Std.ReflCmp.compare_self
        Std.TreeMap.distinct_keys_toList listed
  | none =>
      apply Std.TreeMap.getElem?_ofList_of_contains_eq_false
      rw [← Bool.not_eq_true, List.contains_iff_mem, List.mem_map]
      rintro ⟨⟨key, record⟩, listed, same⟩
      have present : records[key]? = some record :=
        Std.TreeMap.mem_toList_iff_getElem?_eq_some.mp listed
      have here : key = name := same
      rw [here, found] at present
      cases present

/-- The codec of the trust file. -/
def codec : Codec String TrustStore where
  encode trust := encode .pretty trust.toDocument
  decode text := (decode text).bind ofDocument

/-- A trust store is read back with the same entries. -/
theorem decode_codec (trust : TrustStore) :
    ∃ saved, codec.decode (codec.encode trust) = some saved ∧
      (∀ name : String, saved.agents[name]? = trust.agents[name]?) ∧
      ∀ name : String, saved.authorities[name]? = trust.authorities[name]? := by
  have fits : shape.Fits (trust.agents.toList, trust.authorities.toList) :=
    ⟨fun entry _ => entry.2.fits, fun entry _ => entry.2.fits⟩
  refine ⟨{ agents := Std.TreeMap.ofList trust.agents.toList
            authorities := Std.TreeMap.ofList trust.authorities.toList }, ?_,
    getElem?_ofList_toList _, getElem?_ofList_toList _⟩
  simp only [codec, decode_encode, Option.bind_some, ofDocument, toDocument,
    shape.reads _ fits, Option.map_some]

end TrustStore

end AgentMsg
