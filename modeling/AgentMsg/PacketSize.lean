import AgentMsg.Lib.Compact
import AgentMsg.SendLimits

/-!
# The size of what is published

A published packet is the wrapper in JSON behind the header of an MQTT publish.  The
body is escaped in the inner JSON and that is base64 encoded once more, so the size of
the packet is computed from the sizes of the texts as JSON escapes them.
-/

namespace AgentMsg

open Document
open Json (charSize charsSize escapedSize charsSize_of_clear escapedSize_le escapedSize_append)

/-! ## Texts that are not escaped -/

theorem escapedSize_b64 (bytes : Bytes) :
    escapedSize (b64 bytes) = (4 * bytes.length + 2) / 3 := by
  rw [escapedSize, charsSize_of_clear, b64, Base64.encode, String.toList_ofList,
    Base64.length_encodeChars]
  intro letter member
  exact @Base64.of_mem_encode (fun letter => charSize letter = 1) (by decide) _ _ member

theorem escapedSize_hexEncode (bytes : Bytes) :
    escapedSize (hexEncode bytes) = 2 * bytes.length := by
  rw [escapedSize, charsSize_of_clear, length_hexEncode]
  intro letter member
  exact @mem_hexEncode (fun letter => charSize letter = 1) (by decide) _ _ member

theorem escapedSize_fingerprint_le (P : Platform) (publicKey : Bytes) :
    escapedSize (fingerprint P publicKey) ≤ 16 := by
  have short : ((P.sha256 publicKey).take 8).length ≤ 8 := List.length_take_le _ _
  rw [fingerprint, escapedSize_hexEncode]
  omega

theorem escapedSize_kindStr_le (kind : MsgKind) : escapedSize (kindStr kind) ≤ 7 := by
  cases kind <;> decide

/-! ## Packets -/

/-- The bytes of the remaining length in the fixed header. -/
def remainingLengthSize (remaining : Nat) : Nat :=
  if remaining < 128 then 1
  else if remaining < 16384 then 2
  else if remaining < 2097152 then 3
  else 4

theorem remainingLengthSize_le (remaining : Nat) : remainingLengthSize remaining ≤ 4 := by
  unfold remainingLengthSize
  split
  · decide
  · split
    · decide
    · split <;> decide

/-- The bytes of a publish packet with a packet identifier. -/
def publishSize (topic : String) (payload : Bytes) : Nat :=
  let remaining := 2 + topic.utf8ByteSize + 2 + payload.length
  1 + remainingLengthSize remaining + remaining

def USIZE_MAX : Nat := 18446744073709551615

def ISIZE_MAX : Nat := 9223372036854775807

/-- The packet limit of a session. -/
def maxPkt (cfg : Config) : Nat :=
  max (min (min (cfg.maxPayload * 2) USIZE_MAX + 64 * 1024) USIZE_MAX) (256 * 1024)

/-- The largest remaining length of a packet within a limit. -/
def remainingRoom (limit : Nat) : Nat :=
  if limit < 2097157 then min (limit - 4) 2097151 else limit - 5

theorem publish_le_iff {limit remaining : Nat} (large : 16388 ≤ limit) :
    1 + remainingLengthSize remaining + remaining ≤ limit ↔ remaining ≤ remainingRoom limit := by
  unfold remainingLengthSize remainingRoom
  split
  · split <;> omega
  · split
    · split <;> omega
    · split
      · split <;> omega
      · split <;> omega

theorem le_remainingRoom (limit : Nat) : limit - 5 ≤ remainingRoom limit := by
  unfold remainingRoom
  split <;> omega

theorem le_maxPkt (cfg : Config) : 256 * 1024 ≤ maxPkt cfg :=
  Nat.le_max_right _ _

theorem le_maxPkt_of_moderate {cfg : Config} (moderate : 2 * cfg.maxPayload ≤ ISIZE_MAX) :
    cfg.maxPayload * 2 + 65536 ≤ maxPkt cfg := by
  unfold ISIZE_MAX at moderate
  unfold maxPkt USIZE_MAX
  omega

/-! ## Documents -/

/-- The wire documents are the JSON of the derived serializers. -/
structure Platform.WritesJson (P : Platform) : Prop where
  wrapper : ∀ wrapper, P.wrapperJson.encode wrapper = toVec (Wrapper.shape.write wrapper)
  inner : ∀ inner, P.innerJson.encode inner = toVec (Inner.shape.write inner)

theorem length_toVec (document : Document) : (toVec document).length = document.size := by
  rw [toVec, length_asBytes, utf8ByteSize_encode]

/-- The bytes of a wrapper besides those of its message. -/
def wrapping (P : Platform) (identity : Identity) (unsigned : Bool) : Nat :=
  if unsigned then 29 else 4464 + escapedSize (makeKid P identity.name identity.publicKey)

theorem Identity.Signs.length_sign
    {P : Platform} {identity : Identity} (signs : identity.Signs P) (message : Bytes) :
    (identity.sign P message).length = SIGNATURE_LEN := by
  have verified := signs message
  simp only [cryptoVerify, Bool.and_eq_true, decide_eq_true_eq] at verified
  exact verified.1.2

private theorem size_version : (u8.write PROTOCOL_VERSION).size = 1 := by
  have one : Json.digits PROTOCOL_VERSION.toNat = [Json.digitChar PROTOCOL_VERSION.toNat] := by
    rw [Json.digits, if_pos (by decide)]
  exact congrArg List.length one

theorem Wrapper.size_write (wrapper : Wrapper) :
    (shape.write wrapper).size = 24 + (u8.write wrapper.v).size + escapedSize wrapper.alg +
      memberSize "kid" .text wrapper.kid + escapedSize wrapper.msg +
      memberSize "sig" .text wrapper.sig := by
  have keys : escapedSize "v" = 1 ∧ escapedSize "alg" = 3 ∧ escapedSize "msg" = 3 := by decide
  have written : shape.write wrapper = .object (membersOf record.fields
      [u8.write wrapper.v, .text wrapper.alg, optText.write wrapper.kid, .text wrapper.msg,
        optText.write wrapper.sig]) := rfl
  rw [written]
  simp only [record, Document.Record.and, Document.Record.single, size_record, membersSize_plain,
    optText, membersSize_sparse, membersSize_nil, size, keys]
  omega

theorem size_wrapped
    {P : Platform} {identity : Identity} (signs : identity.Signs P) (unsigned : Bool)
    (innerBytes : Bytes) :
    (Wrapper.shape.write (wrapped P identity unsigned innerBytes)).size =
      wrapping P identity unsigned + (4 * innerBytes.length + 2) / 3 := by
  have kid : escapedSize "kid" = 3 := by decide
  have sig : escapedSize "sig" = 3 := by decide
  have signed : escapedSize ALG_ML_DSA_65 = 9 := by decide
  have none : escapedSize ALG_NONE = 4 := by decide
  rw [Wrapper.size_write]
  cases unsigned with
  | true =>
      simp only [wrapped, wrapping, if_true, size_version, memberSize, none, escapedSize_b64]
      omega
  | false =>
      simp only [wrapped, wrapping, Bool.false_eq_true, if_false, size_version, memberSize, signed,
        escapedSize_b64, signs.length_sign, SIGNATURE_LEN, kid, sig, Shape.text, size]
      omega

/-- The bytes of a plain inner message besides those of its body. -/
def framing (identity : Identity) (draw : Draw) (p : SendParams) : Nat :=
  83 + escapedSize draw.id + escapedSize identity.name + escapedSize p.recipient +
    escapedSize draw.ts + (4 * draw.nonce.length + 2) / 3 + escapedSize p.ctype +
    escapedSize (kindStr (parseKind p.kind))

/-- A request without the optional fields. -/
structure SendParams.Bare (p : SendParams) : Prop where
  grant : p.grant = none
  inReplyTo : p.inReplyTo = none
  correlationId : p.correlationId = none
  supersedes : p.supersedes = none

theorem Inner.size_write (inner : Inner) :
    (shape.write inner).size = 82 + escapedSize inner.id + (u8.write inner.v).size +
      escapedSize inner.sender + escapedSize inner.recipient + escapedSize inner.ts +
      escapedSize inner.nonce + escapedSize inner.ctype +
      memberSize "in_reply_to" .text inner.inReplyTo + escapedSize inner.body +
      escapedSize (kindStr inner.kind) + memberSize "correlation_id" .text inner.correlationId +
      memberSize "supersedes" .text inner.supersedes + memberSize "enc" EncInfo.shape inner.enc +
      memberSize "grant" SignedGrant.shape inner.grant +
      memberSize "receipt" Receipt.shape inner.receipt := by
  have keys : escapedSize "id" = 2 ∧ escapedSize "v" = 1 ∧ escapedSize "from" = 4 ∧
      escapedSize "to" = 2 ∧ escapedSize "ts" = 2 ∧ escapedSize "nonce" = 5 ∧
      escapedSize "ctype" = 5 ∧ escapedSize "body" = 4 ∧ escapedSize "kind" = 4 := by
    decide
  have written : shape.write inner = .object (membersOf record.fields
      [.text inner.id, u8.write inner.v, .text inner.sender, .text inner.recipient,
        .text inner.ts, .text inner.nonce, .text inner.ctype, optText.write inner.inReplyTo,
        .text inner.body, .text (kindStr inner.kind), optText.write inner.correlationId,
        optText.write inner.supersedes,
        (Shape.optional EncInfo.shape EncInfo.solid).write inner.enc,
        (Shape.optional SignedGrant.shape SignedGrant.solid).write inner.grant,
        (Shape.optional Receipt.shape Receipt.solid).write inner.receipt]) := rfl
  rw [written]
  simp only [record, Document.Record.and, Document.Record.single, size_record, membersSize_plain,
    membersSize_defaulted, optText, membersSize_sparse, membersSize_nil, size, keys]
  omega

theorem EncInfo.size_write (enc : EncInfo) :
    (shape.write enc).size = 63 + escapedSize enc.alg + escapedSize enc.kemCt +
      escapedSize enc.recipientKid + escapedSize enc.nonce + escapedSize enc.ptype := by
  have keys : escapedSize "alg" = 3 ∧ escapedSize "kem_ct" = 6 ∧
      escapedSize "recipient_kid" = 13 ∧ escapedSize "nonce" = 5 ∧ escapedSize "ptype" = 5 := by
    decide
  have written : shape.write enc = .object (membersOf record.fields
      [.text enc.alg, .text enc.kemCt, .text enc.recipientKid, .text enc.nonce,
        .text enc.ptype]) := rfl
  rw [written]
  simp only [record, Document.Record.and, Document.Record.single, size_record, membersSize_plain,
    membersSize_nil, size, keys]
  omega

theorem size_draft
    {identity : Identity} {draw : Draw} {p : SendParams} (bare : p.Bare)
    (encryptTo : Option Bytes) :
    (Inner.shape.write (draft identity draw (sendOpts p none encryptTo))).size =
      framing identity draw p + escapedSize p.body := by
  rw [Inner.size_write]
  simp only [draft, sendOpts, framing, size_version, memberSize, bare.inReplyTo,
    bare.correlationId, bare.supersedes, escapedSize_b64]
  omega

/-- The sizes of what is drawn: an identifier, a timestamp and the two nonces. -/
structure Draw.Sized (draw : Draw) : Prop where
  id : draw.id.utf8ByteSize ≤ 26
  ts : draw.ts.utf8ByteSize ≤ 35
  nonce : draw.nonce.length = 16
  aeadNonce : draw.aeadNonce.length = 12

/-- The names and the content type of a request are at most 256 bytes. -/
structure SendParams.Short (p : SendParams) (identity : Identity) : Prop where
  sender : identity.name.utf8ByteSize ≤ 256
  recipient : p.recipient.utf8ByteSize ≤ 256
  ctype : p.ctype.utf8ByteSize ≤ 256

/-- Escaping makes a text at most six times as long. -/
theorem escapedSizes_le
    {identity : Identity} {draw : Draw} {p : SendParams} (sized : draw.Sized)
    (short : p.Short identity) :
    escapedSize draw.id ≤ 6 * 26 ∧ escapedSize draw.ts ≤ 6 * 35 ∧
      escapedSize identity.name ≤ 6 * 256 ∧ escapedSize p.recipient ≤ 6 * 256 ∧
      escapedSize p.ctype ≤ 6 * 256 :=
  ⟨(escapedSize_le draw.id).trans (Nat.mul_le_mul_left 6 sized.id),
    (escapedSize_le draw.ts).trans (Nat.mul_le_mul_left 6 sized.ts),
    (escapedSize_le identity.name).trans (Nat.mul_le_mul_left 6 short.sender),
    (escapedSize_le p.recipient).trans (Nat.mul_le_mul_left 6 short.recipient),
    (escapedSize_le p.ctype).trans (Nat.mul_le_mul_left 6 short.ctype)⟩

/-- A sealed message is its ciphertext in base64 and a bounded rest. -/
theorem size_sealedDraft_le
    {P : Platform} {identity : Identity} {draw : Draw} {p : SendParams} {ek kemCt ss : Bytes}
    (appends : P.AppendsTag) (cipher : kemCt.length = 1088) (sized : draw.Sized) (bare : p.Bare)
    (short : p.Short identity) (encryptTo : Option Bytes) :
    (Inner.shape.write (sealedDraft P draw (sendOpts p none encryptTo) ek kemCt ss
        (draft identity draw (sendOpts p none encryptTo)))).size ≤
      6683 + (4 * (p.body.utf8ByteSize + 16) + 2) / 3 := by
  have enc : escapedSize "enc" = 3 := by decide
  have cipherName : escapedSize ALG_KEM_AEAD = 22 := by decide
  obtain ⟨idSize, tsSize, senderSize, recipientSize, ctypeSize⟩ := escapedSizes_le sized short
  have kindSize := escapedSize_kindStr_le (parseKind p.kind)
  have keySize := escapedSize_fingerprint_le P ek
  have sealedSize : ∀ key nonce data,
      (P.aeadSeal key nonce data (asBytes p.body)).length = p.body.utf8ByteSize + 16 := by
    intro key nonce data
    rw [appends, length_asBytes]
  rw [Inner.size_write]
  simp only [sealedDraft, draft, sendOpts, size_version, memberSize, EncInfo.size_write, enc,
    cipherName, bare.inReplyTo, bare.correlationId, bare.supersedes, escapedSize_b64,
    sized.nonce, sized.aeadNonce, cipher, sealedSize]
  omega

/-! ## What fits -/

/-- The ciphertexts of the encapsulation have 1088 bytes. -/
def Platform.CiphertextLength (P : Platform) : Prop :=
  ∀ ek randomness kemCt ss, P.kemEncapsulate ek randomness = some (kemCt, ss) →
    kemCt.length = 1088

/-- A plain message leaves room in the packet limit for its body as JSON escapes it. -/
def HasRoom (P : Platform) (identity : Identity) (cfg : Config) (topic : String) (draw : Draw)
    (p : SendParams) : Prop :=
  4 * (framing identity draw p + escapedSize p.body) +
      3 * (4 + topic.utf8ByteSize + wrapping P identity p.unsigned) ≤
    3 * remainingRoom (maxPkt cfg)

section Fits

variable {P : Platform} {identity : Identity} {cfg : Config} {trust : TrustStore}
  {p : SendParams} {draw : Draw} {inner : Inner} {wrapper : Wrapper} {topic : String}

/-- The payload of an accepted request. -/
theorem Sends.length_payload
    (writes : P.WritesJson) (signs : identity.Signs P)
    (sends : Sends P identity cfg trust p draw inner wrapper) :
    (P.wrapperJson.encode wrapper).length =
      wrapping P identity p.unsigned + (4 * (Inner.shape.write inner).size + 2) / 3 := by
  obtain ⟨grant, encryptTo, _, _, built⟩ := sends.built
  rw [(build_ok built).1, writes.wrapper, length_toVec, size_wrapped signs, writes.inner,
    length_toVec]
  rfl

/-- An accepted request without a grant is a draft or a sealed draft. -/
theorem Sends.form
    (bare : p.Bare) (sends : Sends P identity cfg trust p draw inner wrapper) :
    (p.encrypt ≠ true ∧ inner = draft identity draw (sendOpts p none none)) ∨
      (p.encrypt = true ∧ ∃ ek kemCt ss, P.kemEncapsulate ek draw.kemRandomness = some (kemCt, ss) ∧
        inner = sealedDraft P draw (sendOpts p none (some ek)) ek kemCt ss
          (draft identity draw (sendOpts p none (some ek)))) := by
  obtain ⟨grant, encryptTo, granted, encrypts, built⟩ := sends.built
  rw [bare.grant] at granted
  cases granted
  obtain ⟨_, ⟨plain, made⟩ | ⟨ek, kemCt, ss, sealed, _, encapsulated, made⟩⟩ := build_ok built
  · have clear : encryptTo = none := plain
    subst clear
    refine Or.inl ⟨fun encrypted => ?_, made⟩
    rw [SendParams.EncryptsTo, if_pos encrypted] at encrypts
    exact absurd encrypts.1 Bool.false_ne_true
  · have key : encryptTo = some ek := sealed
    subst key
    refine Or.inr ⟨?_, ek, kemCt, ss, encapsulated, made⟩
    by_contra plain
    rw [SendParams.EncryptsTo, if_neg plain] at encrypts
    cases encrypts

theorem wrapping_le (short : p.Short identity) (unsigned : Bool) :
    wrapping P identity unsigned ≤ 6022 := by
  have name := (escapedSize_le identity.name).trans (Nat.mul_le_mul_left 6 short.sender)
  have key := escapedSize_fingerprint_le P identity.publicKey
  have mark : escapedSize "#" = 1 := by decide
  unfold wrapping
  split
  · omega
  · rw [makeKid, escapedSize_append, escapedSize_append, mark]
    omega

/-- A body that is base64 encoded twice grows by less than the limit allows. -/
private theorem sealed_bound
    {body topicSize wraps innerSize header maxPayload : Nat}
    (small : body ≤ maxPayload) (allocated : body ≤ ISIZE_MAX) (topic : topicSize ≤ 256)
    (wrapper : wraps ≤ 6022) (inner : innerSize ≤ 6683 + (4 * (body + 16) + 2) / 3)
    (fixed : header ≤ 4) :
    1 + header + (2 + topicSize + 2 + (wraps + (4 * innerSize + 2) / 3)) ≤
      max (min (min (maxPayload * 2) USIZE_MAX + 64 * 1024) USIZE_MAX) (256 * 1024) := by
  unfold ISIZE_MAX at allocated
  unfold USIZE_MAX
  omega

/-- Encrypted requests fit. -/
theorem sealed_fits
    (writes : P.WritesJson) (signs : identity.Signs P) (appends : P.AppendsTag)
    (ciphertext : P.CiphertextLength) (sized : draw.Sized) (bare : p.Bare)
    (short : p.Short identity) (topicSize : topic.utf8ByteSize ≤ 256)
    (allocated : p.body.utf8ByteSize ≤ ISIZE_MAX)
    (sends : Sends P identity cfg trust p draw inner wrapper) (encrypted : p.encrypt = true) :
    publishSize topic (P.wrapperJson.encode wrapper) ≤ maxPkt cfg := by
  have payload := sends.length_payload writes signs
  have wraps : wrapping P identity p.unsigned ≤ 6022 := wrapping_le short p.unsigned
  rcases sends.form bare with ⟨plain, _⟩ | ⟨_, ek, kemCt, ss, encapsulated, rfl⟩
  · exact absurd encrypted plain
  · have innerSize : (Inner.shape.write (sealedDraft P draw (sendOpts p none (some ek)) ek kemCt ss
        (draft identity draw (sendOpts p none (some ek))))).size ≤
          6683 + (4 * (p.body.utf8ByteSize + 16) + 2) / 3 :=
      size_sealedDraft_le appends (ciphertext _ _ _ _ encapsulated) sized bare short (some ek)
    have header := remainingLengthSize_le
      (2 + topic.utf8ByteSize + 2 + (P.wrapperJson.encode wrapper).length)
    rw [payload] at header
    rw [publishSize, payload]
    exact sealed_bound sends.small allocated topicSize wraps innerSize header

/-- Plain requests fit exactly when there is room for the escaped body. -/
theorem plain_fits_iff
    (writes : P.WritesJson) (signs : identity.Signs P) (bare : p.Bare)
    (sends : Sends P identity cfg trust p draw inner wrapper) (plain : p.encrypt ≠ true) :
    publishSize topic (P.wrapperJson.encode wrapper) ≤ maxPkt cfg ↔
      HasRoom P identity cfg topic draw p := by
  have payload := sends.length_payload writes signs
  have limit := le_maxPkt cfg
  rcases sends.form bare with ⟨_, rfl⟩ | ⟨encrypted, _⟩
  · rw [size_draft bare] at payload
    unfold publishSize HasRoom
    simp only
    rw [publish_le_iff (by omega), payload]
    omega
  · exact absurd encrypted plain

/-- There is room for every body that escaping makes at most half as long again as the
configured limit. -/
theorem hasRoom_of_few_escapes
    (sized : draw.Sized) (short : p.Short identity) (topicSize : topic.utf8ByteSize ≤ 256)
    (moderate : 2 * cfg.maxPayload ≤ ISIZE_MAX)
    (few : 2 * escapedSize p.body ≤ 3 * cfg.maxPayload) :
    HasRoom P identity cfg topic draw p := by
  have wraps : wrapping P identity p.unsigned ≤ 6022 := wrapping_le short p.unsigned
  obtain ⟨idSize, tsSize, senderSize, recipientSize, ctypeSize⟩ := escapedSizes_le sized short
  have kindSize := escapedSize_kindStr_le (parseKind p.kind)
  have frame : framing identity draw p ≤ 5086 := by
    rw [framing, sized.nonce]
    omega
  have limit := le_maxPkt_of_moderate moderate
  have room := le_remainingRoom (maxPkt cfg)
  unfold HasRoom
  omega

/-- A packet for an accepted request is within the limit exactly when the request is
encrypted or there is room for its escaped body. -/
theorem fits_iff
    (writes : P.WritesJson) (signs : identity.Signs P) (appends : P.AppendsTag)
    (ciphertext : P.CiphertextLength) (sized : draw.Sized) (bare : p.Bare)
    (short : p.Short identity) (topicSize : topic.utf8ByteSize ≤ 256)
    (allocated : p.body.utf8ByteSize ≤ ISIZE_MAX)
    (sends : Sends P identity cfg trust p draw inner wrapper) :
    publishSize topic (P.wrapperJson.encode wrapper) ≤ maxPkt cfg ↔
      (p.encrypt = true ∨ HasRoom P identity cfg topic draw p) := by
  by_cases encrypted : p.encrypt = true
  · have fits := sealed_fits writes signs appends ciphertext sized bare short topicSize allocated
      sends encrypted
    exact ⟨fun _ => Or.inl encrypted, fun _ => fits⟩
  · rw [plain_fits_iff writes signs bare sends encrypted]
    constructor
    · exact Or.inr
    · rintro (sealed | room)
      · exact absurd sealed encrypted
      · exact room

end Fits

/-! ## Blank lines -/

theorem Reference.writesJson : (Reference.platform {}).WritesJson := by
  constructor <;> intro value
  · simp only [Reference.platform, documentBytes]
  · simp only [Reference.platform, documentBytes]

theorem Reference.ciphertextLength : (Reference.platform {}).CiphertextLength := by
  intro ek randomness kemCt ss encapsulated
  simp only [Reference.platform] at encapsulated
  split at encapsulated
  · rw [Option.some.injEq, Prod.mk.injEq] at encapsulated
    rw [← encapsulated.1, List.length_replicate]
    rfl
  · cases encapsulated

theorem Reference.draw_sized : Reference.draw.Sized :=
  ⟨by decide, by decide, List.length_replicate, List.length_replicate⟩

/-- A request in the clear, with characters that are escaped. -/
def clearMemo : SendParams :=
  { recipient := "bob", ctype := CTYPE_TEXT, body := "a \"b\"\\\n\tc\u0001 \u00e9" }

/-- A sealed memo and one in the clear fit into their packets. -/
theorem fits_iff_memo :
    (∃ inner wrapper, Sends (Reference.platform {}) Reference.alice (limited 64)
      (TrustStore.addFromToken {} Reference.bob.token) memo Reference.draw inner wrapper ∧
        publishSize "chat" ((Reference.platform {}).wrapperJson.encode wrapper) ≤
          maxPkt (limited 64)) ∧
    ∃ inner wrapper, Sends (Reference.platform {}) Reference.alice (limited 64) {} clearMemo
      Reference.draw inner wrapper ∧
        publishSize "chat" ((Reference.platform {}).wrapperJson.encode wrapper) ≤
          maxPkt (limited 64) := by
  constructor
  · obtain ⟨inner, wrapper, sends⟩ := @sends_memo 64 (by decide)
    refine ⟨inner, wrapper, sends, ?_⟩
    have bare : memo.Bare := ⟨rfl, rfl, rfl, rfl⟩
    have short : memo.Short Reference.alice := ⟨by decide, by decide, by decide⟩
    apply (fits_iff Reference.writesJson (Reference.signs {} "alice" 1)
      (Reference.appendsTag {}) Reference.ciphertextLength Reference.draw_sized bare short
      (by decide) (by decide) sends).mpr
    exact Or.inl rfl
  · have sends : Sends (Reference.platform {}) Reference.alice (limited 64) {} clearMemo
        Reference.draw _ _ := ⟨⟨"chat", rfl⟩, by decide, none, none, rfl, rfl, build_plain rfl⟩
    have bare : clearMemo.Bare := ⟨rfl, rfl, rfl, rfl⟩
    have short : clearMemo.Short Reference.alice := ⟨by decide, by decide, by decide⟩
    have room : HasRoom (Reference.platform {}) Reference.alice (limited 64) "chat"
        Reference.draw clearMemo :=
      hasRoom_of_few_escapes Reference.draw_sized short (by decide) (by decide) (by decide)
    exact ⟨_, _, sends, (fits_iff Reference.writesJson (Reference.signs {} "alice" 1)
      (Reference.appendsTag {}) Reference.ciphertextLength Reference.draw_sized bare short
      (by decide) (by decide) sends).mpr (Or.inr room)⟩

/-- A request whose body is the default limit of line feeds. -/
def blankLines : SendParams :=
  { recipient := "bob", ctype := CTYPE_TEXT
    body := String.ofList (List.replicate (256 * 1024) '\n') }

theorem charsSize_replicate (count : Nat) :
    charsSize (List.replicate count '\n') = 2 * count := by
  induction count with
  | zero =>
      rfl
  | succ count inductionHypothesis =>
      have first : charSize '\n' = 2 := by decide
      rw [List.replicate_succ, charsSize, inductionHypothesis, first]
      omega

theorem utf8ByteSize_blankLines : blankLines.body.utf8ByteSize = 256 * 1024 := by
  have ones : ∀ letter ∈ List.replicate (256 * 1024) '\n', letter.utf8Size = 1 := by
    intro letter member
    rw [List.eq_of_mem_replicate member]
    decide
  rw [blankLines, Utf8.utf8ByteSize_ofList, Utf8.size_of_ones ones, List.length_replicate]

theorem escapedSize_blankLines : escapedSize blankLines.body = 2 * (256 * 1024) := by
  rw [escapedSize, blankLines, String.toList_ofList, charsSize_replicate]

/-- With the default limit the sender accepts as many line feeds as the limit allows, and
their packet is too large. -/
theorem blankLines_too_large :
    ¬ ∀ p inner wrapper, p.Bare → p.Short Reference.alice →
      Sends (Reference.platform {}) Reference.alice (limited (256 * 1024)) {} p Reference.draw
        inner wrapper →
      publishSize "chat" ((Reference.platform {}).wrapperJson.encode wrapper) ≤
        maxPkt (limited (256 * 1024)) := by
  intro fits
  have bare : blankLines.Bare := ⟨rfl, rfl, rfl, rfl⟩
  have short : blankLines.Short Reference.alice := ⟨by decide, by decide, by decide⟩
  have sends : Sends (Reference.platform {}) Reference.alice (limited (256 * 1024)) {}
      blankLines Reference.draw _ _ :=
    ⟨⟨"chat", rfl⟩, Nat.le_of_eq utf8ByteSize_blankLines, none, none, rfl, rfl, build_plain rfl⟩
  have room := (plain_fits_iff Reference.writesJson (Reference.signs {} "alice" 1) bare sends
    Bool.false_ne_true).mp (fits _ _ _ bare short sends)
  have capacity : remainingRoom (maxPkt (limited (256 * 1024))) = 589820 := by
    decide
  rw [HasRoom, escapedSize_blankLines, capacity] at room
  omega

end AgentMsg
