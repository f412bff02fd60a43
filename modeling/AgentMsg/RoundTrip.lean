import AgentMsg.Acceptance
import AgentMsg.Reference
import AgentMsg.Tokens

/-!
# Messages that are built and verified

What one identity builds, another accepts: the wrapper passes the gates of a receiver
that knows the sender's key, and the checks after them find the body and the content
type that went in, whether the message was signed or not and encrypted or not.
-/

namespace AgentMsg

open Checked

/-! ## What is built -/

/-- The inner message before its body is sealed. -/
def draft (identity : Identity) (draw : Draw) (opts : BuildOpts) : Inner :=
  { id := draw.id, v := PROTOCOL_VERSION, sender := identity.name,
    recipient := opts.recipient, ts := draw.ts, nonce := b64 draw.nonce,
    ctype := opts.ctype, inReplyTo := opts.inReplyTo, body := opts.body,
    kind := opts.kind, correlationId := opts.correlationId,
    supersedes := opts.supersedes, grant := opts.grant, receipt := opts.receipt }

/-- The wrapper around the bytes of an inner message. -/
def wrapped (P : Platform) (identity : Identity) (unsigned : Bool) (innerBytes : Bytes) :
    Wrapper :=
  if unsigned then { v := PROTOCOL_VERSION, alg := ALG_NONE, msg := b64 innerBytes }
  else
    { v := PROTOCOL_VERSION, alg := ALG_ML_DSA_65,
      kid := some (makeKid P identity.name identity.publicKey), msg := b64 innerBytes,
      sig := some (b64 (identity.sign P innerBytes)) }

/-- A draft whose body is sealed to a key. -/
def sealedDraft (P : Platform) (draw : Draw) (opts : BuildOpts) (ek kemCt ss : Bytes)
    (inner : Inner) : Inner :=
  { inner with
    enc := some
      { alg := ALG_KEM_AEAD, kemCt := b64 kemCt, recipientKid := fingerprint P ek,
        nonce := b64 draw.aeadNonce, ptype := opts.ctype }
    ctype := ALG_KEM_AEAD
    body := b64 (P.aeadSeal ss draw.aeadNonce (asBytes (aad inner)) (asBytes opts.body)) }

theorem build_ok
    {P : Platform} {identity : Identity} {draw : Draw} {opts : BuildOpts} {inner : Inner}
    {wrapper : Wrapper} (built : build P identity draw opts = .ok (inner, wrapper)) :
    wrapper = wrapped P identity opts.unsigned (P.innerJson.encode inner) ∧
      ((opts.encryptTo = none ∧ inner = draft identity draw opts) ∨
        ∃ ek kemCt ss, opts.encryptTo = some ek ∧ opts.recipient ≠ BROADCAST ∧
          P.kemEncapsulate ek draw.kemRandomness = some (kemCt, ss) ∧
          inner = sealedDraft P draw opts ek kemCt ss (draft identity draw opts)) := by
  simp only [build, bind_eq_ok, ensure_eq_ok] at built
  obtain ⟨_, addressed, sealed, seals, rest⟩ := built
  have result : inner = sealed ∧
      wrapper = wrapped P identity opts.unsigned (P.innerJson.encode sealed) := by
    unfold wrapped
    by_cases unsigned : opts.unsigned = true
    · rw [if_pos unsigned] at rest
      cases rest
      exact ⟨rfl, (if_pos unsigned).symm⟩
    · rw [if_neg unsigned] at rest
      cases rest
      exact ⟨rfl, (if_neg unsigned).symm⟩
  obtain ⟨rfl, rfl⟩ := result
  refine ⟨rfl, ?_⟩
  unfold sealBody at seals
  cases key : opts.encryptTo with
  | none =>
      rw [key] at seals
      cases seals
      exact Or.inl ⟨rfl, rfl⟩
  | some ek =>
      rw [key] at seals
      simp only [bind_eq_ok, okOr_eq_ok, pure_eq_ok] at seals
      obtain ⟨⟨kemCt, ss⟩, encapsulated, same⟩ := seals
      refine Or.inr ⟨ek, kemCt, ss, rfl, fun broadcast => ?_, encapsulated, same.symm⟩
      exact addressed ⟨by rw [key]; rfl, broadcast⟩

theorem build_plain
    {P : Platform} {identity : Identity} {draw : Draw} {opts : BuildOpts}
    (plain : opts.encryptTo = none) :
    build P identity draw opts =
      .ok (draft identity draw opts,
        wrapped P identity opts.unsigned (P.innerJson.encode (draft identity draw opts))) := by
  simp only [build, plain, sealBody, bind_eq_ok, ensure_eq_ok, Option.isSome_none]
  refine ⟨(), fun both => Bool.false_ne_true both.1, _, rfl, ?_⟩
  unfold wrapped
  split <;> rfl

theorem build_sealed
    {P : Platform} {identity : Identity} {draw : Draw} {opts : BuildOpts} {ek kemCt ss : Bytes}
    (key : opts.encryptTo = some ek) (direct : opts.recipient ≠ BROADCAST)
    (encapsulated : P.kemEncapsulate ek draw.kemRandomness = some (kemCt, ss)) :
    build P identity draw opts =
      .ok (sealedDraft P draw opts ek kemCt ss (draft identity draw opts),
        wrapped P identity opts.unsigned (P.innerJson.encode
          (sealedDraft P draw opts ek kemCt ss (draft identity draw opts)))) := by
  simp only [build, key, sealBody, bind_eq_ok, ensure_eq_ok, encapsulated, okOr]
  refine ⟨(), fun both => direct both.2, _, ⟨_, rfl, rfl⟩, ?_⟩
  unfold wrapped
  split <;> rfl

/-- The ciphertext in base64 is longer than the plaintext. -/
theorem utf8ByteSize_sealedDraft
    {P : Platform} {draw : Draw} {opts : BuildOpts} {ek kemCt ss : Bytes} {inner : Inner}
    (appends : P.AppendsTag) :
    (sealedDraft P draw opts ek kemCt ss inner).body.utf8ByteSize =
      (4 * (opts.body.utf8ByteSize + 16) + 2) / 3 := by
  rw [sealedDraft, b64, Base64.utf8ByteSize_encode, appends, length_asBytes]

/-! ## The gates -/

section Gates

variable {P : Platform} {identity : Identity} {inner : Inner} {trust : TrustStore}

theorem versionGate_wrapped (unsigned acceptV1 : Bool) (innerBytes : Bytes) :
    versionGate (wrapped P identity unsigned innerBytes) acceptV1 = .ok () := by
  have version : (wrapped P identity unsigned innerBytes).v = PROTOCOL_VERSION := by
    unfold wrapped
    split <;> rfl
  have current : PROTOCOL_VERSION ≠ 1 := by decide
  rw [versionGate, version, if_neg current, ensure_eq_ok]

/-- A signed wrapper passes where the sender's key is trusted. -/
theorem gate_accepts_signed
    (signs : identity.Signs P) (lawful : P.innerJson.Lawful)
    (name : '#' ∉ identity.name.toList) (sender : inner.sender = identity.name)
    (trusted : trust.publicKey identity.name = .ok identity.publicKey) (allowUnsigned : Bool) :
    algorithmGate P (wrapped P identity false (P.innerJson.encode inner)) trust allowUnsigned =
      .ok inner := by
  have notNone : ALG_ML_DSA_65 ≠ ALG_NONE := by decide
  have verified : cryptoVerify P identity.publicKey (P.innerJson.encode inner)
      (identity.sign P (P.innerJson.encode inner)) = true := signs _
  rw [← sender] at name trusted
  have path : signedPath P (wrapped P identity false (P.innerJson.encode inner)) trust =
      .ok inner := by
    refine signedPath_accepts ?_ name trusted rfl rfl verified (lawful inner)
    rw [sender]
    rfl
  exact (if_neg notNone).trans ((if_pos rfl).trans path)

/-- An unsigned wrapper passes where such messages are allowed and the sender has no
trusted key. -/
theorem gate_accepts_unsigned
    (lawful : P.innerJson.Lawful)
    (unknown : (trust.publicKey inner.sender).isOk = false) :
    algorithmGate P (wrapped P identity true (P.innerJson.encode inner)) trust true =
      .ok inner := by
  have path : unsignedPath P (wrapped P identity true (P.innerJson.encode inner)) trust true =
      .ok inner := by
    simp only [unsignedPath, bind_eq_ok, mapErr_eq_ok, ensure_eq_ok, pure_eq_ok,
      Wrapper.innerBytes, Wrapper.parseInner, okOr_eq_ok]
    exact ⟨(), trivial, _, unb64_b64 _, inner, lawful inner, (), unknown, rfl⟩
  exact (if_pos rfl).trans path

/-- Past the gates a wrapper is left to the final checks. -/
theorem verifyIncoming_wrapped
    {unsigned allowUnsigned acceptV1 : Bool} {me : Identity} {clock : Clock}
    {freshnessSecs : Int} {maxPayload : Nat} (lawful : P.wrapperJson.Lawful)
    (passes : algorithmGate P (wrapped P identity unsigned (P.innerJson.encode inner)) trust
      allowUnsigned = .ok inner) :
    verifyIncoming P
        (P.wrapperJson.encode (wrapped P identity unsigned (P.innerJson.encode inner))) me trust
        clock freshnessSecs maxPayload allowUnsigned acceptV1 =
      finalize P inner me trust clock freshnessSecs maxPayload
        (wrapped P identity unsigned (P.innerJson.encode inner)).rejectInfo := by
  rw [verifyIncoming, Wrapper.fromBytes, lawful]
  simp only [okOr, mapErr, bind, Except.bind, versionGate_wrapped, passes]

end Gates

/-! ## Decryption -/

/-- A sealed draft opens under the key it was sealed to. -/
theorem decryptBody_sealedDraft
    {P : Platform} {identity receiver : Identity} {draw : Draw} {opts : BuildOpts}
    {kemCt ss : Bytes} {ri : RejectReason → RejectInfo}
    (decapsulates : receiver.Decapsulates P) (opens : P.OpensSealed)
    (nonce : draw.aeadNonce.length = 12)
    (encapsulated : P.kemEncapsulate receiver.kemEk draw.kemRandomness = some (kemCt, ss)) :
    decryptBody P receiver
        (sealedDraft P draw opts receiver.kemEk kemCt ss (draft identity draw opts)) ri =
      .ok { sealedDraft P draw opts receiver.kemEk kemCt ss (draft identity draw opts) with
        body := opts.body, ctype := opts.ctype } := by
  simp only [decryptBody, sealedDraft, bind_eq_ok, okOr_eq_ok, ensure_eq_ok, pure_eq_ok]
  exact ⟨(), rfl, kemCt, unb64_b64 _, ss, decapsulates encapsulated, draw.aeadNonce, unb64_b64 _,
    (), nonce, _, unb64_b64 _, _, opens _ _ _ _, opts.body, fromUtf8_asBytes _, rfl⟩

/-- What the final checks make of a built message that is small, fresh and sealed to the
receiver, if at all. -/
theorem finalize_built
    {P : Platform} {identity receiver : Identity} {draw : Draw} {opts : BuildOpts}
    {inner : Inner} {wrapper : Wrapper} {trust : TrustStore} {clock : Clock}
    {freshnessSecs : Int} {maxPayload : Nat} {ri : RejectReason → RejectInfo}
    (decapsulates : receiver.Decapsulates P) (opens : P.OpensSealed)
    (nonce : draw.aeadNonce.length = 12)
    (addressed : ∀ ek, opts.encryptTo = some ek → ek = receiver.kemEk)
    (granted : ∀ sg, opts.grant = some sg →
      ∃ claims, Grant.verify P clock.grantCheck sg trust = .ok claims ∧
        claims.subject = identity.name)
    (built : build P identity draw opts = .ok (inner, wrapper))
    (small : inner.body.utf8ByteSize ≤ maxPayload)
    (fresh : freshEnough P clock.freshness draw.ts freshnessSecs = true) :
    finalize P inner receiver trust clock freshnessSecs maxPayload ri =
      .ok { inner with body := opts.body, ctype := opts.ctype } := by
  have checked : ∀ opened : Inner, opened.grant = opts.grant → opened.sender = identity.name →
      checkGrant P clock.grantCheck trust opened ri = .ok () := by
    intro opened carries sender
    unfold checkGrant
    rw [carries]
    cases given : opts.grant with
    | none =>
        rfl
    | some sg =>
        obtain ⟨claims, verified, subject⟩ := granted sg given
        simp only [bind_eq_ok, mapErr_eq_ok, ensure_eq_ok]
        exact ⟨claims, verified, subject.trans sender.symm⟩
  simp only [finalize, bind_eq_ok, ensure_eq_ok, pure_eq_ok]
  obtain ⟨_, ⟨clear, rfl⟩ | ⟨ek, kemCt, ss, key, _, encapsulated, rfl⟩⟩ := build_ok built
  · exact ⟨(), small, (), fresh, _, rfl, (), checked _ rfl rfl, rfl⟩
  · obtain rfl := addressed ek key
    exact ⟨(), small, (), fresh, _,
      decryptBody_sealedDraft decapsulates opens nonce encapsulated, (), checked _ rfl rfl, rfl⟩

/-! ## From build to verification -/

/-- Add the agent of an encoded token to a trust store. -/
def TrustStore.importToken (P : Platform) (trust : TrustStore) (text : String) :
    Except Error TrustStore := do
  let token ← IdentityToken.decode P text
  return trust.addFromToken token

/-- How a receiver may stand to a sender: it has imported the sender's token, or, for an
unsigned message, allows such messages and does not know the sender. -/
def Admits (P : Platform) (sender : Identity) (unsigned : Bool) (trust : TrustStore)
    (allowUnsigned : Bool) : Prop :=
  if unsigned = true then allowUnsigned = true ∧ trust.contains sender.name = false
  else ∃ earlier : TrustStore,
    earlier.importToken P (IdentityToken.encode P sender.token) = .ok trust

theorem validateName_ok
    {name : String} (valid : validateName name = .ok ()) : name ≠ "" ∧ '#' ∉ name.toList := by
  simp only [validateName, bind_eq_ok, ensure_eq_ok] at valid
  obtain ⟨_, named, _, clear, _⟩ := valid
  exact ⟨named, clear⟩

/-- An encoded token is imported by every store. -/
theorem importToken_encode
    {P : Platform} {sender : Identity} (lawful : P.tokenV2Json.Lawful)
    (signs : sender.Signs P) (valid : validateName sender.name = .ok ()) (earlier : TrustStore) :
    earlier.importToken P (IdentityToken.encode P sender.token) =
      .ok (earlier.addFromToken sender.token) := by
  have decoded : IdentityToken.decode P (IdentityToken.encode P sender.token) =
      .ok sender.token :=
    IdentityToken.decode_encode lawful (validateName_ok valid).1 signs.length_publicKey
  rw [TrustStore.importToken, decoded]
  rfl

/-- A message that is built, transmitted in a body that is not too large and received in
time is accepted with the body and the content type it was built from. -/
theorem verifyIncoming_build
    {P : Platform} {sender receiver : Identity} {draw : Draw} {opts : BuildOpts}
    {inner : Inner} {wrapper : Wrapper} {trust : TrustStore} {clock : Clock}
    {freshnessSecs : Int} {maxPayload : Nat} {allowUnsigned acceptV1 : Bool}
    (signs : sender.Signs P) (decapsulates : receiver.Decapsulates P) (opens : P.OpensSealed)
    (wrapperJson : P.wrapperJson.Lawful) (innerJson : P.innerJson.Lawful)
    (tokenJson : P.tokenV2Json.Lawful) (valid : validateName sender.name = .ok ())
    (nonce : draw.aeadNonce.length = 12)
    (addressed : ∀ ek, opts.encryptTo = some ek → ek = receiver.kemEk)
    (granted : ∀ sg, opts.grant = some sg →
      ∃ claims, Grant.verify P clock.grantCheck sg trust = .ok claims ∧
        claims.subject = sender.name)
    (admits : Admits P sender opts.unsigned trust allowUnsigned)
    (built : build P sender draw opts = .ok (inner, wrapper))
    (small : inner.body.utf8ByteSize ≤ maxPayload)
    (fresh : freshEnough P clock.freshness draw.ts freshnessSecs = true) :
    verifyIncoming P (P.wrapperJson.encode wrapper) receiver trust clock freshnessSecs maxPayload
        allowUnsigned acceptV1 =
      .ok { inner with body := opts.body, ctype := opts.ctype } := by
  obtain ⟨shape, form⟩ := build_ok built
  have from_ : inner.sender = sender.name := by
    rcases form with ⟨_, rfl⟩ | ⟨_, _, _, _, _, _, rfl⟩ <;> rfl
  have passes : algorithmGate P (wrapped P sender opts.unsigned (P.innerJson.encode inner)) trust
      allowUnsigned = .ok inner := by
    unfold Admits at admits
    cases mode : opts.unsigned with
    | true =>
        rw [mode, if_pos rfl] at admits
        obtain ⟨rfl, absent⟩ := admits
        apply gate_accepts_unsigned innerJson
        rw [from_]
        have missing : trust.agents[sender.name]? = none := by
          apply Std.TreeMap.getElem?_eq_none_of_contains_eq_false
          exact absent
        rw [TrustStore.publicKey, missing]
        rfl
    | false =>
        rw [mode, if_neg Bool.false_ne_true] at admits
        obtain ⟨earlier, imported⟩ := admits
        rw [importToken_encode tokenJson signs valid, Except.ok.injEq] at imported
        subst imported
        apply gate_accepts_signed signs innerJson (validateName_ok valid).2 from_
        rw [TrustStore.publicKey_eq_ok_iff, TrustStore.addFromToken,
          TrustStore.currentKey_addWithKem]
        exact if_pos rfl
  rw [shape, verifyIncoming_wrapped wrapperJson passes]
  exact finalize_built decapsulates opens nonce addressed granted built small fresh

/-- A greeting of alice that is sealed to bob. -/
def greeting : BuildOpts :=
  { recipient := "bob", ctype := CTYPE_TEXT, body := "hello bob",
    encryptTo := some Reference.bob.kemEk }

theorem verifyIncoming_build_greeting :
    ∃ inner wrapper,
      build (Reference.platform {}) Reference.alice Reference.draw greeting =
        .ok (inner, wrapper) ∧
      verifyIncoming (Reference.platform {})
          ((Reference.platform {}).wrapperJson.encode wrapper) Reference.bob
          (TrustStore.addFromToken {} Reference.alice.token) Reference.clock 300 262144 false
          true =
        .ok { inner with body := "hello bob", ctype := CTYPE_TEXT } := by
  have direct : greeting.recipient ≠ BROADCAST := by decide
  have built : build (Reference.platform {}) Reference.alice Reference.draw greeting = _ :=
    build_sealed rfl direct
      (Reference.encapsulates {} "bob" 2 Reference.draw.kemRandomness)
  have imported : TrustStore.importToken (Reference.platform {}) {}
      (IdentityToken.encode (Reference.platform {}) Reference.alice.token) =
        .ok (TrustStore.addFromToken {} Reference.alice.token) :=
    importToken_encode (Reference.tokenV2Json_lawful {}) (Reference.signs {} "alice" 1)
      (by decide) {}
  refine ⟨_, _, built, ?_⟩
  refine verifyIncoming_build (Reference.signs {} "alice" 1)
    (Reference.decapsulates {} "bob" 2) (Reference.opensSealed {})
    (Reference.wrapperJson_lawful {}) (Reference.innerJson_lawful {})
    (Reference.tokenV2Json_lawful {}) (by decide) rfl ?_ ?_ ?_ built ?_
    (Reference.fresh_newYear {})
  · intro ek key
    exact (Option.some.inj key).symm
  · intro sg carried
    have bare : greeting.grant = none := rfl
    rw [bare] at carried
    cases carried
  · exact (if_neg Bool.false_ne_true).mpr ⟨{}, imported⟩
  · rw [utf8ByteSize_sealedDraft (Reference.appendsTag {})]
    decide

end AgentMsg
