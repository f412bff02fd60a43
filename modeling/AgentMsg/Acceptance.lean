import AgentMsg.Arrivals

/-!
# Payloads that ingest accepts

The converse of the verification lemmas: a wrapper that is signed under the trusted
key of its sender, carries a fresh and small inner message and, if any, a valid
grant, is accepted.  A bench is a platform whose parsers are finite tables, on which
the model can be run.
-/

namespace AgentMsg

open Checked

/-! ## Sufficient conditions -/

section Sufficient

variable {P : Platform} {wrapper : Wrapper} {trust : TrustStore} {innerBytes : Bytes}
  {inner : Inner} {publicKey sig : Bytes}

theorem signedPath_accepts
    (kid : wrapper.kid = some (makeKid P inner.sender publicKey))
    (name : '#' ∉ inner.sender.toList)
    (trusted : trust.publicKey inner.sender = .ok publicKey)
    (msg : wrapper.msg = b64 innerBytes) (carried : wrapper.sig = some (b64 sig))
    (verified : cryptoVerify P publicKey innerBytes sig = true)
    (parsed : P.innerJson.decode innerBytes = some inner) :
    signedPath P wrapper trust = .ok inner := by
  simp only [signedPath, bind_eq_ok, okOr_eq_ok, mapErr_eq_ok, ensure_eq_ok, pure_eq_ok,
    Wrapper.innerBytes, Wrapper.sigBytes, Wrapper.parseInner]
  refine ⟨_, kid, _, splitKid_makeKid P publicKey name, publicKey, trusted, (), rfl,
    innerBytes, ?_, sig, ⟨_, carried, unb64_b64 sig⟩, (), verified, inner, parsed, (), rfl, rfl⟩
  rw [msg, unb64_b64]

theorem finalize_accepts
    {me : Identity} {clock : Clock} {freshnessSecs : Int} {maxPayload : Nat}
    {ri : RejectReason → RejectInfo}
    (small : inner.body.utf8ByteSize ≤ maxPayload)
    (fresh : freshEnough P clock.freshness inner.ts freshnessSecs = true)
    (clear : inner.enc = none)
    (granted : ∀ sg, inner.grant = some sg →
      ∃ claims, Grant.verify P clock.grantCheck sg trust = .ok claims ∧
        claims.subject = inner.sender) :
    finalize P inner me trust clock freshnessSecs maxPayload ri = .ok inner := by
  have opened : decryptBody P me inner ri = .ok inner := by
    rw [decryptBody, clear]
  have checked : checkGrant P clock.grantCheck trust inner ri = .ok () := by
    cases carried : inner.grant with
    | none =>
        simp [checkGrant, carried]
    | some sg =>
        obtain ⟨claims, valid, subject⟩ := granted sg carried
        simp [checkGrant, carried, valid, subject]
  simp only [finalize, bind_eq_ok, ensure_eq_ok, pure_eq_ok]
  exact ⟨(), small, (), fresh, inner, opened, (), checked, rfl⟩

/-- A grant with a valid signature of a trusted authority verifies until it expires. -/
theorem Grant.verify_accepts
    {sg : SignedGrant} {now : Int} {authority : String} {claims : GrantClaims}
    {grantBytes : Bytes}
    (kid : sg.authorityKid = makeKid P authority publicKey)
    (name : '#' ∉ authority.toList)
    (trusted : trust.authorityPublicKey authority = .ok publicKey)
    (body : sg.grant = b64 grantBytes) (carried : sg.sig = b64 sig)
    (verified : cryptoVerify P publicKey grantBytes sig = true)
    (parsed : P.claimsJson.decode grantBytes = some claims)
    (valid : isExpired P now claims.expiry = false) :
    Grant.verify P now sg trust = .ok claims := by
  simp only [Grant.verify, bind_eq_ok, okOr_eq_ok, mapErr_eq_ok, ensure_eq_ok, pure_eq_ok]
  refine ⟨(authority, fingerprint P publicKey), ?_, publicKey, trusted, (), rfl, grantBytes,
    ?_, sig, ?_, (), verified, claims, parsed, (), valid, rfl⟩
  · rw [kid]
    exact splitKid_makeKid P publicKey name
  · rw [body, unb64_b64]
  · rw [carried, unb64_b64]

end Sufficient

/-! ## Benches -/

/-- Tables from which a platform is made.  The payload `[n]` is a wrapper around the
`n`-th inner message, signed by its sender; the bytes `[n, 0]` are the `n`-th grant
claims, signed by the authority. -/
structure Bench where
  inners : List Inner
  signed : Bool := true
  claims : List GrantClaims := []
  instants : List (String × Int) := []
  config : Config := {}
  trust : TrustStore := {}

namespace Bench

/-- The public key of a name. -/
def key (name : String) : Bytes :=
  List.replicate PUBLIC_KEY_LEN (UInt8.ofNat name.length)

/-- The signature of a name. -/
def signature (name : String) : Bytes :=
  List.replicate SIGNATURE_LEN (UInt8.ofNat name.length)

def kid (name : String) : String :=
  name ++ "#" ++ hexEncode ((key name).take 8)

/-- The name of the authority that signs grants. -/
def authority : String := "ops"

def wrapper (bench : Bench) (tag : UInt8) (inner : Inner) : Wrapper :=
  if bench.signed then
    { v := PROTOCOL_VERSION, alg := ALG_ML_DSA_65, kid := some (kid inner.sender),
      msg := b64 [tag], sig := some (b64 (signature inner.sender)) }
  else { v := PROTOCOL_VERSION, alg := ALG_NONE, msg := b64 [tag] }

/-- The grant whose claims are the given entry of the table. -/
def grant (tag : UInt8) : SignedGrant :=
  { alg := ALG_ML_DSA_65, authorityKid := kid authority, grant := b64 [tag, 0],
    sig := b64 (signature authority) }

def decodeInner (bench : Bench) : Bytes → Option Inner
  | [tag] => bench.inners[tag.toNat]?
  | _ => none

def decodeClaims (bench : Bench) : Bytes → Option GrantClaims
  | [tag, 0] => bench.claims[tag.toNat]?
  | _ => none

/-- Who signed the bytes. -/
def signer (bench : Bench) (message : Bytes) : Option String :=
  match bench.decodeInner message, bench.decodeClaims message with
  | some inner, _ => some inner.sender
  | none, some _ => some authority
  | none, none => none

def platform (bench : Bench) : Platform where
  mlDsaVerify publicKey message sig :=
    match bench.signer message with
    | some name => publicKey == key name && sig == signature name
    | none => false
  mlDsaSign seed _ := List.replicate SIGNATURE_LEN (seed.headD 0)
  sha256 := id
  kemEncapsulate _ _ := none
  kemDecapsulate _ _ := none
  aeadSeal _ _ _ plaintext := plaintext
  aeadOpen _ _ _ _ := none
  crc32 _ := 0
  parseRfc3339 text := (bench.instants.find? fun entry => entry.1 == text).map Prod.snd
  wrapperJson :=
    { encode := fun _ => []
      decode := fun raw =>
        match raw with
        | [tag] => bench.inners[tag.toNat]?.map (bench.wrapper tag)
        | _ => none }
  innerJson := { encode := fun _ => [], decode := bench.decodeInner }
  claimsJson := { encode := fun _ => [], decode := bench.decodeClaims }
  grantJson := { encode := fun _ => [], decode := fun _ => none }
  pairBodyJson := { encode := fun _ => "", decode := fun _ => none }
  presenceJson := { encode := fun _ => "", decode := fun _ => none }
  tokenV1Json := { encode := fun _ => [], decode := fun _ => none }
  tokenV2Json := { encode := fun _ => [], decode := fun _ => none }
  authTokenJson := { encode := fun _ => [], decode := fun _ => none }
  trustJson :=
    { encode := fun _ => "trust"
      decode := fun text => if text = "" then none else some bench.trust }
  configToml := { encode := fun _ => "config", decode := fun _ => some bench.config }

/-- The trust store with the keys of the given names. -/
def trusting : List String → TrustStore
  | [] => {}
  | name :: names => (trusting names).addWithKem name (key name) none

/-- The identity that the daemon of the bench runs under. -/
def me : Identity :=
  { name := "me", seed := [1], publicKey := [1], kemDk := [], kemEk := [] }

/-- A plain text message to the daemon of the bench. -/
def textTo (recipient id sender ts body : String) : Inner :=
  { id, v := PROTOCOL_VERSION, sender, recipient, ts, nonce := "", ctype := CTYPE_TEXT, body }

/-- The shared state with the files of the bench. -/
def world : World :=
  { configFile := .text "config", trustFile := .text "trust" }

/-- A delivery of the `n`-th inner message, all clocks at one instant. -/
def delivery (tag : UInt8) (now : Int) (receiptId : String) : Delivery :=
  { topic := "chat", payload := [tag], clock := ⟨now, now, now⟩,
    draw := ⟨receiptId, "", [], [], []⟩ }

/-- The arrival of a delivery while the files are those of the bench. -/
def arrival (delivery : Delivery) : Arrival :=
  { delivery, inputs := fun _ => {}, configFile := .text "config", trustFile := .text "trust" }

theorem textTo_plain (recipient id sender ts body : String) :
    (textTo recipient id sender ts body).Plain := by
  have text : CTYPE_TEXT ≠ CTYPE_PRESENCE ∧
      ¬ (MsgKind.message = .receipt ∨ CTYPE_TEXT = CTYPE_RECEIPT) := by decide
  exact text

variable {bench : Bench}

theorem trusting_publicKey
    {names : List String} {name : String} (member : name ∈ names) :
    (trusting names).publicKey name = .ok (key name) := by
  rw [TrustStore.publicKey_eq_ok_iff]
  induction names with
  | nil =>
      exact absurd member List.not_mem_nil
  | cons head tail inductionHypothesis =>
      rw [trusting, TrustStore.currentKey_addWithKem]
      by_cases same : head = name
      · rw [if_pos same, same]
      · rw [if_neg same]
        exact inductionHypothesis ((List.mem_cons.mp member).resolve_left (Ne.symm same))

/-- Signatures verify only if they were made. -/
theorem signed_of_verify
    {publicKey message sig : Bytes}
    (verified : cryptoVerify bench.platform publicKey message sig = true) :
    ∃ name, bench.signer message = some name ∧ publicKey = key name := by
  simp only [cryptoVerify, platform, Bool.and_eq_true] at verified
  cases made : bench.signer message with
  | none =>
      simp [made] at verified
  | some name =>
      simp only [made, Bool.and_eq_true, beq_iff_eq] at verified
      exact ⟨name, rfl, verified.2.1⟩

theorem verify_signature
    {message : Bytes} {name : String} (made : bench.signer message = some name) :
    cryptoVerify bench.platform (key name) message (signature name) = true := by
  simp [cryptoVerify, platform, made, key, signature]

theorem grant_verifies
    {tag : UInt8} {now : Int} {claims : GrantClaims} {trust : TrustStore}
    (listed : bench.claims[tag.toNat]? = some claims)
    (trusted : trust.authorityPublicKey authority = .ok (key authority))
    (valid : Grant.isExpired bench.platform now claims.expiry = false) :
    Grant.verify bench.platform now (grant tag) trust = .ok claims := by
  have made : bench.signer [tag, 0] = some authority := by
    simp [signer, decodeInner, decodeClaims, listed]
  exact Grant.verify_accepts rfl (by decide) trusted rfl rfl (verify_signature made)
    (by simp [platform, decodeClaims, listed]) valid

/-- An accepted message of the bench has the sender of its table entry. -/
theorem sender_of_accepted
    {tag : UInt8} {inner out : Inner} {identity : Identity} {cfg : Config}
    {trust : TrustStore} {delivery : Delivery}
    (accepted : Accepted bench.platform identity cfg trust delivery out)
    (payload : delivery.payload = [tag]) (listed : bench.inners[tag.toNat]? = some inner) :
    out.sender = inner.sender := by
  obtain ⟨found, carried, parsed, finalized, path⟩ := verifyIncoming_ok accepted.verified
  have sender : out.sender = carried.sender := by
    rw [finalized.same]
  have isWrapper : found = bench.wrapper tag inner := by
    rw [payload] at parsed
    simpa [platform, listed] using parsed.symm
  have message : found.msg = b64 [tag] := by
    rw [isWrapper, wrapper]
    split <;> rfl
  have parsedInner : bench.platform.innerJson.decode [tag] = some carried := by
    rcases path with ⟨innerBytes, publicKey, signed⟩ | ⟨_, _, peeked, _⟩
    · have bytes := signed.decoded
      rw [message, unb64_b64] at bytes
      cases bytes
      exact signed.parsed
    · simpa [Wrapper.peek, Wrapper.innerBytes, Wrapper.parseInner, message] using peeked
  have same : inner = carried := by
    simpa [platform, decodeInner, listed] using parsedInner
  rw [sender, same]

/-- A signed inner message of the table is accepted when its sender is trusted. -/
theorem accepted
    {tag : UInt8} {inner : Inner} {identity : Identity} {clock : Clock} {draw : Draw}
    {topic : String} {cfg : Config} {trust : TrustStore}
    (signed : bench.signed = true) (listed : bench.inners[tag.toNat]? = some inner)
    (name : '#' ∉ inner.sender.toList) (other : inner.sender ≠ identity.name)
    (trusted : trust.publicKey inner.sender = .ok (key inner.sender))
    (ctype : inner.ctype ≠ CTYPE_PAIR)
    (small : inner.body.utf8ByteSize ≤ cfg.maxPayload)
    (fresh : freshEnough bench.platform clock.freshness inner.ts cfg.freshnessSecs = true)
    (clear : inner.enc = none)
    (granted : ∀ sg, inner.grant = some sg →
      ∃ claims, Grant.verify bench.platform clock.grantCheck sg trust = .ok claims ∧
        claims.subject = inner.sender) :
    Accepted bench.platform identity cfg trust
      { topic, payload := [tag], clock, draw } inner := by
  have parsed : bench.platform.wrapperJson.decode [tag] = some (bench.wrapper tag inner) := by
    simp [platform, listed]
  have parsedInner : bench.platform.innerJson.decode [tag] = some inner := by
    simp [platform, decodeInner, listed]
  have kidSplits : splitKid (kid inner.sender) = some (inner.sender, _) :=
    splitKid_makeKid bench.platform (key inner.sender) name
  have claimed : (bench.wrapper tag inner).claimedSender = some inner.sender := by
    simp [wrapper, signed, Wrapper.claimedSender, kidSplits]
  have peeked : (bench.wrapper tag inner).peek bench.platform = .ok inner := by
    simp [Wrapper.peek, Wrapper.innerBytes, Wrapper.parseInner, wrapper, signed, parsedInner]
  constructor
  · simp [intercept, parsed, claimed, other, peeked, ctype]
  · have path : signedPath bench.platform (bench.wrapper tag inner) trust = .ok inner :=
      signedPath_accepts (by simp [wrapper, signed]; rfl) name trusted
        (by simp [wrapper, signed]) (by simp [wrapper, signed])
        (verify_signature (by simp [signer, decodeInner, listed])) parsedInner
    simp only [verifyDelivery, verifyIncoming, bind_eq_ok, mapErr_eq_ok, Wrapper.fromBytes,
      okOr_eq_ok]
    refine ⟨_, parsed, (), ?_, inner, ?_, finalize_accepts small fresh clear granted⟩
    · simp [versionGate, wrapper, signed, PROTOCOL_VERSION]
    · have alg : (bench.wrapper tag inner).alg = ALG_ML_DSA_65 := by
        simp [wrapper, signed]
      have notNone : ALG_ML_DSA_65 ≠ ALG_NONE := by decide
      rw [algorithmGate, alg, if_neg notNone, if_pos rfl]
      exact path

/-- A signed text message of the table is accepted when its sender is trusted. -/
theorem accepts_text
    {tag : UInt8} {now : Int} {receiptId recipient id sender ts body : String}
    (signed : bench.signed = true)
    (listed : bench.inners[tag.toNat]? = some (textTo recipient id sender ts body))
    (name : '#' ∉ sender.toList) (other : sender ≠ me.name)
    (trusted : bench.trust.publicKey sender = .ok (key sender))
    (small : body.utf8ByteSize ≤ bench.config.maxPayload)
    (fresh : freshEnough bench.platform now ts bench.config.freshnessSecs = true) :
    (arrival (delivery tag now receiptId)).Accepts bench.platform me
      (textTo recipient id sender ts body) := by
  have notPair : CTYPE_TEXT ≠ CTYPE_PAIR := by decide
  exact accepted signed listed name other trusted notPair small fresh rfl nofun

end Bench

end AgentMsg
