import AgentMsg.Trust

/-!
# Building and verifying messages

Outbound messages are built, signed and optionally encrypted; inbound payloads
pass the version gate, the algorithm gate, signature verification, the size and
freshness checks, decryption and grant verification.  Every reading of the clock
and every random draw is an argument.
-/

namespace AgentMsg

open Checked

/-! ## Wrapper access -/

namespace Wrapper

/-- Parse a wrapper received from the stream. -/
def fromBytes (P : Platform) (raw : Bytes) : Except RejectReason Wrapper :=
  okOr (P.wrapperJson.decode raw) .malformedWrapper

/-- Decode the exact inner-message bytes that were signed. -/
def innerBytes (wrapper : Wrapper) : Except RejectReason Bytes :=
  okOr (unb64 wrapper.msg) .malformedWrapper

/-- Decode the signature bytes, if the wrapper carries a signature. -/
def sigBytes (wrapper : Wrapper) : Except RejectReason Bytes := do
  let sig ← okOr wrapper.sig .malformedWrapper
  okOr (unb64 sig) .malformedWrapper

/-- Parse the inner message from decoded inner bytes. -/
def parseInner (P : Platform) (bytes : Bytes) : Except RejectReason Inner :=
  okOr (P.innerJson.decode bytes) .malformedWrapper

/-- The sender named by the key id. -/
def claimedSender (wrapper : Wrapper) : Option String :=
  (wrapper.kid.bind splitKid).map Prod.fst

/-- The inner message, before any verification. -/
def peek (P : Platform) (wrapper : Wrapper) : Except RejectReason Inner := do
  let bytes ← wrapper.innerBytes
  parseInner P bytes

end Wrapper

/-- Does the message target everyone? -/
def Inner.isBroadcast (inner : Inner) : Bool :=
  inner.recipient == BROADCAST

/-! ## Grants -/

namespace Grant

/-- Is the expiry in the past, or unparseable? -/
def isExpired (P : Platform) (now : Int) (expiry : String) : Bool :=
  match P.parseRfc3339 expiry with
  | some instant => decide (now > instant)
  | none => true

/-- Verify a signed grant against the known authorities at time `now`. -/
def verify (P : Platform) (now : Int) (sg : SignedGrant) (authorities : TrustStore) :
    Except RejectReason GrantClaims := do
  let (name, fp) ← okOr (splitKid sg.authorityKid) .invalidGrant
  let publicKey ← mapErr (fun _ => .unknownAuthority) (authorities.authorityPublicKey name)
  ensure (fp = fingerprint P publicKey) .unknownAuthority
  let grantBytes ← okOr (unb64 sg.grant) .invalidGrant
  let sigBytes ← okOr (unb64 sg.sig) .invalidGrant
  ensure (cryptoVerify P publicKey grantBytes sigBytes = true) .invalidGrant
  let claims ← okOr (P.claimsJson.decode grantBytes) .invalidGrant
  ensure (isExpired P now claims.expiry = false) .grantExpired
  return claims

/-- The claims a signed grant carries, whether or not they verify. -/
def claims (P : Platform) (sg : SignedGrant) : Option GrantClaims :=
  (unb64 sg.grant).bind P.claimsJson.decode

end Grant

/-! ## Building -/

/-- Options describing the message to build. -/
structure BuildOpts where
  recipient : String
  ctype : String
  body : String
  kind : MsgKind := .message
  inReplyTo : Option String := none
  correlationId : Option String := none
  supersedes : Option String := none
  grant : Option SignedGrant := none
  receipt : Option Receipt := none
  encryptTo : Option Bytes := none
  unsigned : Bool := false

/-- What a build draws from the clock and from the random generators. -/
structure Draw where
  id : String
  ts : String
  nonce : Bytes
  kemRandomness : Bytes
  aeadNonce : Bytes
  deriving DecidableEq, Repr

/-- Associated data that binds a ciphertext to its envelope. -/
def aad (inner : Inner) : String :=
  inner.id ++ "|" ++ inner.sender ++ "|" ++ inner.recipient ++ "|" ++ inner.ts

/-- Seal the body of a built message to the recipient's encapsulation key. -/
def sealBody (P : Platform) (draw : Draw) (opts : BuildOpts) (inner : Inner) :
    Except RejectReason Inner :=
  match opts.encryptTo with
  | none => .ok inner
  | some ek => do
      let (kemCt, ss) ← okOr (P.kemEncapsulate ek draw.kemRandomness) .unknownRecipientKey
      let ct := P.aeadSeal ss draw.aeadNonce (asBytes (aad inner)) (asBytes opts.body)
      return { inner with
        enc := some
          { alg := ALG_KEM_AEAD, kemCt := b64 kemCt, recipientKid := fingerprint P ek,
            nonce := b64 draw.aeadNonce, ptype := opts.ctype }
        ctype := ALG_KEM_AEAD
        body := b64 ct }

/-- Build an outbound message from the local identity. -/
def build (P : Platform) (identity : Identity) (draw : Draw) (opts : BuildOpts) :
    Except RejectReason (Inner × Wrapper) := do
  ensure (¬ (opts.encryptTo.isSome = true ∧ opts.recipient = BROADCAST))
    .encBroadcastUnsupported
  let inner ← sealBody P draw opts
    { id := draw.id, v := PROTOCOL_VERSION, sender := identity.name,
      recipient := opts.recipient, ts := draw.ts, nonce := b64 draw.nonce,
      ctype := opts.ctype, inReplyTo := opts.inReplyTo, body := opts.body,
      kind := opts.kind, correlationId := opts.correlationId,
      supersedes := opts.supersedes, grant := opts.grant, receipt := opts.receipt }
  let innerBytes := P.innerJson.encode inner
  if opts.unsigned then
    return (inner, { v := PROTOCOL_VERSION, alg := ALG_NONE, msg := b64 innerBytes })
  else
    return (inner,
      { v := PROTOCOL_VERSION, alg := ALG_ML_DSA_65,
        kid := some (makeKid P identity.name identity.publicKey), msg := b64 innerBytes,
        sig := some (b64 (identity.sign P innerBytes)) })

/-- Build a self-signed pairing hello. -/
def buildPair (P : Platform) (identity : Identity) (draw : Draw) :
    Except RejectReason (Inner × Wrapper) :=
  build P identity draw
    { recipient := BROADCAST, ctype := CTYPE_PAIR
      body := P.pairBodyJson.encode
        { name := identity.name, pk := b64 identity.publicKey,
          kemPk := some (b64 identity.kemEk) } }

/-! ## Pairing hellos -/

/-- A verified pairing hello. -/
structure PairHello where
  name : String
  publicKey : Bytes
  kemPublicKey : Option Bytes
  deriving DecidableEq, Repr

/-- Decode an optional encapsulation key. -/
def decodeKemPk (kemPk : Option String) : Except RejectReason (Option Bytes) :=
  match kemPk with
  | some k => do
      let key ← okOr (unb64 k) .malformedWrapper
      return some key
  | none => return none

/-- Verify a self-signed pairing hello. -/
def verifyPair (P : Platform) (raw : Bytes) : Except RejectReason PairHello := do
  let wrapper ← Wrapper.fromBytes P raw
  ensure (wrapper.alg = ALG_ML_DSA_65) .pairSelfSigInvalid
  let innerBytes ← wrapper.innerBytes
  let inner ← Wrapper.parseInner P innerBytes
  ensure (inner.ctype = CTYPE_PAIR) .malformedWrapper
  let body ← okOr (P.pairBodyJson.decode inner.body) .malformedWrapper
  let publicKey ← okOr (unb64 body.pk) .malformedWrapper
  let sigBytes ← wrapper.sigBytes
  ensure (cryptoVerify P publicKey innerBytes sigBytes = true) .pairSelfSigInvalid
  let kid ← okOr wrapper.kid .malformedWrapper
  let (kidName, kidFp) ← okOr (splitKid kid) .malformedWrapper
  ensure (kidFp = fingerprint P publicKey) .pairSelfSigInvalid
  ensure (kidName = body.name ∧ inner.sender = body.name) .malformedWrapper
  let kemPublicKey ← decodeKemPk body.kemPk
  return { name := body.name, publicKey, kemPublicKey }

/-! ## Verifying inbound payloads -/

/-- Is the timestamp within `freshnessSecs` of `now`? -/
def freshEnough (P : Platform) (now : Int) (ts : String) (freshnessSecs : Int) : Bool :=
  if freshnessSecs ≤ 0 then true
  else
    match P.parseRfc3339 ts with
    | some instant => decide ((((now - instant).tdiv 1000000000).natAbs : Int) ≤ freshnessSecs)
    | none => false

/-- Attach the sender claimed by the key id to a reason. -/
def Wrapper.rejectInfo (wrapper : Wrapper) (reason : RejectReason) : RejectInfo :=
  { reason, claimedSender := wrapper.claimedSender }

def versionGate (wrapper : Wrapper) (acceptV1 : Bool) : Except RejectInfo Unit :=
  if wrapper.v = 1 then
    ensure (acceptV1 = true) (wrapper.rejectInfo (.unsupportedVersion 1))
  else
    ensure (wrapper.v = PROTOCOL_VERSION) (wrapper.rejectInfo (.unsupportedVersion wrapper.v))

/-- The path of an unsigned wrapper, with downgrade protection. -/
def unsignedPath (P : Platform) (wrapper : Wrapper) (trust : TrustStore)
    (allowUnsigned : Bool) : Except RejectInfo Inner := do
  ensure (allowUnsigned = true) (wrapper.rejectInfo .unsignedNotAllowed)
  let innerBytes ← mapErr wrapper.rejectInfo wrapper.innerBytes
  let inner ← mapErr wrapper.rejectInfo (Wrapper.parseInner P innerBytes)
  ensure ((trust.publicKey inner.sender).isOk = false) (wrapper.rejectInfo .downgradeRejected)
  return inner

/-- The path of a signed wrapper. -/
def signedPath (P : Platform) (wrapper : Wrapper) (trust : TrustStore) :
    Except RejectInfo Inner := do
  let kid ← okOr wrapper.kid (wrapper.rejectInfo .malformedWrapper)
  let (kidName, kidFp) ← okOr (splitKid kid) (wrapper.rejectInfo .malformedWrapper)
  let publicKey ← mapErr (fun _ => wrapper.rejectInfo .unknownSigner) (trust.publicKey kidName)
  ensure (kidFp = fingerprint P publicKey) (wrapper.rejectInfo .kidMismatch)
  let innerBytes ← mapErr wrapper.rejectInfo wrapper.innerBytes
  let sigBytes ← mapErr wrapper.rejectInfo wrapper.sigBytes
  ensure (cryptoVerify P publicKey innerBytes sigBytes = true)
    (wrapper.rejectInfo .invalidSignature)
  let inner ← mapErr wrapper.rejectInfo (Wrapper.parseInner P innerBytes)
  ensure (inner.sender = kidName) (wrapper.rejectInfo .kidMismatch)
  return inner

/-- Replace an encrypted body by its plaintext and restore its content type. -/
def decryptBody (P : Platform) (me : Identity) (inner : Inner)
    (ri : RejectReason → RejectInfo) : Except RejectInfo Inner :=
  match inner.enc with
  | none => .ok inner
  | some enc => do
      ensure (enc.recipientKid = me.kemFingerprint P) (ri .unknownRecipientKey)
      let kemCt ← okOr (unb64 enc.kemCt) (ri .decryptFailed)
      let ss ← okOr (P.kemDecapsulate me.kemDk kemCt) (ri .decryptFailed)
      let nonce ← okOr (unb64 enc.nonce) (ri .decryptFailed)
      ensure (nonce.length = 12) (ri .decryptFailed)
      let ct ← okOr (unb64 inner.body) (ri .decryptFailed)
      let pt ← okOr (P.aeadOpen ss nonce (asBytes (aad inner)) ct) (ri .decryptFailed)
      let body ← okOr (fromUtf8 pt) (ri .decryptFailed)
      return { inner with body, ctype := enc.ptype }

/-- Check the grant a message carries, if any, and its subject. -/
def checkGrant (P : Platform) (now : Int) (trust : TrustStore) (inner : Inner)
    (ri : RejectReason → RejectInfo) : Except RejectInfo Unit :=
  match inner.grant with
  | none => .ok ()
  | some sg => do
      let claims ← mapErr ri (Grant.verify P now sg trust)
      ensure (claims.subject = inner.sender) (ri .grantSubjectMismatch)

/-- The successive clock readings of one ingest: the freshness check, the grant
check of the pipeline, and the grant check of the replay guard. -/
structure Clock where
  freshness : Int
  grantCheck : Int
  guardCheck : Int
  deriving DecidableEq, Repr

/-- Size, freshness, decryption and grant checks after verification. -/
def finalize (P : Platform) (inner : Inner) (me : Identity) (trust : TrustStore)
    (clock : Clock) (freshnessSecs : Int) (maxPayload : Nat)
    (ri : RejectReason → RejectInfo) : Except RejectInfo Inner := do
  ensure (inner.body.utf8ByteSize ≤ maxPayload) (ri .tooLarge)
  ensure (freshEnough P clock.freshness inner.ts freshnessSecs = true) (ri .stale)
  let opened ← decryptBody P me inner ri
  checkGrant P clock.grantCheck trust opened ri
  return opened

/-- The algorithm gate: unsigned wrappers, signed wrappers, and nothing else. -/
def algorithmGate (P : Platform) (wrapper : Wrapper) (trust : TrustStore)
    (allowUnsigned : Bool) : Except RejectInfo Inner :=
  if wrapper.alg = ALG_NONE then unsignedPath P wrapper trust allowUnsigned
  else if wrapper.alg = ALG_ML_DSA_65 then signedPath P wrapper trust
  else .error (wrapper.rejectInfo (.unsupportedAlg wrapper.alg))

/-- Verify a payload received on the wire. -/
def verifyIncoming (P : Platform) (raw : Bytes) (me : Identity) (trust : TrustStore)
    (clock : Clock) (cfgFreshness : Int) (maxPayload : Nat)
    (allowUnsigned acceptV1 : Bool) : Except RejectInfo Inner := do
  let wrapper ← mapErr (fun reason => { reason }) (Wrapper.fromBytes P raw)
  versionGate wrapper acceptV1
  let inner ← algorithmGate P wrapper trust allowUnsigned
  finalize P inner me trust clock cfgFreshness maxPayload wrapper.rejectInfo

/-! ## What an accepted payload has passed -/

namespace Grant

/-- A grant that verifies carries the claims it verifies to, and they have not
expired. -/
theorem verify_ok
    {P : Platform} {now : Int} {sg : SignedGrant} {trust : TrustStore}
    {found : GrantClaims} (verified : verify P now sg trust = .ok found) :
    claims P sg = some found ∧ isExpired P now found.expiry = false := by
  simp only [verify, bind_eq_ok, okOr_eq_ok, mapErr_eq_ok, ensure_eq_ok, pure_eq_ok]
    at verified
  obtain ⟨_, _, _, _, _, _, bytes, decoded, _, _, _, _, parsed, parse, _, valid, rfl⟩ :=
    verified
  exact ⟨by rw [claims, decoded]; exact parse, valid⟩

/-- Verification depends on the clock through the expiry alone. -/
theorem verify_ok_of_not_expired
    {P : Platform} {now later : Int} {sg : SignedGrant} {trust : TrustStore}
    {found : GrantClaims} (verified : verify P now sg trust = .ok found)
    (valid : isExpired P later found.expiry = false) :
    verify P later sg trust = .ok found := by
  simp only [verify, bind_eq_ok, okOr_eq_ok, mapErr_eq_ok, ensure_eq_ok, pure_eq_ok]
    at verified ⊢
  obtain ⟨kid, split, pk, resolved, _, fp, bytes, decoded, sig, sigDecoded, _, signed,
    parsed, parse, _, _, rfl⟩ := verified
  exact ⟨kid, split, pk, resolved, (), fp, bytes, decoded, sig, sigDecoded, (), signed,
    parsed, parse, (), valid, rfl⟩

end Grant

/-- A freshness window is open on both sides of the timestamp. -/
theorem freshEnough_iff
    {P : Platform} {now freshnessSecs : Int} {ts : String} (positive : 0 < freshnessSecs) :
    freshEnough P now ts freshnessSecs = true ↔
      ∃ instant, P.parseRfc3339 ts = some instant ∧
        now - instant < (freshnessSecs + 1) * 1000000000 ∧
        instant - now < (freshnessSecs + 1) * 1000000000 := by
  rw [freshEnough, if_neg (by omega)]
  cases parsed : P.parseRfc3339 ts with
  | none =>
      simp
  | some instant =>
      have seconds :
          ((now - instant).tdiv 1000000000).natAbs = (now - instant).natAbs / 1000000000 :=
        Int.natAbs_tdiv _ _
      simp only [decide_eq_true_eq, seconds, Option.some.injEq, exists_eq_left']
      omega

theorem decryptBody_ok
    {P : Platform} {me : Identity} {inner opened : Inner} {ri : RejectReason → RejectInfo}
    (decrypted : decryptBody P me inner ri = .ok opened) :
    opened = { inner with body := opened.body, ctype := opened.ctype } ∧
      (inner.enc = none → opened = inner) := by
  unfold decryptBody at decrypted
  split at decrypted
  · simp only [Except.ok.injEq] at decrypted
    subst decrypted
    exact ⟨rfl, fun _ => rfl⟩
  · simp only [bind_eq_ok, okOr_eq_ok, ensure_eq_ok, pure_eq_ok] at decrypted
    obtain ⟨_, _, _, _, _, _, _, _, _, _, _, _, _, _, _, _, rfl⟩ := decrypted
    exact ⟨by simp, by simp_all⟩

theorem checkGrant_ok
    {P : Platform} {now : Int} {trust : TrustStore} {inner : Inner}
    {ri : RejectReason → RejectInfo} {done : Unit}
    (checked : checkGrant P now trust inner ri = .ok done) :
    ∀ sg, inner.grant = some sg →
      ∃ claims, Grant.verify P now sg trust = .ok claims ∧
        claims.subject = inner.sender := by
  intro sg carried
  simp only [checkGrant, carried, bind_eq_ok, mapErr_eq_ok, ensure_eq_ok] at checked
  exact checked

/-- What the checks after verification leave of a message: only an encrypted body
and its content type change. -/
structure Finalized (P : Platform) (trust : TrustStore) (clock : Clock)
    (freshnessSecs : Int) (inner out : Inner) : Prop where
  same : out = { inner with body := out.body, ctype := out.ctype }
  clear : inner.enc = none → out = inner
  fresh : freshEnough P clock.freshness inner.ts freshnessSecs = true
  granted : ∀ sg, out.grant = some sg →
    ∃ claims, Grant.verify P clock.grantCheck sg trust = .ok claims ∧
      claims.subject = out.sender

theorem finalize_ok
    {P : Platform} {inner out : Inner} {me : Identity} {trust : TrustStore}
    {clock : Clock} {freshnessSecs : Int} {maxPayload : Nat}
    {ri : RejectReason → RejectInfo}
    (accepted :
      finalize P inner me trust clock freshnessSecs maxPayload ri = .ok out) :
    Finalized P trust clock freshnessSecs inner out := by
  simp only [finalize, bind_eq_ok, ensure_eq_ok, pure_eq_ok] at accepted
  obtain ⟨_, _, _, fresh, opened, decrypted, _, checked, rfl⟩ := accepted
  obtain ⟨same, clear⟩ := decryptBody_ok decrypted
  exact ⟨same, clear, fresh, checkGrant_ok checked⟩

/-- The signed inner bytes of a wrapper, and the key they verify under. -/
structure SignedBy (P : Platform) (trust : TrustStore) (wrapper : Wrapper)
    (innerBytes : Bytes) (inner : Inner) (publicKey : Bytes) : Prop where
  alg : wrapper.alg = ALG_ML_DSA_65
  kid : wrapper.claimedSender = some inner.sender
  decoded : unb64 wrapper.msg = some innerBytes
  parsed : P.innerJson.decode innerBytes = some inner
  trusted : trust.publicKey inner.sender = .ok publicKey
  verified : ∃ sig, cryptoVerify P publicKey innerBytes sig = true

theorem signedPath_ok
    {P : Platform} {wrapper : Wrapper} {trust : TrustStore} {inner : Inner}
    (alg : wrapper.alg = ALG_ML_DSA_65)
    (accepted : signedPath P wrapper trust = .ok inner) :
    ∃ innerBytes publicKey, SignedBy P trust wrapper innerBytes inner publicKey := by
  simp only [signedPath, bind_eq_ok, okOr_eq_ok, mapErr_eq_ok, ensure_eq_ok, pure_eq_ok,
    Wrapper.innerBytes, Wrapper.parseInner] at accepted
  obtain ⟨kid, carried, ⟨name, fp⟩, split, pk, trusted, _, _, bytes, decoded, sig, _, _,
    verified, parsed, parse, _, sender, rfl⟩ := accepted
  refine ⟨bytes, pk, alg, ?_, decoded, parse, ?_, sig, verified⟩
  · simp [Wrapper.claimedSender, carried, split, sender]
  · rw [sender]
    exact trusted

theorem unsignedPath_ok
    {P : Platform} {wrapper : Wrapper} {trust : TrustStore} {allowUnsigned : Bool}
    {inner : Inner} (accepted : unsignedPath P wrapper trust allowUnsigned = .ok inner) :
    allowUnsigned = true ∧ wrapper.peek P = .ok inner ∧
      (trust.publicKey inner.sender).isOk = false := by
  simp only [unsignedPath, bind_eq_ok, mapErr_eq_ok, ensure_eq_ok, pure_eq_ok] at accepted
  obtain ⟨_, allowed, bytes, decoded, parsed, parse, _, unknown, rfl⟩ := accepted
  refine ⟨allowed, ?_, unknown⟩
  simp only [Wrapper.peek, bind_eq_ok]
  exact ⟨bytes, decoded, parse⟩

/-- Every accepted payload is a wrapper that took the signed or the unsigned path,
followed by the common checks. -/
theorem verifyIncoming_ok
    {P : Platform} {raw : Bytes} {me : Identity} {trust : TrustStore} {clock : Clock}
    {freshness : Int} {maxPayload : Nat} {allowUnsigned acceptV1 : Bool} {out : Inner}
    (accepted :
      verifyIncoming P raw me trust clock freshness maxPayload allowUnsigned acceptV1 =
        .ok out) :
    ∃ wrapper inner, P.wrapperJson.decode raw = some wrapper ∧
      Finalized P trust clock freshness inner out ∧
      ((∃ innerBytes publicKey, SignedBy P trust wrapper innerBytes inner publicKey) ∨
        (wrapper.alg = ALG_NONE ∧ allowUnsigned = true ∧ wrapper.peek P = .ok inner ∧
          (trust.publicKey inner.sender).isOk = false)) := by
  simp only [verifyIncoming, bind_eq_ok, mapErr_eq_ok, Wrapper.fromBytes, okOr_eq_ok]
    at accepted
  obtain ⟨wrapper, parsed, _, _, inner, path, rest⟩ := accepted
  refine ⟨wrapper, inner, parsed, finalize_ok rest, ?_⟩
  unfold algorithmGate at path
  by_cases unsigned : wrapper.alg = ALG_NONE
  · rw [if_pos unsigned] at path
    exact Or.inr ⟨unsigned, unsignedPath_ok path⟩
  · rw [if_neg unsigned] at path
    by_cases signed : wrapper.alg = ALG_ML_DSA_65
    · rw [if_pos signed] at path
      exact Or.inl (signedPath_ok signed path)
    · rw [if_neg signed] at path
      cases path

end AgentMsg
