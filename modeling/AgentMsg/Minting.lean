import AgentMsg.AuthorityKeys
import AgentMsg.Serde
import AgentMsg.RoundTrip
import AgentMsg.TokenFormats
import AgentMsg.TrustEdits

/-!
# From the authority to the receiver

`grant` mints a grant with the key of the authority and prints it as a token.  An agent pastes the
token into a message, and a receiver that has added the token of the authority judges the message:
the grant authorizes its subject until it expires, and nobody else.
-/

namespace AgentMsg

open Checked

/-- What the authority signs verifies under its key. -/
def Authority.Signs (P : Platform) (authority : Authority) : Prop :=
  ∀ message, cryptoVerify P authority.publicKey message (authority.sign P message) = true

namespace Grant

/-- Sign the claims with the key of the authority. -/
def mint (P : Platform) (authority : Authority) (claims : GrantClaims) : SignedGrant :=
  let json := P.claimsJson.encode claims
  { alg := ALG_ML_DSA_65, authorityKid := authority.kid P, grant := b64 json,
    sig := b64 (authority.sign P json) }

end Grant

/-- What `grant` is asked for, with the id and the nonce that it draws. -/
structure GrantCommand where
  subject : String
  action : String
  scope : String
  expiry : String
  id : String
  nonce : String

def GrantCommand.claims (cmd : GrantCommand) : GrantClaims :=
  { id := cmd.id, action := cmd.action, scope := cmd.scope, subject := cmd.subject,
    expiry := cmd.expiry, nonce := cmd.nonce }

/-- `grant`: the token that is printed. -/
def grantCmd (P : Platform) (publicKeyOf : Bytes → Bytes) (syntaxError : String → String)
    (readable : Bool) (files : Directory UInt8) (cmd : GrantCommand) : Except Error String := do
  let authority ← Authority.load publicKeyOf syntaxError readable files
  return Grant.encodeToken P (Grant.mint P authority cmd.claims)

/-! ## What a receiver makes of a minted grant -/

section Verification

variable {P : Platform} {authority : Authority}

/-- Where the authority is known, a minted grant verifies until it expires. -/
theorem Grant.verify_mint
    (signs : authority.Signs P) (lawful : P.claimsJson.Lawful)
    (clear : '#' ∉ authority.name.toList) {trust : TrustStore}
    (known : trust.authorityPublicKey authority.name = .ok authority.publicKey)
    (now : Int) (claims : GrantClaims) :
    Grant.verify P now (Grant.mint P authority claims) trust =
      if isExpired P now claims.expiry = true then .error .grantExpired else .ok claims := by
  have split : splitKid (authority.kid P) =
      some (authority.name, fingerprint P authority.publicKey) :=
    splitKid_makeKid P authority.publicKey clear
  have verified := signs (P.claimsJson.encode claims)
  simp only [verify, mint, split, known, unb64_b64, verified, lawful claims, okOr, mapErr, ensure,
    bind, Except.bind, if_true]
  cases isExpired P now claims.expiry with
  | true =>
      rfl
  | false =>
      rfl

theorem checkGrant_mint
    (signs : authority.Signs P) (lawful : P.claimsJson.Lawful)
    (clear : '#' ∉ authority.name.toList) {trust : TrustStore}
    (known : trust.authorityPublicKey authority.name = .ok authority.publicKey)
    {now : Int} {claims : GrantClaims} {inner : Inner} {ri : RejectReason → RejectInfo}
    (carried : inner.grant = some (Grant.mint P authority claims)) :
    checkGrant P now trust inner ri =
      if Grant.isExpired P now claims.expiry = true then .error (ri .grantExpired)
      else if claims.subject = inner.sender then .ok ()
      else .error (ri .grantSubjectMismatch) := by
  rw [checkGrant, carried]
  dsimp only
  rw [Grant.verify_mint signs lawful clear known]
  cases Grant.isExpired P now claims.expiry with
  | true =>
      rfl
  | false =>
      rfl

end Verification

/-! ## What a receiver makes of a message -/

/-- How a receiver that accepts a message stands to its sender: it has the sender's key, or, for an
unsigned message, allows such messages and does not know the sender. -/
def Hears (sender : Identity) (unsigned : Bool) (trust : TrustStore) (allowUnsigned : Bool) :
    Prop :=
  if unsigned = true then allowUnsigned = true ∧ trust.contains sender.name = false
  else trust.publicKey sender.name = .ok sender.publicKey

section Messages

variable {P : Platform} {sender receiver : Identity} {draw : Draw} {opts : BuildOpts}
  {inner : Inner} {wrapper : Wrapper} {trust : TrustStore}

theorem sender_built (built : build P sender draw opts = .ok (inner, wrapper)) :
    inner.sender = sender.name := by
  rcases (build_ok built).2 with ⟨_, rfl⟩ | ⟨_, _, _, _, _, _, rfl⟩ <;> rfl

theorem grant_built (built : build P sender draw opts = .ok (inner, wrapper)) :
    inner.grant = opts.grant := by
  rcases (build_ok built).2 with ⟨_, rfl⟩ | ⟨_, _, _, _, _, _, rfl⟩ <;> rfl

/-- A receiver that stands so to the sender lets the message pass its gate. -/
theorem gate_accepts_built {allowUnsigned : Bool}
    (signs : sender.Signs P) (lawful : P.innerJson.Lawful) (clear : '#' ∉ sender.name.toList)
    (hears : Hears sender opts.unsigned trust allowUnsigned)
    (built : build P sender draw opts = .ok (inner, wrapper)) :
    algorithmGate P (wrapped P sender opts.unsigned (P.innerJson.encode inner)) trust
      allowUnsigned = .ok inner := by
  have sent := sender_built built
  unfold Hears at hears
  cases mode : opts.unsigned with
  | true =>
      rw [mode, if_pos rfl] at hears
      obtain ⟨rfl, absent⟩ := hears
      apply gate_accepts_unsigned lawful
      have missing : trust.agents[inner.sender]? = none := by
        apply Std.TreeMap.getElem?_eq_none_of_contains_eq_false
        rw [sent]
        exact absent
      rw [TrustStore.publicKey, missing]
      rfl
  | false =>
      rw [mode, if_neg Bool.false_ne_true] at hears
      exact gate_accepts_signed signs lawful clear sent hears allowUnsigned

/-- A message that is small, fresh and sealed to the receiver, if at all, is left to the check of
its grant. -/
theorem finalize_eq_checkGrant
    {clock : Clock} {freshnessSecs : Int} {maxPayload : Nat} {ri : RejectReason → RejectInfo}
    (decapsulates : receiver.Decapsulates P) (opens : P.OpensSealed)
    (nonce : draw.aeadNonce.length = 12)
    (addressed : ∀ ek, opts.encryptTo = some ek → ek = receiver.kemEk)
    (built : build P sender draw opts = .ok (inner, wrapper))
    (small : inner.body.utf8ByteSize ≤ maxPayload)
    (fresh : freshEnough P clock.freshness draw.ts freshnessSecs = true) :
    finalize P inner receiver trust clock freshnessSecs maxPayload ri =
      (checkGrant P clock.grantCheck trust { inner with body := opts.body, ctype := opts.ctype }
        ri).map fun _ => { inner with body := opts.body, ctype := opts.ctype } := by
  have settled : ∀ opened : Inner, decryptBody P receiver inner ri = .ok opened →
      freshEnough P clock.freshness inner.ts freshnessSecs = true →
      finalize P inner receiver trust clock freshnessSecs maxPayload ri =
        (checkGrant P clock.grantCheck trust opened ri).map fun _ => opened := by
    intro opened decrypted timely
    simp only [finalize, ensure, if_pos small, timely, decrypted, bind, Except.bind, if_true]
    cases checkGrant P clock.grantCheck trust opened ri with
    | error info =>
        rfl
    | ok done =>
        rfl
  obtain ⟨_, ⟨clear, rfl⟩ | ⟨ek, kemCt, ss, key, _, encapsulated, rfl⟩⟩ := build_ok built
  · exact settled _ rfl fresh
  · obtain rfl := addressed ek key
    exact settled _ (decryptBody_sealedDraft decapsulates opens nonce encapsulated) fresh

end Messages

/-! ## The whole way -/

/-- Add the authority of an encoded token to a trust store. -/
def TrustStore.importAuthority (P : Platform) (trust : TrustStore) (text : String) :
    Except Error TrustStore := do
  let token ← AuthorityToken.decode P text
  return trust.addAuthorityFromToken token

theorem authorityPublicKey_addAuthority (trust : TrustStore) (token : AuthorityToken) :
    (trust.addAuthorityFromToken token).authorityPublicKey token.name = .ok token.publicKey := by
  simp [TrustStore.authorityPublicKey, TrustStore.addAuthorityFromToken, okOr, bind, Except.bind,
    unb64_b64]

/-- The verdict on a message of a sender with a grant, in a receiver that knows the authority. -/
def grantVerdict (P : Platform) (now : Int) (sender : String) (claims : GrantClaims)
    (wrapper : Wrapper) (opened : Inner) : Except RejectInfo Inner :=
  if Grant.isExpired P now claims.expiry = true then .error (wrapper.rejectInfo .grantExpired)
  else if claims.subject = sender then .ok opened
  else .error (wrapper.rejectInfo .grantSubjectMismatch)

section WholeWay

variable {P : Platform} {publicKeyOf : Bytes → Bytes} {syntaxError : String → String}
  {readable : Bool} {files : Directory UInt8} {cmd : GrantCommand} {authority : Authority}
  {sender receiver : Identity} {lead tail : String}

/-- What `grant` prints, in a message of any sender, is judged by its subject and its expiry, at
every receiver that has added the authority. -/
theorem minted_grant_authorizes
    (loaded : Authority.load publicKeyOf syntaxError readable files = .ok authority)
    (authoritySigns : authority.Signs P) (authorityNamed : validateName authority.name = .ok ())
    (senderSigns : sender.Signs P) (senderNamed : validateName sender.name = .ok ())
    (decapsulates : receiver.Decapsulates P) (opens : P.OpensSealed)
    (wrapperJson : P.wrapperJson.Lawful) (innerJson : P.innerJson.Lawful)
    (claimsJson : P.claimsJson.Lawful) (grantJson : P.grantJson.Lawful)
    (authTokenJson : P.authTokenJson.Lawful) (leadBlank : Blank lead) (tailBlank : Blank tail)
    (trust : TrustStore) :
    ∃ token informed,
      grantCmd P publicKeyOf syntaxError readable files cmd = .ok token ∧
      trust.importAuthority P (lead ++ authority.token.encode P ++ tail) = .ok informed ∧
      ∀ (p : SendParams) (grant : Option SignedGrant) (encryptTo : Option Bytes) (draw : Draw)
        (inner : Inner) (wrapper : Wrapper) (clock : Clock) (freshnessSecs : Int)
        (maxPayload : Nat) (allowUnsigned acceptV1 : Bool),
        p.grant = some (lead ++ token ++ tail) → resolveGrant P p.grant = .ok grant →
        build P sender draw (sendOpts p grant encryptTo) = .ok (inner, wrapper) →
        draw.aeadNonce.length = 12 → (∀ ek, encryptTo = some ek → ek = receiver.kemEk) →
        Hears sender p.unsigned trust allowUnsigned →
        inner.body.utf8ByteSize ≤ maxPayload →
        freshEnough P clock.freshness draw.ts freshnessSecs = true →
        verifyIncoming P (P.wrapperJson.encode wrapper) receiver informed clock freshnessSecs
            maxPayload allowUnsigned acceptV1 =
          grantVerdict P clock.grantCheck sender.name cmd.claims wrapper
            { inner with body := p.body, ctype := p.ctype } := by
  obtain ⟨named, clear⟩ := validateName_ok authorityNamed
  have sized : authority.token.publicKey.length = PUBLIC_KEY_LEN := by
    have verified := authoritySigns []
    simp only [cryptoVerify, Bool.and_eq_true, decide_eq_true_eq] at verified
    exact verified.1.1
  have shared : trust.importAuthority P (lead ++ authority.token.encode P ++ tail) =
      .ok (trust.addAuthorityFromToken authority.token) := by
    rw [TrustStore.importAuthority,
      AuthorityToken.decode_surrounded authTokenJson named sized leadBlank tailBlank]
    rfl
  have printed : grantCmd P publicKeyOf syntaxError readable files cmd =
      .ok (Grant.encodeToken P (Grant.mint P authority cmd.claims)) := by
    rw [grantCmd, loaded]
    rfl
  refine ⟨_, _, printed, shared, ?_⟩
  intro p grant encryptTo draw inner wrapper clock freshnessSecs maxPayload allowUnsigned acceptV1
    pasted resolved built nonce addressed hears small fresh
  have carried : grant = some (Grant.mint P authority cmd.claims) := by
    rw [pasted, resolveGrant, Grant.decodeToken_surrounded grantJson leadBlank tailBlank]
      at resolved
    cases resolved
    rfl
  have known : (trust.addAuthorityFromToken authority.token).authorityPublicKey authority.name =
      .ok authority.publicKey :=
    authorityPublicKey_addAuthority trust authority.token
  have heard : Hears sender p.unsigned (trust.addAuthorityFromToken authority.token)
      allowUnsigned := hears
  have passes := gate_accepts_built senderSigns innerJson (validateName_ok senderNamed).2 heard
    built
  obtain ⟨shape, _⟩ := build_ok built
  rw [shape, verifyIncoming_wrapped wrapperJson passes,
    finalize_eq_checkGrant decapsulates opens nonce addressed built small fresh,
    checkGrant_mint authoritySigns claimsJson clear known
      (by rw [← carried]; exact grant_built built)]
  have sent : inner.sender = sender.name := sender_built built
  rw [grantVerdict, ← sent]
  by_cases expired : Grant.isExpired P clock.grantCheck cmd.claims.expiry = true
  · rw [if_pos expired, if_pos expired]
    rfl
  · rw [if_neg expired, if_neg expired]
    by_cases subject : cmd.claims.subject = inner.sender
    · rw [if_pos subject, if_pos subject]
      rfl
    · rw [if_neg subject, if_neg subject]
      rfl

end WholeWay

/-! ## A deployment that alice is allowed -/

open Reference (tokenPlatform)

/-- The file of an authority. -/
def mintFiles : Directory UInt8 :=
  Directory.put (fun _ => none) Authority.path (Authority.saved "ops" (List.replicate 32 8))

def mintCommand : GrantCommand :=
  { subject := "alice", action := "deploy", scope := "prod", expiry := Reference.newYear,
    id := "01KDVX0000000000000000000B", nonce := "01KDVX0000000000000000000C" }

/-- The key of a seed on the platform. -/
def mintKey (seed : Bytes) : Bytes :=
  List.replicate PUBLIC_KEY_LEN (seed.headD 0)

def mintAuthority : Authority :=
  { name := "ops", seed := List.replicate 32 8, publicKey := mintKey (List.replicate 32 8) }

/-- Alice's message with the grant. -/
def mintParams (token : String) : SendParams :=
  { recipient := BROADCAST, ctype := CTYPE_TEXT, body := "go", grant := token }

private theorem verify_tokenPlatform :
    cryptoVerify tokenPlatform = cryptoVerify (Reference.platform {}) :=
  rfl

theorem tokenPlatform_signs (name : String) (byte : UInt8) :
    (Reference.identity name byte).Signs tokenPlatform := by
  intro message
  rw [verify_tokenPlatform]
  exact Reference.signs {} name byte message

theorem mintAuthority_signs : mintAuthority.Signs tokenPlatform := by
  intro message
  have same : mintAuthority.sign tokenPlatform message =
      (Reference.identity "ops" 8).sign tokenPlatform message := rfl
  have key : mintAuthority.publicKey = (Reference.identity "ops" 8).publicKey := rfl
  rw [same, key]
  exact tokenPlatform_signs "ops" 8 message

theorem load_mintFiles :
    Authority.load mintKey (fun _ => "") true mintFiles = .ok mintAuthority := by
  have there : mintFiles Authority.path = some (Authority.saved "ops" (List.replicate 32 8)) := by
    rw [mintFiles, Directory.put_same]
  have key := @Authority.ofContent_saved mintKey (fun _ => "") "ops" (List.replicate 32 8)
    List.length_replicate
  rw [Authority.load, there]
  simp only [if_true]
  rw [key]
  rfl

theorem tokenPlatform_decapsulates : Reference.bob.Decapsulates tokenPlatform := by
  have encapsulate : tokenPlatform.kemEncapsulate = (Reference.platform {}).kemEncapsulate := rfl
  have decapsulate : tokenPlatform.kemDecapsulate = (Reference.platform {}).kemDecapsulate := rfl
  intro randomness kemCt ss encapsulated
  rw [encapsulate] at encapsulated
  rw [decapsulate]
  exact Reference.decapsulates {} "bob" 2 encapsulated

theorem tokenPlatform_opensSealed : tokenPlatform.OpensSealed := by
  have opens : tokenPlatform.aeadOpen = (Reference.platform {}).aeadOpen := rfl
  have seals : tokenPlatform.aeadSeal = (Reference.platform {}).aeadSeal := rfl
  unfold Platform.OpensSealed
  rw [opens, seals]
  exact Reference.opensSealed {}

private theorem build_mintParams (token : String) (grant : SignedGrant) :
    ∃ inner wrapper,
      build tokenPlatform Reference.alice Reference.draw
          (sendOpts (mintParams token) (some grant) none) = .ok (inner, wrapper) ∧
        inner.body = "go" :=
  ⟨_, _, build_plain rfl, rfl⟩

private theorem verdict_mintCommand (wrapper : Wrapper) (opened : Inner) :
    grantVerdict tokenPlatform Reference.clock.grantCheck Reference.alice.name mintCommand.claims
      wrapper opened = .ok opened := by
  have valid : ¬ Grant.isExpired tokenPlatform Reference.clock.grantCheck
      mintCommand.claims.expiry = true := by
    decide
  rw [grantVerdict, if_neg valid]
  exact if_pos rfl

/-- Alice's message with the grant passes at bob's. -/
theorem minted_grant_authorizes_alice :
    ∃ token informed inner wrapper,
      grantCmd tokenPlatform mintKey (fun _ => "") true mintFiles mintCommand = .ok token ∧
      TrustStore.importAuthority tokenPlatform (TrustStore.addFromToken {} Reference.alice.token)
        ("" ++ mintAuthority.token.encode tokenPlatform ++ "") = .ok informed ∧
      build tokenPlatform Reference.alice Reference.draw
        (sendOpts (mintParams ("" ++ token ++ ""))
          (some (Grant.mint tokenPlatform mintAuthority mintCommand.claims)) none) =
        .ok (inner, wrapper) ∧
      verifyIncoming tokenPlatform (tokenPlatform.wrapperJson.encode wrapper) Reference.bob informed
          Reference.clock 300 262144 false true =
        .ok { inner with body := "go", ctype := CTYPE_TEXT } := by
  obtain ⟨token, informed, printed, added, verdict⟩ :=
    @minted_grant_authorizes tokenPlatform mintKey (fun _ => "") true mintFiles mintCommand
      mintAuthority Reference.alice Reference.bob "" "" load_mintFiles mintAuthority_signs
      (by decide) (tokenPlatform_signs "alice" 1) (by decide) tokenPlatform_decapsulates
      tokenPlatform_opensSealed (Reference.wrapperJson_lawful {}) (Reference.innerJson_lawful {})
      (Reference.claimsJson_lawful {}) (Reference.grantJson_lawful {})
      (Reference.authTokenJson_lawful {}) blank_empty blank_empty
      (TrustStore.addFromToken {} Reference.alice.token)
  obtain ⟨inner, wrapper, built, body⟩ := build_mintParams ("" ++ token ++ "")
    (Grant.mint tokenPlatform mintAuthority mintCommand.claims)
  have minted : token = Grant.encodeToken tokenPlatform
      (Grant.mint tokenPlatform mintAuthority mintCommand.claims) := by
    rw [grantCmd, load_mintFiles] at printed
    exact (Except.ok.inj printed).symm
  have resolved : resolveGrant tokenPlatform (mintParams ("" ++ token ++ "")).grant =
      .ok (some (Grant.mint tokenPlatform mintAuthority mintCommand.claims)) := by
    have decoded := @Grant.decodeToken_surrounded tokenPlatform "" ""
      (Grant.mint tokenPlatform mintAuthority mintCommand.claims)
      (Reference.grantJson_lawful {}) blank_empty blank_empty
    rw [mintParams, resolveGrant, minted, decoded]
    rfl
  have hears : Hears Reference.alice false (TrustStore.addFromToken {} Reference.alice.token)
      false := by
    rw [Hears, if_neg Bool.false_ne_true, TrustStore.publicKey_eq_ok_iff, TrustStore.addFromToken,
      TrustStore.currentKey_addWithKem]
    exact if_pos rfl
  have small : inner.body.utf8ByteSize ≤ 262144 := by
    rw [body]
    decide
  have accepted := verdict (mintParams ("" ++ token ++ "")) _ none Reference.draw inner wrapper
    Reference.clock 300 262144 false true rfl resolved built rfl (fun _ sealed => by cases sealed)
    hears small (Reference.fresh_newYear {})
  rw [verdict_mintCommand] at accepted
  exact ⟨token, informed, inner, wrapper, printed, added, built, accepted⟩

end AgentMsg
