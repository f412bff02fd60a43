import AgentMsg.Serde

/-!
# What the libraries promise

The properties of the cryptographic libraries that agentmsg relies on, and a platform
that has them.  Its documents are written as JSON; its cryptography has the sizes of
the real one and hides nothing.
-/

namespace AgentMsg

/-! ## Promises -/

/-- What the identity signs verifies under its key. -/
def Identity.Signs (P : Platform) (identity : Identity) : Prop :=
  ∀ message, cryptoVerify P identity.publicKey message (identity.sign P message) = true

/-- The identity recovers the secrets that are encapsulated to its key. -/
def Identity.Decapsulates (P : Platform) (identity : Identity) : Prop :=
  ∀ {randomness kemCt ss}, P.kemEncapsulate identity.kemEk randomness = some (kemCt, ss) →
    P.kemDecapsulate identity.kemDk kemCt = some ss

/-- Opening undoes sealing. -/
def Platform.OpensSealed (P : Platform) : Prop :=
  ∀ key nonce data text, P.aeadOpen key nonce data (P.aeadSeal key nonce data text) = some text

/-- Sealing appends a tag of 16 bytes. -/
def Platform.AppendsTag (P : Platform) : Prop :=
  ∀ key nonce data text, (P.aeadSeal key nonce data text).length = text.length + 16

theorem Identity.Signs.length_publicKey
    {P : Platform} {identity : Identity} (signs : identity.Signs P) :
    identity.publicKey.length = PUBLIC_KEY_LEN := by
  have verified := signs []
  simp only [cryptoVerify, Bool.and_eq_true, decide_eq_true_eq] at verified
  exact verified.1.1

namespace Reference

/-! ## The platform -/

/-- A byte computed from all bytes of a text. -/
def digest (bytes : Bytes) : UInt8 :=
  bytes.foldl (fun sum byte => sum * 31 + byte) 7

def signature (publicKey message : Bytes) : Bytes :=
  List.replicate SIGNATURE_LEN (publicKey.headD 0 + digest message)

def tag (key nonce data text : Bytes) : Bytes :=
  List.replicate 16 (digest (key ++ nonce ++ data ++ text))

/-- The instant that the platform's clock format knows. -/
def newYear : String := "2026-01-01T00:00:00Z"

def KEM_PK_LEN : Nat := 1184

def KEM_CT_LEN : Nat := 1088

def platform (config : Config) : Platform where
  mlDsaVerify publicKey message sig := sig == signature publicKey message
  mlDsaSign seed message := signature seed message
  sha256 bytes := List.replicate 32 (digest bytes)
  kemEncapsulate ek randomness :=
    if ek.length = KEM_PK_LEN then
      some (List.replicate KEM_CT_LEN (digest randomness),
        List.replicate 32 (digest randomness + ek.headD 0))
    else none
  kemDecapsulate dk kemCt :=
    if kemCt.length = KEM_CT_LEN then some (List.replicate 32 (kemCt.headD 0 + dk.headD 0))
    else none
  aeadSeal key nonce data text := text ++ tag key nonce data text
  aeadOpen key nonce data sealed :=
    let text := sealed.take (sealed.length - 16)
    if sealed = text ++ tag key nonce data text then some text else none
  crc32 bytes := (digest bytes).toUInt32
  parseRfc3339 text := if text = newYear then some 1767225600000000000 else none
  wrapperJson := documentBytes Wrapper.shape
  innerJson := documentBytes Inner.shape
  claimsJson := documentBytes GrantClaims.shape
  grantJson := documentBytes SignedGrant.shape
  pairBodyJson := documentText PairBody.shape
  presenceJson := documentText PresenceBeacon.shape
  tokenV1Json := documentBytes TokenBodyV1.shape
  tokenV2Json := documentBytes TokenBodyV2.shape
  authTokenJson := documentBytes AuthTokenBody.shape
  trustJson := TrustStore.codec
  configToml := { encode := fun _ => "config", decode := fun _ => some config }

/-- An identity of the platform, with keys made from a byte. -/
def identity (name : String) (byte : UInt8) : Identity :=
  { name, seed := List.replicate 32 byte, publicKey := List.replicate PUBLIC_KEY_LEN byte,
    kemDk := List.replicate 2400 byte, kemEk := List.replicate KEM_PK_LEN byte }

def alice : Identity := identity "alice" 1

def bob : Identity := identity "bob" 2

def mallory : Identity := identity "mallory" 3

/-- What is drawn for a message that is built at the start of the year. -/
def draw : Draw :=
  { id := "01KDVX0000000000000000000A", ts := newYear, nonce := List.replicate 16 9,
    kemRandomness := List.replicate 32 5, aeadNonce := List.replicate 12 3 }

/-- All clocks at the start of the year. -/
def clock : Clock := ⟨1767225600000000000, 1767225600000000000, 1767225600000000000⟩

/-! ## It keeps the promises -/

variable (config : Config)

theorem wrapperJson_lawful : (platform config).wrapperJson.Lawful :=
  documentBytes_lawful Wrapper.fits

theorem innerJson_lawful : (platform config).innerJson.Lawful :=
  documentBytes_lawful Inner.fits

theorem claimsJson_lawful : (platform config).claimsJson.Lawful :=
  documentBytes_lawful GrantClaims.fits

theorem grantJson_lawful : (platform config).grantJson.Lawful :=
  documentBytes_lawful SignedGrant.fits

theorem pairBodyJson_lawful : (platform config).pairBodyJson.Lawful :=
  documentText_lawful PairBody.fits

theorem tokenV2Json_lawful : (platform config).tokenV2Json.Lawful :=
  documentBytes_lawful TokenBodyV2.fits

theorem authTokenJson_lawful : (platform config).authTokenJson.Lawful :=
  documentBytes_lawful AuthTokenBody.fits

theorem signs (name : String) (byte : UInt8) :
    (identity name byte).Signs (platform config) := by
  intro message
  have seed : (List.replicate 32 byte).headD 0 = byte := rfl
  have key : (List.replicate PUBLIC_KEY_LEN byte).headD 0 = byte := rfl
  have sized : ∀ publicKey, (signature publicKey message).length = SIGNATURE_LEN := by
    intro publicKey
    rw [signature, List.length_replicate]
  have same : signature (List.replicate 32 byte) message =
      signature (List.replicate PUBLIC_KEY_LEN byte) message := by
    rw [signature, signature, seed, key]
  simp only [cryptoVerify, identity, Identity.sign, platform, List.length_replicate, sized, same,
    beq_self_eq_true, decide_true, Bool.and_self]

theorem encapsulates (name : String) (byte : UInt8) (randomness : Bytes) :
    (platform config).kemEncapsulate (identity name byte).kemEk randomness =
      some (List.replicate KEM_CT_LEN (digest randomness),
        List.replicate 32 (digest randomness + byte)) := by
  have head : (List.replicate KEM_PK_LEN byte).headD 0 = byte := rfl
  simp only [platform, identity, List.length_replicate, if_true, head]

theorem decapsulates (name : String) (byte : UInt8) :
    (identity name byte).Decapsulates (platform config) := by
  intro randomness kemCt ss encapsulated
  rw [encapsulates, Option.some.injEq, Prod.mk.injEq] at encapsulated
  obtain ⟨rfl, rfl⟩ := encapsulated
  have cipher : (List.replicate KEM_CT_LEN (digest randomness)).headD 0 = digest randomness := rfl
  have head : (List.replicate 2400 byte).headD 0 = byte := rfl
  simp only [platform, identity, List.length_replicate, if_true, cipher, head]

theorem opensSealed : (platform config).OpensSealed := by
  intro key nonce data text
  have sized : (text ++ tag key nonce data text).length - 16 = text.length := by
    rw [List.length_append, tag, List.length_replicate, Nat.add_sub_cancel]
  simp only [platform, sized, List.take_left, if_pos]

theorem fresh_newYear :
    freshEnough (platform config) clock.freshness newYear 300 = true := by
  have parsed : (platform config).parseRfc3339 newYear = some 1767225600000000000 := by
    simp only [platform, if_true]
  rw [freshEnough, if_neg (by decide), parsed]
  decide

theorem appendsTag : (platform config).AppendsTag := by
  intro key nonce data text
  simp only [platform, tag, List.length_append, List.length_replicate]

end Reference

end AgentMsg
