import AgentMsg.Data
import AgentMsg.Lib.Base64

/-!
# The platform under agentmsg

The cryptographic libraries, the serializers and the time parser are not part of
the repository; they are the fields of `Platform`.  What the repository itself
computes from them (key fingerprints, key ids, the length checks around signature
verification) is defined here.
-/

namespace AgentMsg

/-- A serializer for values of one type, and the matching parser. -/
structure Codec (β α : Type) where
  encode : α → β
  decode : β → Option α

/-- Parsing undoes serializing. -/
def Codec.Lawful {β α : Type} (codec : Codec β α) : Prop :=
  ∀ value, codec.decode (codec.encode value) = some value

/-- The libraries agentmsg calls. -/
structure Platform where
  /-- ML-DSA-65: verifying key, message, signature. -/
  mlDsaVerify : Bytes → Bytes → Bytes → Bool
  /-- ML-DSA-65: signing seed, message. -/
  mlDsaSign : Bytes → Bytes → Bytes
  sha256 : Bytes → Bytes
  /-- ML-KEM-768: encapsulation key, randomness. -/
  kemEncapsulate : Bytes → Bytes → Option (Bytes × Bytes)
  /-- ML-KEM-768: decapsulation key, ciphertext. -/
  kemDecapsulate : Bytes → Bytes → Option Bytes
  /-- AES-256-GCM: key, nonce, associated data, plaintext. -/
  aeadSeal : Bytes → Bytes → Bytes → Bytes → Bytes
  aeadOpen : Bytes → Bytes → Bytes → Bytes → Option Bytes
  crc32 : Bytes → UInt32
  /-- RFC 3339 text to nanoseconds since the epoch. -/
  parseRfc3339 : String → Option Int
  wrapperJson : Codec Bytes Wrapper
  innerJson : Codec Bytes Inner
  claimsJson : Codec Bytes GrantClaims
  grantJson : Codec Bytes SignedGrant
  pairBodyJson : Codec String PairBody
  presenceJson : Codec String PresenceBeacon
  tokenV1Json : Codec Bytes TokenBodyV1
  tokenV2Json : Codec Bytes TokenBodyV2
  authTokenJson : Codec Bytes AuthTokenBody
  trustJson : Codec String TrustStore
  configToml : Codec String Config

/-! ## Text and bytes -/

/-- The UTF-8 bytes of a text. -/
def asBytes (text : String) : Bytes :=
  text.toUTF8.data.toList

/-- The text with the given UTF-8 bytes, if they are valid. -/
def fromUtf8 (bytes : Bytes) : Option String :=
  String.fromUTF8? ⟨bytes.toArray⟩

/-- Encode bytes as base64url without padding. -/
def b64 (bytes : Bytes) : String :=
  Base64.encode bytes

/-- Decode base64url-without-padding text. -/
def unb64 (text : String) : Option Bytes :=
  Base64.decode text

@[simp]
theorem unb64_b64 (bytes : Bytes) : unb64 (b64 bytes) = some bytes :=
  Base64.decode_encode bytes

/-- Split a text at the first occurrence of a character. -/
def splitOnce (separator : Char) (text : String) : Option (String × String) :=
  match text.toList.dropWhile (· != separator) with
  | [] => none
  | _ :: rest =>
      some (String.ofList (text.toList.takeWhile (· != separator)), String.ofList rest)

/-- A text that begins with a separator-free part splits after that part. -/
theorem splitOnce_append
    {separator : Char} {name rest : String} (absent : separator ∉ name.toList) :
    splitOnce separator (name ++ String.singleton separator ++ rest) =
      some (name, rest) := by
  have clear : ∀ letter ∈ name.toList, (letter != separator) = true := by
    intro letter member
    have different : letter ≠ separator := by
      rintro rfl
      exact absent member
    simpa using different
  have letters :
      (name ++ String.singleton separator ++ rest).toList =
        name.toList ++ separator :: rest.toList := by
    simp
  rw [splitOnce, letters, List.takeWhile_append_of_pos clear,
    List.dropWhile_append_of_pos clear]
  simp

/-- The first part of a split text is free of the separator. -/
theorem notMem_of_splitOnce
    {separator : Char} {text name rest : String}
    (split : splitOnce separator text = some (name, rest)) : separator ∉ name.toList := by
  unfold splitOnce at split
  split at split
  · cases split
  · simp only [Option.some.injEq, Prod.mk.injEq] at split
    rw [← split.1, String.toList_ofList]
    intro member
    have clear := List.all_eq_true.mp List.all_takeWhile separator member
    simp at clear

/-! ## Key fingerprints and key ids -/

def hexDigit (value : Nat) : Char :=
  if value < 10 then Char.ofNat (48 + value) else Char.ofNat (87 + value)

/-- Lower-case hexadecimal text of a byte string. -/
def hexEncode (bytes : Bytes) : String :=
  String.ofList <| bytes.flatMap fun byte =>
    [hexDigit (byte.toNat / 16), hexDigit (byte.toNat % 16)]

theorem mem_hexEncode
    {property : Char → Prop} (digits : ∀ digit : Fin 16, property (hexDigit digit))
    {bytes : Bytes} {letter : Char} (member : letter ∈ (hexEncode bytes).toList) :
    property letter := by
  rw [hexEncode, String.toList_ofList, List.mem_flatMap] at member
  obtain ⟨byte, _, either⟩ := member
  have bound := byte.toNat_lt
  simp only [List.mem_cons, List.not_mem_nil, or_false] at either
  rcases either with rfl | rfl
  · exact digits ⟨byte.toNat / 16, by omega⟩
  · exact digits ⟨byte.toNat % 16, by omega⟩

theorem length_hexEncode (bytes : Bytes) : (hexEncode bytes).toList.length = 2 * bytes.length := by
  rw [hexEncode, String.toList_ofList]
  induction bytes with
  | nil =>
      rfl
  | cons byte more inductionHypothesis =>
      rw [List.flatMap_cons, List.length_append, inductionHypothesis]
      simp only [List.length_cons, List.length_nil]
      omega

/-- Short, stable fingerprint of a public key. -/
def fingerprint (P : Platform) (publicKey : Bytes) : String :=
  hexEncode ((P.sha256 publicKey).take 8)

/-- The key id of a sender name and a public key. -/
def makeKid (P : Platform) (sender : String) (publicKey : Bytes) : String :=
  sender ++ "#" ++ fingerprint P publicKey

/-- Parse a key id into sender and fingerprint. -/
def splitKid (kid : String) : Option (String × String) :=
  splitOnce '#' kid

/-- Key ids of names without the separator split back into their parts. -/
theorem splitKid_makeKid
    (P : Platform) {sender : String} (publicKey : Bytes)
    (absent : '#' ∉ sender.toList) :
    splitKid (makeKid P sender publicKey) = some (sender, fingerprint P publicKey) := by
  have separator : "#" = String.singleton '#' := rfl
  rw [splitKid, makeKid, separator]
  exact splitOnce_append absent

/-! ## Signatures -/

/-- Verify a signature; false for a key or a signature of the wrong length. -/
def cryptoVerify (P : Platform) (publicKey message sig : Bytes) : Bool :=
  decide (publicKey.length = PUBLIC_KEY_LEN) &&
    decide (sig.length = SIGNATURE_LEN) && P.mlDsaVerify publicKey message sig

/-- A loaded local identity: its name, its signing seed with the public key, and
its decapsulation key with the encapsulation key. -/
structure Identity where
  name : String
  seed : Bytes
  publicKey : Bytes
  kemDk : Bytes
  kemEk : Bytes
  deriving DecidableEq, Repr

namespace Identity

def sign (P : Platform) (identity : Identity) (message : Bytes) : Bytes :=
  P.mlDsaSign identity.seed message

/-- Fingerprint of the encapsulation key. -/
def kemFingerprint (P : Platform) (identity : Identity) : String :=
  fingerprint P identity.kemEk

end Identity

/-! ## Files -/

/-- What opening a file of the data directory finds. -/
inductive FileState where
  | absent
  | unreadable
  | text (content : String)
  deriving DecidableEq, Repr

/-- Load a document: defaults when the file is absent, an error when it cannot
be read or parsed. -/
def loadDocument {α : Type} [Inhabited α] (codec : Codec String α) (corrupt : Error) :
    FileState → Except Error α
  | .absent => .ok default
  | .unreadable => .error (.inputOutput "")
  | .text content =>
      match codec.decode content with
      | some document => .ok document
      | none => .error corrupt

/-- The configuration file as `Config::load` reads it. -/
def Config.load (P : Platform) (file : FileState) : Except Error Config :=
  loadDocument P.configToml (.config "") file

end AgentMsg
