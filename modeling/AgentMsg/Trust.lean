import AgentMsg.Lib.Checked
import AgentMsg.Platform

/-!
# Tokens and the trust store

Paste-friendly identity and authority tokens, and the store of known agents and
authorities that they are imported into.  The trust store keeps keys as base64url
text; an agent is usable as a signer only when that text decodes.
-/

namespace AgentMsg

open Checked

/-! ## Text helpers -/

/-- The Unicode white-space characters. -/
def isWhitespace (letter : Char) : Bool :=
  let code := letter.toNat
  (9 ≤ code && code ≤ 13) || code == 32 || code == 133 || code == 160 ||
    code == 5760 || (8192 ≤ code && code ≤ 8202) || code == 8232 || code == 8233 ||
    code == 8239 || code == 8287 || code == 12288

/-- The control characters. -/
def isControl (letter : Char) : Bool :=
  letter.toNat < 32 || (127 ≤ letter.toNat && letter.toNat ≤ 159)

/-- Validate an agent or authority name for use in a key id. -/
def validateName (name : String) : Except String Unit := do
  ensure (name ≠ "") "name must not be empty"
  ensure ('#' ∉ name.toList) "name must not contain '#' (reserved as the kid separator)"
  ensure (name.toList.any (fun letter => isWhitespace letter || isControl letter) = false)
    "name must not contain whitespace or control characters"

/-- Remove white space at both ends. -/
def trim (text : String) : String :=
  String.ofList
    (((text.toList.dropWhile isWhitespace).reverse.dropWhile isWhitespace).reverse)

/-- The rest of a text after a fixed beginning. -/
def stripPrefix (beginning text : String) : Option String :=
  if beginning.toList <+: text.toList then
    some (String.ofList (text.toList.drop beginning.length))
  else none

/-- Split a text at the last occurrence of a character. -/
def rsplitOnce (separator : Char) (text : String) : Option (String × String) :=
  match text.toList.reverse.dropWhile (· != separator) with
  | [] => none
  | _ :: front =>
      some (String.ofList front.reverse,
        String.ofList (text.toList.reverse.takeWhile (· != separator)).reverse)

/-! ## Tokens -/

def TOKEN_PREFIX_V1 : String := "agentmsg-id-v1."

def TOKEN_PREFIX_V2 : String := "agentmsg-id-v2."

def AUTH_TOKEN_PREFIX : String := "agentmsg-auth-v2."

/-- A shareable public identity. -/
structure IdentityToken where
  name : String
  publicKey : Bytes
  kemPublicKey : Option Bytes := none
  deriving DecidableEq, Repr

/-- A shareable authority public identity. -/
structure AuthorityToken where
  name : String
  publicKey : Bytes
  deriving DecidableEq, Repr

/-- Big-endian bytes of a 32-bit word. -/
def toBeBytes (word : UInt32) : Bytes :=
  [(word >>> 24).toUInt8, (word >>> 16).toUInt8, (word >>> 8).toUInt8, word.toUInt8]

/-- The 32-bit word of four big-endian bytes. -/
def fromBeBytes : Bytes → Option UInt32
  | [a, b, c, d] =>
      some ((a.toUInt32 <<< 24) ||| (b.toUInt32 <<< 16) ||| (c.toUInt32 <<< 8) |||
        d.toUInt32)
  | _ => none

/-- Enforce the ML-DSA-65 public-key length. -/
def checkPkLen (publicKey : Bytes) : Except Error Unit :=
  ensure (publicKey.length = PUBLIC_KEY_LEN) <| .tokenCorrupt <|
    "public key is " ++ toString publicKey.length ++ " bytes, expected " ++
      toString PUBLIC_KEY_LEN ++ " — token truncated/corrupted"

/-- The checked body of a token with a checksum tail. -/
def checkedBody (P : Platform) (rest : String) : Except Error Bytes := do
  let (b64body, b64crc) ← okOr (rsplitOnce '.' rest) (.tokenCorrupt "missing checksum")
  let crcBytes ← okOr (unb64 b64crc) (.tokenCorrupt "bad checksum")
  let expected ← okOr (fromBeBytes crcBytes) (.tokenCorrupt "bad checksum length")
  ensure (P.crc32 (asBytes b64body) = expected)
    (.tokenCorrupt "checksum mismatch — token truncated/corrupted")
  okOr (unb64 b64body) (.tokenCorrupt "bad base64")

/-- A token body with its checksum tail. -/
def checksummed (P : Platform) (json : Bytes) : String :=
  b64 json ++ "." ++ b64 (toBeBytes (P.crc32 (asBytes (b64 json))))

namespace IdentityToken

/-- Encode to a v2 token. -/
def encode (P : Platform) (token : IdentityToken) : String :=
  TOKEN_PREFIX_V2 ++ checksummed P (P.tokenV2Json.encode
    { name := token.name, pk := b64 token.publicKey, kemPk := token.kemPublicKey.map b64 })

def decodeV1 (P : Platform) (rest : String) : Except Error IdentityToken := do
  let json ← okOr (unb64 rest) (.invalidToken "bad base64")
  let body ← okOr (P.tokenV1Json.decode json) (.invalidToken "bad json")
  ensure (body.name ≠ "") (.invalidToken "empty name")
  let publicKey ← okOr (unb64 body.pk) (.invalidToken "bad key")
  checkPkLen publicKey
  return { name := body.name, publicKey }

def decodeV2 (P : Platform) (rest : String) : Except Error IdentityToken := do
  let json ← checkedBody P rest
  let body ← okOr (P.tokenV2Json.decode json) (.tokenCorrupt "bad json")
  ensure (body.name ≠ "") (.invalidToken "empty name")
  let publicKey ← okOr (unb64 body.pk) (.invalidToken "bad key")
  checkPkLen publicKey
  match body.kemPk with
  | some k =>
      let kemPublicKey ← okOr (unb64 k) (.invalidToken "bad kem key")
      return { name := body.name, publicKey, kemPublicKey := some kemPublicKey }
  | none => return { name := body.name, publicKey }

/-- Decode a token of either version. -/
def decode (P : Platform) (text : String) : Except Error IdentityToken :=
  match stripPrefix TOKEN_PREFIX_V2 (trim text) with
  | some rest => decodeV2 P rest
  | none =>
      match stripPrefix TOKEN_PREFIX_V1 (trim text) with
      | some rest => decodeV1 P rest
      | none => .error (.invalidToken "missing agentmsg-id-v2/v1 prefix")

end IdentityToken

namespace AuthorityToken

def encode (P : Platform) (token : AuthorityToken) : String :=
  AUTH_TOKEN_PREFIX ++ checksummed P (P.authTokenJson.encode
    { name := token.name, pk := b64 token.publicKey })

def decode (P : Platform) (text : String) : Except Error AuthorityToken := do
  let rest ← okOr (stripPrefix AUTH_TOKEN_PREFIX (trim text)) .notAnAuthorityToken
  let json ← checkedBody P rest
  let body ← okOr (P.authTokenJson.decode json) (.tokenCorrupt "bad json")
  ensure (body.name ≠ "") (.invalidToken "empty name")
  let publicKey ← okOr (unb64 body.pk) (.invalidToken "bad key")
  checkPkLen publicKey
  return { name := body.name, publicKey }

end AuthorityToken

/-! ## Trust store -/

namespace TrustStore

/-- The trust file as `TrustStore::load` reads it. -/
def load (P : Platform) (file : FileState) : Except Error TrustStore :=
  loadDocument P.trustJson (.store "trust store") file

/-- Add or replace by name, signing key and optional KEM key. -/
def addWithKem (trust : TrustStore) (name : String) (publicKey : Bytes)
    (kemPublicKey : Option Bytes) : TrustStore :=
  { trust with
    agents := trust.agents.insert name
      { pk := b64 publicKey, kemPk := kemPublicKey.map b64 } }

/-- Add or replace a known agent from a parsed identity token. -/
def addFromToken (trust : TrustStore) (token : IdentityToken) : TrustStore :=
  trust.addWithKem token.name token.publicKey token.kemPublicKey

/-- Remove a known agent; true if it existed. -/
def remove (trust : TrustStore) (name : String) : TrustStore × Bool :=
  ({ trust with agents := trust.agents.erase name }, (trust.agents[name]?).isSome)

/-- Look up a trusted agent's public key by name. -/
def publicKey (trust : TrustStore) (name : String) : Except Error Bytes := do
  let record ← okOr trust.agents[name]? (.unknownAgent name)
  okOr (unb64 record.pk) (.store "corrupt trust key")

/-- The currently stored signing key, if it decodes. -/
def currentKey (trust : TrustStore) (name : String) : Option Bytes :=
  trust.agents[name]?.bind fun record => unb64 record.pk

/-- The stored KEM encapsulation key, if known. -/
def kemPublicKey (trust : TrustStore) (name : String) : Option Bytes :=
  (trust.agents[name]?.bind KnownAgentRecord.kemPk).bind unb64

/-- Is the named agent trusted? -/
def contains (trust : TrustStore) (name : String) : Bool :=
  trust.agents.contains name

/-- Add or replace a trusted human authority from its token. -/
def addAuthorityFromToken (trust : TrustStore) (token : AuthorityToken) : TrustStore :=
  { trust with
    authorities := trust.authorities.insert token.name { pk := b64 token.publicKey } }

/-- Look up a trusted authority's public key by name. -/
def authorityPublicKey (trust : TrustStore) (name : String) : Except Error Bytes := do
  let record ← okOr trust.authorities[name]? (.unknownAgent name)
  okOr (unb64 record.pk) (.store "corrupt authority key")

def removeAuthority (trust : TrustStore) (name : String) : TrustStore × Bool :=
  ({ trust with authorities := trust.authorities.erase name },
    (trust.authorities[name]?).isSome)

theorem load_text_eq_ok {P : Platform} {content : String} {trust : TrustStore} :
    load P (.text content) = .ok trust ↔ P.trustJson.decode content = some trust := by
  rw [load, loadDocument]
  cases P.trustJson.decode content <;> simp

/-- A signer's key is the one the rotation guard compares with. -/
theorem publicKey_eq_ok_iff {trust : TrustStore} {name : String} {pk : Bytes} :
    trust.publicKey name = .ok pk ↔ trust.currentKey name = some pk := by
  simp only [publicKey, bind_eq_ok, okOr_eq_ok, currentKey, Option.bind_eq_some_iff]

@[simp]
theorem currentKey_addWithKem
    (trust : TrustStore) (name other : String) (pk : Bytes) (kem : Option Bytes) :
    (trust.addWithKem name pk kem).currentKey other =
      if name = other then some pk else trust.currentKey other := by
  unfold currentKey addWithKem
  by_cases same : name = other
  · simp [same]
  · simp [Std.TreeMap.getElem?_insert, same]

theorem kemPublicKey_addWithKem
    (trust : TrustStore) (name : String) (pk kem : Bytes) :
    (trust.addWithKem name pk (some kem)).kemPublicKey name = some kem := by
  simp [kemPublicKey, addWithKem]

@[simp]
theorem currentKey_remove (trust : TrustStore) (name other : String) :
    (trust.remove name).1.currentKey other =
      if name = other then none else trust.currentKey other := by
  unfold currentKey remove
  by_cases same : name = other
  · simp [same]
  · simp [Std.TreeMap.getElem?_erase, same]

end TrustStore

end AgentMsg
