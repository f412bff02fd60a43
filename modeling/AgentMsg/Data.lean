import Mathlib.Data.List.Basic
import Mathlib.Tactic.Common

/-!
# Documents exchanged and stored by agentmsg

The record types of the wire format, of grants, tokens and pairing hellos, of
the trust store and of the configuration, with the constants that name their
versions, algorithms and content types.
-/

namespace AgentMsg

/-- A string of bytes. -/
abbrev Bytes := List UInt8

/-! ## Wire format -/

/-- Wire protocol version. -/
def PROTOCOL_VERSION : UInt8 := 2

/-- Signature algorithm identifier. -/
def ALG_ML_DSA_65 : String := "ML-DSA-65"

def ALG_NONE : String := "none"

def ALG_KEM_AEAD : String := "ML-KEM-768.AES-256-GCM"

/-- Recipient marker for broadcast messages. -/
def BROADCAST : String := "*"

def CTYPE_TEXT : String := "text/plain"

def CTYPE_PRESENCE : String := "application/agentmsg-presence"

def CTYPE_RECEIPT : String := "application/agentmsg-receipt"

def CTYPE_PAIR : String := "application/agentmsg-pair"

/-- Encoded verifying-key length of ML-DSA-65. -/
def PUBLIC_KEY_LEN : Nat := 1952

def SIGNATURE_LEN : Nat := 3309

/-- Encoded encapsulation-key length of ML-KEM-768. -/
def KEM_PK_LEN : Nat := 1184

/-- Typed message kind. -/
inductive MsgKind where
  | message
  | command
  | query
  | result
  | ack
  | error
  | grant
  | receipt
  deriving DecidableEq, Repr, Inhabited

/-- The signed wrapper, as published on the topic. -/
structure Wrapper where
  v : UInt8
  alg : String
  kid : Option String := none
  msg : String
  sig : Option String := none
  deriving DecidableEq, Repr

/-- Payload encryption metadata. -/
structure EncInfo where
  alg : String
  kemCt : String
  recipientKid : String
  nonce : String
  ptype : String
  deriving DecidableEq, Repr

/-- A human-authorization grant signed by an authority key. -/
structure SignedGrant where
  alg : String
  authorityKid : String
  grant : String
  sig : String
  deriving DecidableEq, Repr

inductive ReceiptStatus where
  | delivered
  | read
  deriving DecidableEq, Repr

/-- A delivery or read receipt for a prior message. -/
structure Receipt where
  refId : String
  status : ReceiptStatus
  deriving DecidableEq, Repr

/-- The inner message, decoded from `Wrapper.msg`.  Its `from` and `to` fields
are called `sender` and `recipient` here, as the columns of the store are. -/
structure Inner where
  id : String
  v : UInt8
  sender : String
  recipient : String
  ts : String
  nonce : String
  ctype : String
  inReplyTo : Option String := none
  body : String
  kind : MsgKind := .message
  correlationId : Option String := none
  supersedes : Option String := none
  enc : Option EncInfo := none
  grant : Option SignedGrant := none
  receipt : Option Receipt := none
  deriving DecidableEq, Repr

/-! ## Grants, pairing hellos and presence beacons -/

/-- The claims an authority asserts in a grant. -/
structure GrantClaims where
  id : String
  action : String
  scope : String
  subject : String
  expiry : String
  nonce : String
  deriving DecidableEq, Repr

/-- The body of a pairing hello. -/
structure PairBody where
  name : String
  pk : String
  kemPk : Option String := none
  deriving DecidableEq, Repr

/-- The body of an application presence beacon. -/
structure PresenceBeacon where
  state : String
  source : String := ""
  ttlSecs : Int := 0
  seq : Int := 0
  detail : Option String := none
  deriving DecidableEq, Repr

/-! ## Identity and authority tokens -/

structure TokenBodyV1 where
  name : String
  pk : String
  deriving DecidableEq, Repr

structure TokenBodyV2 where
  name : String
  pk : String
  kemPk : Option String := none
  deriving DecidableEq, Repr

structure AuthTokenBody where
  name : String
  pk : String
  deriving DecidableEq, Repr

/-! ## Trust store and configuration -/

structure KnownAgentRecord where
  pk : String
  kemPk : Option String := none
  deriving DecidableEq, Repr

/-- Known agents and known human authorities, by name. -/
structure TrustStore where
  agents : Std.TreeMap String KnownAgentRecord := ∅
  authorities : Std.TreeMap String KnownAgentRecord := ∅

instance : Inhabited TrustStore := ⟨{}⟩

/-- Persistent configuration, with the defaults of a missing file. -/
structure Config where
  brokerHost : String := ""
  brokerPort : Nat := 8883
  tls : Bool := true
  username : String := ""
  password : String := ""
  topics : List String := []
  freshnessSecs : Int := 300
  maxMessages : Nat := 50000
  maxBytes : Nat := 500 * 1024 * 1024
  maxPayload : Nat := 256 * 1024
  heartbeatSecs : Nat := 0
  allowUnsigned : Bool := false
  acceptV1 : Bool := true
  requireEncryption : Bool := false
  autoReceipts : Bool := true
  deriving DecidableEq, Repr

instance : Inhabited Config := ⟨{}⟩

namespace Config

/-- Primary topic used for publishing. -/
def primaryTopic (cfg : Config) : Option String :=
  cfg.topics.head?

/-- Is the configuration complete enough to connect? -/
def isConnectable (cfg : Config) : Bool :=
  cfg.brokerHost != "" && cfg.username != "" && !cfg.topics.isEmpty

end Config

/-! ## Reasons for refusing an inbound message -/

inductive RejectReason where
  | malformedWrapper
  | unsupportedVersion (version : UInt8)
  | unsupportedAlg (alg : String)
  | unknownSigner
  | kidMismatch
  | invalidSignature
  | duplicate
  | stale
  | tooLarge
  | unsignedNotAllowed
  | downgradeRejected
  | unknownAuthority
  | invalidGrant
  | grantExpired
  | grantSubjectMismatch
  | decryptFailed
  | unknownRecipientKey
  | encBroadcastUnsupported
  | replayedGrant
  | pairSelfSigInvalid
  deriving DecidableEq, Repr

namespace RejectReason

/-- Stable code recorded in the rejection log. -/
def code : RejectReason → String
  | .malformedWrapper => "malformed_wrapper"
  | .unsupportedVersion _ => "unsupported_version"
  | .unsupportedAlg _ => "unsupported_alg"
  | .unknownSigner => "unknown_signer"
  | .kidMismatch => "kid_mismatch"
  | .invalidSignature => "invalid_signature"
  | .duplicate => "duplicate"
  | .stale => "stale"
  | .tooLarge => "too_large"
  | .unsignedNotAllowed => "unsigned_not_allowed"
  | .downgradeRejected => "downgrade_rejected"
  | .unknownAuthority => "unknown_authority"
  | .invalidGrant => "invalid_grant"
  | .grantExpired => "grant_expired"
  | .grantSubjectMismatch => "grant_subject_mismatch"
  | .decryptFailed => "decrypt_failed"
  | .unknownRecipientKey => "unknown_recipient_key"
  | .encBroadcastUnsupported => "enc_broadcast_unsupported"
  | .replayedGrant => "replayed_grant"
  | .pairSelfSigInvalid => "pair_self_sig_invalid"

/-- Text shown to the user. -/
def text : RejectReason → String
  | .malformedWrapper => "malformed wrapper"
  | .unsupportedVersion version =>
      "unsupported protocol version " ++ toString version
  | .unsupportedAlg alg => "unsupported signature algorithm " ++ alg
  | .unknownSigner => "unknown signer"
  | .kidMismatch => "signer key id does not match sender"
  | .invalidSignature => "invalid signature"
  | .duplicate => "duplicate message id"
  | .stale => "timestamp outside freshness window"
  | .tooLarge => "payload too large"
  | .unsignedNotAllowed => "unsigned messages are not allowed"
  | .downgradeRejected => "protocol downgrade rejected for a known signing agent"
  | .unknownAuthority => "unknown authority"
  | .invalidGrant => "invalid grant"
  | .grantExpired => "grant expired"
  | .grantSubjectMismatch => "grant subject does not match sender"
  | .decryptFailed => "decryption failed"
  | .unknownRecipientKey => "unknown recipient key"
  | .encBroadcastUnsupported => "encrypted broadcast is not supported"
  | .replayedGrant => "replayed grant"
  | .pairSelfSigInvalid => "pairing hello self-signature is invalid"

end RejectReason

/-- A reason with the sender that the wrapper claimed. -/
structure RejectInfo where
  reason : RejectReason
  claimedSender : Option String := none
  deriving DecidableEq, Repr

/-! ## Errors of the command line and of the daemon -/

inductive Error where
  | daemonNotRunning (endpoint : String)
  | daemonAlreadyRunning
  | config (detail : String)
  | noIdentity
  | identityExists (detail : String)
  | crypto (detail : String)
  | invalidToken (detail : String)
  | unknownAgent (name : String)
  | rejected (reason : RejectReason)
  | store (detail : String)
  | mqtt (detail : String)
  | ipc (detail : String)
  | serde (detail : String)
  | identityNameMismatch (detail : String)
  | noAuthority
  | tokenCorrupt (detail : String)
  | rotationRequired (detail : String)
  | notAnAuthorityToken
  | timeout (detail : String)
  | inputOutput (detail : String)
  deriving DecidableEq, Repr

namespace Error

/-- Text shown to the user. -/
def text : Error → String
  | .daemonNotRunning endpoint =>
      "daemon is not running (no IPC endpoint at " ++ endpoint ++ ")"
  | .daemonAlreadyRunning => "a daemon is already running for this identity"
  | .config detail => "configuration error: " ++ detail
  | .noIdentity => "no identity configured; run `agentmsg id generate` first"
  | .identityExists detail => "identity already exists at " ++ detail
  | .crypto detail => "crypto error: " ++ detail
  | .invalidToken detail => "invalid identity token: " ++ detail
  | .unknownAgent name => "unknown agent: " ++ name
  | .rejected reason => "message rejected: " ++ reason.text
  | .store detail => "storage error: " ++ detail
  | .mqtt detail => "mqtt error: " ++ detail
  | .ipc detail => "ipc error: " ++ detail
  | .serde detail => "serialization error: " ++ detail
  | .identityNameMismatch detail => "identity name mismatch: " ++ detail
  | .noAuthority =>
      "no authority key configured; run `agentmsg authority generate` first"
  | .tokenCorrupt detail => "token corrupt: " ++ detail
  | .rotationRequired detail => "key rotation required: " ++ detail
  | .notAnAuthorityToken => "not an authority token"
  | .timeout detail => "timed out: " ++ detail
  | .inputOutput detail => "i/o error: " ++ detail

end Error

end AgentMsg
