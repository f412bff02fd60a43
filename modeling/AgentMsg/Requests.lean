import AgentMsg.Ingest

/-!
# Requests of the local interface

The requests a client sends to the daemon over the local socket, the responses, and
the handlers.  Each handler is a thread over the shared state; the random draws of
a built message and the presence sequence number are arguments.
-/

namespace AgentMsg

open Checked

def IPC_PROTO_VERSION : Nat := 2

def VERSION : String := "0.2.2"

/-- Token beginning of a paste-friendly signed grant. -/
def GRANT_TOKEN_PREFIX : String := "agentmsg-grant-v1."

structure SendParams where
  recipient : String
  ctype : String
  body : String
  inReplyTo : Option String := none
  topic : Option String := none
  kind : String := ""
  correlationId : Option String := none
  supersedes : Option String := none
  encrypt : Bool := false
  grant : Option String := none
  unsigned : Bool := false
  deriving DecidableEq, Repr

/-- The requests answered by a single response. -/
inductive Request where
  | ping
  | status
  | hello (ipcProto : Nat)
  | send (params : SendParams)
  | read (consumer : String) (limit : Int)
  | ack (consumer : String) (seq : Int)
  | browse (limit : Int) (fromFilter toFilter : Option String)
  | transcript (limit : Int) (fromFilter toFilter peer : Option String)
  | rejections (limit : Int) (reason since : Option String)
  | consumers
  | receipts (id : Option String) (limit : Int) (state : Option String)
  | reply (msgId ctype body : String)
  | presence (state : String) (ttlSecs : Option Int) (detail : Option String)
  | presenceList
  | pairStart (topic : Option String)
  | pairList
  | pairConfirm (name : String)
  | connect
  | disconnect
  | shutdown
  deriving DecidableEq, Repr

structure StatusInfo where
  identity : Option String
  fingerprint : Option String
  broker : String
  connected : Bool
  topics : List String
  stored : Nat
  rejected : Nat
  pendingOut : Nat
  knownAgents : Nat
  ipcProto : Nat
  presence : List (String × PresenceRow)
  allowUnsigned : Bool
  acceptV1 : Bool
  requireEncryption : Bool
  autoReceipts : Bool
  deriving DecidableEq, Repr

/-- A pending pairing as shown to the operator. -/
structure PendingPairView where
  name : String
  fingerprint : String
  sas : String
  kem : Bool
  deriving DecidableEq, Repr

inductive Response where
  | pong
  | ok
  | status (info : StatusInfo)
  | hello (ipcProto : Nat) (version : String) (caps : List String)
  | sent (id deliveryState : String)
  | messages (msgs : List StoredMsg) (consumerWarning : Option String)
  | rejections (rows : List RejectionRow)
  | consumers (rows : List ConsumerRow)
  | presence (rows : List (String × PresenceRow))
  | pairs (views : List PendingPairView)
  | error (message : String)
  deriving DecidableEq, Repr

/-- Capabilities advertised in the handshake. -/
def caps : List String :=
  ["send", "subscribe", "transcript", "rejections", "consumers", "receipts", "reply",
    "presence", "grants", "encryption", "unsigned"]

/-- Map a kind text to a kind; every other text is a plain message. -/
def parseKind (text : String) : MsgKind :=
  if text = "command" then .command
  else if text = "query" then .query
  else if text = "result" then .result
  else if text = "ack" then .ack
  else if text = "error" then .error
  else if text = "grant" then .grant
  else if text = "receipt" then .receipt
  else .message

def Grant.encodeToken (P : Platform) (sg : SignedGrant) : String :=
  GRANT_TOKEN_PREFIX ++ b64 (P.grantJson.encode sg)

/-- Decode a signed-grant token. -/
def Grant.decodeToken (P : Platform) (text : String) : Except Error SignedGrant := do
  let rest ← okOr (stripPrefix GRANT_TOKEN_PREFIX (trim text))
    (.invalidToken "missing agentmsg-grant-v1 prefix")
  let json ← okOr (unb64 rest) (.invalidToken "bad base64")
  okOr (P.grantJson.decode json) (.invalidToken "bad grant json")

/-- The publish topic of a request: an explicit topic must be configured. -/
def chooseTopic (cfg : Config) : Option String → Except String String
  | some topic =>
      if topic ∈ cfg.topics then .ok topic
      else .error ("topic '" ++ topic ++ "' is not a configured chat topic")
  | none => okOr cfg.primaryTopic "no chat topic configured"

section Handlers

variable (P : Platform) (identity : Identity)

def respond {α : Type} (answer : α → Response) : Except Error α → Response
  | .ok value => answer value
  | .error e => .error e.text

def messagesResponse (result : Except Error (List StoredMsg)) : Response :=
  respond (fun msgs => .messages msgs none) result

/-! ## Sending -/

def resolveGrant (token : Option String) : Except Error (Option SignedGrant) :=
  match token with
  | some text => do
      let sg ← Grant.decodeToken P text
      return some sg
  | none => return none

/-- The recipient's encapsulation key, when encryption is asked for. -/
def resolveKemKey (p : SendParams) : Thread (Except String (Option Bytes)) :=
  if p.encrypt then do
    let trust ← loadTrustOrDefault P
    match trust.kemPublicKey p.recipient with
    | some ek => return .ok (some ek)
    | none => return .error RejectReason.unknownRecipientKey.text
  else return .ok none

/-- Looking up the key only reads. -/
theorem reads_resolveKemKey (assumed : World → Prop) (p : SendParams) :
    Prog.Within assumed (fun before after => after = before) (fun _ => True)
      (resolveKemKey P p) := by
  unfold resolveKemKey
  split
  · refine Prog.Within.andThen (.call (fun _ _ _ => rfl) fun _ _ _ => trivial) fun trust => ?_
    split <;> exact .done
  · exact .done

def sendOpts (p : SendParams) (grant : Option SignedGrant) (encryptTo : Option Bytes) :
    BuildOpts :=
  { recipient := p.recipient, ctype := p.ctype, body := p.body, kind := parseKind p.kind,
    inReplyTo := p.inReplyTo, correlationId := p.correlationId,
    supersedes := p.supersedes, grant, encryptTo, unsigned := p.unsigned }

/-- Publish at once when connected; the delivery state to report. -/
def publishNow (topic : String) (inner : Inner) (payload : Bytes) : Thread String := do
  if ← connectedClient then
    if ← publishOn topic payload false then
      let _ ← Calls.markDelivered inner.id
      return "sent"
    else return "pending"
  else return "pending"

/-- Log and enqueue a built message, then publish it when connected. -/
def sendBuilt (topic : String) (inner : Inner) (wrapper : Wrapper) : Thread Response := do
  let _ ← Calls.insertOutboundLog inner topic
  match ← Calls.enqueueOutbound (outboxEntry P topic inner wrapper) with
  | .error e => return .error e.text
  | .ok _ => do
      let deliveryState ← publishNow topic inner (P.wrapperJson.encode wrapper)
      return .sent inner.id deliveryState

def send (p : SendParams) (draw : Draw) : Thread Response := do
  let cfg ← loadConfig P
  match chooseTopic cfg p.topic with
  | .error message => return .error message
  | .ok topic =>
      if p.body.utf8ByteSize > cfg.maxPayload then
        return .error "payload exceeds configured maximum"
      else
        match resolveGrant P p.grant with
        | .error e => return .error e.text
        | .ok grant => do
            match ← resolveKemKey P p with
            | .error message => return .error message
            | .ok encryptTo =>
                match build P identity draw (sendOpts p grant encryptTo) with
                | .error reason => return .error reason.text
                | .ok (inner, wrapper) => sendBuilt P topic inner wrapper

/-- Reply to a stored message, addressing its sender. -/
def reply (msgId ctype body : String) (draw : Draw) : Thread Response := do
  match ← storeQuery fun store => store.getMessage msgId with
  | .error e => return .error e.text
  | .ok none => return .error ("no message with id " ++ msgId)
  | .ok (some original) =>
      send P identity { recipient := original.sender, ctype, body, inReplyTo := some msgId } draw

/-! ## Presence and pairing -/

/-- Build and durably enqueue a presence beacon. -/
def enqueuePresence (draw : Draw) (topic : String) (beacon : PresenceBeacon) : Thread Unit :=
  match build P identity draw
      { recipient := BROADCAST, ctype := CTYPE_PRESENCE,
        body := P.presenceJson.encode beacon } with
  | .error _ => return ()
  | .ok (inner, wrapper) => do
      let _ ← Calls.enqueueOutbound (outboxEntry P topic inner wrapper)
      return ()

def presence (state : String) (ttlSecs : Option Int) (detail : Option String)
    (draw : Draw) (nowSeq : Int) : Thread Response := do
  let cfg ← loadConfig P
  match cfg.primaryTopic with
  | none => return .error "no chat topic configured"
  | some topic => do
      enqueuePresence P identity draw topic
        { state, source := "agent", ttlSecs := ttlSecs.getD 0, seq := nowSeq, detail }
      return .ok

/-- Broadcast a self-signed pairing hello. -/
def pairStart (topic : Option String) (draw : Draw) : Thread Response := do
  let cfg ← loadConfig P
  match chooseTopic cfg topic with
  | .error message => return .error message
  | .ok topic =>
      match buildPair P identity draw with
      | .error reason => return .error reason.text
      | .ok (inner, wrapper) => do
          match ← Calls.enqueueOutbound (outboxEntry P topic inner wrapper) with
          | .error e => return .error e.text
          | .ok _ => do
              if ← connectedClient then
                let _ ← publishOn topic (P.wrapperJson.encode wrapper) false
                return .ok
              else return .ok

/-- The peers awaiting confirmation. -/
def pairList : Thread Response :=
  .observe fun world =>
    .pairs (world.pending.toList.map fun entry =>
      { name := entry.2.name, fingerprint := fingerprint P entry.2.publicKey,
        sas := entry.2.sas, kem := entry.2.kemPublicKey.isSome })

/-- Confirm a pending peer into the trust store, and drop it from the pending map. -/
def pairConfirm (name : String) : Thread Response := do
  match ← .observe fun world : World => world.pending[name]? with
  | none => return .error ("no pending pairing for '" ++ name ++ "'")
  | some entry => do
      match ← loadTrust P with
      | .error e => return .error e.text
      | .ok trust => do
          match ← saveTrust P
            (trust.addWithKem entry.name entry.publicKey entry.kemPublicKey) with
          | .error e => return .error e.text
          | .ok _ =>
              .call fun _ world => ({ world with pending := world.pending.erase name }, .ok)

/-! ## Reading -/

/-- Best-effort read receipt when a consumer acknowledges a direct inbound message. -/
def maybeReadReceipt (seq : Int) (draw : Draw) : Thread Unit := do
  let cfg ← loadConfig P
  if cfg.autoReceipts then
    match ← Calls.messageBySeq seq with
    | .ok (some m) =>
        if m.direction = .inbound ∧ m.recipient = identity.name ∧ m.recipient ≠ "*" then
          enqueueReceipt P identity draw m.sender m.id .read m.topic
        else return ()
    | _ => return ()
  else return ()

def ackRequest (consumer : String) (seq : Int) (draw : Draw) : Thread Response := do
  match ← Calls.ack consumer seq with
  | .error e => return .error e.text
  | .ok _ => do
      maybeReadReceipt P identity seq draw
      return .ok

def receipts (id : Option String) (limit : Int) (state : Option String) : Thread Response :=
  match id with
  | some id => do
      let found ← storeQuery fun store => store.getMessage id
      return respond (fun msg => .messages msg.toList none) found
  | none => do
      let found ← storeQuery fun store => store.outboundReceipts limit state
      return messagesResponse found

/-! ## Session and status -/

/-- Connect the broker session; the session lock is held throughout. -/
def connect : Thread Response :=
  .call fun _ world =>
    match world.mqtt with
    | some _ => (world, .ok)
    | none =>
        match Config.load P world.configFile with
        | .error e => (world, .error e.text)
        | .ok cfg =>
            if !cfg.isConnectable then
              (world, .error (Error.text (.config
                "broker host, credentials and at least one topic must be set")))
            else if !cfg.tls then
              (world, .error (Error.text (.config "TLS is required (set tls = true)")))
            else ({ world with mqtt := some { connected := false } }, .ok)

def disconnect : Thread Response :=
  .call fun _ world => ({ world with mqtt := none }, .ok)

def status : Thread Response := do
  let cfg ← loadConfig P
  let trust ← loadTrustOrDefault P
  let connected ← connectedClient
  let stored ← storeQuery Store.messageCount
  let rejected ← storeQuery Store.rejectionCount
  let pendingOut ← storeQuery fun store => store.pendingOutbound.length
  let rows ← storeQuery Store.listPresence
  return .status
    { identity := some identity.name
      fingerprint := some (fingerprint P identity.publicKey)
      broker := if cfg.brokerHost = "" then "" else cfg.brokerHost ++ ":" ++ toString cfg.brokerPort
      connected
      topics := cfg.topics
      stored := unwrapOr 0 stored
      rejected := unwrapOr 0 rejected
      pendingOut := unwrapOr 0 pendingOut
      knownAgents := (trust.agents.toList.filter fun entry => (unb64 entry.2.pk).isSome).length
      ipcProto := IPC_PROTO_VERSION
      presence := unwrapOr [] rows
      allowUnsigned := cfg.allowUnsigned
      acceptV1 := cfg.acceptV1
      requireEncryption := cfg.requireEncryption
      autoReceipts := cfg.autoReceipts }

/-- Answer a request. -/
def handle (draw : Draw) (nowSeq : Int) : Request → Thread Response
  | .ping => return .pong
  | .status => status P identity
  | .hello _ => return .hello IPC_PROTO_VERSION VERSION caps
  | .connect => connect P
  | .disconnect => disconnect
  | .shutdown => return .ok
  | .send params => send P identity params draw
  | .read consumer limit => do
      let found ← Calls.readAfterCursor consumer limit
      return messagesResponse found
  | .ack consumer seq => ackRequest P identity consumer seq draw
  | .browse limit fromFilter toFilter => do
      let found ← storeQuery fun store => store.browse limit fromFilter toFilter "in"
      return messagesResponse found
  | .transcript limit fromFilter toFilter peer => do
      let found ← storeQuery fun store => store.transcript limit fromFilter toFilter peer
      return messagesResponse found
  | .rejections limit reason since => do
      let found ← storeQuery fun store => store.rejectionRows limit reason since
      return respond .rejections found
  | .consumers => do
      let found ← storeQuery Store.consumers
      return respond .consumers found
  | .receipts id limit state => receipts id limit state
  | .reply msgId ctype body => reply P identity msgId ctype body draw
  | .presence state ttlSecs detail => presence P identity state ttlSecs detail draw nowSeq
  | .presenceList => do
      let found ← storeQuery Store.listPresence
      return respond .presence found
  | .pairStart topic => pairStart P identity topic draw
  | .pairList => pairList P
  | .pairConfirm name => pairConfirm P name

end Handlers

end AgentMsg
