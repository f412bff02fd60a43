import AgentMsg.Lib.Prog
import AgentMsg.Store

/-!
# The state the daemon's threads share

The ingest callback, the request handlers, the outbox pump, the heartbeat and the
command line run as threads over one state: the store, the registry of streaming
subscribers, the map of pending pairings, the broker session and the files of the
data directory.  Each lock-protected access is one action.
-/

namespace AgentMsg

/-! ## Streaming subscribers -/

inductive StreamFrame where
  | message (msg : StoredMsg)
  | lagged (dropped : Nat)
  deriving DecidableEq, Repr

/-- Capacity of a subscriber's channel. -/
def CHANNEL_CAPACITY : Nat := 256

/-- A live streaming subscriber fed by the ingest path, with the content of its
channel. -/
structure Subscriber where
  id : Nat
  consumer : String
  queue : List StreamFrame := []
  connected : Bool := true
  dropped : Nat := 0
  deriving DecidableEq, Repr

inductive TrySendError where
  | full
  | disconnected
  deriving DecidableEq, Repr

namespace Subscriber

/-- Put a frame into the channel without waiting. -/
def trySend (s : Subscriber) (frame : StreamFrame) : Except TrySendError Subscriber :=
  if s.connected = false then .error .disconnected
  else if s.queue.length < CHANNEL_CAPACITY then .ok { s with queue := s.queue ++ [frame] }
  else .error .full

/-- Flush an outstanding lag notice; nothing when the subscriber is gone. -/
def flushLag (s : Subscriber) : Option Subscriber :=
  if s.dropped > 0 then
    match s.trySend (.lagged s.dropped) with
    | .ok sent => some { sent with dropped := 0 }
    | .error .full => some s
    | .error .disconnected => none
  else some s

/-- Offer a live message, counting it as dropped when the channel is full. -/
def offer (s : Subscriber) (msg : StoredMsg) : Option Subscriber :=
  match s.trySend (.message msg) with
  | .ok sent => some sent
  | .error .full => some { s with dropped := s.dropped + 1 }
  | .error .disconnected => none

end Subscriber

/-- Push a stored message to every live subscriber, dropping those that are gone. -/
def pushToSubscribers (subs : List Subscriber) (msg : StoredMsg) : List Subscriber :=
  subs.filterMap fun s => s.flushLag.bind fun flushed => flushed.offer msg

/-! ## Pending pairings -/

/-- A peer seen on the pairing topic, awaiting an out-of-band confirmation. -/
structure PendingPair where
  name : String
  publicKey : Bytes
  kemPublicKey : Option Bytes
  sas : String
  firstSeen : String
  deriving DecidableEq, Repr

/-- Three decimal digits of a number below one thousand. -/
def threeDigits (value : Nat) : String :=
  String.ofList [Nat.digitChar (value / 100), Nat.digitChar (value / 10 % 10),
    Nat.digitChar (value % 10)]

/-- The short authentication string of two public keys. -/
def sas (P : Platform) (pkA pkB : Bytes) : String :=
  let digest := if pkA ≤ pkB then P.sha256 (pkA ++ pkB) else P.sha256 (pkB ++ pkA)
  let byte index := (digest.getD index 0).toNat
  let code := (byte 0 * 65536 + byte 1 * 256 + byte 2) % 1000000
  threeDigits (code / 1000) ++ " " ++ threeDigits (code % 1000)

/-! ## The shared state -/

structure Publish where
  topic : String
  payload : Bytes
  retain : Bool
  deriving DecidableEq, Repr

/-- A broker session and the requests queued in it. -/
structure Mqtt where
  connected : Bool
  requests : List Publish := []
  deriving DecidableEq, Repr

structure World where
  store : Store := {}
  subscribers : List Subscriber := []
  nextSubId : Nat := 1
  pending : Std.TreeMap String PendingPair := ∅
  mqtt : Option Mqtt := none
  configFile : FileState := .absent
  trustFile : FileState := .absent
  /-- Frames written to the connection of each subscriber. -/
  written : List (Nat × StreamFrame) := []

/-- What is left of the state when the process ends. -/
def World.afterExit (world : World) : World :=
  { store := world.store, configFile := world.configFile, trustFile := world.trustFile }

@[simp]
theorem World.afterExit_store (world : World) : world.afterExit.store = world.store :=
  rfl

/-- What the outside world decides at an action: whether a store call fails and
after how many of its writing statements, the value of `datetime('now')`, and
whether the broker queue or the peer of a connection accepts what is sent. -/
structure Input where
  fault : Option Nat := none
  now : String := ""
  accepts : Bool := true
  deriving DecidableEq, Repr

/-- Does the store call succeed? -/
def Input.Succeeds (input : Input) : Prop :=
  input.fault = none

abbrev Thread (α : Type) := Prog Input World α

/-! ## Store calls -/

/-- The store after a call that writes: the whole operation, or what its first
statements leave of it. -/
def Store.attempt (store : Store) (operation : Store.Op) : Option Nat → Store
  | none => store.apply operation
  | some writes =>
      match operation.upTo writes with
      | some part => store.apply part
      | none => store

/-- A store call that writes and returns what it reads off the store before. -/
def storeCall {α : Type} (operation : String → Store.Op) (result : Store → α) :
    Thread (Except Error α) :=
  .call fun input world =>
    ({ world with store := world.store.attempt (operation input.now) input.fault },
      match input.fault with
      | none => .ok (result world.store)
      | some _ => .error (.store ""))

/-- A store call that only reads. -/
def storeQuery {α : Type} (view : Store → α) : Thread (Except Error α) :=
  .call fun input world =>
    (world,
      match input.fault with
      | none => .ok (view world.store)
      | some _ => .error (.store ""))

namespace Calls

def insertInbound (inner : Inner) (topic : String) : Thread (Except Error (Option Int)) :=
  storeCall (fun _ => .insertInbound inner topic)
    fun store => (store.insertInbound inner topic).2

def insertOutboundLog (inner : Inner) (topic : String) : Thread (Except Error Unit) :=
  storeCall (fun _ => .insertOutboundLog inner topic) fun _ => ()

def enqueueOutbound (ob : Outbound) : Thread (Except Error Unit) :=
  storeCall (fun _ => .enqueueOutbound ob) fun _ => ()

def ack (consumer : String) (seq : Int) : Thread (Except Error Unit) :=
  storeCall (fun now => .ack consumer seq now) fun _ => ()

def markDelivered (id : String) : Thread (Except Error Unit) :=
  storeCall (fun now => .markDelivered id now) fun _ => ()

def applyDeliveryReceipt (origId ts : String) : Thread (Except Error Unit) :=
  storeCall (fun _ => .applyDeliveryReceipt origId ts) fun _ => ()

def applyReadReceipt (origId ts : String) : Thread (Except Error Unit) :=
  storeCall (fun _ => .applyReadReceipt origId ts) fun _ => ()

def recordRejection (reason : RejectReason) (claimedSender : Option String)
    (topic detail : String) : Thread (Except Error Unit) :=
  storeCall (fun now => .recordRejection reason claimedSender topic detail now) fun _ => ()

def upsertPresence (agent : String) (beacon : PresenceBeacon) (lastSeen : String) :
    Thread (Except Error Unit) :=
  storeCall (fun now => .upsertPresence agent beacon lastSeen now) fun _ => ()

def seenGrant (grantId : String) : Thread (Except Error Bool) :=
  storeCall (fun now => .seenGrant grantId now) fun store => (store.seenGrant grantId "").2

def enforceBounds (maxMessages maxBytes : Nat) : Thread (Except Error Nat) :=
  storeCall (fun _ => .enforceBounds maxMessages maxBytes)
    fun store => (store.enforceBounds maxMessages maxBytes).2

def messageBySeq (seq : Int) : Thread (Except Error (Option StoredMsg)) :=
  storeQuery fun store => store.messageBySeq seq

/-- The cursor and the rows are read under two separate locks. -/
def readAfterCursor (consumer : String) (limit : Int) :
    Thread (Except Error (List StoredMsg)) := do
  match ← storeQuery fun store => store.cursor consumer with
  | .ok after => storeQuery fun store => store.selectAfter after limit
  | .error e => return .error e

end Calls

/-! ## Files -/

/-- The configuration in force, with the defaults when it cannot be loaded. -/
def World.config (P : Platform) (world : World) : Config :=
  Checked.unwrapOr default (Config.load P world.configFile)

/-- The trust store in force for the ingest path: empty when it cannot be loaded. -/
def World.trust (P : Platform) (world : World) : TrustStore :=
  Checked.unwrapOr default (TrustStore.load P world.trustFile)

def loadConfig (P : Platform) : Thread Config :=
  .observe (World.config P)

def loadTrustOrDefault (P : Platform) : Thread TrustStore :=
  .observe (World.trust P)

/-- The trust store as the commands that edit it read it. -/
def loadTrust (P : Platform) : Thread (Except Error TrustStore) :=
  .observe fun world => TrustStore.load P world.trustFile

/-- Write the trust file: it is truncated first and filled afterwards. -/
def saveTrust (P : Platform) (trust : TrustStore) : Thread (Except Error Unit) := do
  let opened ← .call fun input world =>
    if input.accepts then ({ world with trustFile := .text "" }, true) else (world, false)
  if opened then
    .call fun input world =>
      if input.accepts then
        ({ world with trustFile := .text (P.trustJson.encode trust) }, .ok ())
      else (world, .error (.inputOutput ""))
  else return .error (.inputOutput "")

/-! ## The broker session -/

/-- Is there a session with a live connection? -/
def connectedClient : Thread Bool :=
  .observe fun world =>
    match world.mqtt with
    | some session => session.connected
    | none => false

/-- Hand a publish to the session's request queue. -/
def publishOn (topic : String) (payload : Bytes) (retain : Bool) : Thread Bool :=
  .call fun input world =>
    match world.mqtt with
    | some session =>
        if input.accepts then
          ({ world with mqtt := some { session with
              requests := session.requests ++ [⟨topic, payload, retain⟩] } }, true)
        else (world, false)
    | none => (world, false)

/-! ## Store calls executed alone -/

theorem exec_storeCall_bind
    {α β : Type} (operation : String → Store.Op) (result : Store → α)
    (rest : Except Error α → Thread β) (inputs : Nat → Input) (world : World) :
    (storeCall operation result >>= rest).exec inputs world =
      (rest (match (inputs 0).fault with
        | none => .ok (result world.store)
        | some _ => .error (.store ""))).exec (fun index => inputs (index + 1))
        { world with
          store := world.store.attempt (operation (inputs 0).now) (inputs 0).fault } :=
  rfl

theorem exec_storeCall_bind_bind
    {α β γ : Type} (operation : String → Store.Op) (result : Store → α)
    (next : Except Error α → Thread β) (rest : β → Thread γ) (inputs : Nat → Input)
    (world : World) :
    (storeCall operation result >>= next >>= rest).exec inputs world =
      (next (match (inputs 0).fault with
        | none => .ok (result world.store)
        | some _ => .error (.store "")) >>= rest).exec (fun index => inputs (index + 1))
        { world with
          store := world.store.attempt (operation (inputs 0).now) (inputs 0).fault } :=
  rfl

theorem exec_storeQuery_bind
    {α β : Type} (view : Store → α) (rest : Except Error α → Thread β) (inputs : Nat → Input)
    (world : World) :
    (storeQuery view >>= rest).exec inputs world =
      (rest (match (inputs 0).fault with
        | none => .ok (view world.store)
        | some _ => .error (.store ""))).exec (fun index => inputs (index + 1)) world :=
  rfl

/-- A store call either applies its operation or leaves the first part of it. -/
theorem meets_storeCall
    {α : Type} {allowed : Input → Prop} {operation : String → Store.Op} {result : Store → α}
    {world : World} {post : World → Except Error α → Prop}
    (succeeds : ∀ now,
      post { world with store := world.store.apply (operation now) } (.ok (result world.store)))
    (fails : ∀ now writes,
      post { world with store := world.store.attempt (operation now) (some writes) }
        (.error (.store ""))) :
    Prog.Meets allowed (storeCall operation result) world post := by
  intro input _
  have outcome :
      post { world with store := world.store.attempt (operation input.now) input.fault }
        (match input.fault with
          | none => .ok (result world.store)
          | some _ => .error (.store "")) := by
    cases input.fault with
    | none =>
        exact succeeds input.now
    | some writes =>
        exact fails input.now writes
  exact outcome

theorem meets_storeCall_succeeds
    {α : Type} {operation : String → Store.Op} {result : Store → α}
    {world : World} {post : World → Except Error α → Prop}
    (succeeds : ∀ now,
      post { world with store := world.store.apply (operation now) } (.ok (result world.store))) :
    Prog.Meets Input.Succeeds (storeCall operation result) world post := by
  intro input success
  have outcome :
      post { world with store := world.store.attempt (operation input.now) input.fault }
        (match input.fault with
          | none => .ok (result world.store)
          | some _ => .error (.store "")) := by
    rw [success]
    exact succeeds input.now
  exact outcome

theorem meets_storeQuery_succeeds
    {α : Type} {view : Store → α} {world : World} {post : World → Except Error α → Prop}
    (succeeds : post world (.ok (view world.store))) :
    Prog.Meets Input.Succeeds (storeQuery view) world post := by
  intro input success
  have outcome :
      post world (match input.fault with
        | none => .ok (view world.store)
        | some _ => .error (.store "")) := by
    rw [success]
    exact succeeds
  exact outcome

theorem meets_observe
    {α : Type} {allowed : Input → Prop} {view : World → α} {world : World}
    {post : World → α → Prop} (seen : post world (view world)) :
    Prog.Meets allowed (Prog.observe view) world post :=
  fun _ _ => seen

/-! ## What an action does to the store -/

/-- A change of the shared state that leaves the store alone or applies one of the
permitted operations to it. -/
def StoreChange (permitted : Store.Op → Prop) (before after : World) : Prop :=
  after.store = before.store ∨
    ∃ operation, permitted operation ∧ after.store = before.store.apply operation

theorem StoreChange.of_eq
    {permitted : Store.Op → Prop} {before after : World}
    (same : after.store = before.store) : StoreChange permitted before after :=
  Or.inl same

/-- A store call is confined to its operation and to what a failure leaves of it. -/
theorem within_storeCall
    {α : Type} {assumed : World → Prop} {permitted : Store.Op → Prop}
    {operation : String → Store.Op} {result : Store → α}
    (whole : ∀ now, permitted (operation now))
    (part : ∀ now writes left, (operation now).upTo writes = some left → permitted left) :
    Prog.Within assumed (StoreChange permitted) (fun _ => True)
      (storeCall operation result) := by
  refine .call (fun input world _ => ?_) fun _ _ _ => trivial
  cases fault : input.fault with
  | none =>
      exact Or.inr ⟨_, whole input.now, by simp [Store.attempt]⟩
  | some writes =>
      cases left : (operation input.now).upTo writes with
      | none =>
          exact Or.inl (by simp [Store.attempt, left])
      | some remaining =>
          exact Or.inr ⟨remaining, part _ _ _ left, by simp [Store.attempt, left]⟩

/-- An action that leaves the store alone. -/
theorem within_call
    {α : Type} {assumed : World → Prop} {permitted : Store.Op → Prop}
    {operation : Input → World → World × α}
    (same : ∀ input world, (operation input world).1.store = world.store) :
    Prog.Within assumed (StoreChange permitted) (fun _ => True)
      (Prog.call operation) :=
  .call (fun input world _ => Or.inl (same input world)) fun _ _ _ => trivial

theorem within_storeQuery
    {α : Type} {assumed : World → Prop} {permitted : Store.Op → Prop}
    {view : Store → α} :
    Prog.Within assumed (StoreChange permitted) (fun _ => True) (storeQuery view) :=
  within_call fun _ _ => rfl

/-- Observing the state changes nothing, and what is seen is seen in a state that
satisfies the assumption. -/
theorem within_observe
    {α : Type} {assumed : World → Prop} {permitted : Store.Op → Prop}
    {view : World → α} :
    Prog.Within assumed (StoreChange permitted)
      (fun value => ∃ world, assumed world ∧ value = view world)
      (Prog.observe view : Thread α) :=
  .call (fun _ _ _ => Or.inl rfl) fun _ world holds => ⟨world, holds, rfl⟩

end AgentMsg
