import AgentMsg.World

/-!
# The ingest callback

What the daemon does with each payload the broker delivers: drop its own echoes,
set pairing hellos aside, verify everything else, and turn an accepted message into
a presence update, a receipt, or a stored row that is pushed to subscribers and
answered by a delivery receipt.
-/

namespace AgentMsg

open Checked

/-- A payload delivered on a topic, with the clock readings and the random draws of
its ingest. -/
structure Delivery where
  topic : String
  payload : Bytes
  clock : Clock
  draw : Draw
  deriving DecidableEq, Repr

/-- What is known about a payload before it reaches the verification path. -/
inductive Intercept where
  | echo
  | hello (entry : PendingPair)
  | badHello (reason : RejectReason) (claimed : String)
  | pass

/-- What the callback did.  The callback itself returns nothing. -/
inductive Outcome where
  | echo
  | pairing
  | rejected
  | presence
  | receipt
  | replayed
  | stored (seq : Int) (inner : Inner)
  | duplicate (inner : Inner)
  | failed
  deriving DecidableEq, Repr

section Callback

variable (P : Platform) (identity : Identity)

/-- Recognize own echoes and pairing hellos. -/
def intercept (payload : Bytes) : Intercept :=
  match P.wrapperJson.decode payload with
  | none => .pass
  | some wrapper =>
      if wrapper.claimedSender = some identity.name then .echo
      else
        match wrapper.peek P with
        | .error _ => .pass
        | .ok peek =>
            if peek.ctype = CTYPE_PAIR then
              match verifyPair P payload with
              | .ok hello =>
                  .hello
                    { name := hello.name, publicKey := hello.publicKey,
                      kemPublicKey := hello.kemPublicKey,
                      sas := sas P identity.publicKey hello.publicKey,
                      firstSeen := peek.ts }
              | .error reason => .badHello reason peek.sender
            else .pass

variable {P identity} in
/-- A pending entry has the name and the keys of a verified hello, and the code of its key. -/
theorem verified_of_intercept
    {payload : Bytes} {entry : PendingPair} (found : intercept P identity payload = .hello entry) :
    verifyPair P payload =
        .ok { name := entry.name, publicKey := entry.publicKey,
              kemPublicKey := entry.kemPublicKey } ∧
      entry.sas = sas P identity.publicKey entry.publicKey := by
  unfold intercept at found
  split at found
  · cases found
  · split at found
    · cases found
    · split at found
      · cases found
      · split at found
        · split at found
          · rename_i hello verified
            cases found
            exact ⟨verified, rfl⟩
          · cases found
        · cases found

/-- Keep the first pending entry of a name. -/
def offerPending (entry : PendingPair) : Thread Unit :=
  .call fun _ world =>
    ({ world with pending := world.pending.insertIfNew entry.name entry }, ())

def applyReceipt (rcpt : Receipt) (ts : String) : Thread (Except Error Unit) :=
  match rcpt.status with
  | .delivered => Calls.applyDeliveryReceipt rcpt.refId ts
  | .read => Calls.applyReadReceipt rcpt.refId ts

/-- The claims the replay guard looks up: the grant is verified once more, and only
a grant that verifies is looked up. -/
def guardClaims (trust : TrustStore) (now : Int) (inner : Inner) : Option GrantClaims :=
  match inner.grant with
  | none => none
  | some sg =>
      match Grant.verify P now sg trust with
      | .error _ => none
      | .ok claims => some claims

/-- Is the grant of a message already used?  An unused grant is recorded as used. -/
def grantReplayed (trust : TrustStore) (now : Int) (inner : Inner) : Thread Bool :=
  match guardClaims P trust now inner with
  | none => return false
  | some claims => do
      let seen ← Calls.seenGrant claims.id
      return unwrapOr false seen

/-- Push a stored row to the subscribers, if it is still there. -/
def pushStored (seq : Int) : Thread Unit := do
  match ← Calls.messageBySeq seq with
  | .ok (some msg) =>
      .call fun _ world =>
        ({ world with subscribers := pushToSubscribers world.subscribers msg }, ())
  | _ => return ()

/-- The options of an automatic receipt. -/
def receiptOpts (recipient refId : String) (status : ReceiptStatus) : BuildOpts :=
  { recipient, ctype := CTYPE_RECEIPT, body := "", kind := .receipt,
    receipt := some { refId, status } }

/-- The outbox entry of a built message. -/
def outboxEntry (topic : String) (inner : Inner) (wrapper : Wrapper) : Outbound :=
  { id := inner.id, topic, payload := P.wrapperJson.encode wrapper }

/-- Build and durably enqueue an automatic delivery or read receipt. -/
def enqueueReceipt (draw : Draw) (recipient refId : String) (status : ReceiptStatus)
    (topic : String) : Thread Unit :=
  match build P identity draw (receiptOpts recipient refId status) with
  | .error _ => return ()
  | .ok (inner, wrapper) => do
      let _ ← Calls.insertOutboundLog inner topic
      let _ ← Calls.enqueueOutbound (outboxEntry P topic inner wrapper)
      return ()

/-- Does an accepted message get an automatic delivery receipt? -/
def wantsReceipt (cfg : Config) (inner : Inner) : Bool :=
  cfg.autoReceipts && inner.recipient == identity.name && !inner.isBroadcast

/-- Store an accepted message, trim the store, push the row and send the receipt. -/
def storeMessage (cfg : Config) (delivery : Delivery) (inner : Inner) : Thread Outcome := do
  match ← Calls.insertInbound inner delivery.topic with
  | .ok (some seq) =>
      let _ ← Calls.enforceBounds cfg.maxMessages cfg.maxBytes
      pushStored seq
      if wantsReceipt identity cfg inner then
        enqueueReceipt P identity delivery.draw inner.sender inner.id .delivered delivery.topic
        return .stored seq inner
      else return .stored seq inner
  | .ok none => return .duplicate inner
  | .error _ => return .failed

/-- The effects of an accepted message. -/
def acceptMessage (cfg : Config) (trust : TrustStore) (delivery : Delivery) (inner : Inner) :
    Thread Outcome :=
  if inner.ctype = CTYPE_PRESENCE then
    match P.presenceJson.decode inner.body with
    | some beacon => do
        let _ ← Calls.upsertPresence inner.sender beacon inner.ts
        return .presence
    | none => return .presence
  else if inner.kind = .receipt ∨ inner.ctype = CTYPE_RECEIPT then
    match inner.receipt with
    | some rcpt => do
        let _ ← applyReceipt rcpt inner.ts
        return .receipt
    | none => return .receipt
  else do
    if ← grantReplayed P trust delivery.clock.guardCheck inner then
      let _ ← Calls.recordRejection .replayedGrant (some inner.sender) delivery.topic ""
      return .replayed
    else storeMessage P identity cfg delivery inner

/-- Verification as the callback calls it. -/
def verifyDelivery (cfg : Config) (trust : TrustStore) (delivery : Delivery) :
    Except RejectInfo Inner :=
  verifyIncoming P delivery.payload identity trust delivery.clock cfg.freshnessSecs
    cfg.maxPayload cfg.allowUnsigned cfg.acceptV1

/-- The verdict of verification and what follows from it. -/
def settle (cfg : Config) (trust : TrustStore) (delivery : Delivery) : Thread Outcome :=
  match verifyDelivery P identity cfg trust delivery with
  | .ok inner => acceptMessage P identity cfg trust delivery inner
  | .error info => do
      let _ ← Calls.recordRejection info.reason info.claimedSender delivery.topic ""
      return .rejected

/-- Load the files, so that edits take effect at once, and settle the payload. -/
def verifyPath (delivery : Delivery) : Thread Outcome := do
  let cfg ← loadConfig P
  let trust ← loadTrustOrDefault P
  settle P identity cfg trust delivery

/-- The callback invoked for each inbound publish. -/
def onMsg (delivery : Delivery) : Thread Outcome :=
  match intercept P identity delivery.payload with
  | .echo => return .echo
  | .hello entry => do
      offerPending entry
      return .pairing
  | .badHello reason claimed => do
      let _ ← Calls.recordRejection reason (some claimed) delivery.topic "pairing hello"
      return .pairing
  | .pass => verifyPath P identity delivery

end Callback

/-! ## Threads that only concern outbound messages and cursors -/

/-- The operations that log and queue outbound messages, mark them sent, and move
cursors. -/
inductive OutboundOp : Store.Op → Prop
  | log (inner : Inner) (topic : String) : OutboundOp (.insertOutboundLog inner topic)
  | queue (ob : Outbound) : OutboundOp (.enqueueOutbound ob)
  | sent (id now : String) : OutboundOp (.markSent id now)
  | handedOff (id now : String) : OutboundOp (.markDelivered id now)
  | ack (consumer : String) (seq : Int) (now : String) : OutboundOp (.ack consumer seq now)

section Outward

variable {P : Platform} {identity : Identity} {assumed : World → Prop}

/-- A thread that only logs, queues and marks outbound messages and moves cursors. -/
abbrev Outward {α : Type} (assumed : World → Prop) (thread : Thread α) : Prop :=
  Prog.Within assumed (StoreChange OutboundOp) (fun _ => True) thread

theorem outward_observe {α : Type} (view : World → α) :
    Outward assumed (Prog.observe view) :=
  within_call fun _ _ => rfl

theorem outward_insertOutboundLog (inner : Inner) (topic : String) :
    Outward assumed (Calls.insertOutboundLog inner topic) :=
  within_storeCall (fun _ => .log inner topic) (by simp [Store.Op.upTo])

theorem outward_enqueueOutbound (ob : Outbound) :
    Outward assumed (Calls.enqueueOutbound ob) :=
  within_storeCall (fun _ => .queue ob) (by simp [Store.Op.upTo])

theorem outward_ack (consumer : String) (seq : Int) :
    Outward assumed (Calls.ack consumer seq) :=
  within_storeCall (fun now => .ack consumer seq now) (by simp [Store.Op.upTo])

theorem outward_markDelivered (id : String) :
    Outward assumed (Calls.markDelivered id) := by
  refine within_storeCall (fun now => .handedOff id now) ?_
  intro now writes left remaining
  simp only [Store.Op.upTo] at remaining
  split at remaining
  · exact nomatch remaining
  · simp only [Option.some.injEq] at remaining
    subst remaining
    exact .sent id now

/-- Handing a packet to the session leaves the store alone. -/
theorem within_publishOn
    {permitted : Store.Op → Prop} (topic : String) (payload : Bytes) (retain : Bool) :
    Prog.Within assumed (StoreChange permitted) (fun _ => True)
      (publishOn topic payload retain) := by
  refine within_call fun input world => ?_
  split
  · split <;> rfl
  · rfl

theorem outward_enqueueReceipt
    (draw : Draw) (recipient refId : String) (status : ReceiptStatus) (topic : String) :
    Outward assumed (enqueueReceipt P identity draw recipient refId status topic) := by
  unfold enqueueReceipt
  split
  · exact .done
  · exact (outward_insertOutboundLog _ _).andThen fun _ =>
      (outward_enqueueOutbound _).andThen fun _ => .done

end Outward

/-! ## The store operations of one ingest -/

/-- A message that ingest accepts under a configuration and a trust store. -/
structure Accepted (P : Platform) (identity : Identity) (cfg : Config) (trust : TrustStore)
    (delivery : Delivery) (inner : Inner) : Prop where
  passed : intercept P identity delivery.payload = .pass
  verified : verifyDelivery P identity cfg trust delivery = .ok inner

namespace Accepted

variable {P : Platform} {identity : Identity} {cfg : Config} {trust : TrustStore}
  {delivery : Delivery} {inner : Inner}

theorem onMsg_eq (accepted : Accepted P identity cfg trust delivery inner) :
    onMsg P identity delivery = verifyPath P identity delivery := by
  rw [onMsg, accepted.passed]

theorem settle_eq (accepted : Accepted P identity cfg trust delivery inner) :
    settle P identity cfg trust delivery =
      acceptMessage P identity cfg trust delivery inner := by
  rw [settle, accepted.verified]

/-- An accepted message is fresh when it is checked. -/
theorem fresh (accepted : Accepted P identity cfg trust delivery inner) :
    freshEnough P delivery.clock.freshness inner.ts cfg.freshnessSecs = true := by
  obtain ⟨_, signed, _, finalized, _⟩ := verifyIncoming_ok accepted.verified
  have ts : inner.ts = signed.ts := by
    rw [finalized.same]
  rw [ts]
  exact finalized.fresh

/-- A payload is accepted as at most one message. -/
theorem unique
    {other : Inner} (accepted : Accepted P identity cfg trust delivery inner)
    (otherAccepted : Accepted P identity cfg trust delivery other) : other = inner := by
  have verified := otherAccepted.verified
  rw [accepted.verified] at verified
  cases verified
  rfl

/-- The callback of an accepted message, after it has read the files, is the handling
of the message. -/
theorem exec_eq
    {world : World}
    (accepted : Accepted P identity (world.config P) (world.trust P) delivery inner)
    (inputs : Nat → Input) :
    (onMsg P identity delivery).exec inputs world =
      (acceptMessage P identity (world.config P) (world.trust P) delivery inner).exec
        (fun index => inputs (index + 2)) world := by
  rw [accepted.onMsg_eq, ← accepted.settle_eq]
  rfl

end Accepted

/-- An accepted message that is neither a presence beacon nor a receipt. -/
def Inner.Plain (inner : Inner) : Prop :=
  inner.ctype ≠ CTYPE_PRESENCE ∧ ¬ (inner.kind = .receipt ∨ inner.ctype = CTYPE_RECEIPT)

theorem acceptMessage_of_plain
    {P : Platform} {identity : Identity} {cfg : Config} {trust : TrustStore}
    {delivery : Delivery} {inner : Inner} (plain : inner.Plain) :
    acceptMessage P identity cfg trust delivery inner = (do
      if ← grantReplayed P trust delivery.clock.guardCheck inner then
        let _ ← Calls.recordRejection .replayedGrant (some inner.sender) delivery.topic ""
        return .replayed
      else storeMessage P identity cfg delivery inner) := by
  rw [acceptMessage, if_neg plain.1, if_neg plain.2]

/-- The operations an accepted message may lead to. -/
inductive AcceptedOp (P : Platform) (identity : Identity) (cfg : Config)
    (trust : TrustStore) (delivery : Delivery) (inner : Inner) : Store.Op → Prop
  | presence (beacon : PresenceBeacon) (now : String)
      (ctype : inner.ctype = CTYPE_PRESENCE)
      (parsed : P.presenceJson.decode inner.body = some beacon) :
      AcceptedOp P identity cfg trust delivery inner
        (.upsertPresence inner.sender beacon inner.ts now)
  | delivered (rcpt : Receipt) (carried : inner.receipt = some rcpt)
      (status : rcpt.status = .delivered)
      (receipt : inner.kind = .receipt ∨ inner.ctype = CTYPE_RECEIPT) :
      AcceptedOp P identity cfg trust delivery inner
        (.applyDeliveryReceipt rcpt.refId inner.ts)
  | read (rcpt : Receipt) (carried : inner.receipt = some rcpt)
      (status : rcpt.status = .read)
      (receipt : inner.kind = .receipt ∨ inner.ctype = CTYPE_RECEIPT) :
      AcceptedOp P identity cfg trust delivery inner (.applyReadReceipt rcpt.refId inner.ts)
  | grantSeen (claims : GrantClaims) (now : String) (plain : inner.Plain)
      (looked : guardClaims P trust delivery.clock.guardCheck inner = some claims) :
      AcceptedOp P identity cfg trust delivery inner (.seenGrant claims.id now)
  | replayed (now : String) (plain : inner.Plain) :
      AcceptedOp P identity cfg trust delivery inner
        (.recordRejection .replayedGrant (some inner.sender) delivery.topic "" now)
  | insert (plain : inner.Plain) :
      AcceptedOp P identity cfg trust delivery inner (.insertInbound inner delivery.topic)
  | bounds (plain : inner.Plain) :
      AcceptedOp P identity cfg trust delivery inner
        (.enforceBounds cfg.maxMessages cfg.maxBytes)
  | boundsUpTo (deletions : Nat) (plain : inner.Plain) :
      AcceptedOp P identity cfg trust delivery inner
        (.enforceBoundsUpTo cfg.maxMessages cfg.maxBytes deletions)
  | receiptLog (reply : Inner) (wrapper : Wrapper) (plain : inner.Plain)
      (wanted : wantsReceipt identity cfg inner = true)
      (built : build P identity delivery.draw
        (receiptOpts inner.sender inner.id .delivered) = .ok (reply, wrapper)) :
      AcceptedOp P identity cfg trust delivery inner
        (.insertOutboundLog reply delivery.topic)
  | receiptQueue (reply : Inner) (wrapper : Wrapper) (plain : inner.Plain)
      (wanted : wantsReceipt identity cfg inner = true)
      (built : build P identity delivery.draw
        (receiptOpts inner.sender inner.id .delivered) = .ok (reply, wrapper)) :
      AcceptedOp P identity cfg trust delivery inner
        (.enqueueOutbound (outboxEntry P delivery.topic reply wrapper))

/-- The operations of the ingest of a payload, when configurations and trust stores
come from the given states. -/
inductive IngestOp (P : Platform) (identity : Identity) (seen : World → Prop)
    (delivery : Delivery) : Store.Op → Prop
  | reject (reason : RejectReason) (claimed : Option String) (detail now : String) :
      IngestOp P identity seen delivery
        (.recordRejection reason claimed delivery.topic detail now)
  | accepted (atConfig atTrust : World) (inner : Inner) (operation : Store.Op)
      (configSeen : seen atConfig) (trustSeen : seen atTrust)
      (accepted :
        Accepted P identity (atConfig.config P) (atTrust.trust P) delivery inner)
      (permitted :
        AcceptedOp P identity (atConfig.config P) (atTrust.trust P) delivery inner operation) :
      IngestOp P identity seen delivery operation

/-! ## The actions of the callback -/

/-- What one action of the callback does: nothing, a store operation, or a change of the
subscribers or of the pending pairings. -/
inductive IngestStep (permitted : Store.Op → Prop) (before : World) : World → Prop
  | idle : IngestStep permitted before before
  | stores (operation : Store.Op) (permits : permitted operation) :
      IngestStep permitted before { before with store := before.store.apply operation }
  | pushes (subscribers : List Subscriber) :
      IngestStep permitted before { before with subscribers }
  | offers (pending : Std.TreeMap String PendingPair) :
      IngestStep permitted before { before with pending }

theorem IngestStep.storeChange
    {permitted : Store.Op → Prop} {before after : World}
    (step : IngestStep permitted before after) : StoreChange permitted before after := by
  cases step with
  | stores operation permits =>
      exact Or.inr ⟨operation, permits, rfl⟩
  | _ =>
      exact Or.inl rfl

theorem IngestStep.mono
    {permitted other : Store.Op → Prop} {before after : World}
    (step : IngestStep permitted before after)
    (implies : ∀ operation, permitted operation → other operation) :
    IngestStep other before after := by
  cases step with
  | idle =>
      exact .idle
  | stores operation permits =>
      exact .stores operation (implies operation permits)
  | pushes subscribers =>
      exact .pushes subscribers
  | offers pending =>
      exact .offers pending

section Confinement

variable {P : Platform} {identity : Identity} {cfg : Config} {trust : TrustStore}
  {delivery : Delivery} {inner : Inner} {assumed : World → Prop}

/-- A thread whose actions are those of the callback. -/
abbrev IngestSteps {α : Type} (assumed : World → Prop) (permitted : Store.Op → Prop)
    (thread : Thread α) : Prop :=
  Prog.Within assumed (IngestStep permitted) (fun _ => True) thread

theorem IngestSteps.confined
    {α : Type} {permitted : Store.Op → Prop} {thread : Thread α}
    (steps : IngestSteps assumed permitted thread) :
    Prog.Within assumed (StoreChange permitted) (fun _ => True) thread :=
  Prog.Within.weaken steps (fun _ _ _ step => step.storeChange) fun _ _ => trivial

private theorem steps_storeCall
    {α : Type} {permitted : Store.Op → Prop} {operation : String → Store.Op}
    {result : Store → α} (whole : ∀ now, permitted (operation now))
    (part : ∀ now writes left, (operation now).upTo writes = some left → permitted left) :
    IngestSteps assumed permitted (storeCall operation result) := by
  refine .call (fun input world _ => ?_) fun _ _ _ => trivial
  cases input.fault with
  | none =>
      exact .stores _ (whole input.now)
  | some writes =>
      dsimp only [Store.attempt]
      split
      · rename_i remaining left
        exact .stores remaining (part _ _ _ left)
      · exact .idle

private theorem steps_enqueueReceipt
    (plain : inner.Plain) (wanted : wantsReceipt identity cfg inner = true) :
    IngestSteps assumed (AcceptedOp P identity cfg trust delivery inner)
      (enqueueReceipt P identity delivery.draw inner.sender inner.id .delivered
        delivery.topic) := by
  unfold enqueueReceipt
  split
  · exact .done
  · rename_i reply wrapper built
    refine Prog.Within.andThen (steps_storeCall (fun _ => ?_) (by simp [Store.Op.upTo]))
      fun _ => Prog.Within.andThen (steps_storeCall (fun _ => ?_) (by simp [Store.Op.upTo]))
        fun _ => .done
    · exact .receiptLog reply wrapper plain wanted built
    · exact .receiptQueue reply wrapper plain wanted built

theorem steps_offerPending {permitted : Store.Op → Prop} (entry : PendingPair) :
    IngestSteps assumed permitted (offerPending entry) :=
  .call (fun _ _ _ => .offers _) fun _ _ _ => trivial

theorem steps_pushStored {permitted : Store.Op → Prop} (seq : Int) :
    IngestSteps assumed permitted (pushStored seq) := by
  refine Prog.Within.andThen (.call (fun _ _ _ => .idle) fun _ _ _ => trivial) fun found => ?_
  split
  · exact .call (fun _ _ _ => .pushes _) fun _ _ _ => trivial
  · exact .done

theorem confined_pushStored {permitted : Store.Op → Prop} (seq : Int) :
    Prog.Within assumed (StoreChange permitted) (fun _ => True) (pushStored seq) :=
  (steps_pushStored seq).confined

private theorem steps_storeMessage (plain : inner.Plain) :
    IngestSteps assumed (AcceptedOp P identity cfg trust delivery inner)
      (storeMessage P identity cfg delivery inner) := by
  refine Prog.Within.andThen
    (steps_storeCall (fun _ => .insert plain) (by simp [Store.Op.upTo])) fun found => ?_
  split
  · refine Prog.Within.andThen (steps_storeCall (fun _ => .bounds plain) ?_) fun _ =>
      Prog.Within.andThen (steps_pushStored _) fun _ => ?_
    · intro _ writes left remaining
      simp only [Store.Op.upTo, Option.some.injEq] at remaining
      subst remaining
      exact .boundsUpTo writes plain
    · split
      · rename_i wanted
        exact Prog.Within.andThen (steps_enqueueReceipt plain wanted) fun _ => .done
      · exact .done
  · exact .done
  · exact .done

private theorem steps_grantReplayed (plain : inner.Plain) :
    IngestSteps assumed (AcceptedOp P identity cfg trust delivery inner)
      (grantReplayed P trust delivery.clock.guardCheck inner) := by
  unfold grantReplayed
  split
  · exact .done
  · rename_i claims looked
    exact Prog.Within.andThen
      (steps_storeCall (fun now => .grantSeen claims now plain looked)
        (by simp [Store.Op.upTo])) fun _ => .done

theorem steps_acceptMessage :
    IngestSteps assumed (AcceptedOp P identity cfg trust delivery inner)
      (acceptMessage P identity cfg trust delivery inner) := by
  unfold acceptMessage
  by_cases presence : inner.ctype = CTYPE_PRESENCE
  · rw [if_pos presence]
    split
    · rename_i beacon parsed
      exact Prog.Within.andThen
        (steps_storeCall (fun now => .presence beacon now presence parsed)
          (by simp [Store.Op.upTo])) fun _ => .done
    · exact .done
  · rw [if_neg presence]
    by_cases receipt : inner.kind = .receipt ∨ inner.ctype = CTYPE_RECEIPT
    · rw [if_pos receipt]
      split
      · rename_i rcpt carried
        refine Prog.Within.andThen ?_ fun _ => .done
        unfold applyReceipt
        split
        · rename_i status
          exact steps_storeCall (fun _ => .delivered rcpt carried status receipt)
            (by simp [Store.Op.upTo])
        · rename_i status
          exact steps_storeCall (fun _ => .read rcpt carried status receipt)
            (by simp [Store.Op.upTo])
      · exact .done
    · rw [if_neg receipt]
      have plain : inner.Plain := ⟨presence, receipt⟩
      refine Prog.Within.andThen (steps_grantReplayed plain) fun replayed => ?_
      split
      · exact Prog.Within.andThen
          (steps_storeCall (fun now => .replayed now plain) (by simp [Store.Op.upTo]))
          fun _ => .done
      · exact steps_storeMessage plain

theorem confined_acceptMessage :
    Prog.Within assumed (StoreChange (AcceptedOp P identity cfg trust delivery inner))
      (fun _ => True) (acceptMessage P identity cfg trust delivery inner) :=
  steps_acceptMessage.confined

/-- Whatever other threads do meanwhile, the callback writes to the store only what
the payload, and the files as some visited state had them, permit, and touches nothing else
but the subscribers and the pending pairings. -/
theorem steps_onMsg :
    IngestSteps assumed (IngestOp P identity assumed delivery) (onMsg P identity delivery) := by
  unfold onMsg
  split
  · exact .done
  · exact Prog.Within.andThen (steps_offerPending _) fun _ => .done
  · exact Prog.Within.andThen
      (steps_storeCall (fun now => .reject _ _ _ now) (by simp [Store.Op.upTo]))
      fun _ => .done
  · rename_i passed
    have observes {α : Type} (view : World → α) :
        Prog.Within assumed (IngestStep (IngestOp P identity assumed delivery))
          (fun value => ∃ world, assumed world ∧ value = view world)
          (Prog.observe view : Thread α) :=
      .call (fun _ _ _ => .idle) fun _ world holds => ⟨world, holds, rfl⟩
    refine Prog.Within.bind (observes _) fun cfg configured => ?_
    obtain ⟨atConfig, configSeen, rfl⟩ := configured
    refine Prog.Within.bind (observes _) fun trust loaded => ?_
    obtain ⟨atTrust, trustSeen, rfl⟩ := loaded
    unfold settle
    split
    · rename_i inner verified
      refine steps_acceptMessage.weaken (fun _ _ _ step => step.mono ?_) fun _ _ => trivial
      intro operation permitted
      exact .accepted atConfig atTrust inner operation configSeen trustSeen ⟨passed, verified⟩
        permitted
    · exact Prog.Within.andThen
        (steps_storeCall (fun now => .reject _ _ _ now) (by simp [Store.Op.upTo]))
        fun _ => .done

theorem confined_onMsg :
    Prog.Within assumed (StoreChange (IngestOp P identity assumed delivery))
      (fun _ => True) (onMsg P identity delivery) :=
  steps_onMsg.confined

end Confinement

end AgentMsg
