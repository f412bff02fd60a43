import AgentMsg.Echoes
import AgentMsg.Redelivery

/-!
# Payloads that vanish

A payload that is not taken in should be found in the rejections table.  The callback
has branches that do neither: it drops whatever names its own daemon as the signer,
beacons and receipts that lack their content, and a message whose id another sender has
used.  Everywhere else a payload has its effect, or the store call that records it fails.
-/

namespace AgentMsg

open Checked

/-! ## Effects -/

/-- The presence table shows the beacon, or a newer one of the same agent. -/
def Store.Reflects (store : Store) (agent : String) (beacon : PresenceBeacon)
    (lastSeen : String) : Prop :=
  ∃ row, store.presence[agent]? = some row ∧
    (beacon.seq < row.seq ∨ ∃ now, row = presenceRow beacon lastSeen now)

/-- The operation of a receipt. -/
def receiptOp (rcpt : Receipt) (ts : String) : Store.Op :=
  match rcpt.status with
  | .delivered => .applyDeliveryReceipt rcpt.refId ts
  | .read => .applyReadReceipt rcpt.refId ts

/-- A message with the id and the sender is stored. -/
def Store.HasFrom (store : Store) (inner : Inner) : Prop :=
  ∃ row ∈ store.messages.rows, row.2.id = inner.id ∧ row.2.sender = inner.sender

/-- The ingest of the payload had an effect that can be seen, or is recorded as a
rejection. -/
inductive Manifest (P : Platform) (identity : Identity) (world : World)
    (delivery : Delivery) (final : World) : Outcome → Prop
  | stored (seq : Int) (inner : Inner)
      (result : IngestResult P identity world delivery final (.stored seq inner)) :
      Manifest P identity world delivery final (.stored seq inner)
  | pending {outcome : Outcome} (entry : PendingPair)
      (found : intercept P identity delivery.payload = .hello entry)
      (present : (final.pending[entry.name]?).isSome = true) :
      Manifest P identity world delivery final outcome
  | presence {outcome : Outcome} (inner : Inner) (beacon : PresenceBeacon)
      (accepted : Accepted P identity (world.config P) (world.trust P) delivery inner)
      (ctype : inner.ctype = CTYPE_PRESENCE)
      (parsed : P.presenceJson.decode inner.body = some beacon)
      (reflects : final.store.Reflects inner.sender beacon inner.ts) :
      Manifest P identity world delivery final outcome
  | receipt {outcome : Outcome} (inner : Inner) (rcpt : Receipt)
      (accepted : Accepted P identity (world.config P) (world.trust P) delivery inner)
      (other : inner.ctype ≠ CTYPE_PRESENCE)
      (kind : inner.kind = .receipt ∨ inner.ctype = CTYPE_RECEIPT)
      (carried : inner.receipt = some rcpt)
      (applied : final.store = world.store.apply (receiptOp rcpt inner.ts)) :
      Manifest P identity world delivery final outcome
  | duplicate {outcome : Outcome} (inner : Inner)
      (accepted : Accepted P identity (world.config P) (world.trust P) delivery inner)
      (plain : inner.Plain) (known : world.store.HasFrom inner) :
      Manifest P identity world delivery final outcome
  | rejected {outcome : Outcome}
      (recorded : world.store.rejections.length < final.store.rejections.length) :
      Manifest P identity world delivery final outcome

/-- The payloads that the daemon itself publishes. -/
inductive Published (P : Platform) (identity : Identity) : Bytes → Prop
  | automatic (draw : Draw) (inner : Inner) (wrapper : Wrapper)
      (automatic : Automatic P identity draw inner wrapper) :
      Published P identity (P.wrapperJson.encode wrapper)
  | sent (cfg : Config) (trust : TrustStore) (p : SendParams) (draw : Draw) (inner : Inner)
      (wrapper : Wrapper) (sends : Sends P identity cfg trust p draw inner wrapper) :
      Published P identity (P.wrapperJson.encode wrapper)

/-! ## When there is an effect -/

/-- The message can be stored, or its grant is found to be used, and the store takes what
follows from it. -/
def Settles (world : World) (inner : Inner) (inputs : Nat → Input) :
    Option GrantClaims → Prop
  | none => world.store.messages.holds inner.id = false ∧ (inputs 2).Succeeds
  | some claims =>
      (world.store.messages.holds inner.id = false ∨
        (inputs 2).Succeeds ∧ world.store.grantUsed (some claims) = true) ∧
      (inputs 3).Succeeds

/-- The payload takes a branch that leaves a trace, and the store call on which the trace
depends succeeds. -/
inductive Traceable (P : Platform) (identity : Identity) (world : World)
    (delivery : Delivery) (inputs : Nat → Input) : Prop
  | hello (entry : PendingPair)
      (found : intercept P identity delivery.payload = .hello entry) :
      Traceable P identity world delivery inputs
  | badHello (reason : RejectReason) (claimed : String)
      (found : intercept P identity delivery.payload = .badHello reason claimed)
      (succeeds : (inputs 0).Succeeds) :
      Traceable P identity world delivery inputs
  | unverified (info : RejectInfo)
      (passed : intercept P identity delivery.payload = .pass)
      (failed : verifyDelivery P identity (world.config P) (world.trust P) delivery =
        .error info)
      (succeeds : (inputs 2).Succeeds) :
      Traceable P identity world delivery inputs
  | presence (inner : Inner) (beacon : PresenceBeacon)
      (accepted : Accepted P identity (world.config P) (world.trust P) delivery inner)
      (ctype : inner.ctype = CTYPE_PRESENCE)
      (parsed : P.presenceJson.decode inner.body = some beacon)
      (told : (inputs 2).Succeeds ∨ world.store.Reflects inner.sender beacon inner.ts) :
      Traceable P identity world delivery inputs
  | receipt (inner : Inner) (rcpt : Receipt)
      (accepted : Accepted P identity (world.config P) (world.trust P) delivery inner)
      (other : inner.ctype ≠ CTYPE_PRESENCE)
      (kind : inner.kind = .receipt ∨ inner.ctype = CTYPE_RECEIPT)
      (carried : inner.receipt = some rcpt)
      (told : (inputs 2).Succeeds ∨
        world.store = world.store.apply (receiptOp rcpt inner.ts)) :
      Traceable P identity world delivery inputs
  | known (inner : Inner)
      (accepted : Accepted P identity (world.config P) (world.trust P) delivery inner)
      (plain : inner.Plain) (known : world.store.HasFrom inner) :
      Traceable P identity world delivery inputs
  | settled (inner : Inner)
      (accepted : Accepted P identity (world.config P) (world.trust P) delivery inner)
      (plain : inner.Plain)
      (settles : Settles world inner inputs
        (guardClaims P (world.trust P) delivery.clock.guardCheck inner)) :
      Traceable P identity world delivery inputs

/-- No branch that leaves a trace is taken by a payload that names the daemon. -/
theorem untraceable_of_echo
    {P : Platform} {identity : Identity} {world : World} {delivery : Delivery}
    {inputs : Nat → Input} (echo : intercept P identity delivery.payload = .echo) :
    ¬ Traceable P identity world delivery inputs := by
  have unaccepted {inner : Inner} {cfg : Config} {trust : TrustStore} :
      ¬ Accepted P identity cfg trust delivery inner := by
    intro accepted
    have passed := accepted.passed
    rw [echo] at passed
    cases passed
  intro traceable
  cases traceable with
  | hello _ found =>
      rw [echo] at found
      cases found
  | badHello _ _ found _ =>
      rw [echo] at found
      cases found
  | unverified _ passed _ _ =>
      rw [echo] at passed
      cases passed
  | presence _ _ accepted _ _ _ =>
      exact unaccepted accepted
  | receipt _ _ accepted _ _ _ _ =>
      exact unaccepted accepted
  | known _ accepted _ _ =>
      exact unaccepted accepted
  | settled _ accepted _ _ =>
      exact unaccepted accepted

section Paths

variable {P : Platform} {identity : Identity} {world final : World} {delivery : Delivery}
  {inner : Inner} {inputs : Nat → Input} {outcome : Outcome}

/-- A call that records a rejection does so exactly when it succeeds. -/
theorem recordRejection_grows_iff
    (store : Store) (reason : RejectReason) (claimed : Option String) (topic detail : String)
    (input : Input) :
    store.rejections.length < (store.attempt
        (.recordRejection reason claimed topic detail input.now) input.fault).rejections.length ↔
      input.Succeeds := by
  unfold Input.Succeeds
  cases input.fault with
  | none =>
      simp [Store.attempt, Store.apply, Store.recordRejection]
  | some writes =>
      simp [Store.attempt, Store.Op.upTo]

theorem Store.upsertPresence_reflects
    (store : Store) (agent : String) (beacon : PresenceBeacon) (lastSeen now : String) :
    (store.upsertPresence agent beacon lastSeen now).Reflects agent beacon lastSeen := by
  rcases store.upsertPresence_cases agent beacon lastSeen now with
    recorded | ⟨kept, old, found, newer⟩
  · rw [recorded]
    exact ⟨_, Std.TreeMap.getElem?_insert_self, Or.inr ⟨now, rfl⟩⟩
  · rw [kept]
    exact ⟨old, found, Or.inl newer⟩

theorem Store.aside_rejections (store : Store) (input : Input) :
    (store.aside P inner input).rejections = store.rejections := by
  unfold aside
  cases operation : asideOp P inner with
  | none =>
      rfl
  | some update =>
      have kept (now : String) (writes : Nat) :
          (store.apply (update now)).rejections = store.rejections ∧
            (update now).upTo writes = none := by
        unfold asideOp at operation
        split at operation
        · obtain ⟨beacon, _, rfl⟩ := Option.map_eq_some_iff.mp operation
          refine ⟨?_, rfl⟩
          rcases store.upsertPresence_cases inner.sender beacon inner.ts now with
            recorded | ⟨same, _⟩
          · show (store.upsertPresence _ _ _ _).rejections = _
            rw [recorded]
          · exact congrArg rejections same
        · obtain ⟨⟨refId, status⟩, _, rfl⟩ := Option.map_eq_some_iff.mp operation
          cases status <;> exact ⟨rfl, rfl⟩
      cases fault : input.fault with
      | none =>
          exact (kept input.now 0).1
      | some writes =>
          simp only [attempt, (kept input.now writes).2]

/-! ## Messages -/

/-- After a row is inserted, the outcome does not depend on what fails. -/
theorem meets_stored (cfg : Config) (seq : Int) (world : World) :
    Prog.Meets (fun _ => True)
      (do
        let _ ← Calls.enforceBounds cfg.maxMessages cfg.maxBytes
        pushStored seq
        if wantsReceipt identity cfg inner then
          enqueueReceipt P identity delivery.draw inner.sender inner.id .delivered delivery.topic
          return Outcome.stored seq inner
        else return Outcome.stored seq inner)
      world fun _ outcome => outcome = .stored seq inner := by
  refine Prog.meets_bind.mpr fun _ _ => Prog.meets_bind.mpr ?_
  refine (meets_quiet (confined_pushStored seq)).weaken fun pushed _ _ => ?_
  split
  · refine Prog.meets_bind.mpr ?_
    exact (meets_quiet (quiet_of_outward (outward_enqueueReceipt _ _ _ _ _))).weaken
      fun _ _ _ => rfl
  · rfl

/-- A message is stored when its id is free and the call succeeds; otherwise its handling
leaves no trace. -/
theorem storeMessage_course
    (cfg : Config) (inputs : Nat → Input) (world : World) :
    (world.store.messages.holds inner.id = false ∧ (inputs 0).Succeeds ∧
        ((storeMessage P identity cfg delivery inner).exec inputs world).2 =
          .stored (world.store.messages.last + 1) inner) ∨
      (¬ (world.store.messages.holds inner.id = false ∧ (inputs 0).Succeeds) ∧
        ((storeMessage P identity cfg delivery inner).exec inputs world).2.storedInner = none ∧
        ((storeMessage P identity cfg delivery inner).exec inputs world).1.store.rejections =
          world.store.rejections) := by
  unfold storeMessage Calls.insertInbound
  rw [exec_storeCall_bind]
  cases fault : (inputs 0).fault with
  | some writes =>
      refine Or.inr ⟨fun both => ?_, rfl, rfl⟩
      rw [Input.Succeeds, fault] at both
      cases both.2
  | none =>
      rcases world.store.messages.insertOrIgnore_cases
          (Store.inboundRow inner delivery.topic) with ⟨taken, _, result⟩ | ⟨fresh, _, result⟩
      · refine Or.inr ⟨fun both => ?_, ?_⟩
        · rw [show (Store.inboundRow inner delivery.topic).id = inner.id from rfl, both.1] at taken
          cases taken
        · simp only [Store.insertInbound, result]
          exact ⟨rfl, rfl⟩
      · refine Or.inl ⟨fresh, fault, ?_⟩
        simp only [Store.insertInbound, result]
        exact Prog.exec_of_meets (meets_stored cfg _ _) fun _ => trivial

theorem Store.seenGrant_used (store : Store) (claims : GrantClaims) (now : String) :
    (store.seenGrant claims.id now).2 = store.grantUsed (some claims) := by
  unfold seenGrant grantUsed
  split
  · rename_i seen
    exact seen.symm
  · rename_i unseen
    exact (Bool.eq_false_iff.mpr unseen).symm

theorem Store.seenGrant_rejections (store : Store) (grantId now : String) :
    (store.seenGrant grantId now).1.rejections = store.rejections := by
  unfold seenGrant
  split <;> rfl

/-- Storing a message in a state with the same log and the same rejections. -/
theorem storeMessage_traced_iff
    {cfg : Config} {middle : World} (log : middle.store.messages = world.store.messages)
    (rejections : middle.store.rejections = world.store.rejections) :
    ((∃ seq found, ((storeMessage P identity cfg delivery inner).exec inputs middle).2 =
        .stored seq found) ∨
      world.store.rejections.length <
        ((storeMessage P identity cfg delivery inner).exec inputs
          middle).1.store.rejections.length) ↔
      world.store.messages.holds inner.id = false ∧ (inputs 0).Succeeds := by
  rw [← log, ← rejections]
  rcases @storeMessage_course P identity delivery inner cfg inputs middle with
    ⟨fresh, succeeds, stored⟩ | ⟨unsettled, unstored, same⟩
  · exact iff_of_true (Or.inl ⟨_, _, stored⟩) ⟨fresh, succeeds⟩
  · refine iff_of_false ?_ unsettled
    rintro (⟨seq, found, stored⟩ | grew)
    · rw [stored] at unstored
      cases unstored
    · rw [same] at grew
      exact absurd grew (Nat.lt_irrefl _)

/-- The ingest of an accepted message stores it or records a rejection exactly when it
settles. -/
theorem settles_iff
    (accepted : Accepted P identity (world.config P) (world.trust P) delivery inner)
    (plain : inner.Plain) :
    ((∃ seq found, ((onMsg P identity delivery).exec inputs world).2 = .stored seq found) ∨
      world.store.rejections.length <
        ((onMsg P identity delivery).exec inputs world).1.store.rejections.length) ↔
      Settles world inner inputs
        (guardClaims P (world.trust P) delivery.clock.guardCheck inner) := by
  rw [accepted.exec_eq inputs, acceptMessage_of_plain plain]
  unfold grantReplayed
  cases guardClaims P (world.trust P) delivery.clock.guardCheck inner with
  | none =>
      exact storeMessage_traced_iff rfl rfl
  | some claims =>
      dsimp only
      unfold Calls.seenGrant
      rw [exec_storeCall_bind_bind, Prog.exec_pure_bind]
      cases fault : (inputs 2).fault with
      | some writes =>
          have unseen : ¬ (inputs 2).Succeeds := by
            rw [Input.Succeeds, fault]
            exact Option.some_ne_none writes
          refine (storeMessage_traced_iff rfl rfl).trans ?_
          rw [Settles, or_iff_left fun seen => unseen seen.1]
          rfl
      | none =>
          have looked : (world.store.seenGrant claims.id "").2 =
              world.store.grantUsed (some claims) :=
            world.store.seenGrant_used claims ""
          rw [looked, unwrapOr]
          cases used : world.store.grantUsed (some claims) with
          | true =>
              have grows := recordRejection_grows_iff
                (world.store.seenGrant claims.id (inputs 2).now).1 .replayedGrant
                (some inner.sender) delivery.topic "" (inputs 3)
              rw [Store.seenGrant_rejections] at grows
              rw [if_pos rfl, Settles, and_iff_right (Or.inr ⟨fault, used⟩)]
              refine (or_iff_right ?_).trans grows
              rintro ⟨_, _, stored⟩
              cases stored
          | false =>
              refine (storeMessage_traced_iff (world.store.seenGrant_messages _ _)
                (world.store.seenGrant_rejections _ _)).trans ?_
              rw [Settles, used, or_iff_left fun seen => Bool.false_ne_true seen.2]

/-! ## Beacons and receipts -/

theorem unplain_of_presence (ctype : inner.ctype = CTYPE_PRESENCE) : ¬ inner.Plain :=
  fun plain => plain.1 ctype

theorem unplain_of_receipt (kind : inner.kind = .receipt ∨ inner.ctype = CTYPE_RECEIPT) :
    ¬ inner.Plain :=
  fun plain => plain.2 kind

/-- The ingest of a beacon or a receipt changes the store as its one call does. -/
theorem onMsg_aside
    (accepted : Accepted P identity (world.config P) (world.trust P) delivery inner)
    (unplain : ¬ inner.Plain) :
    ((onMsg P identity delivery).exec inputs world).1.store =
      world.store.aside P inner (inputs 2) := by
  rw [accepted.exec_eq inputs]
  exact exec_aside unplain _ _

theorem reflects_iff
    (accepted : Accepted P identity (world.config P) (world.trust P) delivery inner)
    (ctype : inner.ctype = CTYPE_PRESENCE) {beacon : PresenceBeacon}
    (parsed : P.presenceJson.decode inner.body = some beacon) :
    ((onMsg P identity delivery).exec inputs world).1.store.Reflects inner.sender beacon
        inner.ts ↔
      (inputs 2).Succeeds ∨ world.store.Reflects inner.sender beacon inner.ts := by
  rw [onMsg_aside accepted (unplain_of_presence ctype), Store.aside, asideOp, if_pos ctype, parsed]
  dsimp only [Option.map_some]
  unfold Input.Succeeds
  cases (inputs 2).fault with
  | none =>
      exact iff_of_true (Store.upsertPresence_reflects _ _ _ _ _) (Or.inl rfl)
  | some writes =>
      exact (or_iff_right (Option.some_ne_none writes)).symm

theorem receiptApplied_iff
    (accepted : Accepted P identity (world.config P) (world.trust P) delivery inner)
    (other : inner.ctype ≠ CTYPE_PRESENCE)
    (kind : inner.kind = .receipt ∨ inner.ctype = CTYPE_RECEIPT) {rcpt : Receipt}
    (carried : inner.receipt = some rcpt) :
    ((onMsg P identity delivery).exec inputs world).1.store =
        world.store.apply (receiptOp rcpt inner.ts) ↔
      (inputs 2).Succeeds ∨ world.store = world.store.apply (receiptOp rcpt inner.ts) := by
  rw [onMsg_aside accepted (unplain_of_receipt kind), Store.aside, asideOp, if_neg other, carried]
  obtain ⟨refId, status⟩ := rcpt
  dsimp only [Option.map_some]
  unfold Input.Succeeds
  cases (inputs 2).fault with
  | none =>
      cases status <;> exact iff_of_true rfl (Or.inl rfl)
  | some writes =>
      cases status <;> exact (or_iff_right (Option.some_ne_none writes)).symm

/-! ## Payloads that are recorded -/

theorem badHello_grows_iff
    {reason : RejectReason} {claimed : String}
    (found : intercept P identity delivery.payload = .badHello reason claimed) :
    world.store.rejections.length <
        ((onMsg P identity delivery).exec inputs world).1.store.rejections.length ↔
      (inputs 0).Succeeds := by
  rw [onMsg, found]
  exact recordRejection_grows_iff _ _ _ _ _ _

theorem unverified_grows_iff
    {info : RejectInfo} (passed : intercept P identity delivery.payload = .pass)
    (failed : verifyDelivery P identity (world.config P) (world.trust P) delivery =
      .error info) :
    world.store.rejections.length <
        ((onMsg P identity delivery).exec inputs world).1.store.rejections.length ↔
      (inputs 2).Succeeds := by
  have settled : settle P identity (world.config P) (world.trust P) delivery = (do
      let _ ← Calls.recordRejection info.reason info.claimedSender delivery.topic ""
      return .rejected) := by
    rw [settle, failed]
  have course : (onMsg P identity delivery).exec inputs world =
      (settle P identity (world.config P) (world.trust P) delivery).exec
        (fun index => inputs (index + 2)) world := by
    rw [onMsg, passed]
    rfl
  rw [course, settled]
  exact recordRejection_grows_iff _ _ _ _ _ _

/-- A recorded rejection means that the payload took a branch that records one. -/
theorem traceable_of_grows
    (grew : world.store.rejections.length <
      ((onMsg P identity delivery).exec inputs world).1.store.rejections.length) :
    Traceable P identity world delivery inputs := by
  cases found : intercept P identity delivery.payload with
  | echo =>
      rw [onMsg, found] at grew
      exact absurd grew (Nat.lt_irrefl _)
  | hello entry =>
      exact .hello entry found
  | badHello reason claimed =>
      exact .badHello reason claimed found ((badHello_grows_iff found).mp grew)
  | pass =>
      cases verified : verifyDelivery P identity (world.config P) (world.trust P) delivery with
      | error info =>
          exact .unverified info found verified ((unverified_grows_iff found verified).mp grew)
      | ok inner =>
          have accepted :
              Accepted P identity (world.config P) (world.trust P) delivery inner :=
            ⟨found, verified⟩
          by_cases plain : inner.Plain
          · exact .settled inner accepted plain
              ((settles_iff accepted plain).mp (Or.inr grew))
          · rw [onMsg_aside accepted plain, Store.aside_rejections] at grew
            exact absurd grew (Nat.lt_irrefl _)

end Paths

/-- An ingest is manifest exactly when the payload takes a branch that leaves a
trace. -/
theorem manifest_iff_traceable
    (P : Platform) (identity : Identity) (world : World) (delivery : Delivery)
    (inputs : Nat → Input) :
    Manifest P identity world delivery ((onMsg P identity delivery).exec inputs world).1
        ((onMsg P identity delivery).exec inputs world).2 ↔
      Traceable P identity world delivery inputs := by
  constructor
  · intro manifest
    generalize run : (onMsg P identity delivery).exec inputs world = result at manifest
    obtain ⟨final, outcome⟩ := result
    cases manifest with
    | stored seq inner result =>
        cases result with
        | quiet unstored _ =>
            cases unstored
        | stored _ accepted plain _ _ _ =>
            refine .settled inner accepted plain ((settles_iff accepted plain).mp (Or.inl ?_))
            rw [run]
            exact ⟨_, _, rfl⟩
    | pending entry found _ =>
        exact .hello entry found
    | presence inner beacon accepted ctype parsed reflects =>
        refine .presence inner beacon accepted ctype parsed
          ((reflects_iff accepted ctype parsed).mp ?_)
        rw [run]
        exact reflects
    | receipt inner rcpt accepted other kind carried applied =>
        refine .receipt inner rcpt accepted other kind carried
          ((receiptApplied_iff accepted other kind carried).mp ?_)
        rw [run]
        exact applied
    | duplicate inner accepted plain known =>
        exact .known inner accepted plain known
    | rejected recorded =>
        refine traceable_of_grows ?_
        rw [run]
        exact recorded
  · intro traceable
    cases traceable with
    | hello entry found =>
        refine .pending entry found ?_
        rw [onMsg, found, Std.TreeMap.isSome_getElem?_eq_contains]
        exact Std.TreeMap.contains_insertIfNew_self
    | badHello reason claimed found succeeds =>
        exact .rejected ((badHello_grows_iff found).mpr succeeds)
    | unverified info passed failed succeeds =>
        exact .rejected ((unverified_grows_iff passed failed).mpr succeeds)
    | presence inner beacon accepted ctype parsed told =>
        exact .presence inner beacon accepted ctype parsed
          ((reflects_iff accepted ctype parsed).mpr told)
    | receipt inner rcpt accepted other kind carried told =>
        exact .receipt inner rcpt accepted other kind carried
          ((receiptApplied_iff accepted other kind carried).mpr told)
    | known inner accepted plain known =>
        exact .duplicate inner accepted plain known
    | settled inner accepted plain settles =>
        rcases (settles_iff accepted plain).mpr settles with ⟨seq, found, stored⟩ | grew
        · have result : IngestResult P identity world delivery
              ((onMsg P identity delivery).exec inputs world).1
              ((onMsg P identity delivery).exec inputs world).2 :=
            Prog.exec_of_meets onMsg_meets fun _ => trivial
          rw [stored] at result ⊢
          exact .stored seq found result
        · exact .rejected grew

/-! ## A forged key id -/

/-- Everything that is published comes out of the builder. -/
theorem Published.built
    {P : Platform} {identity : Identity} {payload : Bytes}
    (published : Published P identity payload) :
    ∃ draw opts inner wrapper, build P identity draw opts = .ok (inner, wrapper) ∧
      payload = P.wrapperJson.encode wrapper := by
  cases published with
  | automatic draw inner wrapper automatic =>
      cases automatic with
      | receipt _ _ _ _ _ built =>
          exact ⟨draw, _, inner, wrapper, built, rfl⟩
      | presence _ _ _ built =>
          exact ⟨draw, _, inner, wrapper, built, rfl⟩
      | hello _ _ built =>
          exact ⟨draw, _, inner, wrapper, built, rfl⟩
  | sent cfg trust p draw inner wrapper sends =>
      obtain ⟨grant, encryptTo, _, _, built⟩ := sends.built
      exact ⟨draw, _, inner, wrapper, built, rfl⟩

/-- A wrapper that names Alice as its signer and has no signature. -/
def forgedEcho : Wrapper :=
  { v := PROTOCOL_VERSION, alg := ALG_ML_DSA_65, kid := some "alice#00", msg := "" }

def forgedDelivery : Delivery :=
  { topic := "chat", payload := (Reference.platform {}).wrapperJson.encode forgedEcho,
    clock := Reference.clock, draw := Reference.draw }

theorem forgedEcho_unpublished :
    ¬ Published (Reference.platform {}) Reference.alice forgedDelivery.payload := by
  intro published
  obtain ⟨draw, opts, inner, wrapper, built, same⟩ := published.built
  have lawful := Reference.wrapperJson_lawful {}
  have decoded := lawful forgedEcho
  rw [show (Reference.platform {}).wrapperJson.encode forgedEcho = _ from same, lawful wrapper,
    Option.some.injEq, (build_ok built).1] at decoded
  unfold wrapped at decoded
  split at decoded
  · have unnamed : none = some "alice#00" := congrArg Wrapper.kid decoded
    cases unnamed
  · have unsigned : some _ = none := congrArg Wrapper.sig decoded
    cases unsigned

/-- Alice's daemon drops a payload that she did not make, and nothing tells of it. -/
theorem forged_echo_unrecorded :
    ¬ ∀ (delivery : Delivery) (inputs : Nat → Input), (∀ index, (inputs index).Succeeds) →
      ¬ Published (Reference.platform {}) Reference.alice delivery.payload →
      Manifest (Reference.platform {}) Reference.alice {} delivery
        ((onMsg (Reference.platform {}) Reference.alice delivery).exec inputs {}).1
        ((onMsg (Reference.platform {}) Reference.alice delivery).exec inputs {}).2 := by
  intro manifest
  have echo : intercept (Reference.platform {}) Reference.alice forgedDelivery.payload = .echo :=
    (intercept_echo_iff (Reference.wrapperJson_lawful {} forgedEcho)).mpr (by decide)
  have manifest := (manifest_iff_traceable _ _ _ _ _).mp
    (manifest forgedDelivery (fun _ => {}) (fun _ => rfl) forgedEcho_unpublished)
  exact untraceable_of_echo echo manifest

end AgentMsg
