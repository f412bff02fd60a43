import AgentMsg.Grants
import AgentMsg.Rejections

/-!
# Payloads that are delivered twice

The broker delivers at least once, so a payload may come again after it was accepted.
Receipts and presence beacons can be applied twice, and a message whose id is stored is
ignored; but the guard against used grants stands before the check for stored ids, and
takes a redelivered message for a replay of its own grant.
-/

namespace AgentMsg

open Checked

/-! ## Tables -/

/-- The tables of two stores hold the same rows. -/
structure SameTables (before after : Store) : Prop where
  messages : after.messages.rows = before.messages.rows
  outbox : after.outbox.rows = before.outbox.rows
  presence : ∀ agent : String, after.presence[agent]? = before.presence[agent]?
  seenGrants : ∀ id : String, after.seenGrants[id]? = before.seenGrants[id]?
  rejections : after.rejections = before.rejections

theorem SameTables.refl (store : Store) : SameTables store store :=
  ⟨rfl, rfl, fun _ => rfl, fun _ => rfl, rfl⟩

namespace Store

/-- The row that a beacon is recorded with. -/
def presenceRow (beacon : PresenceBeacon) (lastSeen now : String) : PresenceRow :=
  { state := beacon.state, source := beacon.source, ttlSecs := beacon.ttlSecs,
    detail := beacon.detail, seq := beacon.seq, lastSeen, updatedAt := now }

/-- A beacon is recorded, unless a newer one is. -/
theorem upsertPresence_cases
    (store : Store) (agent : String) (beacon : PresenceBeacon) (lastSeen now : String) :
    store.upsertPresence agent beacon lastSeen now =
        { store with presence :=
            store.presence.insert agent (presenceRow beacon lastSeen now) } ∨
      (store.upsertPresence agent beacon lastSeen now = store ∧
        ∃ old, store.presence[agent]? = some old ∧ beacon.seq < old.seq) := by
  unfold upsertPresence
  cases found : store.presence[agent]? with
  | none =>
      exact Or.inl rfl
  | some old =>
      by_cases newer : beacon.seq ≥ old.seq
      · exact Or.inl (if_pos newer)
      · exact Or.inr ⟨if_neg newer, old, rfl, Int.not_le.mp newer⟩

theorem upsertPresence_twice
    (store : Store) (agent : String) (beacon : PresenceBeacon) (lastSeen now : String) :
    SameTables (store.upsertPresence agent beacon lastSeen now)
      ((store.upsertPresence agent beacon lastSeen now).upsertPresence agent beacon lastSeen
        now) := by
  rcases store.upsertPresence_cases agent beacon lastSeen now with recorded | ⟨kept, _⟩
  · rcases upsertPresence_cases (store.upsertPresence agent beacon lastSeen now) agent beacon
      lastSeen now with again | ⟨again, _⟩
    · rw [again, recorded]
      refine ⟨rfl, rfl, fun other => ?_, fun _ => rfl, rfl⟩
      simp only [Std.TreeMap.getElem?_insert]
      split <;> rfl
    · rw [again]
      exact .refl _
  · rw [kept, kept]
    exact .refl store

theorem updateOutbound_twice
    {store : Store} {id : String} {guard : DeliveryState → Bool} {change : MsgRow → MsgRow}
    {keeps : ∀ row, (change row).id = row.id} (settled : ∀ row, change (change row) = change row) :
    SameTables (store.updateOutbound id guard change keeps)
      ((store.updateOutbound id guard change keeps).updateOutbound id guard change keeps) := by
  refine ⟨?_, rfl, fun _ => rfl, fun _ => rfl, rfl⟩
  simp only [updateOutbound]
  exact RowTable.rows_updateWhere_updateWhere settled

theorem applyDeliveryReceipt_twice (store : Store) (origId ts : String) :
    SameTables (store.applyDeliveryReceipt origId ts)
      ((store.applyDeliveryReceipt origId ts).applyDeliveryReceipt origId ts) :=
  updateOutbound_twice fun _ => rfl

theorem applyReadReceipt_twice (store : Store) (origId ts : String) :
    SameTables (store.applyReadReceipt origId ts)
      ((store.applyReadReceipt origId ts).applyReadReceipt origId ts) :=
  updateOutbound_twice fun _ => rfl

end Store

/-! ## Beacons and receipts -/

section Aside

variable {P : Platform} {identity : Identity} {cfg : Config} {trust : TrustStore}
  {delivery : Delivery} {inner : Inner}

/-- The operation of an accepted message that is not stored. -/
def asideOp (P : Platform) (inner : Inner) : Option (String → Store.Op) :=
  if inner.ctype = CTYPE_PRESENCE then
    (P.presenceJson.decode inner.body).map fun beacon now =>
      .upsertPresence inner.sender beacon inner.ts now
  else
    inner.receipt.map fun rcpt _ =>
      match rcpt.status with
      | .delivered => .applyDeliveryReceipt rcpt.refId inner.ts
      | .read => .applyReadReceipt rcpt.refId inner.ts

/-- The store after the handling of a message that is not stored, when its call meets the
given input. -/
def Store.aside (P : Platform) (inner : Inner) (store : Store) (input : Input) : Store :=
  match asideOp P inner with
  | none => store
  | some operation => store.attempt (operation input.now) input.fault

/-- A presence beacon or a receipt is handled by one store call at most. -/
theorem exec_aside
    (unplain : ¬ inner.Plain) (inputs : Nat → Input) (world : World) :
    ((acceptMessage P identity cfg trust delivery inner).exec inputs world).1.store =
      world.store.aside P inner (inputs 0) := by
  unfold acceptMessage Store.aside asideOp
  by_cases presence : inner.ctype = CTYPE_PRESENCE
  · rw [if_pos presence, if_pos presence]
    cases P.presenceJson.decode inner.body <;> rfl
  · have receipt : inner.kind = .receipt ∨ inner.ctype = CTYPE_RECEIPT := by
      by_contra other
      exact unplain ⟨presence, other⟩
    rw [if_neg presence, if_pos receipt, if_neg presence]
    cases inner.receipt with
    | none =>
        rfl
    | some rcpt =>
        obtain ⟨refId, status⟩ := rcpt
        cases status <;> rfl

/-- Applying it twice is applying it once. -/
theorem Store.aside_twice
    (store : Store) (P : Platform) (inner : Inner) {first second : Input}
    (same : second.now = first.now) (succeeds : first.Succeeds) (again : second.Succeeds) :
    SameTables (store.aside P inner first)
      ((store.aside P inner first).aside P inner second) := by
  unfold Store.aside
  cases operation : asideOp P inner with
  | none =>
      exact .refl store
  | some update =>
      have firstNone : first.fault = none := succeeds
      have secondNone : second.fault = none := again
      simp only [Store.attempt, firstNone, secondNone, same]
      unfold asideOp at operation
      split at operation
      · obtain ⟨beacon, _, rfl⟩ := Option.map_eq_some_iff.mp operation
        exact store.upsertPresence_twice inner.sender beacon inner.ts first.now
      · obtain ⟨⟨refId, status⟩, _, rfl⟩ := Option.map_eq_some_iff.mp operation
        cases status with
        | delivered =>
            exact store.applyDeliveryReceipt_twice refId inner.ts
        | read =>
            exact store.applyReadReceipt_twice refId inner.ts

end Aside

/-! ## Messages -/

section Plain

variable {P : Platform} {identity : Identity} {world final : World} {delivery : Delivery}
  {inner : Inner} {outcome : Outcome}

/-- A message whose id is stored changes nothing when the guard looks up no grant, and
otherwise changes the table of used grants or that of rejections. -/
theorem Ingested.sameTables_iff
    (ingested : Ingested P identity world delivery final outcome)
    (accepted : Accepted P identity (world.config P) (world.trust P) delivery inner)
    (plain : inner.Plain) (stored : world.store.messages.holds inner.id = true) :
    SameTables world.store final.store ↔
      guardClaims P (world.trust P) delivery.clock.guardCheck inner = none := by
  cases ingested with
  | aside unplain _ _ =>
      exact absurd plain (unplain inner accepted)
  | replayed found now later foundAccepted _ used result =>
      cases accepted.unique foundAccepted
      rw [result, Store.recordGrant_of_used used]
      constructor
      · intro same
        have longer := congrArg List.length same.rejections
        simp [Store.recordRejection] at longer
      · intro none
        rw [none] at used
        cases used
  | duplicate found now foundAccepted _ unused taken result =>
      cases accepted.unique foundAccepted
      have ignored : ∀ store : Store, store.messages = world.store.messages →
          (store.insertInbound inner delivery.topic).1.messages.rows =
            world.store.messages.rows := by
        intro store same
        rw [Store.insertInbound, same, RowTable.insertOrIgnore_taken taken]
        rfl
      rw [result]
      cases looked : guardClaims P (world.trust P) delivery.clock.guardCheck inner with
      | none =>
          refine iff_of_true ?_ rfl
          exact ⟨ignored _ rfl, rfl, fun _ => rfl, fun _ => rfl, rfl⟩
      | some claims =>
          rw [looked] at unused
          have unseen : (world.store.seenGrants[claims.id]?).isSome = false := unused
          refine iff_of_false (fun same => ?_) (Option.some_ne_none claims)
          have seen := same.seenGrants claims.id
          simp only [Store.insertInbound, Store.recordGrant, Store.seenGrant, unseen,
            Bool.false_eq_true, if_false, Std.TreeMap.getElem?_insert_self] at seen
          rw [← seen] at unseen
          cases unseen
  | stored found now foundAccepted _ _ fresh _ =>
      cases accepted.unique foundAccepted
      rw [stored] at fresh
      cases fresh

end Plain

/-! ## The second delivery -/

/-- The same payload comes again under the same files and the same clock readings. -/
structure Redelivers (first second : Arrival) : Prop where
  topic : second.delivery.topic = first.delivery.topic
  payload : second.delivery.payload = first.delivery.payload
  clock : second.delivery.clock = first.delivery.clock
  configFile : second.configFile = first.configFile
  trustFile : second.trustFile = first.trustFile
  now : ∀ index, (second.inputs index).now = (first.inputs index).now

/-- The first ingest of an accepted message had its effect: the store took the receipt or
the beacon, or the message is stored and was not evicted. -/
structure Effective (inner : Inner) (first : Arrival) (after : World) : Prop where
  applied : ¬ inner.Plain → (first.inputs 2).Succeeds
  stored : inner.Plain → after.store.messages.holds inner.id = true

theorem Redelivers.accepts
    {P : Platform} {identity : Identity} {first second : Arrival} {inner : Inner}
    (redelivers : Redelivers first second) (accepts : first.Accepts P identity inner) :
    second.Accepts P identity inner := by
  obtain ⟨passed, verified⟩ := accepts
  constructor
  · rw [redelivers.payload]
    exact passed
  · rw [verifyDelivery, Arrival.config, Arrival.trust, redelivers.payload, redelivers.clock,
      redelivers.configFile, redelivers.trustFile]
    exact verified

/-- Ingesting an accepted payload a second time leaves the tables as they are exactly when
it is not a message with a grant that the guard looks up. -/
theorem redelivery_idempotent_iff
    (P : Platform) (identity : Identity) (world : World) (first second : Arrival) (inner : Inner)
    (accepts : first.Accepts P identity inner) (redelivers : Redelivers first second)
    (effective : Effective inner first (arrive P identity world first).1)
    (succeeds : ∀ index, (second.inputs index).Succeeds) :
    SameTables (arrive P identity world first).1.store
        (arrive P identity (arrive P identity world first).1 second).1.store ↔
      (inner.Plain →
        guardClaims P (first.trust P) first.delivery.clock.guardCheck inner = none) := by
  have again := redelivers.accepts accepts
  by_cases plain : inner.Plain
  · have ingested := arrive_succeeds P identity (arrive P identity world first).1 succeeds
    have iff := ingested.sameTables_iff again plain (effective.stored plain)
    rw [redelivers.clock, World.trust, World.withFiles, redelivers.trustFile] at iff
    exact iff.trans ⟨fun none _ => none, fun none => none plain⟩
  · refine iff_of_true ?_ fun isPlain => absurd isPlain plain
    have earlier : (arrive P identity world first).1.store =
        world.store.aside P inner (first.inputs 2) := by
      rw [arrive_of_accepts accepts world]
      exact exec_aside plain _ _
    have later : (arrive P identity (arrive P identity world first).1 second).1.store =
        (arrive P identity world first).1.store.aside P inner (second.inputs 2) := by
      rw [arrive_of_accepts again (arrive P identity world first).1]
      exact exec_aside plain _ _
    rw [later, earlier]
    exact world.store.aside_twice P inner (redelivers.now 2) (effective.applied plain) (succeeds 2)

theorem Redelivers.refl (arrival : Arrival) : Redelivers arrival arrival :=
  ⟨rfl, rfl, rfl, rfl, rfl, fun _ => rfl⟩

/-! ## A message twice, and a message with a grant twice -/

theorem noisy_accepted :
    (Bench.arrival (Bench.delivery 0 0 "r2")).Accepts noisyBench.platform Bench.me
      (Bench.textTo "me" "m1" "alice" "t0" "hi") :=
  Bench.accepts_text rfl rfl (by decide) (by decide)
    (Bench.trusting_publicKey (List.mem_singleton.mpr rfl)) (by decide) (by decide)

theorem redelivery_idempotent_iff_text :
    SameTables
      (arrive noisyBench.platform Bench.me Bench.world
        (Bench.arrival (Bench.delivery 0 0 "r2"))).1.store
      (arrive noisyBench.platform Bench.me
        (arrive noisyBench.platform Bench.me Bench.world
          (Bench.arrival (Bench.delivery 0 0 "r2"))).1
        (Bench.arrival (Bench.delivery 0 0 "r2"))).1.store := by
  have plain := Bench.textTo_plain "me" "m1" "alice" "t0" "hi"
  refine (redelivery_idempotent_iff noisyBench.platform Bench.me Bench.world
    (Bench.arrival (Bench.delivery 0 0 "r2")) (Bench.arrival (Bench.delivery 0 0 "r2")) _
    noisy_accepted (.refl _) ⟨fun unplain => absurd plain unplain, fun _ => ?_⟩
    fun _ => rfl).mpr fun _ => rfl
  rw [arrive_of_accepts noisy_accepted, acceptMessage_of_plain plain]
  rfl

/-- The second copy of a message with a valid grant is recorded as a replay. -/
theorem redelivered_grant_rejected :
    ¬ ∀ (P : Platform) (identity : Identity) (world : World) (first second : Arrival)
        (inner : Inner), first.Accepts P identity inner → Redelivers first second →
        Effective inner first (arrive P identity world first).1 →
        (∀ index, (second.inputs index).Succeeds) →
        SameTables (arrive P identity world first).1.store
          (arrive P identity (arrive P identity world first).1 second).1.store := by
  intro idempotent
  have plain : (grantedText "m1").Plain := Bench.textTo_plain "*" "m1" "alice" "t0" "go"
  have looked : guardClaims grantBench.platform
      ((grantArrival 0 0 0).trust grantBench.platform)
      (grantArrival 0 0 0).delivery.clock.guardCheck (grantedText "m1") = some deployClaims :=
    grantBench_guard (by decide)
  have stored : (arrive grantBench.platform Bench.me Bench.world
      (grantArrival 0 0 0)).1.store.messages.holds (grantedText "m1").id = true := by
    rw [arrive_of_accepts grant_accepted_first, acceptMessage_of_plain plain, grantReplayed,
      looked]
    rfl
  have succeeds : ∀ index, ((grantArrival 0 0 0).inputs index).Succeeds := fun _ => rfl
  have replayed : ∀ after : World,
      after.store.messages.holds (grantedText "m1").id = true →
      ¬ SameTables after.store
        (arrive grantBench.platform Bench.me after (grantArrival 0 0 0)).1.store := by
    intro after held same
    have ingested := arrive_succeeds grantBench.platform Bench.me after succeeds
    have none := (ingested.sameTables_iff grant_accepted_first plain held).mp same
    exact Option.some_ne_none _ (looked.symm.trans none)
  exact replayed _ stored (idempotent grantBench.platform Bench.me Bench.world
    (grantArrival 0 0 0) (grantArrival 0 0 0) (grantedText "m1") grant_accepted_first (.refl _)
    ⟨fun unplain => absurd plain unplain, fun _ => stored⟩ succeeds)

end AgentMsg
