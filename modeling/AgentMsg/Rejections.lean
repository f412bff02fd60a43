import AgentMsg.Acceptance

/-!
# Rejected payloads leave no other trace

A payload that is refused adds one row to the rejections table and changes nothing else.
Since no ingest reads that table, the other payloads of a sequence are ingested as if the
refused ones had not arrived.
-/

namespace AgentMsg

/-! ## The store without its rejections -/

/-- A rejection without the number of its row. -/
def RejectionRow.content (row : RejectionRow) : RejectionRow :=
  { row with seq := 0 }

namespace Store

/-- The store without its rejections. -/
def apart (store : Store) : Store :=
  { store with rejections := [] }

/-- What the rejections table says, without the numbers of the rows. -/
def refusals (store : Store) : List RejectionRow :=
  store.rejections.map RejectionRow.content

/-- What an operation adds to the rejections table. -/
def Op.refusals : Op → List RejectionRow
  | .recordRejection reason claimedSender topic detail now =>
      [{ seq := 0, recordedAt := now, reason := reason.code, claimedSender, topic, detail }]
  | _ => []

/-- No operation reads the rejections. -/
theorem apply_apart (store : Store) (operation : Op) :
    (store.apply operation).apart = (store.apart.apply operation).apart := by
  cases operation with
  | ack consumer seq now =>
      unfold apply ack apart
      dsimp only
      split
      · rfl
      · split <;> rfl
  | upsertPresence agent beacon lastSeen now =>
      unfold apply upsertPresence apart
      dsimp only
      split
      · rfl
      · split <;> rfl
  | seenGrant grantId now =>
      unfold apply seenGrant apart
      dsimp only
      split <;> rfl
  | _ =>
      rfl

theorem apply_refusals (store : Store) (operation : Op) :
    (store.apply operation).refusals = store.refusals ++ operation.refusals := by
  cases operation with
  | recordRejection reason claimedSender topic detail now =>
      simp only [apply, recordRejection, refusals, List.map_append]
      rfl
  | ack consumer seq now =>
      unfold apply ack
      dsimp only
      split
      · exact (List.append_nil _).symm
      · split <;> exact (List.append_nil _).symm
  | upsertPresence agent beacon lastSeen now =>
      unfold apply upsertPresence
      dsimp only
      split
      · exact (List.append_nil _).symm
      · split <;> exact (List.append_nil _).symm
  | seenGrant grantId now =>
      unfold apply seenGrant
      dsimp only
      split <;> exact (List.append_nil _).symm
  | _ =>
      exact (List.append_nil _).symm

/-- Stores that differ in their rejections only, still do after the same operation. -/
theorem apply_of_apart
    {left right : Store} (same : left.apart = right.apart) (operation : Op) :
    (left.apply operation).apart = (right.apply operation).apart := by
  rw [apply_apart, same, ← apply_apart]

end Store

/-! ## Alike but for rejections -/

/-- Everything but the rejections and the files. -/
def World.visible (world : World) : World :=
  { world with store := world.store.apart, configFile := .absent, trustFile := .absent }

/-- The first state has as many more rejections, and is otherwise like the second. -/
structure AlikeApart (extra : Nat) (full rest : World) : Prop where
  visible : full.visible = rest.visible
  kept : rest.store.refusals.Sublist full.store.refusals
  count : full.store.rejections.length = rest.store.rejections.length + extra

/-- Alike but for rejections, with the same files. -/
structure SideAlike (extra : Nat) (full rest : World) : Prop
    extends AlikeApart extra full rest where
  configFile : full.configFile = rest.configFile
  trustFile : full.trustFile = rest.trustFile

section SideBySide

variable {P : Platform} {identity : Identity} {extra : Nat} {full rest : World}

theorem AlikeApart.store (alike : AlikeApart extra full rest) :
    full.store.apart = rest.store.apart :=
  congrArg World.store alike.visible

theorem AlikeApart.withStores
    (alike : AlikeApart extra full rest) {fullStore restStore : Store}
    (same : fullStore.apart = restStore.apart) (added : List RejectionRow)
    (fullAdds : fullStore.refusals = full.store.refusals ++ added)
    (restAdds : restStore.refusals = rest.store.refusals ++ added) :
    AlikeApart extra { full with store := fullStore } { rest with store := restStore } := by
  have visible := alike.visible
  simp only [World.visible, World.mk.injEq] at visible
  obtain ⟨_, fields⟩ := visible
  refine ⟨?_, ?_, ?_⟩
  · simp only [World.visible, World.mk.injEq]
    exact ⟨same, fields⟩
  · show restStore.refusals.Sublist fullStore.refusals
    rw [fullAdds, restAdds]
    exact alike.kept.append_right added
  · have fullLength := congrArg List.length fullAdds
    have restLength := congrArg List.length restAdds
    simp only [Store.refusals, List.length_append, List.length_map] at fullLength restLength
    have count := alike.count
    show fullStore.rejections.length = restStore.rejections.length + extra
    omega

theorem SideAlike.attempt
    (alike : SideAlike extra full rest) (operation : Store.Op) (fault : Option Nat) :
    SideAlike extra { full with store := full.store.attempt operation fault }
      { rest with store := rest.store.attempt operation fault } := by
  have applied (done : Store.Op) :
      SideAlike extra { full with store := full.store.apply done }
        { rest with store := rest.store.apply done } :=
    ⟨alike.toAlikeApart.withStores (Store.apply_of_apart alike.store done) done.refusals
      (Store.apply_refusals _ _) (Store.apply_refusals _ _), alike.configFile, alike.trustFile⟩
  cases fault with
  | none =>
      exact applied operation
  | some writes =>
      simp only [Store.attempt]
      cases operation.upTo writes with
      | none =>
          exact alike
      | some part =>
          exact applied part

/-- A thread that does not look at the rejections. -/
abbrev Heedless {α : Type} (thread : Thread α) : Prop :=
  ∀ extra, Prog.Parallel (SideAlike extra) thread

theorem heedless_storeCall
    {α : Type} {operation : String → Store.Op} {result : Store → α}
    (ignores : ∀ store : Store, result store = result store.apart) :
    Heedless (storeCall operation result) := by
  intro extra
  refine Prog.parallel_call fun input left right alike => ?_
  refine ⟨alike.attempt (operation input.now) input.fault, ?_⟩
  dsimp only
  rw [ignores left.store, ignores right.store, alike.store]

theorem heedless_storeQuery
    {α : Type} {view : Store → α} (ignores : ∀ store : Store, view store = view store.apart) :
    Heedless (storeQuery view) := by
  intro extra
  refine Prog.parallel_call fun input left right alike => ?_
  refine ⟨alike, ?_⟩
  dsimp only
  rw [ignores left.store, ignores right.store, alike.store]

theorem heedless_enqueueReceipt
    (draw : Draw) (recipient refId : String) (status : ReceiptStatus) (topic : String) :
    Heedless (enqueueReceipt P identity draw recipient refId status topic) := by
  intro extra
  unfold enqueueReceipt
  split
  · exact Prog.parallel_pure
  · exact (heedless_storeCall (fun _ => rfl) extra).bind fun _ =>
      (heedless_storeCall (fun _ => rfl) extra).bind fun _ => Prog.parallel_pure

/-- Changing the subscribers or the pending pairings in the same way. -/
theorem SideAlike.withMemory
    (alike : SideAlike extra full rest)
    (subscribers : List Subscriber → List Subscriber)
    (pending : Std.TreeMap String PendingPair → Std.TreeMap String PendingPair) :
    SideAlike extra
      { full with subscribers := subscribers full.subscribers, pending := pending full.pending }
      { rest with subscribers := subscribers rest.subscribers,
                  pending := pending rest.pending } := by
  have visible := alike.visible
  simp only [World.visible, World.mk.injEq] at visible
  obtain ⟨store, subs, ids, pairs, fields⟩ := visible
  refine ⟨⟨?_, alike.kept, alike.count⟩, alike.configFile, alike.trustFile⟩
  simp only [World.visible, World.mk.injEq, subs, pairs]
  exact ⟨store, trivial, ids, trivial, fields⟩

theorem heedless_pushStored (seq : Int) : Heedless (pushStored seq) := by
  intro extra
  refine (heedless_storeQuery (fun _ => rfl) extra).bind fun found => ?_
  split
  · rename_i msg
    exact Prog.parallel_call fun _ _ _ alike =>
      ⟨alike.withMemory (pushToSubscribers · msg) id, rfl⟩
  · exact Prog.parallel_pure

theorem heedless_storeMessage (cfg : Config) (delivery : Delivery) (inner : Inner) :
    Heedless (storeMessage P identity cfg delivery inner) := by
  intro extra
  refine (heedless_storeCall (fun _ => rfl) extra).bind fun inserted => ?_
  split
  · refine (heedless_storeCall (fun _ => rfl) extra).bind fun _ =>
      (heedless_pushStored _ extra).bind fun _ => ?_
    split
    · exact (heedless_enqueueReceipt _ _ _ _ _ extra).bind fun _ => Prog.parallel_pure
    · exact Prog.parallel_pure
  · exact Prog.parallel_pure
  · exact Prog.parallel_pure

theorem Store.seenGrant_apart (store : Store) (grantId now : String) :
    (store.seenGrant grantId now).2 = (store.apart.seenGrant grantId now).2 := by
  unfold seenGrant apart
  dsimp only
  split <;> rfl

theorem heedless_acceptMessage
    (cfg : Config) (trust : TrustStore) (delivery : Delivery) (inner : Inner) :
    Heedless (acceptMessage P identity cfg trust delivery inner) := by
  intro extra
  unfold acceptMessage
  split
  · split
    · exact (heedless_storeCall (fun _ => rfl) extra).bind fun _ => Prog.parallel_pure
    · exact Prog.parallel_pure
  · split
    · split
      · refine Prog.Parallel.bind ?_ fun _ => Prog.parallel_pure
        unfold applyReceipt
        split <;> exact heedless_storeCall (fun _ => rfl) extra
      · exact Prog.parallel_pure
    · refine Prog.Parallel.bind ?_ fun replayed => ?_
      · unfold grantReplayed
        split
        · exact Prog.parallel_pure
        · exact (heedless_storeCall (fun store => store.seenGrant_apart _ _) extra).bind
            fun _ => Prog.parallel_pure
      · split
        · exact (heedless_storeCall (fun _ => rfl) extra).bind fun _ => Prog.parallel_pure
        · exact heedless_storeMessage cfg delivery inner extra

theorem heedless_onMsg (delivery : Delivery) : Heedless (onMsg P identity delivery) := by
  intro extra
  unfold onMsg
  split
  · exact Prog.parallel_pure
  · rename_i entry _
    refine Prog.Parallel.bind ?_ fun _ => Prog.parallel_pure
    exact Prog.parallel_call fun _ _ _ alike =>
      ⟨alike.withMemory id (·.insertIfNew entry.name entry), rfl⟩
  · exact (heedless_storeCall (fun _ => rfl) extra).bind fun _ => Prog.parallel_pure
  · refine Prog.Parallel.bind (Prog.parallel_call fun _ left right alike => ⟨alike, ?_⟩)
      fun cfg => Prog.Parallel.bind (Prog.parallel_call fun _ left right alike => ⟨alike, ?_⟩)
        fun trust => ?_
    · show left.config P = right.config P
      rw [World.config, World.config, alike.configFile]
    · show left.trust P = right.trust P
      rw [World.trust, World.trust, alike.trustFile]
    · unfold settle
      split
      · exact heedless_acceptMessage cfg trust delivery _ extra
      · exact (heedless_storeCall (fun _ => rfl) extra).bind fun _ => Prog.parallel_pure

end SideBySide

/-! ## Refused payloads -/

section Refused

variable (P : Platform) (identity : Identity)

/-- The payload takes a rejection path: a hello that does not verify, a payload that does
not verify, or a message with a used grant. -/
inductive Refused (world : World) (delivery : Delivery) : Prop
  | hello (reason : RejectReason) (claimed : String)
      (found : intercept P identity delivery.payload = .badHello reason claimed) :
      Refused world delivery
  | unverified (info : RejectInfo)
      (passed : intercept P identity delivery.payload = .pass)
      (failed : verifyDelivery P identity (world.config P) (world.trust P) delivery =
        .error info) :
      Refused world delivery
  | replayed (inner : Inner)
      (accepted : Accepted P identity (world.config P) (world.trust P) delivery inner)
      (plain : inner.Plain)
      (used : world.store.grantUsed
        (guardClaims P (world.trust P) delivery.clock.guardCheck inner) = true) :
      Refused world delivery

/-- The state with one more row in its rejections table. -/
def World.Rejects (world final : World) : Prop :=
  ∃ reason claimed topic detail now,
    final = { world with
      store := world.store.recordRejection reason claimed topic detail now }

variable {P identity}

theorem Store.recordGrant_of_used
    {store : Store} {claims : Option GrantClaims} (used : store.grantUsed claims = true)
    (now : String) : store.recordGrant claims now = store := by
  cases claims with
  | none =>
      rfl
  | some found =>
      have seen : (store.seenGrants[found.id]?).isSome = true := used
      rw [recordGrant, seenGrant, if_pos seen]

theorem meets_recordRejection
    {world : World} {reason : RejectReason} {claimed : Option String} {topic detail : String}
    {outcome : Outcome} :
    Prog.Meets Input.Succeeds (do
      let _ ← Calls.recordRejection reason claimed topic detail
      return outcome) world fun final _ => world.Rejects final :=
  Prog.meets_bind.mpr (meets_storeCall_succeeds fun now =>
    ⟨reason, claimed, topic, detail, now, rfl⟩)

/-- A refused payload adds one row to the rejections table and does nothing else. -/
theorem Refused.meets
    {world : World} {delivery : Delivery} (refused : Refused P identity world delivery) :
    Prog.Meets Input.Succeeds (onMsg P identity delivery) world fun final _ =>
      world.Rejects final := by
  cases refused with
  | hello reason claimed found =>
      rw [onMsg, found]
      exact meets_recordRejection
  | unverified info passed failed =>
      rw [onMsg, passed]
      refine Prog.meets_bind.mpr (meets_observe ?_)
      refine Prog.meets_bind.mpr (meets_observe ?_)
      rw [settle, failed]
      exact meets_recordRejection
  | replayed inner accepted plain used =>
      rw [accepted.onMsg_eq]
      refine Prog.meets_bind.mpr (meets_observe ?_)
      refine Prog.meets_bind.mpr (meets_observe ?_)
      rw [accepted.settle_eq, acceptMessage_of_plain plain]
      refine Prog.meets_bind.mpr ((grantReplayed_succeeds _ rfl).weaken ?_)
      rintro guarded replayed ⟨answer, now, rfl⟩
      rw [answer, used, if_pos rfl, Store.recordGrant_of_used used]
      exact meets_recordRejection

/-- The ingest of a refused payload leaves a trace. -/
theorem Refused.changes
    {world : World} {delivery : Delivery} (refused : Refused P identity world delivery)
    {inputs : Nat → Input} (succeeds : ∀ index, (inputs index).Succeeds) :
    ((onMsg P identity delivery).exec inputs world).1 ≠ world := by
  intro unchanged
  obtain ⟨reason, claimed, topic, detail, now, final⟩ :=
    Prog.exec_of_meets refused.meets succeeds
  rw [unchanged] at final
  have counts := congrArg (fun state => state.store.rejections.length) final
  simp [Store.recordRejection] at counts

end Refused

/-! ## Sequences -/

section Sequences

variable {P : Platform} {identity : Identity}

/-- An arrival of a sequence, and whether it is deleted from it. -/
structure Marked where
  arrival : Arrival
  deleted : Bool

/-- The arrivals that are left when the marked ones are deleted. -/
def remaining (sequence : List Marked) : List Arrival :=
  (sequence.filter fun marked => !marked.deleted).map Marked.arrival

def deletions (sequence : List Marked) : Nat :=
  (sequence.filter Marked.deleted).length

variable (P identity) in
/-- Every deleted payload is refused where it stands in the sequence, and the store takes
the record of it. -/
def DeletesRefused : World → List Marked → Prop
  | _, [] => True
  | world, marked :: rest =>
      (marked.deleted = true →
        Refused P identity (world.withFiles marked.arrival) marked.arrival.delivery ∧
          ∀ index, (marked.arrival.inputs index).Succeeds) ∧
        DeletesRefused (arrive P identity world marked.arrival).1 rest

theorem AlikeApart.refl (world : World) : AlikeApart 0 world world :=
  ⟨rfl, List.Sublist.refl _, rfl⟩

theorem AlikeApart.withFiles
    {extra : Nat} {full rest : World} (alike : AlikeApart extra full rest) (arrival : Arrival) :
    SideAlike extra (full.withFiles arrival) (rest.withFiles arrival) := by
  have visible := alike.visible
  simp only [World.visible, World.mk.injEq] at visible
  refine ⟨⟨?_, alike.kept, alike.count⟩, rfl, rfl⟩
  simp only [World.visible, World.withFiles, World.mk.injEq]
  exact visible

/-- An arrival that both sequences have. -/
theorem AlikeApart.arrive
    {extra : Nat} {full rest : World} (alike : AlikeApart extra full rest) (arrival : Arrival) :
    AlikeApart extra (arrive P identity full arrival).1 (arrive P identity rest arrival).1 :=
  (Prog.exec_of_parallel (heedless_onMsg arrival.delivery extra) (alike.withFiles arrival)
    arrival.inputs).1.toAlikeApart

/-- An arrival that is deleted from the second sequence. -/
theorem AlikeApart.delete
    {extra : Nat} {full rest : World} (alike : AlikeApart extra full rest) {arrival : Arrival}
    (refused : Refused P identity (full.withFiles arrival) arrival.delivery)
    (succeeds : ∀ index, (arrival.inputs index).Succeeds) :
    AlikeApart (extra + 1) (AgentMsg.arrive P identity full arrival).1 rest := by
  obtain ⟨reason, claimed, topic, detail, now, final⟩ :=
    Prog.exec_of_meets refused.meets succeeds
  have changed : (AgentMsg.arrive P identity full arrival).1 =
      { full.withFiles arrival with
        store := full.store.recordRejection reason claimed topic detail now } :=
    final
  rw [changed]
  refine ⟨alike.visible, ?_, ?_⟩
  · refine alike.kept.trans ?_
    have added := Store.apply_refusals full.store
      (.recordRejection reason claimed topic detail now)
    exact added ▸ List.sublist_append_left _ _
  · have count := alike.count
    show (full.store.rejections ++ [_]).length = _
    rw [List.length_append, count]
    rfl

theorem alike_ingestAll
    {extra : Nat} {full rest : World} (alike : AlikeApart extra full rest) (sequence : List Marked)
    (refused : DeletesRefused P identity full sequence) :
    AlikeApart (extra + deletions sequence)
      (ingestAll P identity full (sequence.map Marked.arrival)).1
      (ingestAll P identity rest (remaining sequence)).1 := by
  induction sequence generalizing extra full rest with
  | nil =>
      exact alike
  | cons marked sequence inductionHypothesis =>
      obtain ⟨here, later⟩ := refused
      cases deleted : marked.deleted with
      | true =>
          obtain ⟨refusedHere, succeeds⟩ := here deleted
          have step := inductionHypothesis (alike.delete refusedHere succeeds) later
          have count : deletions (marked :: sequence) = deletions sequence + 1 := by
            simp [deletions, deleted]
          have left : remaining (marked :: sequence) = remaining sequence := by
            simp [remaining, deleted]
          rw [count, left, Nat.add_comm (deletions sequence), ← Nat.add_assoc]
          exact step
      | false =>
          have step := inductionHypothesis (alike.arrive marked.arrival) later
          have count : deletions (marked :: sequence) = deletions sequence := by
            simp [deletions, deleted]
          have left : remaining (marked :: sequence) = marked.arrival :: remaining sequence := by
            simp [remaining, deleted]
          rw [count, left]
          exact step

end Sequences

/-- Deleting refused payloads from a sequence changes nothing but the rejections table,
which loses one row for each of them. -/
theorem rejected_payloads_invisible
    (P : Platform) (identity : Identity) (world : World) (sequence : List Marked)
    (refused : DeletesRefused P identity world sequence) :
    AlikeApart (deletions sequence)
      (ingestAll P identity world (sequence.map Marked.arrival)).1
      (ingestAll P identity world (remaining sequence)).1 := by
  have alike := alike_ingestAll (.refl world) sequence refused
  rwa [Nat.zero_add] at alike

/-! ## A malformed payload before a message -/

def noisyBench : Bench :=
  { inners := [Bench.textTo "me" "m1" "alice" "t0" "hi"], instants := [("t0", 0)]
    trust := Bench.trusting ["alice"] }

/-- A payload that is no wrapper, which is deleted, and a message. -/
def noisySequence : List Marked :=
  [⟨Bench.arrival (Bench.delivery 7 0 "r1"), true⟩,
    ⟨Bench.arrival (Bench.delivery 0 0 "r2"), false⟩]

theorem rejected_payloads_invisible_noise :
    AlikeApart 1
      (ingestAll noisyBench.platform Bench.me Bench.world
        [Bench.arrival (Bench.delivery 7 0 "r1"), Bench.arrival (Bench.delivery 0 0 "r2")]).1
      (ingestAll noisyBench.platform Bench.me Bench.world
        [Bench.arrival (Bench.delivery 0 0 "r2")]).1 := by
  refine rejected_payloads_invisible noisyBench.platform Bench.me Bench.world noisySequence ?_
  refine ⟨fun _ => ⟨?_, fun _ => rfl⟩, ⟨fun marked => ?_, trivial⟩⟩
  · exact .unverified { reason := .malformedWrapper } rfl rfl
  · exact absurd marked Bool.false_ne_true

end AgentMsg
