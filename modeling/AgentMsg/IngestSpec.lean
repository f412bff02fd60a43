import AgentMsg.Ingest
import AgentMsg.Log

/-!
# What one ingest does

Two specifications of the ingest callback executed alone.  The first holds whatever
store calls fail: it says which inbound rows can appear and which can disappear.  The
second assumes that no store call fails and gives the resulting store exactly.
-/

namespace AgentMsg

open Checked

namespace Outcome

/-- The message that was freshly inserted, if one was. -/
def storedInner : Outcome → Option Inner
  | .stored _ inner => some inner
  | _ => none

end Outcome

/-! ## Quiet threads -/

theorem OutboundOp.quiet {operation : Store.Op} (outbound : OutboundOp operation) :
    operation.Quiet := by
  cases outbound <;> simp [Store.Op.Quiet, Store.Op.Trims]

/-- A thread that stores no message and deletes no row keeps the inbound rows. -/
theorem meets_quiet
    {α : Type} {allowed : Input → Prop} {thread : Thread α} {world : World}
    (within : Prog.Within (fun _ => True) (StoreChange Store.Op.Quiet) (fun _ => True) thread) :
    Prog.Meets allowed thread world fun final _ =>
      Store.SameInbound world.store.messages final.store.messages := by
  have related : Prog.Within (fun _ => True)
      (fun before after : World =>
        Store.SameInbound before.store.messages after.store.messages)
      (fun _ => True) thread := by
    refine within.weaken ?_ fun _ _ => trivial
    rintro before after _ (same | ⟨operation, quiet, changed⟩)
    · rw [same]
      exact .refl _
    · rw [changed]
      exact (before.store.apply_log operation).sameInbound quiet
  exact (related.meets (fun state => .refl _) (fun earlier later => earlier.trans later)
    world).weaken fun _ _ holds => holds.1

theorem quiet_of_outward
    {α : Type} {thread : Thread α} (outward : Outward (fun _ => True) thread) :
    Prog.Within (fun _ => True) (StoreChange Store.Op.Quiet) (fun _ => True) thread := by
  refine outward.weaken ?_ fun _ _ => trivial
  rintro before after _ (same | ⟨operation, permitted, changed⟩)
  · exact Or.inl same
  · exact Or.inr ⟨operation, permitted.quiet, changed⟩

/-- A single statement that stores no message and deletes no row. -/
theorem meets_quietCall
    {α : Type} {allowed : Input → Prop} {operation : String → Store.Op} {result : Store → α}
    {world : World} (quiet : ∀ now, (operation now).Quiet)
    (single : ∀ now writes, (operation now).upTo writes = none) :
    Prog.Meets allowed (storeCall operation result) world fun final _ =>
      Store.SameInbound world.store.messages final.store.messages := by
  refine meets_quiet (within_storeCall quiet fun now writes left remaining => ?_)
  rw [single now writes] at remaining
  exact nomatch remaining

/-! ## Whatever fails -/

/-- The log with the row of a message inserted. -/
def insertedLog (world : World) (delivery : Delivery) (inner : Inner) : MessageTable :=
  (world.store.messages.insertOrIgnore (Store.inboundRow inner delivery.topic)).1

/-- What an ingest does to the inbound rows: it keeps them, or it adds the row of an
accepted message whose id was not taken and deletes rows beyond the bounds. -/
inductive IngestResult (P : Platform) (identity : Identity) (world : World)
    (delivery : Delivery) : World → Outcome → Prop
  | quiet {final : World} {outcome : Outcome} (unstored : outcome.storedInner = none)
      (same : Store.SameInbound world.store.messages final.store.messages) :
      IngestResult P identity world delivery final outcome
  | stored {final : World} (inner : Inner)
      (accepted : Accepted P identity (world.config P) (world.trust P) delivery inner)
      (plain : inner.Plain) (fresh : world.store.messages.holds inner.id = false)
      (kept : ∀ row : Int × MsgRow, row.2.direction = .inbound →
        row ∈ (Store.boundTable (insertedLog world delivery inner)
          (world.config P).maxMessages (world.config P).maxBytes).1.rows →
        row ∈ final.store.messages.rows)
      (known : ∀ row : Int × MsgRow, row.2.direction = .inbound →
        row ∈ final.store.messages.rows →
        row ∈ (insertedLog world delivery inner).rows) :
      IngestResult P identity world delivery final
        (.stored (world.store.messages.last + 1) inner)

section AnyInput

variable {P : Platform} {identity : Identity} {cfg : Config} {trust : TrustStore}
  {delivery : Delivery} {inner : Inner} {world : World}

private theorem attempt_enforceBounds
    (store : Store) (maxMessages maxBytes : Nat) (fault : Option Nat) :
    (Store.boundTable store.messages maxMessages maxBytes).1.rows.Sublist
        (store.attempt (.enforceBounds maxMessages maxBytes) fault).messages.rows ∧
      (store.attempt (.enforceBounds maxMessages maxBytes) fault).messages.rows.Sublist
        store.messages.rows := by
  cases fault with
  | none =>
      exact ⟨List.Sublist.refl _, (Store.boundTable_sublist _ _ _).1⟩
  | some writes =>
      exact ⟨Store.boundTable_sublist_upTo _ _ _ _, (Store.boundTableUpTo_sublist _ _ _ _).1⟩

private theorem quiet_enqueueReceipt
    (draw : Draw) (recipient refId : String) (status : ReceiptStatus) (topic : String) :
    Prog.Meets (fun _ => True) (enqueueReceipt P identity draw recipient refId status topic)
      world fun final _ => Store.SameInbound world.store.messages final.store.messages :=
  meets_quiet (quiet_of_outward (outward_enqueueReceipt draw recipient refId status topic))

private theorem quiet_pushStored (seq : Int) :
    Prog.Meets (fun _ => True) (pushStored seq) world fun final _ =>
      Store.SameInbound world.store.messages final.store.messages :=
  meets_quiet (confined_pushStored seq)

/-- After the row is inserted: the bounds, the push and the receipt. -/
private theorem storeMessage_rest
    (original : World)
    (inserted : world.store.messages = insertedLog original delivery inner) :
    Prog.Meets (fun _ => True)
      (do
        let _ ← Calls.enforceBounds cfg.maxMessages cfg.maxBytes
        pushStored (original.store.messages.last + 1)
        if wantsReceipt identity cfg inner then
          enqueueReceipt P identity delivery.draw inner.sender inner.id .delivered delivery.topic
          return Outcome.stored (original.store.messages.last + 1) inner
        else return Outcome.stored (original.store.messages.last + 1) inner)
      world fun final outcome =>
        outcome = .stored (original.store.messages.last + 1) inner ∧
        (∀ row : Int × MsgRow, row.2.direction = .inbound →
          row ∈ (Store.boundTable (insertedLog original delivery inner)
            cfg.maxMessages cfg.maxBytes).1.rows →
          row ∈ final.store.messages.rows) ∧
        ∀ row : Int × MsgRow, row.2.direction = .inbound →
          row ∈ final.store.messages.rows →
          row ∈ (insertedLog original delivery inner).rows := by
  simp only [Prog.meets_bind]
  intro input _
  obtain ⟨kept, known⟩ := attempt_enforceBounds world.store cfg.maxMessages cfg.maxBytes
    input.fault
  rw [inserted] at kept known
  refine (quiet_pushStored _).weaken fun pushed _ samePushed => ?_
  split
  · refine (Prog.meets_bind.mpr ?_)
    refine (quiet_enqueueReceipt _ _ _ _ _).weaken fun final _ sameFinal => ?_
    have same := samePushed.trans sameFinal
    exact ⟨rfl, fun row inbound member => (same row inbound).mpr (kept.subset member),
      fun row inbound member => known.subset ((same row inbound).mp member)⟩
  · exact ⟨rfl, fun row inbound member => (samePushed row inbound).mpr (kept.subset member),
      fun row inbound member => known.subset ((samePushed row inbound).mp member)⟩

/-- Storing a message, in a state with the same log as the one the ingest began in. -/
private theorem storeMessage_meets
    {original : World} (same : world.store.messages = original.store.messages)
    (accepted : Accepted P identity (original.config P) (original.trust P) delivery inner)
    (plain : inner.Plain) :
    Prog.Meets (fun _ => True)
      (storeMessage P identity (original.config P) delivery inner) world
      (IngestResult P identity original delivery) := by
  refine Prog.meets_bind.mpr (meets_storeCall (fun _ => ?_) fun _ writes => ?_)
  · rcases original.store.messages.insertOrIgnore_cases
        (Store.inboundRow inner delivery.topic) with ⟨_, rows, result⟩ | ⟨fresh, _, result⟩
    · simp only [Store.insertInbound, same, result]
      refine .quiet rfl fun row _ => ?_
      simp only [Store.apply, Store.insertInbound, same, rows]
    · simp only [Store.insertInbound, same, result]
      refine (storeMessage_rest original ?_).weaken ?_
      · simp only [Store.apply, Store.insertInbound, same, insertedLog]
      · rintro final outcome ⟨rfl, kept, known⟩
        exact .stored inner accepted plain fresh kept known
  · exact .quiet rfl (by rw [← same]; exact .refl _)

private theorem grantReplayed_meets :
    Prog.Meets (fun _ => True) (grantReplayed P trust delivery.clock.guardCheck inner) world
      fun final _ => final.store.messages = world.store.messages := by
  unfold grantReplayed
  split
  · rfl
  · refine Prog.meets_bind.mpr (meets_storeCall (fun now => ?_) fun _ _ => rfl)
    exact world.store.seenGrant_messages _ now

private theorem acceptMessage_meets
    (accepted : Accepted P identity (world.config P) (world.trust P) delivery inner) :
    Prog.Meets (fun _ => True)
      (acceptMessage P identity (world.config P) (world.trust P) delivery inner) world
      (IngestResult P identity world delivery) := by
  unfold acceptMessage
  by_cases presence : inner.ctype = CTYPE_PRESENCE
  · rw [if_pos presence]
    split
    · refine Prog.meets_bind.mpr ((meets_quietCall (fun _ => ?_) fun _ _ => rfl).weaken
        fun final _ same => .quiet rfl same)
      simp [Store.Op.Quiet, Store.Op.Trims]
    · exact .quiet rfl (.refl _)
  · rw [if_neg presence]
    by_cases receipt : inner.kind = .receipt ∨ inner.ctype = CTYPE_RECEIPT
    · rw [if_pos receipt]
      split
      · refine Prog.meets_bind.mpr ?_
        unfold applyReceipt
        split
        all_goals
          refine (meets_quietCall (fun _ => ?_) fun _ _ => rfl).weaken
            fun final _ same => .quiet rfl same
          simp [Store.Op.Quiet, Store.Op.Trims]
      · exact .quiet rfl (.refl _)
    · rw [if_neg receipt]
      refine Prog.meets_bind.mpr (grantReplayed_meets.weaken fun guarded replayed same => ?_)
      split
      · refine Prog.meets_bind.mpr ((meets_quietCall (fun _ => ?_) fun _ _ => rfl).weaken
          fun final _ kept => .quiet rfl (same ▸ kept))
        simp [Store.Op.Quiet, Store.Op.Trims]
      · exact storeMessage_meets same accepted ⟨presence, receipt⟩

/-- Whatever store calls fail, an ingest keeps the inbound rows, or stores one accepted
message and enforces the bounds. -/
theorem onMsg_meets :
    Prog.Meets (fun _ => True) (onMsg P identity delivery) world
      (IngestResult P identity world delivery) := by
  unfold onMsg
  split
  · exact .quiet rfl (.refl _)
  · exact fun _ _ => .quiet rfl (.refl _)
  · refine Prog.meets_bind.mpr ((meets_quietCall (fun _ => ?_) fun _ _ => rfl).weaken
      fun final _ same => .quiet rfl same)
    simp [Store.Op.Quiet, Store.Op.Trims]
  · rename_i passed
    refine Prog.meets_bind.mpr (meets_observe ?_)
    refine Prog.meets_bind.mpr (meets_observe ?_)
    unfold settle
    split
    · rename_i inner verified
      exact acceptMessage_meets ⟨passed, verified⟩
    · refine Prog.meets_bind.mpr ((meets_quietCall (fun _ => ?_) fun _ _ => rfl).weaken
        fun final _ same => .quiet rfl same)
      simp [Store.Op.Quiet, Store.Op.Trims]

end AnyInput

/-! ## When no store call fails -/

/-- Record the grant the replay guard looked up. -/
def Store.recordGrant (store : Store) (claims : Option GrantClaims) (now : String) : Store :=
  match claims with
  | none => store
  | some found => (store.seenGrant found.id now).1

/-- Has the grant the replay guard looks up been used before? -/
def Store.grantUsed (store : Store) (claims : Option GrantClaims) : Bool :=
  match claims with
  | none => false
  | some found => (store.seenGrants[found.id]?).isSome

/-- The store after the automatic receipt of an accepted message. -/
def Store.receipted (P : Platform) (identity : Identity) (cfg : Config) (delivery : Delivery)
    (inner : Inner) (store : Store) : Store :=
  if wantsReceipt identity cfg inner then
    match build P identity delivery.draw (receiptOpts inner.sender inner.id .delivered) with
    | .error _ => store
    | .ok (reply, wrapper) =>
        (store.insertOutboundLog reply delivery.topic).enqueueOutbound
          (outboxEntry P delivery.topic reply wrapper)
  else store

/-- The operations of an ingest that does not reach the message log. -/
inductive AsideOp : Store.Op → Prop
  | reject (reason : RejectReason) (claimed : Option String) (topic detail now : String) :
      AsideOp (.recordRejection reason claimed topic detail now)
  | presence (agent : String) (beacon : PresenceBeacon) (lastSeen now : String) :
      AsideOp (.upsertPresence agent beacon lastSeen now)
  | delivered (origId ts : String) : AsideOp (.applyDeliveryReceipt origId ts)
  | read (origId ts : String) : AsideOp (.applyReadReceipt origId ts)

/-- What an ingest does when every store call succeeds. -/
inductive Ingested (P : Platform) (identity : Identity) (world : World)
    (delivery : Delivery) : World → Outcome → Prop
  | aside {final : World} {outcome : Outcome}
      (unplain : ∀ inner,
        Accepted P identity (world.config P) (world.trust P) delivery inner → ¬ inner.Plain)
      (unstored : outcome.storedInner = none) (change : StoreChange AsideOp world final) :
      Ingested P identity world delivery final outcome
  | replayed {final : World} (inner : Inner) (now later : String)
      (accepted : Accepted P identity (world.config P) (world.trust P) delivery inner)
      (plain : inner.Plain)
      (used : world.store.grantUsed
        (guardClaims P (world.trust P) delivery.clock.guardCheck inner) = true)
      (result : final.store =
        (world.store.recordGrant
          (guardClaims P (world.trust P) delivery.clock.guardCheck inner) now).recordRejection
            .replayedGrant (some inner.sender) delivery.topic "" later) :
      Ingested P identity world delivery final .replayed
  | duplicate {final : World} (inner : Inner) (now : String)
      (accepted : Accepted P identity (world.config P) (world.trust P) delivery inner)
      (plain : inner.Plain)
      (unused : world.store.grantUsed
        (guardClaims P (world.trust P) delivery.clock.guardCheck inner) = false)
      (taken : world.store.messages.holds inner.id = true)
      (result : final.store =
        ((world.store.recordGrant
          (guardClaims P (world.trust P) delivery.clock.guardCheck inner) now).insertInbound
            inner delivery.topic).1) :
      Ingested P identity world delivery final (.duplicate inner)
  | stored {final : World} (inner : Inner) (now : String)
      (accepted : Accepted P identity (world.config P) (world.trust P) delivery inner)
      (plain : inner.Plain)
      (unused : world.store.grantUsed
        (guardClaims P (world.trust P) delivery.clock.guardCheck inner) = false)
      (fresh : world.store.messages.holds inner.id = false)
      (result : final.store =
        (((world.store.recordGrant
          (guardClaims P (world.trust P) delivery.clock.guardCheck inner) now).insertInbound
            inner delivery.topic).1.enforceBounds
              (world.config P).maxMessages (world.config P).maxBytes).1.receipted
                P identity (world.config P) delivery inner) :
      Ingested P identity world delivery final
        (.stored (world.store.messages.last + 1) inner)

theorem Store.recordGrant_messages
    (store : Store) (claims : Option GrantClaims) (now : String) :
    (store.recordGrant claims now).messages = store.messages := by
  cases claims with
  | none =>
      rfl
  | some found =>
      exact store.seenGrant_messages found.id now

section Succeeding

variable {P : Platform} {identity : Identity} {cfg : Config} {trust : TrustStore}
  {delivery : Delivery} {inner : Inner} {world : World}

theorem grantReplayed_succeeds
    (claims : Option GrantClaims)
    (looked : guardClaims P trust delivery.clock.guardCheck inner = claims) :
    Prog.Meets Input.Succeeds (grantReplayed P trust delivery.clock.guardCheck inner) world
      fun final replayed => replayed = world.store.grantUsed claims ∧
        ∃ now, final = { world with store := world.store.recordGrant claims now } := by
  unfold grantReplayed
  rw [looked]
  cases claims with
  | none =>
      exact ⟨rfl, "", rfl⟩
  | some found =>
      refine Prog.meets_bind.mpr (meets_storeCall_succeeds fun now => ⟨?_, now, rfl⟩)
      simp only [unwrapOr, Store.grantUsed, Store.seenGrant]
      split
      · rename_i seen
        exact seen.symm
      · rename_i unseen
        exact (Bool.eq_false_iff.mpr unseen).symm

private theorem enqueueReceipt_succeeds :
    Prog.Meets Input.Succeeds
      (enqueueReceipt P identity delivery.draw inner.sender inner.id .delivered delivery.topic)
      world fun final _ => ∀ cfg, wantsReceipt identity cfg inner = true →
        final.store = world.store.receipted P identity cfg delivery inner := by
  unfold enqueueReceipt
  split
  · rename_i built
    intro cfg wanted
    rw [Store.receipted, if_pos wanted, built]
  · rename_i reply wrapper built
    refine Prog.meets_bind.mpr (meets_storeCall_succeeds fun _ => ?_)
    refine Prog.meets_bind.mpr (meets_storeCall_succeeds fun _ => ?_)
    intro cfg wanted
    rw [Store.receipted, if_pos wanted, built]
    rfl

private theorem pushStored_succeeds (seq : Int) :
    Prog.Meets Input.Succeeds (pushStored seq) world fun final _ =>
      final.store = world.store := by
  refine Prog.meets_bind.mpr (meets_storeQuery_succeeds ?_)
  split
  · exact fun _ _ => rfl
  · rfl

private theorem storeMessage_succeeds
    {original : World} {now : String}
    (guarded : world.store = original.store.recordGrant
      (guardClaims P (original.trust P) delivery.clock.guardCheck inner) now)
    (accepted : Accepted P identity (original.config P) (original.trust P) delivery inner)
    (plain : inner.Plain)
    (unused : original.store.grantUsed
      (guardClaims P (original.trust P) delivery.clock.guardCheck inner) = false) :
    Prog.Meets Input.Succeeds
      (storeMessage P identity (original.config P) delivery inner) world
      (Ingested P identity original delivery) := by
  have same : world.store.messages = original.store.messages := by
    rw [guarded, Store.recordGrant_messages]
  refine Prog.meets_bind.mpr (meets_storeCall_succeeds fun _ => ?_)
  rcases original.store.messages.insertOrIgnore_cases
      (Store.inboundRow inner delivery.topic) with ⟨taken, _, result⟩ | ⟨fresh, _, result⟩
  · simp only [Store.insertInbound, same, result]
    exact .duplicate inner now accepted plain unused taken (by rw [← guarded]; rfl)
  · simp only [Store.insertInbound, same, result]
    refine Prog.meets_bind.mpr (meets_storeCall_succeeds fun _ => ?_)
    refine Prog.meets_bind.mpr ((pushStored_succeeds _).weaken fun pushed _ pushedStore => ?_)
    split
    · rename_i wanted
      refine Prog.meets_bind.mpr (enqueueReceipt_succeeds.weaken fun final _ receipted => ?_)
      refine .stored inner now accepted plain unused fresh ?_
      rw [receipted _ wanted, pushedStore, ← guarded]
      rfl
    · rename_i unwanted
      refine .stored inner now accepted plain unused fresh ?_
      rw [Store.receipted, if_neg unwanted, pushedStore, ← guarded]
      rfl

private theorem acceptMessage_succeeds
    (accepted : Accepted P identity (world.config P) (world.trust P) delivery inner) :
    Prog.Meets Input.Succeeds
      (acceptMessage P identity (world.config P) (world.trust P) delivery inner) world
      (Ingested P identity world delivery) := by
  unfold acceptMessage
  by_cases presence : inner.ctype = CTYPE_PRESENCE
  · have unplain (other : Inner)
        (otherAccepted : Accepted P identity (world.config P) (world.trust P) delivery other) :
        ¬ other.Plain := by
      rw [accepted.unique otherAccepted]
      exact fun plain => plain.1 presence
    rw [if_pos presence]
    split
    · exact Prog.meets_bind.mpr (meets_storeCall_succeeds fun now =>
        .aside unplain rfl (Or.inr ⟨_, .presence _ _ _ now, rfl⟩))
    · exact .aside unplain rfl (Or.inl rfl)
  · rw [if_neg presence]
    by_cases receipt : inner.kind = .receipt ∨ inner.ctype = CTYPE_RECEIPT
    · have unplain (other : Inner)
          (otherAccepted : Accepted P identity (world.config P) (world.trust P) delivery other) :
          ¬ other.Plain := by
        rw [accepted.unique otherAccepted]
        exact fun plain => plain.2 receipt
      rw [if_pos receipt]
      split
      · refine Prog.meets_bind.mpr ?_
        unfold applyReceipt
        split
        · exact meets_storeCall_succeeds fun _ =>
            .aside unplain rfl (Or.inr ⟨_, .delivered _ _, rfl⟩)
        · exact meets_storeCall_succeeds fun _ =>
            .aside unplain rfl (Or.inr ⟨_, .read _ _, rfl⟩)
      · exact .aside unplain rfl (Or.inl rfl)
    · rw [if_neg receipt]
      refine Prog.meets_bind.mpr ((grantReplayed_succeeds _ rfl).weaken ?_)
      rintro guarded replayed ⟨used, now, rfl⟩
      split
      · rename_i isReplayed
        refine Prog.meets_bind.mpr (meets_storeCall_succeeds fun later => ?_)
        exact .replayed inner now later accepted ⟨presence, receipt⟩
          (used.symm.trans isReplayed) rfl
      · rename_i notReplayed
        exact storeMessage_succeeds rfl accepted ⟨presence, receipt⟩
          (used.symm.trans (Bool.eq_false_iff.mpr notReplayed))

/-- What an ingest does to the store when no store call fails. -/
theorem onMsg_succeeds :
    Prog.Meets Input.Succeeds (onMsg P identity delivery) world
      (Ingested P identity world delivery) := by
  have intercepted (notPassed : intercept P identity delivery.payload ≠ .pass) (other : Inner)
      (accepted : Accepted P identity (world.config P) (world.trust P) delivery other) :
      ¬ other.Plain :=
    absurd accepted.passed notPassed
  unfold onMsg
  split
  · rename_i found
    exact .aside (intercepted (by simp [found])) rfl (Or.inl rfl)
  · rename_i found
    exact fun _ _ => .aside (intercepted (by simp [found])) rfl (Or.inl rfl)
  · rename_i found
    exact Prog.meets_bind.mpr (meets_storeCall_succeeds fun now =>
      .aside (intercepted (by simp [found])) rfl (Or.inr ⟨_, .reject _ _ _ _ now, rfl⟩))
  · rename_i passed
    refine Prog.meets_bind.mpr (meets_observe ?_)
    refine Prog.meets_bind.mpr (meets_observe ?_)
    unfold settle
    split
    · rename_i inner verified
      exact acceptMessage_succeeds ⟨passed, verified⟩
    · rename_i info verified
      refine Prog.meets_bind.mpr (meets_storeCall_succeeds fun now =>
        .aside (fun other accepted => ?_) rfl (Or.inr ⟨_, .reject _ _ _ _ now, rfl⟩))
      rw [accepted.verified] at verified
      exact nomatch verified

end Succeeding

end AgentMsg
