import AgentMsg.Daemon
import AgentMsg.Lib.Account
import AgentMsg.Log

/-!
# The outbox and the message log

An outbound message is logged as pending, queued in the outbox, handed to the broker
session, marked as sent and dropped from the outbox, in separate store calls of several
threads.  Every thread keeps an account of the message ids it may still use, of the
outbox rows it knows, and of what the session has taken from it.
-/

namespace AgentMsg

/-- The publish of an outbox row. -/
def Outbound.publish (ob : Outbound) : Publish :=
  ⟨ob.topic, ob.payload, ob.retain⟩

theorem build_id
    {P : Platform} {identity : Identity} {draw : Draw} {opts : BuildOpts} {inner : Inner}
    {wrapper : Wrapper} (built : build P identity draw opts = .ok (inner, wrapper)) :
    inner.id = draw.id := by
  simp only [build, Checked.bind_eq_ok, Checked.ensure_eq_ok] at built
  obtain ⟨_, _, sealed, seals, rest⟩ := built
  have same : inner = sealed := by
    split at rest
    · cases rest
      rfl
    · cases rest
      rfl
  subst same
  unfold sealBody at seals
  split at seals
  · cases seals
    rfl
  · simp only [Checked.bind_eq_ok, Checked.pure_eq_ok] at seals
    obtain ⟨_, _, rfl⟩ := seals
    rfl

/-! ## The account of a thread -/

/-- What a thread may still do and has seen: the ids it may log and queue, the id it has
logged and queues next, the outbox rows it knows, and the publishes that the session took
from it. -/
structure Hand where
  ids : String → Prop
  awaits : Option String
  known : Outbound → Prop
  handed : Publish → Prop

/-- An operation that neither logs nor queues nor marks an outbound message. -/
def CalmOp : Store.Op → Prop
  | .insertOutboundLog _ _ => False
  | .enqueueOutbound _ => False
  | .markSent _ _ => False
  | .markDelivered _ _ => False
  | _ => True

inductive OutboxRule : Hand → Input → World → World → Hand → Prop
  | calm {hand : Hand} {input : Input} {before after : World}
      (idle : hand.awaits = none) (change : StoreChange CalmOp before after) :
      OutboxRule hand input before after hand
  | reads {hand : Hand} {input : Input} {world : World} (idle : hand.awaits = none) :
      OutboxRule hand input world world
        { hand with known := fun ob => hand.known ob ∨ ob ∈ world.store.pendingOutbound }
  | logs {hand : Hand} {input : Input} {before after : World} (inner : Inner) (topic : String)
      (idle : hand.awaits = none) (own : hand.ids inner.id)
      (stored : after.store =
        before.store.attempt (.insertOutboundLog inner topic) input.fault) :
      OutboxRule hand input before after { hand with awaits := some inner.id }
  | queues {hand : Hand} {input : Input} {before after : World} (ob : Outbound)
      (due : hand.awaits = none ∨ hand.awaits = some ob.id) (own : hand.ids ob.id)
      (stored : after.store = before.store.attempt (.enqueueOutbound ob) input.fault) :
      OutboxRule hand input before after
        { hand with
          ids := fun id => hand.ids id ∧ id ≠ ob.id
          awaits := none
          known := fun other => hand.known other ∨ (input.fault = none ∧ other = ob) }
  | hands {hand : Hand} {input : Input} {before after : World} (publish : Publish)
      (session : Mqtt) (idle : hand.awaits = none) (same : after.store = before.store)
      (live : before.mqtt = some session)
      (queued : after.mqtt = some { session with requests := session.requests ++ [publish] }) :
      OutboxRule hand input before after
        { hand with handed := fun other => hand.handed other ∨ other = publish }
  | marks {hand : Hand} {input : Input} {before after : World} (ob : Outbound)
      (idle : hand.awaits = none) (known : hand.known ob) (handed : hand.handed ob.publish)
      (stored : after.store =
        before.store.attempt (.markDelivered ob.id input.now) input.fault) :
      OutboxRule hand input before after hand

/-- The account has grown, apart from an id that has been used. -/
structure Hand.Spends (hand : Hand) (id : String) (later : Hand) : Prop where
  idle : later.awaits = none
  ids : ∀ other, hand.ids other → other ≠ id → later.ids other
  known : ∀ ob, hand.known ob → later.known ob
  handed : ∀ publish, hand.handed publish → later.handed publish

theorem Hand.Spends.of_eq
    {hand later : Hand} {id : String} (idle : hand.awaits = none) (same : later = hand) :
    hand.Spends id later := by
  subst same
  exact ⟨idle, fun _ own _ => own, fun _ known => known, fun _ handed => handed⟩

/-! ## The threads keep their accounts -/

section Threads

variable {P : Platform} {identity : Identity} {hand : Hand}

/-- A thread that neither logs nor queues nor marks. -/
abbrev Calm {α : Type} (thread : Thread α) : Prop :=
  Prog.Within (fun _ => True) (StoreChange CalmOp) (fun _ => True) thread

theorem Calm.tracks
    {α : Type} {thread : Thread α} (calm : Calm thread) (idle : hand.awaits = none) :
    Prog.Tracks OutboxRule (fun later _ => later = hand) hand thread :=
  (Prog.Within.tracks calm fun _ _ _ change => .calm idle change).weaken fun _ _ ends => ends.1

/-- A calm thread before another. -/
theorem Calm.before
    {α β : Type} {thread : Thread α} {rest : α → Thread β} {final : Hand → β → Prop}
    (calm : Calm thread) (idle : hand.awaits = none)
    (second : ∀ value, Prog.Tracks OutboxRule final hand (rest value)) :
    Prog.Tracks OutboxRule final hand (thread >>= rest) :=
  (calm.tracks idle).bind fun _ value same => same ▸ second value

theorem tracks_insertOutboundLog
    {inner : Inner} (topic : String) (idle : hand.awaits = none) (own : hand.ids inner.id) :
    Prog.Tracks OutboxRule (fun later _ => later = { hand with awaits := some inner.id }) hand
      (Calls.insertOutboundLog inner topic) :=
  Prog.Tracks.call fun _ _ => ⟨_, .logs inner topic idle own rfl, rfl⟩

theorem tracks_enqueueOutbound
    {ob : Outbound} (due : hand.awaits = none ∨ hand.awaits = some ob.id)
    (own : hand.ids ob.id) :
    Prog.Tracks OutboxRule
      (fun later (queued : Except Error Unit) =>
        hand.Spends ob.id later ∧ (queued = .ok () → later.known ob))
      hand (Calls.enqueueOutbound ob) := by
  refine Prog.Tracks.call fun input world => ⟨_, .queues ob due own rfl, ?_, ?_⟩
  · exact ⟨rfl, fun _ owned different => ⟨owned, different⟩, fun _ known => Or.inl known,
      fun _ handed => handed⟩
  · intro queued
    cases fault : input.fault with
    | none =>
        exact Or.inr ⟨rfl, rfl⟩
    | some writes =>
        rw [fault] at queued
        cases queued

theorem tracks_publishOn
    {topic : String} {payload : Bytes} {retain : Bool} (idle : hand.awaits = none) :
    Prog.Tracks OutboxRule
      (fun later accepted => later.awaits = none ∧ (∀ id, hand.ids id → later.ids id) ∧
        (∀ ob, hand.known ob → later.known ob) ∧
        (∀ publish, hand.handed publish → later.handed publish) ∧
        (accepted = true → later.handed ⟨topic, payload, retain⟩))
      hand (publishOn topic payload retain) := by
  refine Prog.Tracks.call fun input world => ?_
  have refused : ∀ accepted, accepted = false →
      OutboxRule hand input world world hand ∧ hand.awaits = none ∧
        (∀ id, hand.ids id → hand.ids id) ∧ (∀ ob, hand.known ob → hand.known ob) ∧
        (∀ publish, hand.handed publish → hand.handed publish) ∧
        (accepted = true → hand.handed ⟨topic, payload, retain⟩) := by
    rintro accepted rfl
    exact ⟨.calm idle (Or.inl rfl), idle, fun _ => id, fun _ => id, fun _ => id, fun taken => by
      cases taken⟩
  cases session : world.mqtt with
  | none =>
      exact ⟨hand, refused false rfl⟩
  | some session' =>
      cases accepts : input.accepts with
      | false =>
          exact ⟨hand, refused false rfl⟩
      | true =>
          refine ⟨_, .hands ⟨topic, payload, retain⟩ session' idle rfl session rfl, idle,
            fun _ => id, fun _ => id, fun _ => Or.inl, fun _ => Or.inr rfl⟩

theorem tracks_markDelivered
    {ob : Outbound} (idle : hand.awaits = none) (known : hand.known ob)
    (handed : hand.handed ob.publish) :
    Prog.Tracks OutboxRule (fun later _ => later = hand) hand (Calls.markDelivered ob.id) :=
  Prog.Tracks.call fun _ _ => ⟨hand, .marks ob idle known handed rfl, rfl⟩

/-- Log a message, queue it, and go on. -/
theorem tracks_logAndQueue
    {α : Type} {final : Hand → α → Prop} {inner : Inner} {wrapper : Wrapper} (topic : String)
    {rest : Except Error Unit → Thread α} (idle : hand.awaits = none) (own : hand.ids inner.id)
    (second : ∀ later queued, hand.Spends inner.id later →
      (queued = .ok () → later.known (outboxEntry P topic inner wrapper)) →
      Prog.Tracks OutboxRule final later (rest queued)) :
    Prog.Tracks OutboxRule final hand (do
      let _ ← Calls.insertOutboundLog inner topic
      let queued ← Calls.enqueueOutbound (outboxEntry P topic inner wrapper)
      rest queued) := by
  refine (tracks_insertOutboundLog topic idle own).bind fun logged _ same => ?_
  subst same
  refine (tracks_enqueueOutbound (Or.inr rfl) own).bind fun later queued ends => ?_
  obtain ⟨spends, known⟩ := ends
  exact second later queued ⟨spends.idle, spends.ids, spends.known, spends.handed⟩ known

theorem tracks_enqueueReceipt
    {draw : Draw} (recipient refId : String) (status : ReceiptStatus) (topic : String)
    (idle : hand.awaits = none) (own : hand.ids draw.id) :
    Prog.Tracks OutboxRule (fun later _ => hand.Spends draw.id later) hand
      (enqueueReceipt P identity draw recipient refId status topic) := by
  unfold enqueueReceipt
  split
  · exact .done (.of_eq idle rfl)
  · rename_i inner wrapper built
    rw [← build_id built] at own ⊢
    exact tracks_logAndQueue topic idle own fun later _ spends _ => .done spends

theorem tracks_enqueuePresence
    {draw : Draw} (topic : String) (beacon : PresenceBeacon)
    (idle : hand.awaits = none) (own : hand.ids draw.id) :
    Prog.Tracks OutboxRule (fun later _ => hand.Spends draw.id later) hand
      (enqueuePresence P identity draw topic beacon) := by
  unfold enqueuePresence
  split
  · exact .done (.of_eq idle rfl)
  · rename_i inner wrapper built
    rw [← build_id built] at own ⊢
    exact (tracks_enqueueOutbound (Or.inl idle) own).bind fun later _ ends => .done ends.1

theorem tracks_publishNow
    {topic : String} {inner : Inner} {wrapper : Wrapper} (idle : hand.awaits = none)
    (known : hand.known (outboxEntry P topic inner wrapper)) :
    Prog.Tracks OutboxRule
      (fun later _ => later.awaits = none ∧ ∀ id, hand.ids id → later.ids id) hand
      (publishNow topic inner (P.wrapperJson.encode wrapper)) := by
  refine Calm.before (quiet_observe _) idle fun connected => ?_
  split
  · refine (tracks_publishOn idle).bind fun later accepted ends => ?_
    obtain ⟨stillIdle, ids, stillKnown, _, handed⟩ := ends
    split
    · rename_i taken
      refine (tracks_markDelivered stillIdle (stillKnown _ known) (handed taken)).bind
        fun last _ same => ?_
      subst same
      exact .done ⟨stillIdle, ids⟩
    · exact .done ⟨stillIdle, ids⟩
  · exact .done ⟨idle, fun _ => id⟩

theorem tracks_sendBuilt
    (topic : String) {inner : Inner} {wrapper : Wrapper}
    (idle : hand.awaits = none) (own : hand.ids inner.id) :
    Prog.Tracks OutboxRule (fun later _ => later.awaits = none) hand
      (sendBuilt P topic inner wrapper) := by
  refine tracks_logAndQueue topic idle own fun later queued spends known => ?_
  split
  · exact .done spends.idle
  · exact (tracks_publishNow spends.idle (known rfl)).bind fun last _ ends => .done ends.1

theorem tracks_send
    (p : SendParams) {draw : Draw} (idle : hand.awaits = none) (own : hand.ids draw.id) :
    Prog.Tracks OutboxRule (fun later _ => later.awaits = none) hand
      (send P identity p draw) := by
  refine Calm.before (quiet_observe _) idle fun cfg => ?_
  split
  · exact .done idle
  · split
    · exact .done idle
    · split
      · exact .done idle
      · refine Calm.before ?_ idle fun key => ?_
        · exact (reads_resolveKemKey P _ p).of_reads fun _ => .of_eq rfl
        · split
          · exact .done idle
          · split
            · exact .done idle
            · rename_i built
              rw [← build_id built] at own
              exact tracks_sendBuilt _ idle own

theorem tracks_maybeReadReceipt
    (seq : Int) {draw : Draw} (idle : hand.awaits = none) (own : hand.ids draw.id) :
    Prog.Tracks OutboxRule (fun later _ => hand.Spends draw.id later) hand
      (maybeReadReceipt P identity seq draw) := by
  have kept : hand.Spends draw.id hand := .of_eq idle rfl
  refine Calm.before (quiet_observe _) idle fun cfg => ?_
  split
  · refine Calm.before within_storeQuery idle fun found => ?_
    split
    · split
      · exact tracks_enqueueReceipt _ _ _ _ idle own
      · exact .done kept
    · exact .done kept
  · exact .done kept

theorem tracks_pairStart
    (topic : Option String) {draw : Draw} (idle : hand.awaits = none) (own : hand.ids draw.id) :
    Prog.Tracks OutboxRule (fun later _ => later.awaits = none) hand
      (pairStart P identity topic draw) := by
  refine Calm.before (quiet_observe _) idle fun cfg => ?_
  split
  · exact .done idle
  · split
    · exact .done idle
    · rename_i inner wrapper built
      have used : hand.ids inner.id := by
        rw [build_id built]
        exact own
      refine (tracks_enqueueOutbound (Or.inl idle) used).bind fun later queued ends => ?_
      obtain ⟨spends, _⟩ := ends
      split
      · exact .done spends.idle
      · refine Calm.before (quiet_observe _) spends.idle fun connected => ?_
        split
        · exact (tracks_publishOn spends.idle).bind fun last _ ends => .done ends.1
        · exact .done spends.idle

theorem calm_ack (consumer : String) (seq : Int) : Calm (Calls.ack consumer seq) :=
  within_storeCall (fun _ => trivial) (by simp [Store.Op.upTo])

theorem tracks_ackRequest
    (consumer : String) (seq : Int) {draw : Draw}
    (idle : hand.awaits = none) (own : hand.ids draw.id) :
    Prog.Tracks OutboxRule (fun later _ => later.awaits = none) hand
      (ackRequest P identity consumer seq draw) := by
  refine Calm.before (calm_ack consumer seq) idle fun acked => ?_
  split
  · exact .done idle
  · exact (tracks_maybeReadReceipt seq idle own).bind fun later _ spends => .done spends.idle

theorem Calm.tracksIdle
    {α : Type} {thread : Thread α} (calm : Calm thread) (idle : hand.awaits = none) :
    Prog.Tracks OutboxRule (fun later _ => later.awaits = none) hand thread :=
  (calm.tracks idle).weaken fun _ _ same => same ▸ idle

theorem tracks_handle
    {draw : Draw} (nowSeq : Int) (request : Request)
    (idle : hand.awaits = none) (own : hand.ids draw.id) :
    Prog.Tracks OutboxRule (fun later _ => later.awaits = none) hand
      (handle P identity draw nowSeq request) := by
  cases request with
  | ping | hello | shutdown =>
      exact .done idle
  | status =>
      exact Calm.tracksIdle asides_status.quiet idle
  | send params =>
      exact tracks_send params idle own
  | read consumer limit =>
      refine Calm.tracksIdle (Prog.Within.andThen ?_ fun _ => .done) idle
      refine within_storeQuery.andThen fun after => ?_
      split
      · exact within_storeQuery
      · exact .done
  | ack consumer seq =>
      exact tracks_ackRequest consumer seq idle own
  | browse | transcript | rejections | consumers | presenceList =>
      exact Calm.tracksIdle (asides_query _ _).quiet idle
  | receipts id limit state =>
      cases id <;> exact Calm.tracksIdle (asides_query _ _).quiet idle
  | reply msgId ctype body =>
      refine Calm.before within_storeQuery idle fun found => ?_
      split
      · exact .done idle
      · exact .done idle
      · exact tracks_send _ idle own
  | presence state ttlSecs detail =>
      refine Calm.before (quiet_observe _) idle fun cfg => ?_
      split
      · exact .done idle
      · exact (tracks_enqueuePresence _ _ idle own).bind fun later _ spends => .done spends.idle
  | pairStart topic =>
      exact tracks_pairStart topic idle own
  | pairList =>
      exact Calm.tracksIdle (quiet_observe _) idle
  | pairConfirm name =>
      exact Calm.tracksIdle (asides_pairConfirm name).quiet idle
  | connect =>
      exact Calm.tracksIdle asides_connect.quiet idle
  | disconnect =>
      exact Calm.tracksIdle (within_call fun _ _ => rfl) idle

theorem tracks_ackFrame
    (consumer : String) (ack : Bool) {draw : Draw} (frame : StreamFrame)
    (idle : hand.awaits = none) (own : hand.ids draw.id) :
    Prog.Tracks OutboxRule (fun later _ => hand.Spends draw.id later) hand
      (ackFrame P identity consumer ack draw frame) := by
  have kept : hand.Spends draw.id hand := .of_eq idle rfl
  unfold ackFrame
  split
  · split
    · exact Calm.before (calm_ack _ _) idle fun _ => tracks_maybeReadReceipt _ idle own
    · exact .done kept
  · exact .done kept

theorem tracks_forward
    (id : Nat) (consumer : String) (ack : Bool) (rounds : Nat) {draws : Nat → Draw}
    (idle : hand.awaits = none) (own : ∀ index, hand.ids (draws index).id)
    (once : ∀ first second, (draws first).id = (draws second).id → first = second) :
    Prog.Tracks OutboxRule (fun later _ => later.awaits = none) hand
      (forward P identity id consumer ack rounds draws) := by
  induction rounds generalizing draws hand with
  | zero =>
      exact .done idle
  | succ rounds inductionHypothesis =>
      have rest (later : Hand) (spends : hand.Spends (draws 0).id later) :
          Prog.Tracks OutboxRule (fun later _ => later.awaits = none) later
            (forward P identity id consumer ack rounds fun index => draws (index + 1)) := by
        refine inductionHypothesis spends.idle (fun index => ?_) fun first second same => ?_
        · refine spends.ids _ (own (index + 1)) fun same => ?_
          exact absurd (once _ _ same) (Nat.succ_ne_zero index)
        · exact Nat.succ.inj (once _ _ same)
      have kept : hand.Spends (draws 0).id hand := .of_eq idle rfl
      refine Calm.before (within_call fun _ _ => rfl) idle fun frame => ?_
      split
      · exact rest hand kept
      · refine Calm.before (within_call fun input world => ?_) idle fun wrote => ?_
        · split <;> rfl
        · split
          · exact (tracks_ackFrame consumer ack _ idle (own 0)).bind fun later _ spends =>
              rest later spends
          · exact Calm.tracksIdle (within_call fun _ _ => rfl) idle

theorem tracks_pumpAll
    {pending : List Outbound} (idle : hand.awaits = none)
    (known : ∀ ob ∈ pending, hand.known ob) :
    Prog.Tracks OutboxRule (fun later _ => later.awaits = none) hand (pumpAll pending) := by
  induction pending generalizing hand with
  | nil =>
      exact .done idle
  | cons ob pending inductionHypothesis =>
      refine (tracks_publishOn idle).bind fun later accepted ends => ?_
      obtain ⟨stillIdle, _, stillKnown, _, handed⟩ := ends
      have rest := inductionHypothesis stillIdle
        fun other member => stillKnown other (known other (.tail _ member))
      split
      · rename_i taken
        have isKnown : later.known ob := stillKnown ob (known ob List.mem_cons_self)
        have isHanded : later.handed ob.publish := handed taken
        refine (tracks_markDelivered stillIdle isKnown isHanded).bind fun last _ same => ?_
        rw [same]
        exact rest
      · exact rest

theorem tracks_pendingOutbound (idle : hand.awaits = none) :
    Prog.Tracks OutboxRule
      (fun later pending =>
        later.awaits = none ∧ ∀ ob ∈ Checked.unwrapOr [] pending, later.known ob)
      hand (storeQuery Store.pendingOutbound) := by
  refine Prog.Tracks.call fun input world => ⟨_, .reads idle, idle, ?_⟩
  cases input.fault with
  | none =>
      exact fun ob member => Or.inr member
  | some writes =>
      exact fun ob member => by cases member

theorem tracks_pumpRound (idle : hand.awaits = none) :
    Prog.Tracks OutboxRule (fun later _ => later.awaits = none) hand pumpRound := by
  refine Calm.before (quiet_observe _) idle fun connected => ?_
  split
  · exact (tracks_pendingOutbound idle).bind fun later pending ends =>
      tracks_pumpAll ends.1 ends.2
  · exact .done idle

theorem tracks_heartbeat
    {draw : Draw} (nowSeq : Int) (idle : hand.awaits = none) (own : hand.ids draw.id) :
    Prog.Tracks OutboxRule (fun later _ => later.awaits = none) hand
      (heartbeat P identity draw nowSeq) := by
  refine Calm.before (quiet_observe _) idle fun cfg => ?_
  split
  · exact .done idle
  · split
    · exact .done idle
    · exact (tracks_enqueuePresence _ _ idle own).weaken fun later _ spends => spends.idle

theorem tracks_storeMessage
    (cfg : Config) (delivery : Delivery) (inner : Inner)
    (idle : hand.awaits = none) (own : hand.ids delivery.draw.id) :
    Prog.Tracks OutboxRule (fun later _ => later.awaits = none) hand
      (storeMessage P identity cfg delivery inner) := by
  refine Calm.before (within_storeCall (fun _ => trivial) (by simp [Store.Op.upTo])) idle
    fun found => ?_
  split
  · refine Calm.before (within_storeCall (fun _ => trivial) ?_) idle fun _ =>
      Calm.before (confined_pushStored _) idle fun _ => ?_
    · intro _ writes left remaining
      cases remaining
      trivial
    · split
      · exact (tracks_enqueueReceipt _ _ _ _ idle own).bind fun later _ spends => .done spends.idle
      · exact .done idle
  · exact .done idle
  · exact .done idle

theorem tracks_acceptMessage
    (cfg : Config) (trust : TrustStore) (delivery : Delivery) (inner : Inner)
    (idle : hand.awaits = none) (own : hand.ids delivery.draw.id) :
    Prog.Tracks OutboxRule (fun later _ => later.awaits = none) hand
      (acceptMessage P identity cfg trust delivery inner) := by
  unfold acceptMessage
  split
  · split
    · exact Calm.before (within_storeCall (fun _ => trivial) (by simp [Store.Op.upTo])) idle
        fun _ => .done idle
    · exact .done idle
  · split
    · split
      · refine Calm.before ?_ idle fun _ => .done idle
        unfold applyReceipt
        split <;> exact within_storeCall (fun _ => trivial) (by simp [Store.Op.upTo])
      · exact .done idle
    · refine Calm.before ?_ idle fun replayed => ?_
      · unfold grantReplayed
        split
        · exact .done
        · exact Prog.Within.andThen
            (within_storeCall (fun _ => trivial) (by simp [Store.Op.upTo])) fun _ => .done
      · split
        · exact Calm.before (within_storeCall (fun _ => trivial) (by simp [Store.Op.upTo]))
            idle fun _ => .done idle
        · exact tracks_storeMessage cfg delivery inner idle own

theorem tracks_onMsg
    (delivery : Delivery) (idle : hand.awaits = none) (own : hand.ids delivery.draw.id) :
    Prog.Tracks OutboxRule (fun later _ => later.awaits = none) hand
      (onMsg P identity delivery) := by
  have rejects (reason : RejectReason) (claimed : Option String) (detail : String) :
      Calm (Calls.recordRejection reason claimed delivery.topic detail) :=
    within_storeCall (fun _ => trivial) (by simp [Store.Op.upTo])
  unfold onMsg
  split
  · exact .done idle
  · exact Calm.before (within_call fun _ _ => rfl) idle fun _ => .done idle
  · exact Calm.before (rejects _ _ _) idle fun _ => .done idle
  · refine Calm.before (quiet_observe _) idle fun cfg =>
      Calm.before (quiet_observe _) idle fun trust => ?_
    unfold settle
    split
    · exact tracks_acceptMessage _ _ _ _ idle own
    · exact Calm.before (rejects _ _ _) idle fun _ => .done idle

end Threads

/-! ## Message ids of a job -/

/-- May the job draw the id? -/
def Job.Draws : Job → String → Prop
  | .ingest delivery, id => delivery.draw.id = id
  | .request _ draw _, id => draw.id = id
  | .subscribe _ _ _ draws, id => ∃ index, (draws index).id = id
  | .heartbeat draw _, id => draw.id = id
  | _, _ => False

/-- A job that draws several ids draws different ones. -/
def Job.DrawsOnce : Job → Prop
  | .subscribe _ _ _ draws =>
      ∀ first second, (draws first).id = (draws second).id → first = second
  | _ => True

/-- The account a job starts with. -/
def Job.hand (job : Job) : Hand where
  ids := job.Draws
  awaits := none
  known _ := False
  handed _ := False

theorem tracks_ignore
    {α : Type} {thread : Thread α} {hand : Hand}
    (tracks : Prog.Tracks OutboxRule (fun later _ => later.awaits = none) hand thread) :
    Prog.Tracks OutboxRule (fun later _ => later.awaits = none) hand (ignore thread) :=
  tracks.bind fun _ _ idle => .done idle

theorem Calm.tracksIgnored
    {α : Type} {thread : Thread α} {hand : Hand} (calm : Calm thread)
    (idle : hand.awaits = none) :
    Prog.Tracks OutboxRule (fun later _ => later.awaits = none) hand (ignore thread) := by
  refine tracks_ignore ?_
  exact Calm.tracksIdle calm idle

/-- Every thread of the system keeps its account. -/
theorem tracks_thread
    {P : Platform} {identity : Identity} (job : Job) (once : job.DrawsOnce) :
    Prog.Tracks OutboxRule (fun later _ => later.awaits = none) job.hand
      (job.thread P identity) := by
  cases job with
  | ingest delivery =>
      exact tracks_ignore (tracks_onMsg delivery rfl rfl)
  | request asked draw nowSeq =>
      exact tracks_ignore (tracks_handle nowSeq asked rfl rfl)
  | subscribe consumer ack rounds draws =>
      exact Calm.before (within_call fun _ _ => rfl) rfl fun id =>
        Calm.before (within_call fun _ _ => rfl) rfl fun _ =>
          tracks_forward id consumer ack rounds rfl (fun index => ⟨index, rfl⟩) once
  | pump =>
      exact tracks_pumpRound rfl
  | heartbeat draw nowSeq =>
      exact tracks_heartbeat nowSeq rfl rfl
  | agentAdd text rotate =>
      exact Calm.tracksIgnored (asides_agentAdd text rotate).quiet rfl
  | agentRemove name =>
      exact Calm.tracksIgnored (asides_editTrust _).quiet rfl
  | authorityAdd text =>
      exact Calm.tracksIgnored (asides_authorityAdd text).quiet rfl
  | authorityRemove name =>
      exact Calm.tracksIgnored (asides_editTrust _).quiet rfl
  | editConfig | editTrustFile | connection =>
      exact Calm.tracksIdle (within_call fun _ _ => rfl) rfl

/-! ## Pending rows -/

/-- A row that awaits its hand-off to the broker. -/
structure MsgRow.Awaiting (row : MsgRow) : Prop where
  outbound : row.direction = .outbound
  pending : row.deliveryState = .pending

namespace Store

theorem Op.update_not_pending
    {operation : Op} {update : DeliveryUpdate} (found : operation.update = some update)
    (row : MsgRow) : (update.change row).deliveryState ≠ .pending := by
  cases operation with
  | markSent | markDelivered | applyDeliveryReceipt | applyReadReceipt | markFailed =>
      cases found
      exact (DeliveryState.noConfusion ·)
  | _ =>
      cases found

/-- A row awaits its hand-off only from its logging on. -/
theorem LogStep.awaiting_mem
    {before after : MessageTable} {operation : Op} (step : LogStep before operation after)
    {row : Int × MsgRow} (member : row ∈ after.rows) (awaiting : row.2.Awaiting) :
    row ∈ before.rows ∨
      ∃ inner topic, operation = .insertOutboundLog inner topic ∧ row.2.id = inner.id := by
  cases step with
  | same =>
      exact Or.inl member
  | inbound inner topic =>
      rcases RowTable.mem_insertOrIgnore.mp member with old | ⟨_, new⟩
      · exact Or.inl old
      · have inbound : row.2.direction = .inbound := by
          rw [new]
          rfl
        rw [awaiting.outbound] at inbound
        cases inbound
  | outbound inner topic =>
      rcases RowTable.mem_insertOrIgnore.mp member with old | ⟨_, new⟩
      · exact Or.inl old
      · refine Or.inr ⟨inner, topic, rfl, ?_⟩
        rw [new]
        rfl
  | updated update found =>
      obtain ⟨old, oldMember, rfl⟩ := RowTable.mem_updateWhere.mp member
      by_cases selected : update.selects old.2 = true
      · have pending := awaiting.pending
        rw [if_pos selected] at pending
        exact absurd pending (Op.update_not_pending found old.2)
      · rw [if_neg selected]
        exact Or.inl oldMember
  | trimmed _ sublist _ =>
      exact Or.inl (sublist.subset member)

/-- After the hand-off of a message its row does not await it. -/
theorem markDelivered_awaiting
    {store : Store} {id now : String} {row : Int × MsgRow}
    (member : row ∈ (store.markDelivered id now).messages.rows) (awaiting : row.2.Awaiting) :
    row.2.id ≠ id := by
  have step := store.apply_log (.markDelivered id now)
  rcases step.awaiting_mem member awaiting with old | ⟨_, _, logs, _⟩
  · intro same
    have selected : (sentUpdate id now).selects row.2 = true := by
      simp [DeliveryUpdate.selects, sentUpdate, same, awaiting.outbound, awaiting.pending]
    have sent : (row.1, (sentUpdate id now).change row.2) ∈
        (store.markDelivered id now).messages.rows :=
      RowTable.mem_updateWhere.mpr
        ⟨row, old, congrArg (Prod.mk row.1) (if_pos selected).symm⟩
    have equal := RowTable.rowid_injective _ member sent rfl
    have pending := awaiting.pending
    rw [equal] at pending
    cases pending
  · cases logs

theorem calmOp_outbox
    {operation : Op} (calm : CalmOp operation) (store : Store) :
    (store.apply operation).outbox = store.outbox := by
  cases operation with
  | insertOutboundLog | enqueueOutbound | markSent | markDelivered =>
      exact calm.elim
  | ack consumer seq now =>
      simp only [apply, Store.ack]
      split
      · rfl
      · split <;> rfl
  | seenGrant grantId now =>
      simp only [apply, Store.seenGrant]
      split <;> rfl
  | upsertPresence agent beacon lastSeen now =>
      simp only [apply, Store.upsertPresence]
      split
      · rfl
      · split <;> rfl
  | _ =>
      rfl

end Store

/-- The session takes a publish: it is the new last request. -/
def Takes (before after : World) (publish : Publish) : Prop :=
  ∃ session, before.mqtt = some session ∧
    after.mqtt = some { session with requests := session.requests ++ [publish] }

/-! ## One action -/

section Action

variable {hand later : Hand} {input : Input} {before after : World}

/-- What an action does to the outbox and to the account: nothing is queued or dropped,
or a row is queued under an own id, or a known row that was handed over is dropped. -/
inductive OutboxStep : Hand → World → World → Hand → Prop
  | kept {hand later : Hand} {before after : World}
      (same : after.store.outbox = before.store.outbox)
      (ids : ∀ id, later.ids id → hand.ids id)
      (known : ∀ ob, later.known ob → hand.known ob ∨ ob ∈ before.store.pendingOutbound)
      (handed : ∀ publish, later.handed publish →
        hand.handed publish ∨ Takes before after publish) :
      OutboxStep hand before after later
  | queued {hand later : Hand} {before after : World} (ob : Outbound) (own : hand.ids ob.id)
      (queued : after.store.outbox = (before.store.outbox.insertOrIgnore ob).1)
      (ids : ∀ id, later.ids id → hand.ids id ∧ id ≠ ob.id)
      (known : ∀ other, later.known other → hand.known other ∨ other = ob)
      (handed : later.handed = hand.handed) :
      OutboxStep hand before after later
  | dropped {hand : Hand} {before after : World} (ob : Outbound) (known : hand.known ob)
      (handed : hand.handed ob.publish)
      (dropped : after.store.outbox =
        before.store.outbox.deleteWhere fun row => row.2.id == ob.id) :
      OutboxStep hand before after hand

theorem OutboxRule.step
    (follows : OutboxRule hand input before after later) (reliable : input.Succeeds) :
    OutboxStep hand before after later := by
  have whole (operation : Store.Op) :
      before.store.attempt operation input.fault = before.store.apply operation := by
    rw [reliable]
    rfl
  cases follows with
  | calm _ change =>
      refine .kept ?_ (fun _ => id) (fun _ => Or.inl) fun _ => Or.inl
      rcases change with same | ⟨operation, calm, changed⟩
      · rw [same]
      · rw [changed]
        exact Store.calmOp_outbox calm _
  | reads _ =>
      exact .kept rfl (fun _ => id) (fun _ => id) fun _ => Or.inl
  | logs inner topic _ _ stored =>
      rw [whole] at stored
      exact .kept (by rw [stored]; rfl) (fun _ => id) (fun _ => Or.inl) fun _ => Or.inl
  | queues ob _ own stored =>
      rw [whole] at stored
      exact .queued ob own (by rw [stored]; rfl) (fun _ => id)
        (fun _ known => known.imp_right And.right) rfl
  | hands publish session _ same live queued =>
      refine .kept (by rw [same]) (fun _ => id) (fun _ => Or.inl) ?_
      rintro other (old | rfl)
      · exact Or.inl old
      · exact Or.inr ⟨session, live, queued⟩
  | marks ob _ known handed stored =>
      rw [whole] at stored
      exact .dropped ob known handed (by rw [stored]; rfl)

/-- What an action does to the rows that await their hand-off: a new one is queued next,
and the id that was due is in the outbox. -/
theorem OutboxRule.awaiting
    (follows : OutboxRule hand input before after later) (reliable : input.Succeeds) :
    (∀ id, hand.awaits = some id → after.store.outbox.holds id = true) ∧
      (∀ id, later.awaits = some id → later.ids id) ∧
      ∀ row ∈ after.store.messages.rows, row.2.Awaiting →
        later.awaits = some row.2.id ∨
          (row ∈ before.store.messages.rows ∧
            (before.store.outbox.holds row.2.id = true →
              after.store.outbox.holds row.2.id = true)) := by
  have whole (operation : Store.Op) :
      before.store.attempt operation input.fault = before.store.apply operation := by
    rw [reliable]
    rfl
  cases follows with
  | calm idle change =>
      refine ⟨fun id due => ?_, fun id due => ?_, fun row member awaiting => Or.inr ?_⟩
      · rw [idle] at due
        cases due
      · rw [idle] at due
        cases due
      · rcases change with same | ⟨operation, calm, changed⟩
        · rw [same] at member ⊢
          exact ⟨member, id⟩
        · rw [changed] at member ⊢
          rw [Store.calmOp_outbox calm]
          rcases (before.store.apply_log operation).awaiting_mem member awaiting with
            old | ⟨_, _, rfl, _⟩
          · exact ⟨old, id⟩
          · exact calm.elim
  | reads idle =>
      refine ⟨fun id due => ?_, fun id due => ?_, fun row member _ => Or.inr ⟨member, id⟩⟩
      · rw [idle] at due
        cases due
      · dsimp only at due
        rw [idle] at due
        cases due
  | logs inner topic idle own stored =>
      rw [whole] at stored
      refine ⟨fun id due => ?_, fun id due => ?_, fun row member awaiting => ?_⟩
      · rw [idle] at due
        cases due
      · cases due
        exact own
      · rw [stored] at member ⊢
        rcases (before.store.apply_log _).awaiting_mem member awaiting with
          old | ⟨logged, _, same, identified⟩
        · exact Or.inr ⟨old, id⟩
        · cases same
          exact Or.inl (by rw [identified])
  | queues ob due own stored =>
      rw [whole] at stored
      have outbox : after.store.outbox = (before.store.outbox.insertOrIgnore ob).1 := by
        rw [stored]
        rfl
      refine ⟨fun id isDue => ?_, fun id isDue => ?_, fun row member _ => Or.inr ⟨?_, ?_⟩⟩
      · rcases due with none | some
        · rw [none] at isDue
          cases isDue
        · rw [some] at isDue
          cases isDue
          rw [outbox, RowTable.holds_insertOrIgnore]
          simp
      · cases isDue
      · rw [stored] at member
        exact member
      · intro held
        rw [outbox, RowTable.holds_insertOrIgnore, held, Bool.true_or]
  | hands publish session idle same _ _ =>
      refine ⟨fun id due => ?_, fun id due => ?_, fun row member _ => Or.inr ?_⟩
      · rw [idle] at due
        cases due
      · dsimp only at due
        rw [idle] at due
        cases due
      · rw [same] at member ⊢
        exact ⟨member, id⟩
  | marks ob idle _ _ stored =>
      rw [whole] at stored
      refine ⟨fun id due => ?_, fun id due => ?_, fun row member awaiting => Or.inr ?_⟩
      · rw [idle] at due
        cases due
      · rw [idle] at due
        cases due
      · rw [stored] at member
        have other := Store.markDelivered_awaiting member awaiting
        rcases (before.store.apply_log _).awaiting_mem member awaiting with
          old | ⟨_, _, same, _⟩
        · refine ⟨old, fun held => ?_⟩
          obtain ⟨entry, entryMember, identified⟩ := RowTable.holds_eq_true_iff.mp held
          rw [stored]
          refine RowTable.holds_eq_true_iff.mpr
            ⟨entry, RowTable.mem_deleteWhere.mpr ⟨entryMember, ?_⟩, identified⟩
          rw [identified]
          exact beq_eq_false_iff_ne.mpr other
        · cases same

end Action

end AgentMsg
