import AgentMsg.Encryption
import AgentMsg.Lib.Account
import AgentMsg.Outbox
import AgentMsg.Versions

/-!
# What automatic receipts are enqueued for

A thread may enqueue a delivery receipt for each message to its agent that it has stored,
and a read receipt for each acknowledgement.  Every thread keeps an account of the receipts
it may still enqueue, and of the payloads that it may hand to the broker: those of its own
job and those that it has found in the outbox.
-/

namespace AgentMsg

/-! ## Events -/

/-- The payload carries a receipt. -/
def IsReceipt (P : Platform) (status : ReceiptStatus) (payload : Bytes) : Prop :=
  ∃ wrapper inner refId, P.wrapperJson.decode payload = some wrapper ∧
    wrapper.peek P = .ok inner ∧ inner.receipt = some { refId, status }

/-- A receipt is put into the outbox. -/
def Enqueues (P : Platform) (status : ReceiptStatus) (before after : World) : Prop :=
  ∃ entry, after.store.pendingOutbound = before.store.pendingOutbound ++ [entry] ∧
    IsReceipt P status entry.payload

/-- An inbound row is added to the log. -/
def Inserts (before after : World) (row : Int × MsgRow) : Prop :=
  after.store.messages.rows = before.store.messages.rows ++ [row] ∧ row.2.direction = .inbound

/-- A message is written to a connection. -/
def Writes (before after : World) : Prop :=
  ∃ id msg, after.written = before.written ++ [(id, .message msg)]

/-- The publishes that the session has taken. -/
def World.requests (world : World) : List Publish :=
  match world.mqtt with
  | some session => session.requests
  | none => []

/-- Nothing new is in the outbox, and nothing new is handed to the session. -/
structure Still (before after : World) : Prop where
  outbox : after.store.pendingOutbound.Sublist before.store.pendingOutbound
  requests : after.requests ⊆ before.requests

/-! ## The account of a thread -/

/-- What a thread may enqueue and hand on: whether the messages that it writes count as
acknowledged, the receipts it has left, the payloads of its job, and those it knows from
the outbox. -/
structure Purse where
  acking : Bool
  credit : ReceiptStatus → Nat
  makes : Bytes → Prop
  knows : Bytes → Prop

namespace Purse

def earn (purse : Purse) (status : ReceiptStatus) : Purse :=
  { purse with credit := Function.update purse.credit status (purse.credit status + 1) }

def pay (purse : Purse) (status : ReceiptStatus) : Purse :=
  { purse with credit := Function.update purse.credit status (purse.credit status - 1) }

@[simp]
theorem credit_earn (purse : Purse) (status : ReceiptStatus) :
    (purse.earn status).credit status = purse.credit status + 1 :=
  Function.update_self ..

theorem credit_earn_of_ne
    {purse : Purse} {status other : ReceiptStatus} (different : other ≠ status) :
    (purse.earn status).credit other = purse.credit other :=
  Function.update_of_ne different ..

@[simp]
theorem credit_pay (purse : Purse) (status : ReceiptStatus) :
    (purse.pay status).credit status = purse.credit status - 1 :=
  Function.update_self ..

theorem credit_pay_of_ne
    {purse : Purse} {status other : ReceiptStatus} (different : other ≠ status) :
    (purse.pay status).credit other = purse.credit other :=
  Function.update_of_ne different ..

/-- The purse after the outbox was read. -/
def learn (purse : Purse) (world : World) : Purse :=
  { purse with knows := fun payload =>
      purse.knows payload ∨ ∃ entry ∈ world.store.pendingOutbound, entry.payload = payload }

end Purse

/-- The changes that a thread makes, with what they cost or earn. -/
inductive ReceiptRule (P : Platform) (name : String) :
    Purse → Input → World → World → Purse → Prop
  | still {purse : Purse} {input : Input} {before after : World} (change : Still before after) :
      ReceiptRule P name purse input before after purse
  | reads {purse : Purse} {input : Input} {world : World} :
      ReceiptRule P name purse input world world (purse.learn world)
  | inserts {purse : Purse} {input : Input} {before after : World} (row : Int × MsgRow)
      (change : Still before after) (event : Inserts before after row)
      (mine : row.2.recipient = name) :
      ReceiptRule P name purse input before after (purse.earn .delivered)
  | writes {purse : Purse} {input : Input} {before after : World} (acking : purse.acking = true)
      (change : Still before after) (event : Writes before after) :
      ReceiptRule P name purse input before after (purse.earn .read)
  | queues {purse : Purse} {input : Input} {before after : World} (entry : Outbound)
      (queued : after.store.pendingOutbound = before.store.pendingOutbound ++ [entry])
      (requests : after.requests ⊆ before.requests) (made : purse.makes entry.payload)
      (other : ∀ status, ¬ IsReceipt P status entry.payload) :
      ReceiptRule P name purse input before after purse
  | pays {purse : Purse} {input : Input} {before after : World} (entry : Outbound)
      (status : ReceiptStatus)
      (queued : after.store.pendingOutbound = before.store.pendingOutbound ++ [entry])
      (requests : after.requests ⊆ before.requests) (made : purse.makes entry.payload)
      (one : ∀ other, IsReceipt P other entry.payload → other = status)
      (solvent : 0 < purse.credit status) :
      ReceiptRule P name purse input before after (purse.pay status)
  | hands {purse : Purse} {input : Input} {before after : World} (publish : Publish)
      (known : purse.makes publish.payload ∨ purse.knows publish.payload)
      (outbox : after.store.pendingOutbound.Sublist before.store.pendingOutbound)
      (requests : after.requests = before.requests ++ [publish]) :
      ReceiptRule P name purse input before after purse

/-- The account is that of the same thread later. -/
structure Purse.Keeps (purse later : Purse) : Prop where
  acking : later.acking = purse.acking
  makes : later.makes = purse.makes
  knows : ∀ payload, purse.knows payload → later.knows payload

theorem Purse.Keeps.refl (purse : Purse) : purse.Keeps purse :=
  ⟨rfl, rfl, fun _ known => known⟩

theorem Purse.Keeps.trans
    {purse middle later : Purse} (first : purse.Keeps middle) (second : middle.Keeps later) :
    purse.Keeps later :=
  ⟨second.acking.trans first.acking, second.makes.trans first.makes,
    fun payload known => second.knows payload (first.knows payload known)⟩

theorem Purse.keeps_pay (purse : Purse) (status : ReceiptStatus) : purse.Keeps (purse.pay status) :=
  ⟨rfl, rfl, fun _ known => known⟩

theorem Purse.keeps_earn (purse : Purse) (status : ReceiptStatus) :
    purse.Keeps (purse.earn status) :=
  ⟨rfl, rfl, fun _ known => known⟩

/-! ## Receipts among built messages -/

section Built

variable {P : Platform} {identity : Identity} {draw : Draw} {opts : BuildOpts} {inner : Inner}
  {wrapper : Wrapper}

/-- A built message carries the receipt that it was built with. -/
theorem isReceipt_built
    (wrapperJson : P.wrapperJson.Lawful) (innerJson : P.innerJson.Lawful)
    (built : build P identity draw opts = .ok (inner, wrapper)) {status : ReceiptStatus} :
    IsReceipt P status (P.wrapperJson.encode wrapper) ↔
      ∃ refId, opts.receipt = some { refId, status } := by
  obtain ⟨shape, form⟩ := build_ok built
  have receipt : inner.receipt = opts.receipt := by
    rcases form with ⟨_, rfl⟩ | ⟨_, _, _, _, _, _, rfl⟩ <;> rfl
  rw [← receipt, shape]
  constructor
  · rintro ⟨found, peeked, refId, decoded, parsed, carries⟩
    rw [wrapperJson, Option.some.injEq] at decoded
    rw [← decoded, peek_wrapped innerJson] at parsed
    cases parsed
    exact ⟨refId, carries⟩
  · rintro ⟨refId, carries⟩
    exact ⟨_, inner, refId, wrapperJson _, peek_wrapped innerJson _ _, carries⟩

end Built

/-! ## What a job may build -/

/-- The payloads that a thread builds: automatic ones, and for a client the message that is
sent under the thread's draw. -/
inductive Makes (P : Platform) (identity : Identity) : Job → Bytes → Prop
  | automatic (job : Job) (draw : Draw) (inner : Inner) (wrapper : Wrapper)
      (automatic : Automatic P identity draw inner wrapper) :
      Makes P identity job (P.wrapperJson.encode wrapper)
  | sent (asked : Request) (draw : Draw) (nowSeq : Int) (p : SendParams)
      (grant : Option SignedGrant) (encryptTo : Option Bytes) (inner : Inner)
      (wrapper : Wrapper) (sender : Job.Sender (.request asked draw nowSeq))
      (built : build P identity draw (sendOpts p grant encryptTo) = .ok (inner, wrapper)) :
      Makes P identity (.request asked draw nowSeq) (P.wrapperJson.encode wrapper)

/-- Does the thread acknowledge the messages that it writes? -/
def Job.acks : Job → Bool
  | .subscribe _ ack _ _ => ack
  | _ => false

/-- Is the job a request to acknowledge? -/
def Job.isAck : Job → Bool
  | .request (.ack _ _) _ _ => true
  | _ => false

/-- The account that a thread starts with. -/
def Job.purse (P : Platform) (identity : Identity) (job : Job) : Purse :=
  { acking := job.acks
    credit := fun status => if status = .read ∧ job.isAck = true then 1 else 0
    makes := Makes P identity job
    knows := fun _ => False }

/-! ## Threads that enqueue nothing -/

section Threads

theorem Store.apply_pendingOutbound
    (store : Store) {operation : Store.Op} (other : ∀ entry, operation ≠ .enqueueOutbound entry) :
    (store.apply operation).pendingOutbound.Sublist store.pendingOutbound := by
  cases operation with
  | enqueueOutbound entry =>
      exact absurd rfl (other entry)
  | markDelivered id now =>
      exact List.filter_sublist.map Prod.snd
  | insertOutboundLog inner topic =>
      exact .refl _
  | markSent id now =>
      exact .refl _
  | _ =>
      rw [pendingOutbound, calmOp_outbox]
      · exact .refl _
      · exact trivial

variable {P : Platform} {identity : Identity} {name : String} {purse : Purse}

/-- A thread that enqueues nothing and hands nothing on. -/
abbrev Stills {α : Type} (thread : Thread α) : Prop :=
  Prog.Within (fun _ => True) Still (fun _ => True) thread

theorem Still.refl (world : World) : Still world world :=
  ⟨.refl _, List.Subset.refl _⟩

theorem stills_call
    {α : Type} {operation : Input → World → World × α}
    (still : ∀ input world, Still world (operation input world).1) :
    Stills (Prog.call operation) :=
  .call (fun input world _ => still input world) fun _ _ _ => trivial

theorem stills_observe {α : Type} (view : World → α) : Stills (Prog.observe view) :=
  stills_call fun _ world => .refl world

theorem stills_storeQuery {α : Type} {view : Store → α} : Stills (storeQuery view) :=
  stills_call fun _ world => .refl world

/-- A step beside the store and the session enqueues nothing and hands nothing on. -/
theorem Aside.still {before after : World} (aside : Aside before after) : Still before after where
  outbox := by rw [aside.store]
  requests := by
    intro request listed
    unfold World.requests at listed ⊢
    cases live : after.mqtt with
    | none =>
        rw [live] at listed
        exact absurd listed List.not_mem_nil
    | some session =>
        rw [live] at listed
        rcases aside.session session live with kept | empty
        · rw [kept]
          exact listed
        · have none_listed : request ∈ session.requests := listed
          rw [empty] at none_listed
          exact absurd none_listed List.not_mem_nil

theorem Asides.stills {α : Type} {thread : Thread α} (asides : Asides (fun _ => True) thread) :
    Stills thread :=
  asides.weaken (fun _ _ _ aside => aside.still) fun _ _ => trivial

theorem still_attempt
    (world : World) {operation : Store.Op} (other : ∀ entry, operation ≠ .enqueueOutbound entry)
    (fault : Option Nat) :
    Still world { world with store := world.store.attempt operation fault } := by
  refine ⟨?_, List.Subset.refl _⟩
  cases fault with
  | none =>
      exact world.store.apply_pendingOutbound other
  | some writes =>
      simp only [Store.attempt]
      cases left : operation.upTo writes with
      | none =>
          exact .refl _
      | some part =>
          refine world.store.apply_pendingOutbound fun entry queues => ?_
          rw [queues] at left
          cases operation <;> simp [Store.Op.upTo] at left

theorem stills_storeCall
    {α : Type} {operation : String → Store.Op} {result : Store → α}
    (other : ∀ now entry, operation now ≠ .enqueueOutbound entry) :
    Stills (storeCall operation result) :=
  stills_call fun input world => still_attempt world (other input.now) input.fault

theorem Stills.tracks
    {α : Type} {thread : Thread α} (stills : Stills thread) :
    Prog.Tracks (ReceiptRule P name) (fun later _ => later = purse) purse thread :=
  (Prog.Within.tracks stills fun _ _ _ change => .still change).weaken fun _ _ ends => ends.1

theorem Stills.before
    {α β : Type} {thread : Thread α} {rest : α → Thread β} {final : Purse → β → Prop}
    (stills : Stills thread)
    (second : ∀ value, Prog.Tracks (ReceiptRule P name) final purse (rest value)) :
    Prog.Tracks (ReceiptRule P name) final purse (thread >>= rest) :=
  stills.tracks.bind fun _ value same => same ▸ second value

theorem Stills.tracksKept
    {α : Type} {thread : Thread α} (stills : Stills thread) :
    Prog.Tracks (ReceiptRule P name) (fun later _ => purse.Keeps later) purse thread :=
  stills.tracks.weaken fun _ _ same => same ▸ .refl purse

theorem books_kept
    {α : Type} {value : α} :
    Prog.Tracks (ReceiptRule P name) (fun later _ => purse.Keeps later) purse
      (Pure.pure value : Thread α) :=
  .done (.refl purse)

/-! ## Threads that enqueue -/

theorem attempt_enqueue (store : Store) (entry : Outbound) (fault : Option Nat) :
    (store.attempt (.enqueueOutbound entry) fault).pendingOutbound = store.pendingOutbound ∨
      (store.attempt (.enqueueOutbound entry) fault).pendingOutbound =
        store.pendingOutbound ++ [entry] := by
  cases fault with
  | some writes =>
      exact Or.inl rfl
  | none =>
      have grown := pendingOutbound_enqueue store entry
      split at grown
      · exact Or.inr grown
      · exact Or.inl (grown.trans (List.append_nil _))

/-- A payload without a receipt costs nothing. -/
theorem books_queues
    {entry : Outbound} (made : purse.makes entry.payload)
    (other : ∀ status, ¬ IsReceipt P status entry.payload) :
    Prog.Tracks (ReceiptRule P name) (fun later _ => later = purse) purse
      (Calls.enqueueOutbound entry) := by
  refine Prog.Tracks.call fun input world => ?_
  rcases attempt_enqueue world.store entry input.fault with same | queued
  · exact ⟨purse, .still ⟨same ▸ .refl _, List.Subset.refl _⟩, rfl⟩
  · exact ⟨purse, .queues entry queued (List.Subset.refl _) made other, rfl⟩

/-- A receipt is paid for. -/
theorem books_pays
    {entry : Outbound} {status : ReceiptStatus} (made : purse.makes entry.payload)
    (one : ∀ other, IsReceipt P other entry.payload → other = status)
    (solvent : 0 < purse.credit status) :
    Prog.Tracks (ReceiptRule P name) (fun later _ => purse.Keeps later) purse
      (Calls.enqueueOutbound entry) := by
  refine Prog.Tracks.call fun input world => ?_
  rcases attempt_enqueue world.store entry input.fault with same | queued
  · exact ⟨purse, .still ⟨same ▸ .refl _, List.Subset.refl _⟩, .refl purse⟩
  · exact ⟨_, .pays entry status queued (List.Subset.refl _) made one solvent,
      purse.keeps_pay status⟩

theorem books_publishOn
    {topic : String} {payload : Bytes} {retain : Bool}
    (known : purse.makes payload ∨ purse.knows payload) :
    Prog.Tracks (ReceiptRule P name) (fun later _ => later = purse) purse
      (publishOn topic payload retain) := by
  refine Prog.Tracks.call fun input world => ⟨purse, ?_, rfl⟩
  cases session : world.mqtt with
  | none =>
      exact .still (.refl world)
  | some live =>
      cases accepts : input.accepts with
      | false =>
          exact .still (.refl world)
      | true =>
          refine .hands ⟨topic, payload, retain⟩ known (.refl _) ?_
          simp only [World.requests, session]
          rfl

section Lawful

variable {job : Job} (wrapperJson : P.wrapperJson.Lawful) (innerJson : P.innerJson.Lawful)
  (own : purse.makes = Makes P identity job)

include wrapperJson innerJson own

theorem books_enqueueReceipt
    (draw : Draw) (recipient refId : String) (status : ReceiptStatus) (topic : String)
    (solvent : 0 < purse.credit status) :
    Prog.Tracks (ReceiptRule P name) (fun later _ => purse.Keeps later) purse
      (enqueueReceipt P identity draw recipient refId status topic) := by
  unfold enqueueReceipt
  split
  · exact books_kept
  · rename_i inner wrapper built
    refine Stills.before (stills_storeCall fun _ _ => Store.Op.noConfusion) fun _ => ?_
    refine (books_pays ?_ ?_ solvent).bind fun later _ keeps => .done keeps
    · rw [own]
      exact .automatic job draw inner wrapper (.receipt _ _ _ _ _ built)
    · intro other isReceipt
      obtain ⟨_, carries⟩ := (isReceipt_built wrapperJson innerJson built).mp isReceipt
      exact (congrArg Receipt.status (Option.some.inj carries)).symm

theorem books_enqueuePresence
    (draw : Draw) (topic : String) (beacon : PresenceBeacon) :
    Prog.Tracks (ReceiptRule P name) (fun later _ => purse.Keeps later) purse
      (enqueuePresence P identity draw topic beacon) := by
  unfold enqueuePresence
  split
  · exact books_kept
  · rename_i inner wrapper built
    refine (books_queues ?_ fun status isReceipt => ?_).bind fun later _ same => ?_
    · rw [own]
      exact .automatic job draw inner wrapper (.presence _ _ _ built)
    · obtain ⟨_, carries⟩ := (isReceipt_built wrapperJson innerJson built).mp isReceipt
      cases carries
    · exact .done (same ▸ .refl purse)

theorem books_maybeReadReceipt
    (seq : Int) (draw : Draw) (solvent : 0 < purse.credit .read) :
    Prog.Tracks (ReceiptRule P name) (fun later _ => purse.Keeps later) purse
      (maybeReadReceipt P identity seq draw) := by
  refine Stills.before (stills_observe _) fun cfg => ?_
  split
  · refine Stills.before stills_storeQuery fun found => ?_
    split
    · split
      · exact books_enqueueReceipt wrapperJson innerJson own _ _ _ _ _ solvent
      · exact books_kept
    · exact books_kept
  · exact books_kept

theorem books_ackRequest
    (consumer : String) (seq : Int) (draw : Draw) (solvent : 0 < purse.credit .read) :
    Prog.Tracks (ReceiptRule P name) (fun later _ => purse.Keeps later) purse
      (ackRequest P identity consumer seq draw) := by
  refine Stills.before (stills_storeCall fun _ _ => Store.Op.noConfusion) fun acked => ?_
  split
  · exact books_kept
  · exact (books_maybeReadReceipt wrapperJson innerJson own seq draw solvent).bind
      fun later _ keeps => .done keeps

end Lawful

theorem books_publishNow
    {topic : String} {inner : Inner} {payload : Bytes} (made : purse.makes payload) :
    Prog.Tracks (ReceiptRule P name) (fun later _ => purse.Keeps later) purse
      (publishNow topic inner payload) := by
  refine Stills.before (stills_observe _) fun connected => ?_
  split
  · refine (books_publishOn (Or.inl made)).bind fun later published same => ?_
    subst same
    split
    · exact Stills.before (stills_storeCall fun _ _ => Store.Op.noConfusion) fun _ => books_kept
    · exact books_kept
  · exact books_kept

section Lawful

variable {job : Job} (wrapperJson : P.wrapperJson.Lawful) (innerJson : P.innerJson.Lawful)
  (own : purse.makes = Makes P identity job)

include wrapperJson innerJson own

/-- A send costs nothing: what a client sends carries no receipt. -/
theorem books_send
    {asked : Request} {draw : Draw} {nowSeq : Int} (same : job = .request asked draw nowSeq)
    (sender : job.Sender) (p : SendParams) :
    Prog.Tracks (ReceiptRule P name) (fun later _ => purse.Keeps later) purse
      (send P identity p draw) := by
  subst same
  refine Stills.before (stills_observe _) fun cfg => ?_
  split
  · exact books_kept
  · split
    · exact books_kept
    · split
      · exact books_kept
      · rename_i grant _
        refine Stills.before ?_ fun key => ?_
        · exact (reads_resolveKemKey P _ p).of_reads .refl
        · split
          · exact books_kept
          · split
            · exact books_kept
            · rename_i encryptTo _ inner wrapper built
              have made : purse.makes (P.wrapperJson.encode wrapper) := by
                rw [own]
                exact .sent asked draw nowSeq p grant encryptTo inner wrapper sender built
              refine Stills.before (stills_storeCall fun _ _ => Store.Op.noConfusion) fun _ => ?_
              refine (books_queues made fun status isReceipt => ?_).bind fun later queued kept => ?_
              · obtain ⟨_, carries⟩ := (isReceipt_built wrapperJson innerJson built).mp isReceipt
                cases carries
              · subst kept
                split
                · exact books_kept
                · exact (books_publishNow made).bind fun last _ keeps => .done keeps

theorem books_pairStart (topic : Option String) (draw : Draw) :
    Prog.Tracks (ReceiptRule P name) (fun later _ => purse.Keeps later) purse
      (pairStart P identity topic draw) := by
  refine Stills.before (stills_observe _) fun cfg => ?_
  split
  · exact books_kept
  · split
    · exact books_kept
    · rename_i inner wrapper built
      have made : purse.makes (P.wrapperJson.encode wrapper) := by
        rw [own]
        exact .automatic job draw inner wrapper (.hello _ _ built)
      refine (books_queues made fun status isReceipt => ?_).bind fun later queued kept => ?_
      · obtain ⟨_, carries⟩ := (isReceipt_built wrapperJson innerJson built).mp isReceipt
        cases carries
      · subst kept
        split
        · exact books_kept
        · refine Stills.before (stills_observe _) fun connected => ?_
          split
          · refine (books_publishOn (Or.inl made)).bind fun last _ kept => ?_
            subst kept
            exact books_kept
          · exact books_kept

end Lawful

/-! ## Requests -/

section Lawful

variable (wrapperJson : P.wrapperJson.Lawful) (innerJson : P.innerJson.Lawful)

include wrapperJson innerJson

theorem books_handle
    {asked : Request} {draw : Draw} {nowSeq : Int}
    (own : purse.makes = Makes P identity (.request asked draw nowSeq))
    (solvent : Job.isAck (.request asked draw nowSeq) = true → 0 < purse.credit .read) :
    Prog.Tracks (ReceiptRule P name) (fun later _ => purse.Keeps later) purse
      (handle P identity draw nowSeq asked) := by
  cases asked with
  | ping | hello | shutdown =>
      exact books_kept
  | status =>
      exact asides_status.stills.tracksKept
  | send params =>
      exact books_send wrapperJson innerJson own rfl (.send params draw nowSeq) params
  | read consumer limit =>
      refine Stills.tracksKept (Prog.Within.andThen ?_ fun _ => .done)
      refine stills_storeQuery.andThen fun after => ?_
      split
      · exact stills_storeQuery
      · exact .done
  | ack consumer seq =>
      exact books_ackRequest wrapperJson innerJson own consumer seq draw (solvent rfl)
  | browse | transcript | rejections | consumers | presenceList =>
      exact (asides_query _ _).stills.tracksKept
  | receipts id limit state =>
      cases id <;> exact (asides_query _ _).stills.tracksKept
  | reply msgId ctype body =>
      refine Stills.before stills_storeQuery fun found => ?_
      split
      · exact books_kept
      · exact books_kept
      · exact books_send wrapperJson innerJson own rfl (.reply msgId ctype body draw nowSeq) _
  | presence state ttlSecs detail =>
      refine Stills.before (stills_observe _) fun cfg => ?_
      split
      · exact books_kept
      · exact (books_enqueuePresence wrapperJson innerJson own _ _ _).bind
          fun later _ keeps => .done keeps
  | pairStart topic =>
      exact books_pairStart wrapperJson innerJson own topic draw
  | pairList =>
      exact Stills.tracksKept (stills_observe _)
  | pairConfirm pair =>
      exact (asides_pairConfirm pair).stills.tracksKept
  | connect =>
      exact asides_connect.stills.tracksKept
  | disconnect =>
      exact Stills.tracksKept (stills_call fun _ _ => ⟨.refl _, List.nil_subset _⟩)

end Lawful

/-! ## Streams, the pump and the heartbeat -/

/-- A message that an acknowledging subscription writes pays for a receipt. -/
theorem books_writeFrame (id : Nat) (frame : StreamFrame) :
    Prog.Tracks (ReceiptRule P name)
      (fun later wrote => purse.Keeps later ∧
        (wrote = true → purse.acking = true → (∃ msg, frame = .message msg) →
          0 < later.credit .read))
      purse (writeFrame id frame) := by
  refine Prog.Tracks.call fun input world => ?_
  cases accepts : input.accepts with
  | false =>
      exact ⟨purse, .still (.refl world), .refl purse, fun wrote => by cases wrote⟩
  | true =>
      have unchanged : Still world { world with written := world.written ++ [(id, frame)] } :=
        ⟨.refl _, List.Subset.refl _⟩
      by_cases pays : purse.acking = true ∧ ∃ msg, frame = .message msg
      · obtain ⟨acking, msg, rfl⟩ := pays
        refine ⟨purse.earn .read, .writes acking unchanged ⟨id, msg, rfl⟩, purse.keeps_earn .read,
          fun _ _ _ => ?_⟩
        rw [Purse.credit_earn]
        exact Nat.succ_pos _
      · exact ⟨purse, .still unchanged, .refl purse,
          fun _ acking isMessage => absurd ⟨acking, isMessage⟩ pays⟩

section Lawful

variable {job : Job} (wrapperJson : P.wrapperJson.Lawful) (innerJson : P.innerJson.Lawful)

include wrapperJson innerJson

theorem books_ackFrame
    (own : purse.makes = Makes P identity job) (consumer : String) (ack : Bool) (draw : Draw)
    (frame : StreamFrame)
    (solvent : ack = true → (∃ msg, frame = .message msg) → 0 < purse.credit .read) :
    Prog.Tracks (ReceiptRule P name) (fun later _ => purse.Keeps later) purse
      (ackFrame P identity consumer ack draw frame) := by
  cases frame with
  | lagged dropped =>
      exact books_kept
  | message msg =>
      cases ack with
      | false =>
          exact books_kept
      | true =>
          exact Stills.before (stills_storeCall fun _ _ => Store.Op.noConfusion) fun _ =>
            books_maybeReadReceipt wrapperJson innerJson own msg.seq draw
              (solvent rfl ⟨msg, rfl⟩)

theorem books_forward
    (own : purse.makes = Makes P identity job) (id : Nat) (consumer : String) (ack : Bool)
    (flag : purse.acking = ack) (rounds : Nat) (draws : Nat → Draw) :
    Prog.Tracks (ReceiptRule P name) (fun later _ => purse.Keeps later) purse
      (forward P identity id consumer ack rounds draws) := by
  induction rounds generalizing draws purse with
  | zero =>
      exact books_kept
  | succ rounds inductionHypothesis =>
      refine Stills.before (stills_call fun _ _ => ⟨.refl _, List.Subset.refl _⟩) fun received => ?_
      split
      · exact inductionHypothesis own flag _
      · rename_i frame
        refine (books_writeFrame id frame).bind fun later wrote ends => ?_
        obtain ⟨keeps, paid⟩ := ends
        split
        · rename_i written
          refine (books_ackFrame wrapperJson innerJson (keeps.makes.trans own) consumer ack _ frame
            fun acks => paid written (flag.trans acks)).bind fun last _ still => ?_
          have kept := keeps.trans still
          exact (inductionHypothesis (kept.makes.trans own) (kept.acking.trans flag) _).weaken
            fun _ _ rest => kept.trans rest
        · exact (Stills.tracksKept (stills_call fun _ _ => ⟨.refl _, List.Subset.refl _⟩)).weaken
            fun _ _ rest => keeps.trans rest

end Lawful

/-- The pump hands on what it has read from the outbox. -/
theorem books_pumpAll
    {pending : List Outbound} (known : ∀ entry ∈ pending, purse.knows entry.payload) :
    Prog.Tracks (ReceiptRule P name) (fun later _ => purse.Keeps later) purse
      (pumpAll pending) := by
  induction pending with
  | nil =>
      exact books_kept
  | cons entry pending inductionHypothesis =>
      have rest := inductionHypothesis fun other member => known other (.tail _ member)
      refine (books_publishOn (Or.inr (known entry List.mem_cons_self))).bind
        fun later published same => ?_
      subst same
      split
      · exact Stills.before (stills_storeCall fun _ _ => Store.Op.noConfusion) fun _ => rest
      · exact rest

theorem books_pendingOutbound :
    Prog.Tracks (ReceiptRule P name)
      (fun later pending => purse.Keeps later ∧
        ∀ entry ∈ Checked.unwrapOr [] pending, later.knows entry.payload)
      purse (storeQuery Store.pendingOutbound) := by
  refine Prog.Tracks.call fun input world =>
    ⟨_, .reads, ⟨rfl, rfl, fun _ known => Or.inl known⟩, ?_⟩
  cases input.fault with
  | none =>
      exact fun entry member => Or.inr ⟨entry, member, rfl⟩
  | some writes =>
      exact fun entry member => absurd member List.not_mem_nil

theorem books_pumpRound :
    Prog.Tracks (ReceiptRule P name) (fun later _ => purse.Keeps later) purse pumpRound := by
  refine Stills.before (stills_observe _) fun connected => ?_
  split
  · exact books_pendingOutbound.bind fun later pending ends =>
      (books_pumpAll ends.2).weaken fun _ _ rest => ends.1.trans rest
  · exact books_kept

theorem books_heartbeat
    {job : Job} (wrapperJson : P.wrapperJson.Lawful) (innerJson : P.innerJson.Lawful)
    (own : purse.makes = Makes P identity job) (draw : Draw) (nowSeq : Int) :
    Prog.Tracks (ReceiptRule P name) (fun later _ => purse.Keeps later) purse
      (heartbeat P identity draw nowSeq) := by
  refine Stills.before (stills_observe _) fun cfg => ?_
  split
  · exact books_kept
  · split
    · exact books_kept
    · exact books_enqueuePresence wrapperJson innerJson own _ _ _

/-! ## The ingest path -/

/-- A row that is inserted for the agent itself pays for a receipt. -/
theorem books_insertInbound (inner : Inner) (topic : String) :
    Prog.Tracks (ReceiptRule P name)
      (fun later found => purse.Keeps later ∧
        ∀ seq, found = .ok (some seq) → inner.recipient = name → 0 < later.credit .delivered)
      purse (Calls.insertInbound inner topic) := by
  refine Prog.Tracks.call fun input world => ?_
  cases input.fault with
  | some writes =>
      exact ⟨purse, .still ⟨.refl _, List.Subset.refl _⟩, .refl purse,
        fun seq found => by cases found⟩
  | none =>
      have kept : Still world
          { world with store := world.store.attempt (.insertInbound inner topic) none } :=
        ⟨.refl _, List.Subset.refl _⟩
      rcases world.store.messages.insertOrIgnore_cases (Store.inboundRow inner topic) with
        ⟨_, _, nothing⟩ | ⟨_, rows, _⟩
      · refine ⟨purse, .still kept, .refl purse, fun seq found => ?_⟩
        have answered : (world.store.insertInbound inner topic).2 = Option.some seq :=
          Except.ok.inj found
        exact absurd (answered.symm.trans nothing) (Option.some_ne_none seq)
      · by_cases mine : inner.recipient = name
        · refine ⟨_, .inserts _ kept ⟨rows, rfl⟩ mine, purse.keeps_earn .delivered,
            fun _ _ _ => ?_⟩
          rw [Purse.credit_earn]
          exact Nat.succ_pos _
        · exact ⟨purse, .still kept, .refl purse, fun _ _ same => absurd same mine⟩

/-- An action of the callback that queues nothing. -/
theorem IngestStep.still
    {permitted : Store.Op → Prop} {before after : World}
    (step : IngestStep permitted before after)
    (other : ∀ operation entry, permitted operation → operation ≠ .enqueueOutbound entry) :
    Still before after := by
  cases step with
  | stores operation permits =>
      exact ⟨before.store.apply_pendingOutbound fun entry => other operation entry permits,
        List.Subset.refl _⟩
  | _ =>
      exact ⟨.refl _, List.Subset.refl _⟩

theorem IngestSteps.stills
    {α : Type} {permitted : Store.Op → Prop} {thread : Thread α}
    (steps : IngestSteps (fun _ => True) permitted thread)
    (other : ∀ operation entry, permitted operation → operation ≠ .enqueueOutbound entry) :
    Stills thread :=
  Prog.Within.weaken steps (fun _ _ _ step => step.still other) fun _ _ => trivial

theorem stills_pushStored (seq : Int) : Stills (pushStored seq) :=
  (@steps_pushStored _ (fun _ => False) seq).stills fun _ _ => False.elim

theorem stills_offerPending (entry : PendingPair) : Stills (offerPending entry) :=
  (@steps_offerPending _ (fun _ => False) entry).stills fun _ _ => False.elim

theorem stills_grantReplayed (trust : TrustStore) (now : Int) (inner : Inner) :
    Stills (grantReplayed P trust now inner) := by
  unfold grantReplayed
  split
  · exact .done
  · exact (stills_storeCall fun _ _ => Store.Op.noConfusion).andThen fun _ => .done

/-- A message that is not plain is not answered. -/
theorem stills_acceptMessage
    {cfg : Config} {trust : TrustStore} {delivery : Delivery} {inner : Inner}
    (special : ¬ inner.Plain) : Stills (acceptMessage P identity cfg trust delivery inner) := by
  refine steps_acceptMessage.stills fun operation entry permitted queues => ?_
  rw [queues] at permitted
  cases permitted with
  | receiptQueue reply wrapper plain wanted built =>
      exact special plain

section Lawful

variable {job : Job} (wrapperJson : P.wrapperJson.Lawful) (innerJson : P.innerJson.Lawful)
  (own : purse.makes = Makes P identity job)

include wrapperJson innerJson own

theorem books_storeMessage (cfg : Config) (delivery : Delivery) (inner : Inner) :
    Prog.Tracks (ReceiptRule P identity.name) (fun later _ => purse.Keeps later) purse
      (storeMessage P identity cfg delivery inner) := by
  refine (books_insertInbound inner delivery.topic).bind fun later found ends => ?_
  obtain ⟨keeps, paid⟩ := ends
  split
  · rename_i seq
    refine Stills.before (stills_storeCall fun _ _ => Store.Op.noConfusion) fun _ =>
      Stills.before (stills_pushStored seq) fun _ => ?_
    split
    · rename_i wanted
      have mine : inner.recipient = identity.name := by
        simp only [wantsReceipt, Bool.and_eq_true, beq_iff_eq] at wanted
        exact wanted.1.2
      exact (books_enqueueReceipt wrapperJson innerJson (keeps.makes.trans own) _ _ _ _ _
        (paid seq rfl mine)).bind fun last _ rest => .done (keeps.trans rest)
    · exact .done keeps
  · exact .done keeps
  · exact .done keeps

theorem books_acceptMessage
    (cfg : Config) (trust : TrustStore) (delivery : Delivery) (inner : Inner) :
    Prog.Tracks (ReceiptRule P identity.name) (fun later _ => purse.Keeps later) purse
      (acceptMessage P identity cfg trust delivery inner) := by
  by_cases plain : inner.Plain
  · rw [acceptMessage_of_plain plain]
    refine Stills.before (stills_grantReplayed _ _ _) fun replayed => ?_
    split
    · exact Stills.before (stills_storeCall fun _ _ => Store.Op.noConfusion) fun _ => books_kept
    · exact books_storeMessage wrapperJson innerJson own cfg delivery inner
  · exact (stills_acceptMessage plain).tracksKept

theorem books_onMsg (delivery : Delivery) :
    Prog.Tracks (ReceiptRule P identity.name) (fun later _ => purse.Keeps later) purse
      (onMsg P identity delivery) := by
  unfold onMsg
  split
  · exact books_kept
  · exact Stills.before (stills_offerPending _) fun _ => books_kept
  · exact Stills.before (stills_storeCall fun _ _ => Store.Op.noConfusion) fun _ => books_kept
  · refine Stills.before (stills_observe _) fun cfg => Stills.before (stills_observe _)
      fun trust => ?_
    unfold settle
    split
    · exact books_acceptMessage wrapperJson innerJson own _ _ _ _
    · exact Stills.before (stills_storeCall fun _ _ => Store.Op.noConfusion) fun _ => books_kept

end Lawful

/-! ## Every job -/

theorem books_ignore
    {α : Type} {thread : Thread α}
    (tracks : Prog.Tracks (ReceiptRule P name) (fun later _ => purse.Keeps later) purse thread) :
    Prog.Tracks (ReceiptRule P name) (fun later _ => purse.Keeps later) purse (ignore thread) :=
  tracks.bind fun _ _ keeps => .done keeps

/-- Every thread of the system keeps its account. -/
theorem books_thread
    (wrapperJson : P.wrapperJson.Lawful) (innerJson : P.innerJson.Lawful) (job : Job) :
    Prog.Tracks (ReceiptRule P identity.name) (fun later _ => (job.purse P identity).Keeps later)
      (job.purse P identity) (job.thread P identity) := by
  cases job with
  | ingest delivery =>
      exact books_ignore (books_onMsg wrapperJson innerJson rfl delivery)
  | request asked draw nowSeq =>
      refine books_ignore (books_handle wrapperJson innerJson rfl fun isAck => ?_)
      simp [Job.purse, isAck]
  | subscribe consumer ack rounds draws =>
      exact Stills.before (stills_call fun _ _ => ⟨.refl _, List.Subset.refl _⟩) fun id =>
        Stills.before (stills_call fun _ _ => ⟨.refl _, List.Subset.refl _⟩) fun _ =>
          books_forward wrapperJson innerJson rfl id consumer ack rfl rounds draws
  | pump =>
      exact books_pumpRound
  | heartbeat draw nowSeq =>
      exact books_heartbeat wrapperJson innerJson rfl draw nowSeq
  | agentAdd text rotate =>
      exact books_ignore (asides_agentAdd text rotate).stills.tracksKept
  | agentRemove other =>
      exact books_ignore (asides_editTrust _).stills.tracksKept
  | authorityAdd text =>
      exact books_ignore (asides_authorityAdd text).stills.tracksKept
  | authorityRemove other =>
      exact books_ignore (asides_editTrust _).stills.tracksKept
  | editConfig | editTrustFile =>
      exact Stills.tracksKept (stills_call fun _ _ => ⟨.refl _, List.Subset.refl _⟩)
  | connection up =>
      refine Stills.tracksKept (stills_call fun _ world => ⟨.refl _, ?_⟩)
      cases session : world.mqtt with
      | none =>
          simp [World.requests, session]
      | some live =>
          simp [World.requests, session]

end Threads

end AgentMsg
