import AgentMsg.Daemon
import AgentMsg.Lib.Machine

/-!
# What a job's actions can do

Every action of a job is one of a few deeds on the shared state: a store operation, a
push to the subscribers, an entry of the pending pairings, a write of a file, a change
of the broker session.  Invariants of the daemon's whole life, with restarts, are proved
by cases on the deed.
-/

namespace AgentMsg

/-- May the job acknowledge a consumer up to a number?  A request names both, and a
subscription takes the number from a frame of a subscriber's channel. -/
def Job.Acks (seen : World → Prop) : Job → String → Int → Prop
  | .request (.ack owner number) _ _, consumer, seq => owner = consumer ∧ number = seq
  | .subscribe owner _ _ _, consumer, seq =>
      owner = consumer ∧ ∃ world s msg, seen world ∧ s ∈ world.subscribers ∧
        StreamFrame.message msg ∈ s.queue ∧ msg.seq = seq
  | _, _, _ => False

/-- May the job write the trust file? -/
def Job.EditsTrust : Job → Prop
  | .request (.pairConfirm _) _ _ => True
  | .agentAdd _ _ => True
  | .agentRemove _ => True
  | .authorityAdd _ => True
  | .authorityRemove _ => True
  | .editTrustFile _ => True
  | _ => False

/-- What one action of a job does, when what it read before was read in the given
states. -/
inductive Deed (P : Platform) (identity : Identity) (seen : World → Prop) (job : Job)
    (before : World) : World → Prop
  | nothing : Deed P identity seen job before before
  | stores (operation : Store.Op)
      (acks : ∀ consumer seq now, operation = .ack consumer seq now →
        job.Acks seen consumer seq) :
      Deed P identity seen job before { before with store := before.store.apply operation }
  | pushes (delivery : Delivery) (msg : StoredMsg) (world : World) (seq : Int)
      (ingests : job = .ingest delivery) (visited : seen world)
      (found : world.store.messageBySeq seq = some msg) :
      Deed P identity seen job before
        { before with subscribers := pushToSubscribers before.subscribers msg }
  | offers (delivery : Delivery) (entry : PendingPair) (ingests : job = .ingest delivery)
      (hello : intercept P identity delivery.payload = .hello entry) :
      Deed P identity seen job before
        { before with pending := before.pending.insertIfNew entry.name entry }
  | confirms (name : String) (draw : Draw) (nowSeq : Int)
      (asked : job = .request (.pairConfirm name) draw nowSeq) :
      Deed P identity seen job before { before with pending := before.pending.erase name }
  | trusts (file : FileState) (edits : job.EditsTrust) :
      Deed P identity seen job before { before with trustFile := file }
  | configures (file : FileState) (edits : job = .editConfig file) :
      Deed P identity seen job before { before with configFile := file }
  | connects (session : Option Mqtt) :
      Deed P identity seen job before { before with mqtt := session }
  | serves (nextSubId : Nat) (subscribers : List Subscriber)
      (written : List (Nat × StreamFrame))
      (fewer : ∀ s ∈ subscribers, ∀ frame ∈ s.queue,
        ∃ old ∈ before.subscribers, frame ∈ old.queue) :
      Deed P identity seen job before { before with nextSubId, subscribers, written }

/-- A thread whose actions are deeds of a job. -/
abbrev Deeds {α : Type} (P : Platform) (identity : Identity) (seen : World → Prop) (job : Job)
    (thread : Thread α) : Prop :=
  Prog.Within seen (Deed P identity seen job) (fun _ => True) thread

section Threads

variable {P : Platform} {identity : Identity} {seen : World → Prop} {job : Job}

/-! ## Single actions -/

theorem deeds_call
    {α : Type} {operation : Input → World → World × α}
    (deed : ∀ input world, Deed P identity seen job world (operation input world).1) :
    Deeds P identity seen job (Prog.call operation) :=
  .call (fun input world _ => deed input world) fun _ _ _ => trivial

theorem deeds_observe {α : Type} (view : World → α) :
    Deeds P identity seen job (Prog.observe view) :=
  deeds_call fun _ _ => .nothing

theorem deeds_storeQuery {α : Type} {view : Store → α} :
    Deeds P identity seen job (storeQuery view) :=
  deeds_call fun _ _ => .nothing

/-- An operation other than an acknowledgement. -/
def NoAck (operation : Store.Op) : Prop :=
  ∀ consumer seq now, operation ≠ .ack consumer seq now

theorem NoAck.upTo
    {operation left : Store.Op} {writes : Nat} (remaining : operation.upTo writes = some left) :
    NoAck left := by
  intro consumer seq now acknowledges
  subst acknowledges
  cases operation <;> simp [Store.Op.upTo] at remaining

theorem deeds_attempt
    {α : Type} {operation : String → Store.Op} {result : Store → α}
    (acks : ∀ now consumer seq later, operation now = .ack consumer seq later →
      job.Acks seen consumer seq) :
    Deeds P identity seen job (storeCall operation result) := by
  refine deeds_call fun input world => ?_
  cases input.fault with
  | none =>
      exact .stores _ (acks input.now)
  | some writes =>
      dsimp only [Store.attempt]
      split
      · rename_i left remaining
        exact .stores left fun consumer seq now acknowledges =>
          absurd acknowledges (NoAck.upTo remaining consumer seq now)
      · exact .nothing

theorem deeds_storeCall
    {α : Type} {operation : String → Store.Op} {result : Store → α}
    (never : ∀ now, NoAck (operation now)) :
    Deeds P identity seen job (storeCall operation result) :=
  deeds_attempt fun now consumer seq later acknowledges =>
    absurd acknowledges (never now consumer seq later)

theorem deeds_ack {consumer : String} {seq : Int} (acks : job.Acks seen consumer seq) :
    Deeds P identity seen job (Calls.ack consumer seq) := by
  refine deeds_attempt fun now owner number later same => ?_
  cases same
  exact acks

theorem deeds_insertOutboundLog (inner : Inner) (topic : String) :
    Deeds P identity seen job (Calls.insertOutboundLog inner topic) :=
  deeds_storeCall fun _ => by simp [NoAck]

theorem deeds_enqueueOutbound (ob : Outbound) :
    Deeds P identity seen job (Calls.enqueueOutbound ob) :=
  deeds_storeCall fun _ => by simp [NoAck]

theorem deeds_markDelivered (id : String) :
    Deeds P identity seen job (Calls.markDelivered id) :=
  deeds_storeCall fun _ => by simp [NoAck]

theorem deeds_recordRejection
    (reason : RejectReason) (claimed : Option String) (topic detail : String) :
    Deeds P identity seen job (Calls.recordRejection reason claimed topic detail) :=
  deeds_storeCall fun _ => by simp [NoAck]

theorem deeds_publishOn (topic : String) (payload : Bytes) (retain : Bool) :
    Deeds P identity seen job (publishOn topic payload retain) := by
  refine deeds_call fun input world => ?_
  split
  · split
    · exact .connects _
    · exact .nothing
  · exact .nothing

theorem deeds_saveTrust (edits : job.EditsTrust) (trust : TrustStore) :
    Deeds P identity seen job (saveTrust P trust) := by
  refine Prog.Within.andThen (deeds_call fun input world => ?_) fun opened => ?_
  · split
    · exact .trusts _ edits
    · exact .nothing
  · split
    · refine deeds_call fun input world => ?_
      split
      · exact .trusts _ edits
      · exact .nothing
    · exact .done

/-! ## Outgoing messages -/

theorem deeds_enqueueReceipt
    (draw : Draw) (recipient refId : String) (status : ReceiptStatus) (topic : String) :
    Deeds P identity seen job (enqueueReceipt P identity draw recipient refId status topic) := by
  unfold enqueueReceipt
  split
  · exact .done
  · exact (deeds_insertOutboundLog _ _).andThen fun _ =>
      (deeds_enqueueOutbound _).andThen fun _ => .done

theorem deeds_enqueuePresence (draw : Draw) (topic : String) (beacon : PresenceBeacon) :
    Deeds P identity seen job (enqueuePresence P identity draw topic beacon) := by
  unfold enqueuePresence
  split
  · exact .done
  · exact (deeds_enqueueOutbound _).andThen fun _ => .done

theorem deeds_publishNow (topic : String) (inner : Inner) (payload : Bytes) :
    Deeds P identity seen job (publishNow topic inner payload) := by
  refine (deeds_observe _).andThen fun connected => ?_
  split
  · refine (deeds_publishOn _ _ _).andThen fun published => ?_
    split
    · exact (deeds_markDelivered _).andThen fun _ => .done
    · exact .done
  · exact .done

theorem deeds_sendBuilt (topic : String) (inner : Inner) (wrapper : Wrapper) :
    Deeds P identity seen job (sendBuilt P topic inner wrapper) := by
  refine (deeds_insertOutboundLog _ _).andThen fun _ =>
    (deeds_enqueueOutbound _).andThen fun queued => ?_
  split
  · exact .done
  · exact (deeds_publishNow _ _ _).andThen fun _ => .done

theorem deeds_send (p : SendParams) (draw : Draw) :
    Deeds P identity seen job (send P identity p draw) := by
  refine (deeds_observe _).andThen fun cfg => ?_
  split
  · exact .done
  · split
    · exact .done
    · split
      · exact .done
      · refine Prog.Within.andThen ?_ fun key => ?_
        · exact (reads_resolveKemKey P _ p).of_reads fun _ => .nothing
        · split
          · exact .done
          · split
            · exact .done
            · exact deeds_sendBuilt _ _ _

theorem deeds_maybeReadReceipt (seq : Int) (draw : Draw) :
    Deeds P identity seen job (maybeReadReceipt P identity seq draw) := by
  refine (deeds_observe _).andThen fun cfg => ?_
  split
  · refine deeds_storeQuery.andThen fun found => ?_
    split
    · split
      · exact deeds_enqueueReceipt _ _ _ _ _
      · exact .done
    · exact .done
  · exact .done

theorem deeds_pairStart (topic : Option String) (draw : Draw) :
    Deeds P identity seen job (pairStart P identity topic draw) := by
  refine (deeds_observe _).andThen fun cfg => ?_
  split
  · exact .done
  · split
    · exact .done
    · refine (deeds_enqueueOutbound _).andThen fun queued => ?_
      split
      · exact .done
      · refine (deeds_observe _).andThen fun connected => ?_
        split
        · exact (deeds_publishOn _ _ _).andThen fun _ => .done
        · exact .done

/-! ## The ingest callback -/

theorem deeds_pushStored {delivery : Delivery} (ingests : job = .ingest delivery) (seq : Int) :
    Deeds P identity seen job (pushStored seq) := by
  have reads : Prog.Within seen (Deed P identity seen job)
      (fun found => ∀ msg, found = .ok (some msg) →
        ∃ world, seen world ∧ world.store.messageBySeq seq = some msg)
      (Calls.messageBySeq seq) := by
    refine .call (fun _ _ _ => .nothing) fun input world visited msg found => ?_
    cases fault : input.fault with
    | none =>
        rw [fault] at found
        exact ⟨world, visited, Except.ok.inj found⟩
    | some writes =>
        rw [fault] at found
        cases found
  refine reads.bind fun found seenRow => ?_
  split
  · rename_i msg
    obtain ⟨world, visited, stored⟩ := seenRow msg rfl
    exact deeds_call fun _ _ => .pushes delivery msg world seq ingests visited stored
  · exact .done

theorem deeds_storeMessage
    {delivery : Delivery} (ingests : job = .ingest delivery) (cfg : Config) (inner : Inner) :
    Deeds P identity seen job (storeMessage P identity cfg delivery inner) := by
  refine Prog.Within.andThen (deeds_storeCall fun _ => by simp [NoAck]) fun found => ?_
  split
  · refine Prog.Within.andThen (deeds_storeCall fun _ => by simp [NoAck]) fun _ =>
      (deeds_pushStored ingests _).andThen fun _ => ?_
    split
    · exact (deeds_enqueueReceipt _ _ _ _ _).andThen fun _ => .done
    · exact .done
  · exact .done
  · exact .done

theorem deeds_grantReplayed (trust : TrustStore) (now : Int) (inner : Inner) :
    Deeds P identity seen job (grantReplayed P trust now inner) := by
  unfold grantReplayed
  split
  · exact .done
  · exact Prog.Within.andThen (deeds_storeCall fun _ => by simp [NoAck]) fun _ => .done

theorem deeds_acceptMessage
    {delivery : Delivery} (ingests : job = .ingest delivery) (cfg : Config)
    (trust : TrustStore) (inner : Inner) :
    Deeds P identity seen job (acceptMessage P identity cfg trust delivery inner) := by
  unfold acceptMessage
  split
  · split
    · exact Prog.Within.andThen (deeds_storeCall fun _ => by simp [NoAck]) fun _ => .done
    · exact .done
  · split
    · split
      · refine Prog.Within.andThen ?_ fun _ => .done
        unfold applyReceipt
        split <;> exact deeds_storeCall fun _ => by simp [NoAck]
      · exact .done
    · refine (deeds_grantReplayed _ _ _).andThen fun replayed => ?_
      split
      · exact (deeds_recordRejection _ _ _ _).andThen fun _ => .done
      · exact deeds_storeMessage ingests _ _

theorem deeds_onMsg {delivery : Delivery} (ingests : job = .ingest delivery) :
    Deeds P identity seen job (onMsg P identity delivery) := by
  unfold onMsg
  split
  · exact .done
  · rename_i entry hello
    exact Prog.Within.andThen
      (deeds_call fun _ _ => .offers delivery entry ingests hello) fun _ => .done
  · exact (deeds_recordRejection _ _ _ _).andThen fun _ => .done
  · refine (deeds_observe _).andThen fun cfg => (deeds_observe _).andThen fun trust => ?_
    unfold settle
    split
    · exact deeds_acceptMessage ingests _ _ _
    · exact (deeds_recordRejection _ _ _ _).andThen fun _ => .done

/-! ## Requests -/

theorem deeds_query {α : Type} (view : Store → α) (answer : Except Error α → Response) :
    Deeds P identity seen job (do
      let found ← storeQuery view
      return answer found) :=
  deeds_storeQuery.andThen fun _ => .done

theorem deeds_status : Deeds P identity seen job (status P identity) :=
  (deeds_observe _).andThen fun _ => (deeds_observe _).andThen fun _ =>
    (deeds_observe _).andThen fun _ => deeds_storeQuery.andThen fun _ =>
      deeds_storeQuery.andThen fun _ => deeds_storeQuery.andThen fun _ =>
        deeds_storeQuery.andThen fun _ => .done

theorem deeds_connect : Deeds P identity seen job (connect P) := by
  refine deeds_call fun input world => ?_
  repeat' split
  all_goals first | exact .nothing | exact .connects _

theorem deeds_pairConfirm
    {name : String} {draw : Draw} {nowSeq : Int}
    (asked : job = .request (.pairConfirm name) draw nowSeq) :
    Deeds P identity seen job (pairConfirm P name) := by
  have edits : job.EditsTrust := by
    rw [asked]
    trivial
  refine (deeds_observe _).andThen fun entry => ?_
  split
  · exact .done
  · refine (deeds_observe _).andThen fun trust => ?_
    split
    · exact .done
    · refine (deeds_saveTrust edits _).andThen fun saved => ?_
      split
      · exact .done
      · exact deeds_call fun _ _ => .confirms name draw nowSeq asked

theorem deeds_handle (request : Request) (draw : Draw) (nowSeq : Int) :
    Deeds P identity seen (.request request draw nowSeq)
      (handle P identity draw nowSeq request) := by
  cases request with
  | ping | hello | shutdown =>
      exact .done
  | status =>
      exact deeds_status
  | send params =>
      exact deeds_send params draw
  | read consumer limit =>
      refine Prog.Within.andThen ?_ fun _ => .done
      refine deeds_storeQuery.andThen fun after => ?_
      split
      · exact deeds_storeQuery
      · exact .done
  | ack consumer seq =>
      have acks : Job.Acks seen (.request (.ack consumer seq) draw nowSeq) consumer seq :=
        ⟨rfl, rfl⟩
      refine (deeds_ack acks).andThen fun acked => ?_
      split
      · exact .done
      · exact (deeds_maybeReadReceipt seq draw).andThen fun _ => .done
  | browse | transcript | rejections | consumers | presenceList =>
      exact deeds_query _ _
  | receipts id limit state =>
      cases id <;> exact deeds_query _ _
  | reply msgId ctype body =>
      refine deeds_storeQuery.andThen fun found => ?_
      split
      · exact .done
      · exact .done
      · exact deeds_send _ draw
  | presence state ttlSecs detail =>
      refine (deeds_observe _).andThen fun cfg => ?_
      split
      · exact .done
      · exact (deeds_enqueuePresence _ _ _).andThen fun _ => .done
  | pairStart topic =>
      exact deeds_pairStart topic draw
  | pairList =>
      exact deeds_observe _
  | pairConfirm name =>
      exact deeds_pairConfirm rfl
  | connect =>
      exact deeds_connect
  | disconnect =>
      exact deeds_call fun _ _ => .connects _

/-! ## Subscriptions -/

theorem deeds_register (id : Nat) (consumer : String) :
    Deeds P identity seen job (register id consumer) := by
  refine deeds_call fun _ world => .serves world.nextSubId _ world.written ?_
  intro s member frame queued
  rcases List.mem_append.mp member with old | new
  · exact ⟨s, old, queued⟩
  · rw [List.mem_singleton] at new
    subst new
    cases queued

theorem deeds_deregister (id : Nat) : Deeds P identity seen job (deregister id) := by
  refine deeds_call fun _ world => .serves world.nextSubId _ world.written ?_
  exact fun s member frame queued => ⟨s, (List.mem_filter.mp member).1, queued⟩

/-- A message that is received was in a channel. -/
theorem deeds_receiveFrame (id : Nat) :
    Prog.Within seen (Deed P identity seen job)
      (fun found => ∀ frame, found = some frame →
        ∃ world s, seen world ∧ s ∈ world.subscribers ∧ frame ∈ s.queue)
      (receiveFrame id) := by
  refine .call (fun input world _ => ?_) fun input world visited frame found => ?_
  · refine .serves world.nextSubId _ world.written ?_
    intro s member frame queued
    obtain ⟨old, oldMember, rfl⟩ := List.mem_map.mp member
    refine ⟨old, oldMember, ?_⟩
    split at queued
    · exact List.mem_of_mem_tail queued
    · exact queued
  · obtain ⟨s, listed, first⟩ := Option.bind_eq_some_iff.mp found
    exact ⟨world, s, visited, List.mem_of_find?_eq_some listed, List.mem_of_head? first⟩

theorem deeds_forward
    {consumer : String} {ack : Bool} {started : Nat} {drawn : Nat → Draw}
    (id rounds : Nat) (draws : Nat → Draw) :
    Deeds P identity seen (.subscribe consumer ack started drawn)
      (forward P identity id consumer ack rounds draws) := by
  induction rounds generalizing draws with
  | zero =>
      exact .done
  | succ rounds inductionHypothesis =>
      refine (deeds_receiveFrame id).bind fun found queued => ?_
      split
      · exact inductionHypothesis _
      · rename_i frame
        obtain ⟨world, s, visited, member, waiting⟩ := queued frame rfl
        refine Prog.Within.andThen (deeds_call fun input world => ?_) fun wrote => ?_
        · split
          · exact .serves world.nextSubId world.subscribers _ fun s member frame queued =>
              ⟨s, member, queued⟩
          · exact .nothing
        · split
          · refine Prog.Within.andThen ?_ fun _ => inductionHypothesis _
            cases frame with
            | message msg =>
                dsimp only [ackFrame]
                split
                · have acks : Job.Acks seen (.subscribe consumer ack started drawn) consumer
                      msg.seq := ⟨rfl, world, s, msg, visited, member, waiting, rfl⟩
                  exact (deeds_ack acks).andThen fun _ => deeds_maybeReadReceipt _ _
                · exact .done
            | lagged dropped =>
                exact .done
          · exact deeds_deregister id

/-! ## All threads -/

theorem deeds_pumpAll (pending : List Outbound) : Deeds P identity seen job (pumpAll pending) := by
  induction pending with
  | nil =>
      exact .done
  | cons ob rest inductionHypothesis =>
      refine (deeds_publishOn _ _ _).andThen fun published => ?_
      split
      · exact (deeds_markDelivered _).andThen fun _ => inductionHypothesis
      · exact inductionHypothesis

theorem deeds_editTrust
    (edits : job.EditsTrust) (change : TrustStore → Except Error TrustStore) :
    Deeds P identity seen job (editTrust P change) := by
  refine (deeds_observe _).andThen fun trust => ?_
  split
  · exact .done
  · split
    · exact .done
    · exact deeds_saveTrust edits _

theorem deeds_ignore
    {α : Type} {thread : Thread α} (deeds : Deeds P identity seen job thread) :
    Deeds P identity seen job (ignore thread) :=
  deeds.andThen fun _ => .done

/-- Every thread of the system does only deeds of its job. -/
theorem deeds_thread (job : Job) : Deeds P identity seen job (job.thread P identity) := by
  cases job with
  | ingest delivery =>
      exact deeds_ignore (deeds_onMsg rfl)
  | request asked draw nowSeq =>
      exact deeds_ignore (deeds_handle asked draw nowSeq)
  | subscribe consumer ack rounds draws =>
      refine Prog.Within.andThen (deeds_call fun _ world => ?_) fun id =>
        (deeds_register id consumer).andThen fun _ => deeds_forward _ _ _
      exact .serves (world.nextSubId + 1) world.subscribers world.written
        fun s member frame queued => ⟨s, member, queued⟩
  | pump =>
      refine (deeds_observe _).andThen fun connected => ?_
      split
      · exact deeds_storeQuery.andThen fun pending => deeds_pumpAll _
      · exact .done
  | heartbeat draw nowSeq =>
      refine (deeds_observe _).andThen fun cfg => ?_
      split
      · exact .done
      · split
        · exact .done
        · exact deeds_enqueuePresence _ _ _
  | agentAdd text rotate =>
      have edits : Job.EditsTrust (.agentAdd text rotate) := trivial
      refine deeds_ignore ?_
      unfold agentAdd
      split
      · exact .done
      · exact deeds_editTrust edits _
  | agentRemove name =>
      have edits : Job.EditsTrust (.agentRemove name) := trivial
      exact deeds_ignore (deeds_editTrust edits _)
  | authorityAdd text =>
      have edits : Job.EditsTrust (.authorityAdd text) := trivial
      refine deeds_ignore ?_
      unfold authorityAdd
      split
      · exact .done
      · exact deeds_editTrust edits _
  | authorityRemove name =>
      have edits : Job.EditsTrust (.authorityRemove name) := trivial
      exact deeds_ignore (deeds_editTrust edits _)
  | editConfig file =>
      exact deeds_call fun _ _ => .configures file rfl
  | editTrustFile file =>
      exact deeds_call fun _ _ => .trusts file trivial
  | connection up =>
      exact deeds_call fun _ _ => .connects _

/-- A deed leaves the store as it is or applies one operation to it. -/
theorem Deed.store
    {seen : World → Prop} {job : Job} {before after : World}
    (deed : Deed P identity seen job before after) :
    after.store = before.store ∨ ∃ operation, after.store = before.store.apply operation := by
  cases deed with
  | stores operation _ =>
      exact Or.inr ⟨operation, rfl⟩
  | _ =>
      exact Or.inl rfl

end Threads

/-! ## The life of a daemon -/

namespace Life

/-- What happens to a daemon: one move of the system, or the process ends and is started
again on the same files. -/
inductive Moment where
  | move (choice : Move Input Job)
  | restart

section Runs

variable (P : Platform) (identity : Identity)

def step (system : System) : Moment → System
  | .move choice => system.move (Job.thread P identity) choice
  | .restart => { shared := system.shared.afterExit }

def run (start : World) (moments : List Moment) : System :=
  Machine.run (step P identity) { shared := start } moments

def state (start : World) (moments : List Moment) : World :=
  (run P identity start moments).shared

/-- A state that the daemon has been in. -/
def Reached (start : World) (moments : List Moment) (world : World) : Prop :=
  ∃ taken, taken <+: moments ∧ state P identity start taken = world

/-- What one moment does to the shared state. -/
inductive Effect (start : World) (taken : List Moment) : Moment → World → Prop
  | idle {moment : Moment} : Effect start taken moment (state P identity start taken)
  | exits : Effect start taken .restart (state P identity start taken).afterExit
  | acts {index : Nat} {input : Input} {job : Job} {update : Input → World → World}
      {next : Input → World → Thread Unit}
      (located : (run P identity start taken).threads[index]? = some (job, .act update next))
      (deed : Deed P identity (Reached P identity start taken) job
        (state P identity start taken) (update input (state P identity start taken))) :
      Effect start taken (.move (.step index input))
        (update input (state P identity start taken))

end Runs

variable {P : Platform} {identity : Identity} {start : World} {taken moments : List Moment}

theorem run_concat (moment : Moment) :
    run P identity start (taken ++ [moment]) =
      step P identity (run P identity start taken) moment :=
  Machine.run_concat

theorem reached_mono
    (isPrefix : taken <+: moments) {world : World}
    (reached : Reached P identity start taken world) :
    Reached P identity start moments world := by
  obtain ⟨part, within, same⟩ := reached
  exact ⟨part, within.trans isPrefix, same⟩

theorem reached_state : Reached P identity start taken (state P identity start taken) :=
  ⟨taken, List.prefix_rfl, rfl⟩

/-- A state reached by one more moment was reached before, or is the new one. -/
theorem reached_concat
    {moment : Moment} {world : World}
    (reached : Reached P identity start (taken ++ [moment]) world) :
    Reached P identity start taken world ∨ state P identity start (taken ++ [moment]) = world := by
  obtain ⟨part, within, same⟩ := reached
  rcases List.prefix_concat_iff.mp within with whole | earlier
  · rw [whole] at same
    exact Or.inr same
  · exact Or.inl ⟨part, earlier, same⟩

theorem confined_run (isPrefix : taken <+: moments) :
    Pool.Confined (Reached P identity start moments)
      (Deed P identity (Reached P identity start moments)) (run P identity start taken) := by
  induction taken using List.reverseRecOn with
  | nil =>
      simp [Pool.Confined, run]
  | append_singleton taken moment inductionHypothesis =>
      have earlier : taken <+: moments := (List.prefix_append _ _).trans isPrefix
      rw [run_concat]
      cases moment with
      | restart =>
          simp [Pool.Confined, step]
      | move choice =>
          exact (inductionHypothesis earlier).move (reached_mono earlier reached_state)
            fun job _ => deeds_thread job

/-- Every moment does nothing, ends the process, or is a deed of a running job. -/
theorem effect (moment : Moment) :
    Effect P identity start taken moment (state P identity start (taken ++ [moment])) := by
  have ran := @run_concat P identity start taken moment
  rw [state, ran]
  cases moment with
  | restart =>
      exact .exits
  | move choice =>
      rcases @Pool.move_shared _ _ _ (Job.thread P identity) _ choice with
        same | ⟨index, input, job, update, next, rfl, located, moved⟩
      · rw [step, same]
        exact .idle
      · have confined : Pool.Confined (Reached P identity start taken)
            (Deed P identity (Reached P identity start taken)) (run P identity start taken) :=
          confined_run List.prefix_rfl
        have within := confined _ (List.mem_of_getElem? located)
        rw [step, moved]
        exact .acts located (within.action input reached_state).1

/-- A moment leaves the store as it is or applies one operation to it. -/
theorem store_of_effect
    {moment : Moment} {after : World} (happens : Effect P identity start taken moment after) :
    after.store = (state P identity start taken).store ∨
      ∃ operation, after.store = (state P identity start taken).store.apply operation := by
  cases happens with
  | idle | exits =>
      exact Or.inl rfl
  | acts located deed =>
      exact deed.store

end Life

end AgentMsg
