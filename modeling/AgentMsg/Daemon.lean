import AgentMsg.Requests

/-!
# The daemon and the commands beside it

The remaining threads over the shared state: the streaming subscription, the outbox
pump, the heartbeat, and the commands that edit the trust file from another
process.  A job is what a thread is started for; the system is the pool of all of
them under an arbitrary scheduler.
-/

namespace AgentMsg

open Checked

section Threads

variable (P : Platform) (identity : Identity)

/-! ## Streaming subscription -/

def fetchSubId : Thread Nat :=
  .call fun _ world => ({ world with nextSubId := world.nextSubId + 1 }, world.nextSubId)

def register (id : Nat) (consumer : String) : Thread Unit :=
  .call fun _ world =>
    ({ world with subscribers := world.subscribers ++ [{ id, consumer }] }, ())

def deregister (id : Nat) : Thread Unit :=
  .call fun _ world =>
    ({ world with subscribers := world.subscribers.filter fun s => s.id != id }, ())

/-- Remove the oldest frame of the subscriber with the given id. -/
def popFrame (id : Nat) (subs : List Subscriber) : List Subscriber :=
  subs.map fun s => if s.id = id then { s with queue := s.queue.tail } else s

/-- Take the next frame from the channel; nothing while it is empty. -/
def receiveFrame (id : Nat) : Thread (Option StreamFrame) :=
  .call fun _ world =>
    ({ world with subscribers := popFrame id world.subscribers },
      (world.subscribers.find? fun s => s.id = id).bind fun s => s.queue.head?)

/-- Write a frame to the connection of a subscriber. -/
def writeFrame (id : Nat) (frame : StreamFrame) : Thread Bool :=
  .call fun input world =>
    if input.accepts then ({ world with written := world.written ++ [(id, frame)] }, true)
    else (world, false)

/-- Advance the consumer's cursor over a message frame that was written. -/
def ackFrame (consumer : String) (ack : Bool) (draw : Draw) : StreamFrame → Thread Unit
  | .message msg =>
      if ack then do
        let _ ← Calls.ack consumer msg.seq
        maybeReadReceipt P identity msg.seq draw
      else return ()
  | .lagged _ => return ()

/-- The forwarding loop of a subscription, for a number of rounds. -/
def forward (id : Nat) (consumer : String) (ack : Bool) : Nat → (Nat → Draw) → Thread Unit
  | 0, _ => return ()
  | rounds + 1, draws => do
      match ← receiveFrame id with
      | none => forward id consumer ack rounds fun index => draws (index + 1)
      | some frame => do
          if ← writeFrame id frame then
            ackFrame P identity consumer ack (draws 0) frame
            forward id consumer ack rounds fun index => draws (index + 1)
          else deregister id

/-- Register a streaming subscriber and forward frames to it. -/
def serveSubscribe (consumer : String) (ack : Bool) (rounds : Nat) (draws : Nat → Draw) :
    Thread Unit := do
  let id ← fetchSubId
  register id consumer
  forward P identity id consumer ack rounds draws

/-! ## Outbox pump and heartbeat -/

/-- Publish queued messages, removing each that the session accepts. -/
def pumpAll : List Outbound → Thread Unit
  | [] => return ()
  | ob :: rest => do
      if ← publishOn ob.topic ob.payload ob.retain then
        let _ ← Calls.markDelivered ob.id
        pumpAll rest
      else pumpAll rest

/-- One round of the outbox pump. -/
def pumpRound : Thread Unit := do
  if ← connectedClient then
    let pending ← storeQuery Store.pendingOutbound
    pumpAll (unwrapOr [] pending)
  else return ()

/-- One round of the presence heartbeat. -/
def heartbeat (draw : Draw) (nowSeq : Int) : Thread Unit := do
  let cfg ← loadConfig P
  if cfg.heartbeatSecs = 0 then return ()
  else
    match cfg.primaryTopic with
    | none => return ()
    | some topic =>
        enqueuePresence P identity draw topic
          { state := "online", source := "daemon", ttlSecs := cfg.heartbeatSecs * 3,
            seq := nowSeq }

/-! ## Commands that edit the trust file -/

/-- The trust store after importing an agent: a changed key needs `--rotate`. -/
def importAgent (trust : TrustStore) (token : IdentityToken) (rotate : Bool) :
    Except Error TrustStore :=
  match trust.currentKey token.name with
  | some oldKey =>
      if oldKey ≠ token.publicKey ∧ rotate = false then
        .error (.rotationRequired
          ("agent '" ++ token.name ++ "' is already known with key " ++
            fingerprint P oldKey ++ "; pass --rotate to replace it with " ++
            fingerprint P token.publicKey))
      else .ok (trust.addFromToken token)
  | none => .ok (trust.addFromToken token)

/-- Load the trust file, change the store, and save it. -/
def editTrust (change : TrustStore → Except Error TrustStore) :
    Thread (Except Error Unit) := do
  match ← loadTrust P with
  | .error e => return .error e
  | .ok trust =>
      match change trust with
      | .error e => return .error e
      | .ok changed => saveTrust P changed

/-- `agent add`. -/
def agentAdd (text : String) (rotate : Bool) : Thread (Except Error Unit) :=
  match IdentityToken.decode P text with
  | .error e => return .error e
  | .ok token => editTrust P fun trust => importAgent P trust token rotate

/-- `agent remove`. -/
def agentRemove (name : String) : Thread (Except Error Unit) :=
  editTrust P fun trust => .ok (trust.remove name).1

/-- `authority add`. -/
def authorityAdd (text : String) : Thread (Except Error Unit) :=
  match AuthorityToken.decode P text with
  | .error e => return .error e
  | .ok token => editTrust P fun trust => .ok (trust.addAuthorityFromToken token)

/-- `authority remove`. -/
def authorityRemove (name : String) : Thread (Except Error Unit) :=
  editTrust P fun trust => .ok (trust.removeAuthority name).1

/-! ## The system -/

/-- What a thread is started for. -/
inductive Job where
  | ingest (delivery : Delivery)
  | request (asked : Request) (draw : Draw) (nowSeq : Int)
  | subscribe (consumer : String) (ack : Bool) (rounds : Nat) (draws : Nat → Draw)
  | pump
  | heartbeat (draw : Draw) (nowSeq : Int)
  | agentAdd (text : String) (rotate : Bool)
  | agentRemove (name : String)
  | authorityAdd (text : String)
  | authorityRemove (name : String)
  /-- The configuration file is edited by hand or by a command. -/
  | editConfig (file : FileState)
  /-- The trust file is edited from outside. -/
  | editTrustFile (file : FileState)
  /-- The broker connection of the session comes up or breaks. -/
  | connection (up : Bool)

/-- Run a thread for its effects. -/
def ignore {α : Type} (thread : Thread α) : Thread Unit := do
  let _ ← thread
  return ()

/-- Ignoring the value of a thread keeps its effects. -/
theorem exec_ignore
    {α : Type} (thread : Thread α) (inputs : Nat → Input) (world : World) :
    ((ignore thread).exec inputs world).1 = (thread.exec inputs world).1 := by
  induction thread generalizing inputs world with
  | pure value =>
      rfl
  | act update next inductionHypothesis =>
      exact inductionHypothesis (inputs 0) world _ (update (inputs 0) world)

def Job.thread : Job → Thread Unit
  | .ingest delivery => ignore (onMsg P identity delivery)
  | .request asked draw nowSeq => ignore (handle P identity draw nowSeq asked)
  | .subscribe consumer ack rounds draws => serveSubscribe P identity consumer ack rounds draws
  | .pump => pumpRound
  | .heartbeat draw nowSeq => AgentMsg.heartbeat P identity draw nowSeq
  | .agentAdd text rotate => ignore (AgentMsg.agentAdd P text rotate)
  | .agentRemove name => ignore (AgentMsg.agentRemove P name)
  | .authorityAdd text => ignore (AgentMsg.authorityAdd P text)
  | .authorityRemove name => ignore (AgentMsg.authorityRemove P name)
  | .editConfig file => .call fun _ world => ({ world with configFile := file }, ())
  | .editTrustFile file => .call fun _ world => ({ world with trustFile := file }, ())
  | .connection up =>
      .call fun _ world =>
        ({ world with mqtt := world.mqtt.map fun session => { session with connected := up } },
          ())

/-- The daemon with everything that acts on its state. -/
abbrev System := Pool Input World Job

def System.run (system : System) (moves : List (Move Input Job)) : System :=
  Pool.run (Job.thread P identity) system moves

/-- The state that a run of the system reaches. -/
def System.after (P : Platform) (identity : Identity) (start : World)
    (moves : List (Move Input Job)) : World :=
  (System.run P identity { shared := start } moves).shared

/-- The moves that run a job without interruption. -/
def Job.alone (job : Job) (inputs : Nat → Input) (world : World) : List (Move Input Job) :=
  .spawn job ::
    (List.range ((job.thread P identity).actions inputs world)).map fun index =>
      .step 0 (inputs index)

theorem Job.run_alone (job : Job) (inputs : Nat → Input) (world : World) :
    System.run P identity { shared := world } (job.alone P identity inputs world) =
      { shared := ((job.thread P identity).exec inputs world).1
        threads := [(job, .pure ())] } :=
  Pool.run_uninterrupted job (job.thread P identity) inputs world []

/-- Spawn a job and take all its steps. -/
def System.complete (system : System) (job : Job) (inputs : Nat → Input) : System :=
  System.run P identity system (.spawn job ::
    (List.range ((job.thread P identity).actions inputs system.shared)).map fun index =>
      .step system.threads.length (inputs index))

theorem System.complete_shared (system : System) (job : Job) (inputs : Nat → Input) :
    (system.complete P identity job inputs).shared =
      ((job.thread P identity).exec inputs system.shared).1 := by
  have alone := @Pool.run_uninterrupted _ _ _ (Job.thread P identity) job
    (job.thread P identity) inputs system.shared system.threads
  exact congrArg Pool.shared alone

/-- After any moves, further ones run one more job without interruption. -/
theorem System.after_alone
    (start : World) (moves : List (Move Input Job)) (job : Job) (inputs : Nat → Input) :
    ∃ more, System.after P identity start (moves ++ more) =
      ((job.thread P identity).exec inputs (System.after P identity start moves)).1 := by
  have completed := System.complete_shared P identity
    (System.run P identity { shared := start } moves) job inputs
  exact ⟨_, (congrArg Pool.shared Pool.run_append).trans completed⟩

/-- The first two actions of an ingest read the files. -/
theorem System.run_ingest_reads
    {delivery : Delivery} {inner : Inner} {world : World}
    (accepted : Accepted P identity (world.config P) (world.trust P) delivery inner)
    (threads : List (Job × Thread Unit)) (first second : Input) :
    System.run P identity { shared := world, threads }
        [.spawn (.ingest delivery), .step threads.length first, .step threads.length second] =
      { shared := world
        threads := threads ++
          [(.ingest delivery, ignore (acceptMessage P identity (world.config P)
            (world.trust P) delivery inner))] } := by
  have readsConfig :
      Pool.move (Job.thread P identity)
          { shared := world
            threads := threads ++ [(.ingest delivery, ignore (verifyPath P identity delivery))] }
          (.step threads.length first) =
        { shared := world
          threads := threads ++ [(.ingest delivery, ignore (do
            let trust ← loadTrustOrDefault P
            settle P identity (world.config P) trust delivery))] } :=
    Pool.move_last
  have readsTrust :
      Pool.move (Job.thread P identity)
          { shared := world
            threads := threads ++ [(.ingest delivery, ignore (do
              let trust ← loadTrustOrDefault P
              settle P identity (world.config P) trust delivery))] }
          (.step threads.length second) =
        { shared := world
          threads := threads ++ [(.ingest delivery, ignore
            (settle P identity (world.config P) (world.trust P) delivery))] } :=
    Pool.move_last
  rw [System.run, Pool.run_cons, Pool.move, Job.thread, accepted.onMsg_eq, Pool.run_cons,
    readsConfig, Pool.run_cons, readsTrust, Pool.run_nil, accepted.settle_eq]

end Threads

/-! ## The store operations of the other threads -/

/-- The operations of a job, when ingest reads its files in the given states. -/
def Job.Permits (P : Platform) (identity : Identity) (seen : World → Prop) :
    Job → Store.Op → Prop
  | .ingest delivery => IngestOp P identity seen delivery
  | _ => OutboundOp

section Confinement

variable {P : Platform} {identity : Identity} {assumed : World → Prop}
  {permitted : Store.Op → Prop}

/-- A thread that leaves the store alone, so that it keeps to any operations. -/
abbrev Quiet {α : Type} (assumed : World → Prop) (permitted : Store.Op → Prop)
    (thread : Thread α) : Prop :=
  Prog.Within assumed (StoreChange permitted) (fun _ => True) thread

theorem quiet_observe {α : Type} (view : World → α) :
    Quiet assumed permitted (Prog.observe view) :=
  within_call fun _ _ => rfl

/-- Publishing at once marks the message when it was handed over. -/
theorem quiet_publishNow
    {inner : Inner} (marks : Quiet assumed permitted (Calls.markDelivered inner.id))
    (topic : String) (payload : Bytes) :
    Quiet assumed permitted (publishNow topic inner payload) := by
  refine (quiet_observe _).andThen fun connected => ?_
  split
  · refine (within_publishOn _ _ _).andThen fun published => ?_
    split
    · exact marks.andThen fun _ => .done
    · exact .done
  · exact .done

/-! ## Threads that leave the store and the session alone -/

/-- A step on the files, the pending pairings or the connection: the store is as it was,
and nothing is handed to the session. -/
structure Aside (before after : World) : Prop where
  store : after.store = before.store
  session : ∀ live, after.mqtt = some live → before.mqtt = some live ∨ live.requests = []

theorem Aside.refl (world : World) : Aside world world :=
  ⟨rfl, fun _ live => Or.inl live⟩

/-- A thread of such steps. -/
abbrev Asides {α : Type} (assumed : World → Prop) (thread : Thread α) : Prop :=
  Prog.Within assumed Aside (fun _ => True) thread

theorem Asides.quiet {α : Type} {thread : Thread α} (asides : Asides assumed thread) :
    Quiet assumed permitted thread :=
  asides.weaken (fun _ _ _ change => .of_eq change.store) fun _ _ => trivial

theorem asides_call
    {α : Type} {operation : Input → World → World × α}
    (aside : ∀ input world, Aside world (operation input world).1) :
    Asides assumed (Prog.call operation) :=
  .call (fun input world _ => aside input world) fun _ _ _ => trivial

theorem asides_observe {α : Type} (view : World → α) : Asides assumed (Prog.observe view) :=
  asides_call fun _ world => .refl world

theorem asides_storeQuery {α : Type} {view : Store → α} : Asides assumed (storeQuery view) :=
  asides_call fun _ world => .refl world

theorem asides_saveTrust (trust : TrustStore) : Asides assumed (saveTrust P trust) := by
  refine Prog.Within.andThen (asides_call fun input world => ?_) fun opened => ?_
  · split
    · exact ⟨rfl, fun _ live => Or.inl live⟩
    · exact .refl world
  · split
    · refine asides_call fun input world => ?_
      split
      · exact ⟨rfl, fun _ live => Or.inl live⟩
      · exact .refl world
    · exact .done

theorem asides_pairConfirm (name : String) : Asides assumed (pairConfirm P name) := by
  refine (asides_observe _).andThen fun entry => ?_
  split
  · exact .done
  · refine (asides_observe _).andThen fun trust => ?_
    split
    · exact .done
    · refine (asides_saveTrust _).andThen fun saved => ?_
      split
      · exact .done
      · exact asides_call fun _ _ => ⟨rfl, fun _ live => Or.inl live⟩

theorem asides_connect : Asides assumed (connect P) := by
  refine asides_call fun input world => ?_
  have opened : Aside world { world with mqtt := some { connected := false } } :=
    ⟨rfl, fun live started => Or.inr (by cases started; rfl)⟩
  repeat' split
  all_goals first | exact .refl world | exact opened

theorem asides_status : Asides assumed (status P identity) :=
  (asides_observe _).andThen fun _ => (asides_observe _).andThen fun _ =>
    (asides_observe _).andThen fun _ => asides_storeQuery.andThen fun _ =>
      asides_storeQuery.andThen fun _ => asides_storeQuery.andThen fun _ =>
        asides_storeQuery.andThen fun _ => .done

theorem asides_query {α : Type} (view : Store → α) (answer : Except Error α → Response) :
    Asides assumed (do
      let found ← storeQuery view
      return answer found) :=
  asides_storeQuery.andThen fun _ => .done

theorem asides_editTrust (change : TrustStore → Except Error TrustStore) :
    Asides assumed (editTrust P change) := by
  refine (asides_observe _).andThen fun trust => ?_
  split
  · exact .done
  · split
    · exact .done
    · exact asides_saveTrust _

theorem asides_agentAdd (text : String) (rotate : Bool) :
    Asides assumed (agentAdd P text rotate) := by
  unfold agentAdd
  split
  · exact .done
  · exact asides_editTrust _

theorem asides_authorityAdd (text : String) : Asides assumed (authorityAdd P text) := by
  unfold authorityAdd
  split
  · exact .done
  · exact asides_editTrust _

/-! ## Every thread keeps to the operations of its job -/

private theorem outward_enqueuePresence
    (draw : Draw) (topic : String) (beacon : PresenceBeacon) :
    Outward assumed (enqueuePresence P identity draw topic beacon) := by
  unfold enqueuePresence
  split
  · exact .done
  · exact (outward_enqueueOutbound _).andThen fun _ => .done

private theorem outward_sendBuilt (topic : String) (inner : Inner) (wrapper : Wrapper) :
    Outward assumed (sendBuilt P topic inner wrapper) := by
  refine (outward_insertOutboundLog _ _).andThen fun _ =>
    (outward_enqueueOutbound _).andThen fun queued => ?_
  split
  · exact .done
  · exact (quiet_publishNow (outward_markDelivered _) _ _).andThen fun _ => .done

private theorem outward_send (p : SendParams) (draw : Draw) :
    Outward assumed (send P identity p draw) := by
  refine (outward_observe _).andThen fun cfg => ?_
  split
  · exact .done
  · split
    · exact .done
    · split
      · exact .done
      · refine Prog.Within.andThen ?_ fun key => ?_
        · exact (reads_resolveKemKey P _ p).of_reads fun _ => .of_eq rfl
        · split
          · exact .done
          · split
            · exact .done
            · exact outward_sendBuilt _ _ _

private theorem outward_maybeReadReceipt (seq : Int) (draw : Draw) :
    Outward assumed (maybeReadReceipt P identity seq draw) := by
  refine (outward_observe _).andThen fun cfg => ?_
  split
  · refine within_storeQuery.andThen fun found => ?_
    split
    · split
      · exact outward_enqueueReceipt _ _ _ _ _
      · exact .done
    · exact .done
  · exact .done

private theorem outward_pairStart (topic : Option String) (draw : Draw) :
    Outward assumed (pairStart P identity topic draw) := by
  refine (outward_observe _).andThen fun cfg => ?_
  split
  · exact .done
  · split
    · exact .done
    · refine (outward_enqueueOutbound _).andThen fun queued => ?_
      split
      · exact .done
      · refine (outward_observe _).andThen fun connected => ?_
        split
        · exact (within_publishOn _ _ _).andThen fun _ => .done
        · exact .done

private theorem outward_handle (draw : Draw) (nowSeq : Int) (request : Request) :
    Outward assumed (handle P identity draw nowSeq request) := by
  cases request with
  | ping | hello | shutdown =>
      exact .done
  | status =>
      exact asides_status.quiet
  | send params =>
      exact outward_send params draw
  | read consumer limit =>
      refine Prog.Within.andThen ?_ fun _ => .done
      refine within_storeQuery.andThen fun after => ?_
      split
      · exact within_storeQuery
      · exact .done
  | ack consumer seq =>
      refine (outward_ack consumer seq).andThen fun acked => ?_
      split
      · exact .done
      · exact (outward_maybeReadReceipt seq draw).andThen fun _ => .done
  | browse | transcript | rejections | consumers | presenceList =>
      exact (asides_query _ _).quiet
  | receipts id limit state =>
      cases id <;> exact (asides_query _ _).quiet
  | reply msgId ctype body =>
      refine within_storeQuery.andThen fun found => ?_
      split
      · exact .done
      · exact .done
      · exact outward_send _ draw
  | presence state ttlSecs detail =>
      refine (outward_observe _).andThen fun cfg => ?_
      split
      · exact .done
      · exact (outward_enqueuePresence _ _ _).andThen fun _ => .done
  | pairStart topic =>
      exact outward_pairStart topic draw
  | pairList =>
      exact outward_observe _
  | pairConfirm name =>
      exact (asides_pairConfirm name).quiet
  | connect =>
      exact asides_connect.quiet
  | disconnect =>
      exact within_call fun _ _ => rfl

private theorem outward_forward
    (id : Nat) (consumer : String) (ack : Bool) (rounds : Nat) (draws : Nat → Draw) :
    Outward assumed (forward P identity id consumer ack rounds draws) := by
  induction rounds generalizing draws with
  | zero =>
      exact .done
  | succ rounds inductionHypothesis =>
      refine Prog.Within.andThen (within_call fun _ _ => rfl) fun frame => ?_
      split
      · exact inductionHypothesis _
      · refine Prog.Within.andThen ?_ fun wrote => ?_
        · refine within_call fun input world => ?_
          split <;> rfl
        · split
          · refine Prog.Within.andThen ?_ fun _ => inductionHypothesis _
            unfold ackFrame
            split
            · split
              · exact (outward_ack _ _).andThen fun _ => outward_maybeReadReceipt _ _
              · exact .done
            · exact .done
          · exact within_call fun _ _ => rfl

private theorem outward_pumpAll (pending : List Outbound) :
    Outward assumed (pumpAll pending) := by
  induction pending with
  | nil =>
      exact .done
  | cons ob rest inductionHypothesis =>
      refine (within_publishOn _ _ _).andThen fun published => ?_
      split
      · exact (outward_markDelivered _).andThen fun _ => inductionHypothesis
      · exact inductionHypothesis

theorem within_ignore
    {α : Type} {permitted : Store.Op → Prop} {thread : Thread α}
    (within : Prog.Within assumed (StoreChange permitted) (fun _ => True) thread) :
    Prog.Within assumed (StoreChange permitted) (fun _ => True) (ignore thread) :=
  within.andThen fun _ => .done

/-- Every thread of the system is confined to the operations of its job. -/
theorem confined_thread (job : Job) :
    Prog.Within assumed (StoreChange (job.Permits P identity assumed)) (fun _ => True)
      (job.thread P identity) := by
  cases job with
  | ingest delivery =>
      exact within_ignore confined_onMsg
  | request asked draw nowSeq =>
      exact within_ignore (outward_handle draw nowSeq asked)
  | subscribe consumer ack rounds draws =>
      exact Prog.Within.andThen (within_call fun _ _ => rfl) fun id =>
        Prog.Within.andThen (within_call fun _ _ => rfl) fun _ =>
          outward_forward _ _ _ _ _
  | pump =>
      refine (outward_observe _).andThen fun connected => ?_
      split
      · exact within_storeQuery.andThen fun pending => outward_pumpAll _
      · exact .done
  | heartbeat draw nowSeq =>
      refine (outward_observe _).andThen fun cfg => ?_
      split
      · exact .done
      · split
        · exact .done
        · exact outward_enqueuePresence _ _ _
  | agentAdd text rotate =>
      exact within_ignore (asides_agentAdd text rotate).quiet
  | agentRemove name =>
      exact within_ignore (asides_editTrust _).quiet
  | authorityAdd text =>
      exact within_ignore (asides_authorityAdd text).quiet
  | authorityRemove name =>
      exact within_ignore (asides_editTrust _).quiet
  | editConfig | editTrustFile | connection =>
      exact within_call fun _ _ => rfl

end Confinement

end AgentMsg
