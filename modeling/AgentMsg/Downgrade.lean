import AgentMsg.Acceptance
import Mathlib.Data.List.Infix

/-!
# Downgrade protection while the trust file is saved

An unsigned message is refused when its sender has a usable key.  The check reads the
trust file, and a file that does not parse counts as an empty trust store: the
protection holds as long as no ingest reads the file between the truncation and the
write of a save.
-/

namespace AgentMsg

/-- An unsigned wrapper around a message that names its sender. -/
def UnsignedFrom (P : Platform) (payload : Bytes) (sender : String) : Prop :=
  ∃ wrapper inner, P.wrapperJson.decode payload = some wrapper ∧ wrapper.alg = ALG_NONE ∧
    wrapper.peek P = .ok inner ∧ inner.sender = sender

/-- The store operation of a refused payload. -/
inductive RejectOp : Store.Op → Prop
  | reject (reason : RejectReason) (claimed : Option String) (topic detail now : String) :
      RejectOp (.recordRejection reason claimed topic detail now)

section Refusal

variable {P : Platform} {identity : Identity} {delivery : Delivery} {sender : String}

/-- The ingest of a payload that is about to read the trust file. -/
def trustReader (P : Platform) (identity : Identity) (delivery : Delivery) (cfg : Config) :
    Thread Unit :=
  ignore do
    let trust ← loadTrustOrDefault P
    settle P identity cfg trust delivery

/-- When the ingest of the payload reads the trust file, it finds a usable key of the
sender. -/
def KnownWhenRead (P : Platform) (identity : Identity) (delivery : Delivery)
    (sender : String) (system : System) (choice : Move Input Job) : Prop :=
  ∀ index input cfg, choice = .step index input →
    system.threads[index]? = some (.ingest delivery, trustReader P identity delivery cfg) →
    ((system.shared.trust P).publicKey sender).isOk = true

/-- An unsigned message of a sender with a usable key is refused. -/
theorem verifyDelivery_unsigned
    (identity : Identity) (cfg : Config) {trust : TrustStore}
    (unsigned : UnsignedFrom P delivery.payload sender)
    (known : (trust.publicKey sender).isOk = true) :
    ∃ info, verifyDelivery P identity cfg trust delivery = .error info := by
  obtain ⟨wrapper, inner, parsed, alg, peeked, named⟩ := unsigned
  cases verified : verifyDelivery P identity cfg trust delivery with
  | error info =>
      exact ⟨info, rfl⟩
  | ok out =>
      obtain ⟨found, carried, foundParsed, _, path⟩ := verifyIncoming_ok verified
      rw [parsed] at foundParsed
      cases foundParsed
      rcases path with ⟨_, _, signed⟩ | ⟨_, _, foundPeeked, unknown⟩
      · have algorithms : ALG_NONE ≠ ALG_ML_DSA_65 := by decide
        exact absurd (alg.symm.trans signed.alg) algorithms
      · rw [peeked] at foundPeeked
        cases foundPeeked
        rw [named, known] at unknown
        cases unknown

/-- The stages of the ingest of the payload: it has not started, it is about to read the
trust file, or it can only record a rejection any more. -/
inductive Stage (P : Platform) (identity : Identity) (delivery : Delivery) :
    Thread Unit → Prop
  | starts : Stage P identity delivery (ignore (verifyPath P identity delivery))
  | reads (cfg : Config) : Stage P identity delivery (trustReader P identity delivery cfg)
  | refuses {thread : Thread Unit}
      (within : Prog.Within (fun _ => True) (StoreChange RejectOp) (fun _ => True) thread) :
      Stage P identity delivery thread

private theorem within_recordRejection
    (reason : RejectReason) (claimed : Option String) (topic detail : String) :
    Prog.Within (fun _ => True) (StoreChange RejectOp) (fun _ => True)
      (Calls.recordRejection reason claimed topic detail) :=
  within_storeCall (fun now => .reject reason claimed topic detail now)
    (by simp [Store.Op.upTo])

theorem stage_onMsg : Stage P identity delivery (ignore (onMsg P identity delivery)) := by
  unfold onMsg
  split
  · exact .refuses (.andThen .done fun _ => .done)
  · refine .refuses (.andThen (.andThen ?_ fun _ => .done) fun _ => .done)
    exact within_call fun _ _ => rfl
  · refine .refuses (.andThen (.andThen ?_ fun _ => .done) fun _ => .done)
    exact within_recordRejection _ _ _ _
  · exact .starts

/-- Every action of the ingest takes it to the next stage and leaves the store alone,
but for a rejection. -/
theorem Stage.action
    {thread : Thread Unit} (stage : Stage P identity delivery thread)
    (unsigned : UnsignedFrom P delivery.payload sender)
    {update : Input → World → World} {next : Input → World → Thread Unit}
    (acts : thread = .act update next) (input : Input) (world : World)
    (known : ∀ cfg, thread = trustReader P identity delivery cfg →
      ((world.trust P).publicKey sender).isOk = true) :
    StoreChange RejectOp world (update input world) ∧
      Stage P identity delivery (next input world) := by
  cases stage with
  | starts =>
      cases acts
      exact ⟨.of_eq rfl, .reads _⟩
  | reads cfg =>
      have usable := known cfg rfl
      cases acts
      refine ⟨.of_eq rfl, ?_⟩
      obtain ⟨info, refused⟩ := verifyDelivery_unsigned identity cfg unsigned usable
      have settled : Stage P identity delivery
          (ignore (settle P identity cfg (world.trust P) delivery)) := by
        rw [settle, refused]
        refine .refuses (.andThen (.andThen ?_ fun _ => .done) fun _ => .done)
        exact within_recordRejection _ _ _ _
      exact settled
  | refuses within =>
      rw [acts] at within
      obtain ⟨change, rest⟩ := within.action input trivial
      exact ⟨change, .refuses rest⟩

end Refusal

/-- In every run in which each ingest of the payload reads a trust file with a usable key
of the named sender, no action of these ingests does more than record a rejection. -/
theorem unsigned_known_sender_refused
    (P : Platform) (identity : Identity) (start : World) (delivery : Delivery)
    (sender : String) (unsigned : UnsignedFrom P delivery.payload sender)
    (moves : List (Move Input Job)) (index : Nat) (input : Input)
    (known : Pool.Along (Job.thread P identity) (KnownWhenRead P identity delivery sender)
      { shared := start } (moves ++ [.step index input]))
    (ingesting : ((System.run P identity { shared := start } moves).threads[index]?).map
      Prod.fst = some (.ingest delivery)) :
    StoreChange RejectOp (System.run P identity { shared := start } moves).shared
      (System.run P identity { shared := start } (moves ++ [.step index input])).shared := by
  obtain ⟨earlier, last⟩ := Pool.along_append.mp known
  have stages : ∀ thread ∈ (System.run P identity { shared := start } moves).threads,
      thread.1 = .ingest delivery → Stage P identity delivery thread.2 := by
    refine Pool.forall_threads_run ?_ ?_ earlier (by simp)
    · rintro label rfl
      exact stage_onMsg
    · intro system index input job update next readsKnown found stage label
      have isIngest : job = .ingest delivery := label
      refine ((stage label).action unsigned rfl input system.shared fun cfg reading => ?_).2
      refine readsKnown index input cfg rfl ?_
      rw [found, isIngest]
      exact congrArg (fun thread => some (Job.ingest delivery, thread)) reading
  have stepped : System.run P identity { shared := start } (moves ++ [.step index input]) =
      Pool.move (Job.thread P identity) (System.run P identity { shared := start } moves)
        (.step index input) :=
    Pool.run_append
  rw [stepped]
  rcases Pool.move_shared (.step index input) with
    same | ⟨_, _, label, update, next, chosen, found, moved⟩
  · exact .of_eq (congrArg World.store same)
  · cases chosen
    rw [found] at ingesting
    cases ingesting
    have stage := stages _ (List.mem_of_getElem? found) rfl
    rw [moved]
    refine (stage.action unsigned rfl input _ fun cfg reading => ?_).1
    exact last.head index input cfg rfl (reading ▸ found)

/-! ## An ingest during a save -/

/-- An unsigned message of a trusted sender, to a daemon that takes unsigned messages. -/
def unsignedBench : Bench :=
  { inners := [Bench.textTo "me" "m1" "alice" "t0" "hi"], signed := false
    instants := [("t0", 0)], config := { allowUnsigned := true }
    trust := Bench.trusting ["alice"] }

theorem unsignedBench_unsigned :
    UnsignedFrom unsignedBench.platform (Bench.delivery 0 0 "r1").payload "alice" := by
  refine ⟨unsignedBench.wrapper 0 (Bench.textTo "me" "m1" "alice" "t0" "hi"),
    Bench.textTo "me" "m1" "alice" "t0" "hi", rfl, rfl, ?_, rfl⟩
  decide

/-- The save has truncated the file, and the ingest has read it. -/
def truncatedMoves : List (Move Input Job) :=
  [.spawn (.agentRemove "ghost"), .step 0 {}, .step 0 {},
    .spawn (.ingest (Bench.delivery 0 0 "r1")), .step 1 {}, .step 1 {}]

/-- The message is stored, and the save is completed. -/
def completedMoves : List (Move Input Job) :=
  truncatedMoves ++ [.step 1 {}, .step 0 {}]

theorem completedMoves_files :
    ∀ seen ∈ completedMoves.inits,
      (System.run unsignedBench.platform Bench.me { shared := Bench.world }
        seen).shared.trustFile = .text "trust" ∨
      (System.run unsignedBench.platform Bench.me { shared := Bench.world }
        seen).shared.trustFile = .text "" := by
  decide

theorem truncated_stored :
    (System.run unsignedBench.platform Bench.me { shared := Bench.world }
      (truncatedMoves ++ [.step 1 {}])).shared.store.messages.rows =
      [(1, Store.inboundRow (Bench.textTo "me" "m1" "alice" "t0" "hi") "chat")] := by
  decide

/-- Alice's key is usable whenever the file is complete. -/
private theorem unsignedBench_known
    {world : World} (complete : world.trustFile = .text "trust") :
    ((world.trust unsignedBench.platform).publicKey "alice").isOk = true := by
  have loaded : world.trust unsignedBench.platform = unsignedBench.trust := by
    rw [World.trust, complete]
    rfl
  have trusted : unsignedBench.trust.publicKey "alice" = .ok (Bench.key "alice") :=
    Bench.trusting_publicKey List.mem_cons_self
  rw [loaded, trusted]
  rfl

/-- The ingest reads the configuration, and the save runs before it reads on. -/
def savedMoves : List (Move Input Job) :=
  [.spawn (.agentRemove "ghost"), .spawn (.ingest (Bench.delivery 0 0 "r1")), .step 1 {},
    .step 0 {}, .step 0 {}, .step 0 {}, .step 1 {}]

/-- The message is refused when the save is complete. -/
theorem unsigned_known_sender_refused_saved :
    StoreChange RejectOp
      (System.run unsignedBench.platform Bench.me { shared := Bench.world } savedMoves).shared
      (System.run unsignedBench.platform Bench.me { shared := Bench.world }
        (savedMoves ++ [.step 1 {}])).shared := by
  refine unsigned_known_sender_refused unsignedBench.platform Bench.me Bench.world
    (Bench.delivery 0 0 "r1") "alice" unsignedBench_unsigned savedMoves 1 {} ?_ rfl
  have complete {system : System} {choice : Move Input Job}
      (file : system.shared.trustFile = .text "trust") :
      KnownWhenRead unsignedBench.platform Bench.me (Bench.delivery 0 0 "r1") "alice" system
        choice :=
    fun _ _ _ _ _ => unsignedBench_known file
  have saving {system : System} {input : Input}
      (command : (system.threads[0]?).map Prod.fst = some (.agentRemove "ghost")) :
      KnownWhenRead unsignedBench.platform Bench.me (Bench.delivery 0 0 "r1") "alice" system
        (.step 0 input) := by
    intro index other cfg chosen found
    cases chosen
    rw [found] at command
    cases command
  simp only [Pool.Along, savedMoves, List.cons_append, List.nil_append,
    Machine.everyStep_cons_iff]
  exact ⟨complete rfl, complete rfl, complete rfl, saving rfl, saving rfl, saving rfl,
    complete rfl, complete rfl, Machine.everyStep_nil⟩

/-- An unsigned message that names a trusted sender is stored while the trust file is
saved. -/
theorem unsigned_known_sender_stored :
    ¬ ∀ (P : Platform) (identity : Identity) (start : World) (delivery : Delivery)
        (sender : String) (taken rest : List (Move Input Job)) (index : Nat) (input : Input),
        UnsignedFrom P delivery.payload sender →
        (∀ seen, seen <+: taken ++ .step index input :: rest →
          (System.run P identity { shared := start } seen).shared.trustFile ≠ .text "" →
          (((System.run P identity { shared := start } seen).shared.trust P).publicKey
            sender).isOk = true) →
        ((System.run P identity { shared := start } taken).threads[index]?).map Prod.fst =
          some (.ingest delivery) →
        StoreChange RejectOp (System.run P identity { shared := start } taken).shared
          (System.run P identity { shared := start } (taken ++ [.step index input])).shared := by
  intro refused
  have change := refused unsignedBench.platform Bench.me Bench.world (Bench.delivery 0 0 "r1")
    "alice" truncatedMoves [.step 0 {}] 1 {} unsignedBench_unsigned
    (fun seen isPrefix whole => unsignedBench_known
      ((completedMoves_files seen ((List.mem_inits seen _).mpr isPrefix)).resolve_right whole)) rfl
  have stored := truncated_stored
  have before : (System.run unsignedBench.platform Bench.me { shared := Bench.world }
      truncatedMoves).shared.store.messages.rows = [] := by
    decide
  rcases change with same | ⟨operation, ⟨reason, claimed, topic, detail, now⟩, applied⟩
  · rw [same, before] at stored
    cases stored
  · rw [applied] at stored
    have kept : (System.run unsignedBench.platform Bench.me { shared := Bench.world }
        truncatedMoves).shared.store.messages.rows =
        [(1, Store.inboundRow (Bench.textTo "me" "m1" "alice" "t0" "hi") "chat")] := stored
    rw [before] at kept
    cases kept

end AgentMsg
