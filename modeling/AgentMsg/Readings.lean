import AgentMsg.Downgrade
import AgentMsg.Lib.Account

/-!
# The files an ingest reads

An ingest that goes on to verification reads the configuration in its first step and the
trust file in its second.  Whatever it then writes to the store, at whatever later step and
whatever other threads have done in between, follows from these two files and the payload.
-/

namespace AgentMsg

/-! ## Readings -/

section Readings

variable (P : Platform) (identity : Identity) (start : World)

/-- The thread is the ingest, its first step is the last it has taken, and it took this step
in the given state: it has read the configuration that this state has. -/
def ReadsConfig (taken : List (Move Input Job)) (index : Nat) (delivery : Delivery)
    (atConfig : World) : Prop :=
  ∃ before input between, taken = before ++ .step index input :: between ∧
    (System.run P identity { shared := start } before).threads[index]? =
      some (.ingest delivery, (Job.ingest delivery).thread P identity) ∧
    (∀ other, .step index other ∉ between) ∧
    System.after P identity start before = atConfig

/-- The ingest took its first step in one state and its second in another: it has read the
configuration of the one and the trust file of the other. -/
def ReadsFiles (taken : List (Move Input Job)) (index : Nat) (delivery : Delivery)
    (atConfig atTrust : World) : Prop :=
  ∃ earlier input, earlier ++ [.step index input] <+: taken ∧
    ReadsConfig P identity start earlier index delivery atConfig ∧
    System.after P identity start earlier = atTrust

end Readings

/-- The operations that follow from a configuration, a trust store and a payload. -/
inductive SettleOp (P : Platform) (identity : Identity) (cfg : Config) (trust : TrustStore)
    (delivery : Delivery) : Store.Op → Prop
  | reject (reason : RejectReason) (claimed : Option String) (topic detail now : String) :
      SettleOp P identity cfg trust delivery
        (.recordRejection reason claimed topic detail now)
  | accepted (inner : Inner) (operation : Store.Op)
      (accepted : Accepted P identity cfg trust delivery inner)
      (permitted : AcceptedOp P identity cfg trust delivery inner operation) :
      SettleOp P identity cfg trust delivery operation

/-- How far the ingest at a position has come: it has not started, it has read the
configuration, it has read both files, or it only records a rejection. -/
inductive Reading (P : Platform) (identity : Identity) (start : World)
    (taken : List (Move Input Job)) (index : Nat) (delivery : Delivery) :
    Thread Unit → Prop
  | fresh (passed : intercept P identity delivery.payload = .pass)
      (located : (System.run P identity { shared := start } taken).threads[index]? =
        some (.ingest delivery, (Job.ingest delivery).thread P identity)) :
      Reading P identity start taken index delivery ((Job.ingest delivery).thread P identity)
  | configured (atConfig : World) (passed : intercept P identity delivery.payload = .pass)
      (read : ReadsConfig P identity start taken index delivery atConfig) :
      Reading P identity start taken index delivery
        (trustReader P identity delivery (atConfig.config P))
  | settles {thread : Thread Unit} (atConfig atTrust : World)
      (read : ReadsFiles P identity start taken index delivery atConfig atTrust)
      (within : Prog.Within (fun _ => True)
        (StoreChange (SettleOp P identity (atConfig.config P) (atTrust.trust P) delivery))
        (fun _ => True) thread) :
      Reading P identity start taken index delivery thread
  | refuses {thread : Thread Unit}
      (within : Prog.Within (fun _ => True) (StoreChange RejectOp) (fun _ => True) thread) :
      Reading P identity start taken index delivery thread

section Runs

variable {P : Platform} {identity : Identity} {start : World}
  {taken : List (Move Input Job)} {index : Nat} {delivery : Delivery}

/-- What verification and its consequences do to the store. -/
theorem within_settle
    (cfg : Config) (trust : TrustStore)
    (passed : intercept P identity delivery.payload = .pass) :
    Prog.Within (fun _ => True) (StoreChange (SettleOp P identity cfg trust delivery))
      (fun _ => True) (settle P identity cfg trust delivery) := by
  unfold settle
  split
  · rename_i inner verified
    refine confined_acceptMessage.weaken ?_ fun _ _ => trivial
    rintro before after - (same | ⟨operation, permitted, changed⟩)
    · exact .of_eq same
    · exact Or.inr ⟨operation, .accepted inner operation ⟨passed, verified⟩ permitted, changed⟩
  · rename_i info refused
    refine Prog.Within.andThen (within_storeCall (fun now => ?_) ?_) fun _ => .done
    · exact .reject info.reason info.claimedSender delivery.topic "" now
    · simp [Store.Op.upTo]

/-- An ingest that does not come to verification only records a rejection. -/
theorem refuses_onMsg (intercepted : intercept P identity delivery.payload ≠ .pass) :
    Prog.Within (fun _ => True) (StoreChange RejectOp) (fun _ => True)
      ((Job.ingest delivery).thread P identity) := by
  refine within_ignore ?_
  unfold onMsg
  split
  · exact .done
  · exact Prog.Within.andThen (within_call fun _ _ => rfl) fun _ => .done
  · rename_i reason claimed bad
    refine Prog.Within.andThen (within_storeCall (fun now => ?_) ?_) fun _ => .done
    · exact .reject reason (some claimed) delivery.topic "pairing hello" now
    · simp [Store.Op.upTo]
  · rename_i passed
    exact absurd passed intercepted

/-- The first stage of an ingest. -/
theorem reading_spawned (delivery : Delivery) :
    Reading P identity start (taken ++ [.spawn (.ingest delivery)])
      (System.run P identity { shared := start } taken).threads.length delivery
      ((Job.ingest delivery).thread P identity) := by
  by_cases passed : intercept P identity delivery.payload = .pass
  · refine .fresh passed ?_
    rw [System.run, Pool.run_append, Pool.run_cons, Pool.run_nil, Pool.move]
    exact List.getElem?_concat_length
  · exact .refuses (refuses_onMsg passed)

theorem ReadsFiles.mono
    {moves : List (Move Input Job)} {atConfig atTrust : World}
    (read : ReadsFiles P identity start taken index delivery atConfig atTrust)
    (isPrefix : taken <+: moves) :
    ReadsFiles P identity start moves index delivery atConfig atTrust := by
  obtain ⟨earlier, input, within, configured, reached⟩ := read
  exact ⟨earlier, input, within.trans isPrefix, configured, reached⟩

/-- The thread has this place in a pool, when another thread acts or one is spawned. -/
theorem located_stays
    {choice : Move Input Job} {job : Job} {thread : Thread Unit}
    (located : (System.run P identity { shared := start } taken).threads[index]? =
      some (job, thread))
    (other : ∀ input, choice ≠ .step index input) :
    (System.run P identity { shared := start } (taken ++ [choice])).threads[index]? =
      some (job, thread) := by
  rw [System.run, Pool.run_append, Pool.run_cons, Pool.run_nil]
  rw [System.run] at located
  cases choice with
  | spawn job =>
      have bound := (List.getElem?_eq_some_iff.mp located).1
      rw [Pool.move, List.getElem?_append_left bound, located]
  | step position input =>
      have different : position ≠ index := by
        rintro rfl
        exact other input rfl
      rcases found : (Pool.run (Job.thread P identity) { shared := start } taken).threads[position]?
        with _ | ⟨label, value | ⟨update, next⟩⟩
      · simpa [Pool.move, found] using located
      · simpa [Pool.move, found] using located
      · simpa [Pool.move, found, List.getElem?_set_ne different] using located

/-- While an ingest does not act, its stage stays. -/
theorem Reading.stays
    {choice : Move Input Job} {thread : Thread Unit}
    (reading : Reading P identity start taken index delivery thread)
    (idle : (∀ input, choice ≠ .step index input) ∨ ∃ value, thread = .pure value) :
    Reading P identity start (taken ++ [choice]) index delivery thread := by
  cases reading with
  | fresh passed located =>
      have other : ∀ input, choice ≠ .step index input := by
        refine idle.resolve_right ?_
        rintro ⟨value, ended⟩
        rw [Job.thread, onMsg, passed] at ended
        cases ended
      exact .fresh passed (located_stays located other)
  | configured atConfig passed read =>
      have other : ∀ input, choice ≠ .step index input := by
        refine idle.resolve_right ?_
        rintro ⟨value, ended⟩
        cases ended
      obtain ⟨before, input, between, split, located, quiet, reached⟩ := read
      refine .configured atConfig passed
        ⟨before, input, between ++ [choice], ?_, located, fun later member => ?_, reached⟩
      · rw [split, List.append_assoc, List.cons_append]
      · rcases List.mem_append.mp member with old | last
        · exact quiet later old
        · exact other later (List.mem_singleton.mp last).symm
  | settles atConfig atTrust read within =>
      exact .settles atConfig atTrust (read.mono (List.prefix_append _ _)) within
  | refuses within =>
      exact .refuses within

/-- What the store operations of an ingest follow from: the payload alone, or the payload and
the two files that the ingest has read. -/
def FollowsFrom (P : Platform) (identity : Identity) (start : World)
    (taken : List (Move Input Job)) (index : Nat) (delivery : Delivery)
    (operation : Store.Op) : Prop :=
  RejectOp operation ∨ ∃ atConfig atTrust,
    ReadsFiles P identity start taken index delivery atConfig atTrust ∧
      SettleOp P identity (atConfig.config P) (atTrust.trust P) delivery operation

/-- An action takes an ingest to its next stage, and writes to the store only what follows
from the files it has read. -/
theorem Reading.acts
    {thread : Thread Unit} (reading : Reading P identity start taken index delivery thread)
    {update : Input → World → World} {next : Input → World → Thread Unit}
    (acts : thread = .act update next) (input : Input) :
    StoreChange (FollowsFrom P identity start taken index delivery)
        (System.after P identity start taken)
        (update input (System.after P identity start taken)) ∧
      Reading P identity start (taken ++ [.step index input]) index delivery
        (next input (System.after P identity start taken)) := by
  cases reading with
  | fresh passed located =>
      have verifies : (Job.ingest delivery).thread P identity =
          ignore (verifyPath P identity delivery) := by
        rw [Job.thread, onMsg, passed]
      rw [verifies] at acts
      cases acts
      refine ⟨.of_eq rfl, .configured (System.after P identity start taken) passed ?_⟩
      exact ⟨taken, input, [], rfl, located, by simp, rfl⟩
  | configured atConfig passed read =>
      cases acts
      refine ⟨.of_eq rfl, .settles atConfig (System.after P identity start taken) ?_ ?_⟩
      · exact ⟨taken, input, List.prefix_rfl, read, rfl⟩
      · exact within_ignore (within_settle _ _ passed)
  | settles atConfig atTrust read within =>
      rw [acts] at within
      obtain ⟨change, rest⟩ := within.action input trivial
      refine ⟨?_, .settles atConfig atTrust (read.mono (List.prefix_append _ _)) rest⟩
      rcases change with same | ⟨operation, settled, changed⟩
      · exact .of_eq same
      · exact Or.inr ⟨operation, Or.inr ⟨atConfig, atTrust, read, settled⟩, changed⟩
  | refuses within =>
      rw [acts] at within
      obtain ⟨change, rest⟩ := within.action input trivial
      refine ⟨?_, .refuses rest⟩
      rcases change with same | ⟨operation, rejects, changed⟩
      · exact .of_eq same
      · exact Or.inr ⟨operation, Or.inl rejects, changed⟩

/-- Every ingest of every run is in one of the stages. -/
theorem reading_run
    {thread : Thread Unit}
    (located : (System.run P identity { shared := start } taken).threads[index]? =
      some (.ingest delivery, thread)) :
    Reading P identity start taken index delivery thread := by
  have reached := @Pool.forall_positions_run _ _ _ (Job.thread P identity) start
    (fun taken index job thread => ∀ delivery, job = .ingest delivery →
      Reading P identity start taken index delivery thread)
    ?_ ?_ ?_ taken index _ thread located
  · exact reached delivery rfl
  · rintro taken _ delivery rfl
    exact reading_spawned delivery
  · rintro taken choice index _ thread reading idle delivery rfl
    exact (reading delivery rfl).stays idle
  · rintro taken index input _ update next located reading delivery rfl
    exact ((reading delivery rfl).acts rfl input).2

/-- Every thread of a run is confined to the operations of its job. -/
theorem confined_system (taken : List (Move Input Job)) :
    Pool.Confined (fun _ => True)
      (fun job => StoreChange (job.Permits P identity fun _ => True))
      (System.run P identity { shared := start } taken) :=
  Pool.Confined.run (by simp [Pool.Confined]) (fun _ _ => trivial)
    fun job _ => confined_thread job

/-- Every move leaves the store alone, or is a step of a job: it writes what follows from the
files that an ingest has read, or it is an operation on outbound messages and cursors. -/
theorem run_store (taken : List (Move Input Job)) (choice : Move Input Job) :
    (System.after P identity start (taken ++ [choice])).store =
        (System.after P identity start taken).store ∨
      ∃ operation index input job, choice = .step index input ∧
        (System.run P identity { shared := start } taken).labels[index]? = some job ∧
        (System.after P identity start (taken ++ [choice])).store =
          (System.after P identity start taken).store.apply operation ∧
        (OutboundOp operation ∨ ∃ delivery, job = .ingest delivery ∧
          FollowsFrom P identity start taken index delivery operation) := by
  have ran : System.after P identity start (taken ++ [choice]) =
      (Pool.move (Job.thread P identity)
        (System.run P identity { shared := start } taken) choice).shared := by
    rw [System.after, System.run, Pool.run_append]
    rfl
  rcases @Pool.move_shared _ _ _ (Job.thread P identity)
      (System.run P identity { shared := start } taken) choice with
    same | ⟨index, input, job, update, next, rfl, located, moved⟩
  · exact Or.inl (congrArg World.store (ran.trans same))
  · have labelled : (System.run P identity { shared := start } taken).labels[index]? =
        some job := by
      rw [Pool.labels, List.getElem?_map, located]
      rfl
    have permits := confined_system taken _ (List.mem_of_getElem? located)
    have changes : StoreChange (fun operation => OutboundOp operation ∨
        ∃ delivery, job = .ingest delivery ∧
          FollowsFrom P identity start taken index delivery operation)
        (System.after P identity start taken)
        (update input (System.after P identity start taken)) := by
      cases job with
      | ingest delivery =>
          refine ((reading_run located).acts rfl input).1.imp_right ?_
          rintro ⟨operation, follows, changed⟩
          exact ⟨operation, Or.inr ⟨delivery, rfl, follows⟩, changed⟩
      | _ =>
          rcases (permits.action input trivial).1 with same | ⟨operation, permitted, changed⟩
          · exact .of_eq same
          · exact Or.inr ⟨operation, Or.inl permitted, changed⟩
    rcases changes with same | ⟨operation, permitted, changed⟩
    · refine Or.inl ?_
      rw [ran, moved]
      exact same
    · refine Or.inr ⟨operation, index, input, job, rfl, labelled, ?_, permitted⟩
      rw [ran, moved]
      exact changed

end Runs

end AgentMsg
