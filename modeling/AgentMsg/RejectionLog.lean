import AgentMsg.Pending
import AgentMsg.Rejections

/-!
# The rejections table as a log

Rows of the rejections table are only ever added, and only by the ingest of a payload
that is refused.  Whatever other threads and the store's failures do in between, the rows
that a run adds belong to different ingests, each row names the topic of its ingest and
says on which ground the payload was refused, and an ingest that ends without a row has
met a failed store call or had nothing to refuse.
-/

namespace AgentMsg

open Checked

/-! ## Grounds -/

/-- Why an ingest refuses its payload, and what it writes about the claimed sender and as
the detail.  The files and the store are those of states in which the ingest acted. -/
inductive Grounds (P : Platform) (identity : Identity) (seen : World → Prop)
    (delivery : Delivery) : RejectReason → Option String → String → Prop
  | hello (reason : RejectReason) (claimed : String)
      (bad : intercept P identity delivery.payload = .badHello reason claimed) :
      Grounds P identity seen delivery reason (some claimed) "pairing hello"
  | verdict (info : RejectInfo) (atConfig atTrust : World)
      (configSeen : seen atConfig) (trustSeen : seen atTrust)
      (passed : intercept P identity delivery.payload = .pass)
      (refused : verifyDelivery P identity (atConfig.config P) (atTrust.trust P) delivery =
        .error info) :
      Grounds P identity seen delivery info.reason info.claimedSender ""
  | replayed (atConfig atTrust atGuard : World) (inner : Inner) (claims : GrantClaims)
      (configSeen : seen atConfig) (trustSeen : seen atTrust) (guardSeen : seen atGuard)
      (accepted : Accepted P identity (atConfig.config P) (atTrust.trust P) delivery inner)
      (plain : inner.Plain)
      (looked :
        guardClaims P (atTrust.trust P) delivery.clock.guardCheck inner = some claims)
      (used : (atGuard.store.seenGrants[claims.id]?).isSome = true) :
      Grounds P identity seen delivery .replayedGrant (some inner.sender) ""

/-- Nothing to refuse: an echo, a pairing hello that verifies, or an accepted message
whose grant, if the guard looks one up, was not used when it looked. -/
inductive Spared (P : Platform) (identity : Identity) (seen : World → Prop)
    (delivery : Delivery) : Prop
  | echo (own : intercept P identity delivery.payload = .echo)
  | hello (entry : PendingPair)
      (verified : intercept P identity delivery.payload = .hello entry)
  | accepted (atConfig atTrust : World) (inner : Inner)
      (configSeen : seen atConfig) (trustSeen : seen atTrust)
      (accepted : Accepted P identity (atConfig.config P) (atTrust.trust P) delivery inner)
      (unused : inner.Plain → ∀ claims,
        guardClaims P (atTrust.trust P) delivery.clock.guardCheck inner = some claims →
          ∃ atGuard, seen atGuard ∧ (atGuard.store.seenGrants[claims.id]?).isSome = false)

theorem Grounds.mono
    {P : Platform} {identity : Identity} {seen wider : World → Prop} {delivery : Delivery}
    {reason : RejectReason} {claimed : Option String} {detail : String}
    (grounds : Grounds P identity seen delivery reason claimed detail)
    (implies : ∀ world, seen world → wider world) :
    Grounds P identity wider delivery reason claimed detail := by
  cases grounds with
  | hello reason claimed bad =>
      exact .hello reason claimed bad
  | verdict info atConfig atTrust configSeen trustSeen passed refused =>
      exact .verdict info atConfig atTrust (implies _ configSeen) (implies _ trustSeen) passed
        refused
  | replayed atConfig atTrust atGuard inner claims configSeen trustSeen guardSeen accepted
      plain looked used =>
      exact .replayed atConfig atTrust atGuard inner claims (implies _ configSeen)
        (implies _ trustSeen) (implies _ guardSeen) accepted plain looked used

theorem Spared.mono
    {P : Platform} {identity : Identity} {seen wider : World → Prop} {delivery : Delivery}
    (spared : Spared P identity seen delivery) (implies : ∀ world, seen world → wider world) :
    Spared P identity wider delivery := by
  cases spared with
  | echo own =>
      exact .echo own
  | hello entry verified =>
      exact .hello entry verified
  | accepted atConfig atTrust inner configSeen trustSeen accepted unused =>
      refine .accepted atConfig atTrust inner (implies _ configSeen) (implies _ trustSeen)
        accepted fun plain claims looked => ?_
      obtain ⟨atGuard, guardSeen, free⟩ := unused plain claims looked
      exact ⟨atGuard, implies _ guardSeen, free⟩

/-! ## What a thread knows and has written -/

/-- Has a thread written its row?  A thread whose store call failed is excused. -/
inductive Duty where
  | due
  | logged (row : RejectionRow)
  | excused

/-- A thread's job, the states in which it acted, and its row. -/
structure Docket where
  job : Job
  seen : World → Prop
  duty : Duty

/-- The docket of a thread that has just started. -/
def Job.docket (job : Job) : Docket :=
  { job, seen := fun _ => False, duty := .due }

section Rule

variable (P : Platform) (identity : Identity)

/-- The row is the one the thread has to write. -/
def Docket.Explains (docket : Docket) (row : RejectionRow) : Prop :=
  ∃ delivery reason, docket.job = .ingest delivery ∧ row.topic = delivery.topic ∧
    row.reason = reason.code ∧
    Grounds P identity docket.seen delivery reason row.claimedSender row.detail

/-- What an action does to the log and to the docket of its thread. -/
inductive Enters (docket : Docket) (input : Input) (before after : World) :
    Docket → Prop
  | nothing {later : Docket} (same : after.store.rejections = before.store.rejections)
      (duty : later.duty = docket.duty) : Enters docket input before after later
  | fails {later : Docket} (same : after.store.rejections = before.store.rejections)
      (due : docket.duty = .due) (duty : later.duty = .excused)
      (failed : ¬ input.Succeeds) : Enters docket input before after later
  | row {later : Docket} (row : RejectionRow) (due : docket.duty = .due)
      (duty : later.duty = .logged row)
      (added : after.store.rejections = before.store.rejections ++ [row])
      (numbered : row.seq = before.store.rejections.length + 1)
      (dated : row.recordedAt = input.now) (explained : later.Explains P identity row) :
      Enters docket input before after later

/-- An action keeps the job, sees the state it starts in, and writes at most the row. -/
structure LogRule (docket : Docket) (input : Input) (before after : World)
    (later : Docket) : Prop where
  job : later.job = docket.job
  seen : ∀ world, later.seen world → docket.seen world ∨ world = before
  wider : ∀ world, docket.seen world → later.seen world
  writes : Enters P identity docket input before after later

/-- A thread that ends without a row had nothing to refuse. -/
def Docket.Closed (docket : Docket) : Prop :=
  docket.duty = .due → ∀ delivery, docket.job = .ingest delivery →
    Spared P identity docket.seen delivery

end Rule

/-- The docket after an action in a state. -/
def Docket.visit (docket : Docket) (world : World) : Docket :=
  { docket with seen := fun other => docket.seen other ∨ other = world }

section Threads

variable {P : Platform} {identity : Identity} {docket : Docket}

/-- An action that leaves the log alone and is remembered. -/
theorem LogRule.visits
    {input : Input} {before after : World}
    (same : after.store.rejections = before.store.rejections) :
    LogRule P identity docket input before after (docket.visit before) :=
  ⟨rfl, fun _ => id, fun _ => Or.inl, .nothing same rfl⟩

/-- An action that leaves the log alone and is not remembered. -/
theorem LogRule.passes
    {input : Input} {before after : World}
    (same : after.store.rejections = before.store.rejections) :
    LogRule P identity docket input before after docket :=
  ⟨rfl, fun _ => Or.inl, fun _ => id, .nothing same rfl⟩

/-- Only the recording of a rejection changes the log. -/
theorem Store.apply_rejections
    (store : Store) (operation : Store.Op)
    (other : ∀ reason claimed topic detail now,
      operation ≠ .recordRejection reason claimed topic detail now) :
    (store.apply operation).rejections = store.rejections := by
  cases operation with
  | recordRejection reason claimed topic detail now =>
      exact absurd rfl (other reason claimed topic detail now)
  | ack consumer seq now =>
      unfold apply ack
      dsimp only
      split
      · rfl
      · split <;> rfl
  | upsertPresence agent beacon lastSeen now =>
      unfold apply upsertPresence
      dsimp only
      split
      · rfl
      · split <;> rfl
  | seenGrant grantId now =>
      unfold apply seenGrant
      dsimp only
      split <;> rfl
  | _ =>
      rfl

/-- An operation other than the recording of a rejection. -/
def KeepsLog (operation : Store.Op) : Prop :=
  ∀ reason claimed topic detail now,
    operation ≠ .recordRejection reason claimed topic detail now

/-- A thread that records no rejection. -/
abbrev Unlogged {α : Type} (thread : Thread α) : Prop :=
  Prog.Within (fun _ => True) (StoreChange KeepsLog) (fun _ => True) thread

theorem Unlogged.tracks
    {α : Type} {thread : Thread α} (unlogged : Unlogged thread) :
    Prog.Tracks (LogRule P identity) (fun later _ => later = docket) docket thread := by
  refine (Prog.Within.tracks unlogged fun input before after change => .passes ?_).weaken
    fun _ _ ends => ends.1
  rcases change with same | ⟨operation, keeps, changed⟩
  · rw [same]
  · rw [changed, Store.apply_rejections _ _ keeps]

theorem unlogged_storeCall
    {α : Type} {operation : String → Store.Op} {result : Store → α}
    (whole : ∀ now, KeepsLog (operation now))
    (part : ∀ now writes left, (operation now).upTo writes = some left → KeepsLog left) :
    Unlogged (storeCall operation result) :=
  within_storeCall whole part

theorem keepsLog_of_outbound {operation : Store.Op} (outbound : OutboundOp operation) :
    KeepsLog operation := by
  intro reason claimed topic detail now same
  subst same
  cases outbound

/-- The jobs that are no ingest record no rejection. -/
theorem unlogged_other {job : Job} (other : ∀ delivery, job ≠ .ingest delivery) :
    Unlogged (job.thread P identity) := by
  refine (confined_thread job).weaken ?_ fun _ _ => trivial
  rintro before after - (same | ⟨operation, permitted, changed⟩)
  · exact .of_eq same
  · refine Or.inr ⟨operation, keepsLog_of_outbound ?_, changed⟩
    cases job with
    | ingest delivery =>
        exact absurd rfl (other delivery)
    | _ =>
        exact permitted

theorem unlogged_storeMessage (cfg : Config) (delivery : Delivery) (inner : Inner) :
    Unlogged (storeMessage P identity cfg delivery inner) := by
  refine Prog.Within.andThen
    (unlogged_storeCall (fun _ => by simp [KeepsLog]) (by simp [Store.Op.upTo])) fun found => ?_
  split
  · refine Prog.Within.andThen (unlogged_storeCall (fun _ => by simp [KeepsLog]) ?_) fun _ =>
      Prog.Within.andThen (confined_pushStored _) fun _ => ?_
    · intro _ writes left remaining
      simp only [Store.Op.upTo, Option.some.injEq] at remaining
      subst remaining
      simp [KeepsLog]
    · have receipts : Unlogged (enqueueReceipt P identity delivery.draw inner.sender inner.id
          .delivered delivery.topic) := by
        refine (outward_enqueueReceipt _ _ _ _ _).weaken ?_ fun _ _ => trivial
        rintro before after - (same | ⟨operation, outbound, changed⟩)
        · exact .of_eq same
        · exact Or.inr ⟨operation, keepsLog_of_outbound outbound, changed⟩
      split
      · exact receipts.andThen fun _ => .done
      · exact .done
  · exact .done
  · exact .done

/-! ## The thread of an ingest -/

/-- An ingest with nothing to refuse may end without a row. -/
theorem Docket.closed_of_spared
    {delivery : Delivery} (ingests : docket.job = .ingest delivery)
    (spared : Spared P identity docket.seen delivery) : docket.Closed P identity := by
  intro _ other same
  rw [ingests, Job.ingest.injEq] at same
  subst same
  exact spared

/-- A failed store call that leaves the log alone excuses the thread. -/
theorem LogRule.excuses
    {input : Input} {before after : World}
    (same : after.store.rejections = before.store.rejections) (due : docket.duty = .due)
    (failed : ¬ input.Succeeds) :
    LogRule P identity docket input before after { docket with duty := .excused } :=
  ⟨rfl, fun _ => Or.inl, fun _ => id, .fails same due rfl failed⟩

/-- The call that records a rejection writes the row, or fails and excuses the thread. -/
theorem logs_recordRejection
    {delivery : Delivery} {reason : RejectReason} {claimed : Option String} {detail : String}
    (ingests : docket.job = .ingest delivery) (due : docket.duty = .due)
    (grounds : Grounds P identity docket.seen delivery reason claimed detail) :
    Prog.Tracks (LogRule P identity) (fun later _ => later.Closed P identity) docket
      (Calls.recordRejection reason claimed delivery.topic detail) := by
  refine Prog.Tracks.call fun input world => ?_
  cases fault : input.fault with
  | none =>
      let row : RejectionRow :=
        { seq := world.store.rejections.length + 1, recordedAt := input.now,
          reason := reason.code, claimedSender := claimed, topic := delivery.topic, detail }
      refine ⟨{ docket with duty := .logged row },
        ⟨rfl, fun _ => Or.inl, fun _ => id, ?_⟩, fun idle => ?_⟩
      · exact .row row due rfl (by simp [Store.attempt, Store.apply, Store.recordRejection, row])
          rfl rfl ⟨delivery, reason, ingests, rfl, rfl, grounds⟩
      · cases idle
  | some writes =>
      refine ⟨{ docket with duty := .excused }, .excuses ?_ due ?_, fun idle => ?_⟩
      · simp [Store.attempt, Store.Op.upTo]
      · simp [Input.Succeeds, fault]
      · cases idle

theorem logs_observe {α : Type} (view : World → α) :
    Prog.Tracks (LogRule P identity)
      (fun later value => ∃ world, later = docket.visit world ∧ value = view world) docket
      (Prog.observe view) :=
  Prog.Tracks.call fun _ world => ⟨docket.visit world, .visits rfl, world, rfl, rfl⟩

/-- What a guard has found out when its thread has an answer. -/
inductive Guarded (P : Platform) (trust : TrustStore) (now : Int) (inner : Inner)
    (later : Docket) : Bool → Prop
  | failed (duty : later.duty = .excused) : Guarded P trust now inner later false
  | used (claims : GrantClaims) (atGuard : World) (due : later.duty = .due)
      (guardSeen : later.seen atGuard) (looked : guardClaims P trust now inner = some claims)
      (used : (atGuard.store.seenGrants[claims.id]?).isSome = true) :
      Guarded P trust now inner later true
  | free (due : later.duty = .due)
      (unused : ∀ claims, guardClaims P trust now inner = some claims →
        ∃ atGuard, later.seen atGuard ∧ (atGuard.store.seenGrants[claims.id]?).isSome = false) :
      Guarded P trust now inner later false

/-- The same thread, which has acted in more states. -/
def Docket.Extends (docket later : Docket) : Prop :=
  later.job = docket.job ∧ ∀ world, docket.seen world → later.seen world

theorem logs_grantReplayed
    (trust : TrustStore) (now : Int) (inner : Inner) (due : docket.duty = .due) :
    Prog.Tracks (LogRule P identity)
      (fun later replayed => docket.Extends later ∧ Guarded P trust now inner later replayed)
      docket (grantReplayed P trust now inner) := by
  unfold grantReplayed
  split
  · rename_i unlooked
    refine .done ⟨⟨rfl, fun _ => id⟩, .free due fun claims looked => ?_⟩
    rw [unlooked] at looked
    cases looked
  · rename_i claims looked
    have asks : Prog.Tracks (LogRule P identity)
        (fun later seen => docket.Extends later ∧
          Guarded P trust now inner later (unwrapOr false seen))
        docket (Calls.seenGrant claims.id) := by
      refine Prog.Tracks.call fun input world => ?_
      cases fault : input.fault with
      | none =>
          have same : (world.store.attempt (.seenGrant claims.id input.now) none).rejections =
              world.store.rejections :=
            Store.apply_rejections _ _ (by simp)
          refine ⟨docket.visit world, .visits same, ⟨rfl, fun _ => Or.inl⟩, ?_⟩
          have answer : (world.store.seenGrant claims.id "").2 =
              (world.store.seenGrants[claims.id]?).isSome := by
            unfold Store.seenGrant
            split <;> simp_all
          change Guarded P trust now inner _ (world.store.seenGrant claims.id "").2
          rw [answer]
          cases used : (world.store.seenGrants[claims.id]?).isSome with
          | true =>
              exact .used claims world due (Or.inr rfl) looked used
          | false =>
              refine .free due fun other found => ⟨world, Or.inr rfl, ?_⟩
              rw [looked, Option.some.injEq] at found
              rw [← found]
              exact used
      | some writes =>
          refine ⟨{ docket with duty := .excused }, .excuses ?_ due ?_,
            ⟨rfl, fun _ => id⟩, .failed rfl⟩
          · simp [Store.attempt, Store.Op.upTo]
          · simp [Input.Succeeds, fault]
    exact asks.bind fun later seen answered => .done answered

/-- An accepted message is refused only when its grant was already used. -/
theorem logs_acceptMessage
    {delivery : Delivery} {atConfig atTrust : World} {inner : Inner}
    (ingests : docket.job = .ingest delivery) (due : docket.duty = .due)
    (configSeen : docket.seen atConfig) (trustSeen : docket.seen atTrust)
    (accepted : Accepted P identity (atConfig.config P) (atTrust.trust P) delivery inner) :
    Prog.Tracks (LogRule P identity) (fun later _ => later.Closed P identity) docket
      (acceptMessage P identity (atConfig.config P) (atTrust.trust P) delivery inner) := by
  by_cases plain : inner.Plain
  · rw [acceptMessage_of_plain plain]
    refine (logs_grantReplayed (atTrust.trust P) delivery.clock.guardCheck inner due).bind ?_
    rintro later replayed ⟨⟨job, wider⟩, guarded⟩
    cases guarded with
    | failed duty =>
        rw [if_neg Bool.false_ne_true]
        refine (unlogged_storeMessage _ _ _).tracks.weaken fun last _ same => ?_
        intro idle
        rw [same, duty] at idle
        cases idle
    | used claims atGuard duty guardSeen looked used =>
        rw [if_pos rfl]
        refine (logs_recordRejection (job.trans ingests) duty ?_).bind fun last _ closed =>
          .done closed
        exact .replayed atConfig atTrust atGuard inner claims (wider _ configSeen)
          (wider _ trustSeen) guardSeen accepted plain looked used
    | free duty unused =>
        rw [if_neg Bool.false_ne_true]
        refine (unlogged_storeMessage _ _ _).tracks.weaken fun last _ same => ?_
        subst same
        exact Docket.closed_of_spared (job.trans ingests) (.accepted atConfig atTrust inner
          (wider _ configSeen) (wider _ trustSeen) accepted fun _ => unused)
  · have unlogged : Unlogged
        (acceptMessage P identity (atConfig.config P) (atTrust.trust P) delivery inner) := by
      refine confined_acceptMessage.weaken ?_ fun _ _ => trivial
      rintro before after - (same | ⟨operation, permitted, changed⟩)
      · exact .of_eq same
      refine Or.inr ⟨operation, ?_, changed⟩
      intro reason claimed topic detail now same
      subst same
      cases permitted with
      | replayed now ordinary =>
          exact plain ordinary
    have settled : docket.Closed P identity :=
      Docket.closed_of_spared ingests (.accepted atConfig atTrust inner configSeen trustSeen
        accepted fun ordinary => absurd ordinary plain)
    exact unlogged.tracks.weaken fun later _ same => same ▸ settled

/-- Every ingest follows the rule and ends with its row or with nothing to refuse. -/
theorem logs_onMsg
    {delivery : Delivery} (ingests : docket.job = .ingest delivery) (due : docket.duty = .due) :
    Prog.Tracks (LogRule P identity) (fun later _ => later.Closed P identity) docket
      (onMsg P identity delivery) := by
  unfold onMsg
  split
  · rename_i own
    exact .done (Docket.closed_of_spared ingests (.echo own))
  · rename_i entry verified
    have offers : Unlogged (offerPending entry) :=
      .call (fun _ _ _ => .of_eq rfl) fun _ _ _ => trivial
    refine offers.tracks.bind fun later _ same => .done ?_
    rw [same]
    exact Docket.closed_of_spared ingests (.hello entry verified)
  · rename_i reason claimed bad
    exact (logs_recordRejection ingests due (.hello reason claimed bad)).bind
      fun later _ ends => .done ends
  · rename_i passed
    refine (logs_observe _).bind ?_
    rintro afterConfig cfg ⟨atConfig, rfl, rfl⟩
    refine (logs_observe _).bind ?_
    rintro afterTrust trust ⟨atTrust, rfl, rfl⟩
    have configSeen : ((docket.visit atConfig).visit atTrust).seen atConfig :=
      Or.inl (Or.inr rfl)
    have trustSeen : ((docket.visit atConfig).visit atTrust).seen atTrust := Or.inr rfl
    unfold settle
    split
    · rename_i inner verified
      exact logs_acceptMessage ingests due configSeen trustSeen ⟨passed, verified⟩
    · rename_i info refused
      have grounds : Grounds P identity ((docket.visit atConfig).visit atTrust).seen delivery
          info.reason info.claimedSender "" :=
        .verdict info atConfig atTrust configSeen trustSeen passed refused
      have records := @logs_recordRejection P identity ((docket.visit atConfig).visit atTrust)
        delivery _ _ _ ingests due grounds
      exact records.bind fun later _ closed => .done closed

theorem logs_thread (job : Job) :
    Prog.Tracks (LogRule P identity) (fun later _ => later.Closed P identity) job.docket
      (job.thread P identity) := by
  cases job with
  | ingest delivery =>
      exact (logs_onMsg rfl rfl).bind fun later _ closed => .done closed
  | _ =>
      refine (unlogged_other fun delivery same => by cases same).tracks.weaken
        fun later _ same => ?_
      subst same
      intro _ delivery same
      cases same

end Threads

/-! ## Runs -/

section Runs

variable {P : Platform} {identity : Identity} {start : World}
  {taken moves : List (Move Input Job)}

/-- The thread takes a step in this state. -/
def ActsIn (P : Platform) (identity : Identity) (start : World)
    (moves : List (Move Input Job)) (index : Nat) (world : World) : Prop :=
  ∃ taken input, taken ++ [.step index input] <+: moves ∧
    System.after P identity start taken = world

theorem ActsIn.mono
    {index : Nat} {world : World} (acts : ActsIn P identity start taken index world)
    (isPrefix : taken <+: moves) : ActsIn P identity start moves index world := by
  obtain ⟨earlier, input, within, reached⟩ := acts
  exact ⟨earlier, input, within.trans isPrefix, reached⟩

/-- What a docket says of its thread is so. -/
structure Docket.Backed (docket : Docket) (P : Platform) (identity : Identity) (start : World)
    (taken : List (Move Input Job)) (index : Nat) : Prop where
  label : (System.run P identity { shared := start } taken).labels[index]? = some docket.job
  seen : ∀ world, docket.seen world → ActsIn P identity start taken index world
  excused : docket.duty = .excused → ∃ input, .step index input ∈ taken ∧ ¬ input.Succeeds
  logged : ∀ row, docket.duty = .logged row → docket.Explains P identity row ∧
    ∃ input, .step index input ∈ taken ∧ row.recordedAt = input.now

theorem Docket.Backed.mono
    {docket : Docket} {index : Nat} (backed : docket.Backed P identity start taken index)
    (choice : Move Input Job) : docket.Backed P identity start (taken ++ [choice]) index where
  label := by
    have within := (List.getElem?_eq_some_iff.mp backed.label).1
    rw [run_concat]
    cases choice with
    | spawn job =>
        rw [Pool.labels_spawn, List.getElem?_append_left within]
        exact backed.label
    | step other input =>
        rw [Pool.labels_step]
        exact backed.label
  seen world known := (backed.seen world known).mono (List.prefix_append _ _)
  excused idle := by
    obtain ⟨input, member, failed⟩ := backed.excused idle
    exact ⟨input, List.mem_append_left _ member, failed⟩
  logged row written := by
    obtain ⟨explained, input, member, dated⟩ := backed.logged row written
    exact ⟨explained, input, List.mem_append_left _ member, dated⟩

/-- A thread that takes a step by the rule backs its new docket. -/
theorem Docket.Backed.step
    {docket later : Docket} {index : Nat} {input : Input}
    (backed : docket.Backed P identity start taken index)
    (rule : LogRule P identity docket input (System.after P identity start taken)
      (System.after P identity start (taken ++ [.step index input])) later) :
    later.Backed P identity start (taken ++ [.step index input]) index := by
  have longer := backed.mono (.step index input)
  have last : (.step index input : Move Input Job) ∈ taken ++ [.step index input] :=
    List.mem_append_right _ List.mem_cons_self
  refine ⟨?_, fun world known => ?_, fun idle => ?_, fun row written => ?_⟩
  · rw [rule.job]
    exact longer.label
  · rcases rule.seen world known with old | now
    · exact longer.seen world old
    · exact ⟨taken, input, List.prefix_rfl, now.symm⟩
  · cases rule.writes with
    | nothing _ same =>
        exact longer.excused (same ▸ idle)
    | fails _ _ _ failed =>
        exact ⟨input, last, failed⟩
    | row _ _ duty =>
        rw [duty] at idle
        cases idle
  · cases rule.writes with
    | nothing _ same =>
        obtain ⟨⟨delivery, reason, ingests, topic, code, grounds⟩, dated⟩ :=
          longer.logged row (same ▸ written)
        exact ⟨⟨delivery, reason, rule.job.trans ingests, topic, code,
          grounds.mono rule.wider⟩, dated⟩
    | fails _ _ duty _ =>
        rw [duty] at written
        cases written
    | row new _ duty _ _ dated explained =>
        rw [duty, Duty.logged.injEq] at written
        subst written
        exact ⟨explained, input, last, dated⟩

/-- The threads that have written the rows a run has added. -/
structure Entered (P : Platform) (identity : Identity) (start : World)
    (taken : List (Move Input Job)) (dockets : Nat → Docket)
    (authored : List (Nat × RejectionRow)) : Prop where
  backed : ∀ index < (System.run P identity { shared := start } taken).threads.length,
    (dockets index).Backed P identity start taken index
  rows : (System.after P identity start taken).store.rejections =
    start.store.rejections ++ authored.map Prod.snd
  numbered : ∀ position index row, authored[position]? = some (index, row) →
    row.seq = start.store.rejections.length + position + 1
  once : (authored.map Prod.fst).Nodup
  within : ∀ entry ∈ authored,
    entry.1 < (System.run P identity { shared := start } taken).threads.length
  written : ∀ index < (System.run P identity { shared := start } taken).threads.length,
    ∀ row, (dockets index).duty = .logged row ↔ (index, row) ∈ authored

theorem Entered.spawn
    {dockets : Nat → Docket} {authored : List (Nat × RejectionRow)}
    (entered : Entered P identity start taken dockets authored) (job : Job) :
    Entered P identity start (taken ++ [.spawn job])
      (Function.update dockets
        (System.run P identity { shared := start } taken).threads.length job.docket)
      authored := by
  have threads :
      (System.run P identity { shared := start } (taken ++ [.spawn job])).threads.length =
        (System.run P identity { shared := start } taken).threads.length + 1 := by
    rw [run_concat]
    simp [Pool.move]
  have shared : System.after P identity start (taken ++ [.spawn job]) =
      System.after P identity start taken := by
    rw [System.after, run_concat]
    rfl
  refine ⟨?_, ?_, entered.numbered, entered.once, ?_, ?_⟩
  · intro index bound
    by_cases last : index = (System.run P identity { shared := start } taken).threads.length
    · subst last
      rw [Function.update_self]
      refine ⟨?_, fun _ known => known.elim, fun idle => ?_, fun _ idle => ?_⟩
      · have count : (System.run P identity { shared := start } taken).labels.length =
            (System.run P identity { shared := start } taken).threads.length :=
          List.length_map _
        rw [run_concat, Pool.labels_spawn, ← count, List.getElem?_concat_length]
        rfl
      · cases idle
      · cases idle
    · rw [Function.update_of_ne last]
      exact (entered.backed index (by omega)).mono _
  · rw [shared]
    exact entered.rows
  · intro entry member
    have old := entered.within entry member
    omega
  · intro index bound row
    by_cases last : index = (System.run P identity { shared := start } taken).threads.length
    · subst last
      rw [Function.update_self]
      constructor
      · intro idle
        cases idle
      · intro member
        exact absurd (entered.within _ member) (Nat.lt_irrefl _)
    · rw [Function.update_of_ne last]
      exact entered.written index (by omega) row

theorem Entered.step
    {dockets : Nat → Docket} {authored : List (Nat × RejectionRow)}
    (entered : Entered P identity start taken dockets authored) {index : Nat} {input : Input}
    {later : Docket}
    (bound : index < (System.run P identity { shared := start } taken).threads.length)
    (rule : LogRule P identity (dockets index) input (System.after P identity start taken)
      (System.after P identity start (taken ++ [.step index input])) later) :
    ∃ longer, Entered P identity start (taken ++ [.step index input])
      (Function.update dockets index later) longer := by
  have threads :
      (System.run P identity { shared := start } (taken ++ [.step index input])).threads.length =
        (System.run P identity { shared := start } taken).threads.length := by
    have labels := Pool.labels_step (Job.thread P identity)
      (System.run P identity { shared := start } taken) index input
    have lengths := congrArg List.length labels
    rw [Pool.labels, Pool.labels, List.length_map, List.length_map] at lengths
    rw [run_concat]
    exact lengths
  have backed : ∀ other <
      (System.run P identity { shared := start } (taken ++ [.step index input])).threads.length,
      (Function.update dockets index later other).Backed P identity start
        (taken ++ [.step index input]) other := by
    intro other small
    by_cases same : other = index
    · subst same
      rw [Function.update_self]
      exact (entered.backed other bound).step rule
    · rw [Function.update_of_ne same]
      exact (entered.backed other (threads ▸ small)).mono _
  have others : ∀ other, other ≠ index →
      (Function.update dockets index later other).duty = (dockets other).duty := by
    intro other different
    rw [Function.update_of_ne different]
  cases rule.writes with
  | nothing same duty =>
      refine ⟨authored, backed, same.trans entered.rows, entered.numbered, entered.once, ?_, ?_⟩
      · exact fun entry member => threads ▸ entered.within entry member
      · intro other small row
        by_cases here : other = index
        · subst here
          rw [Function.update_self, duty]
          exact entered.written other bound row
        · rw [others other here]
          exact entered.written other (threads ▸ small) row
  | fails same due duty failed =>
      refine ⟨authored, backed, same.trans entered.rows, entered.numbered, entered.once, ?_, ?_⟩
      · exact fun entry member => threads ▸ entered.within entry member
      · intro other small row
        by_cases here : other = index
        · subst here
          rw [Function.update_self, duty, ← entered.written other bound row, due]
          simp
        · rw [others other here]
          exact entered.written other (threads ▸ small) row
  | row new due duty added numbered dated explained =>
      have unwritten : ∀ row, (index, row) ∉ authored := by
        intro row member
        have logged := (entered.written index bound row).mpr member
        rw [due] at logged
        cases logged
      refine ⟨authored ++ [(index, new)], backed, ?_, ?_, ?_, ?_, ?_⟩
      · rw [added, entered.rows, List.map_append, List.append_assoc]
        rfl
      · intro position other row found
        rw [List.getElem?_append] at found
        split at found
        · exact entered.numbered position other row found
        · rename_i beyond
          have first : position - authored.length = 0 := by
            by_contra later
            rw [List.getElem?_eq_none (by simp; omega)] at found
            cases found
          rw [first, List.getElem?_cons_zero, Option.some.injEq, Prod.mk.injEq] at found
          obtain ⟨rfl, rfl⟩ := found
          rw [numbered, entered.rows, List.length_append, List.length_map]
          omega
      · rw [List.map_append, List.nodup_append]
        refine ⟨entered.once, by simp, ?_⟩
        intro other old last new same
        obtain ⟨⟨writer, row⟩, member, rfl⟩ := List.mem_map.mp old
        rw [List.map_singleton, List.mem_singleton] at new
        subst new
        subst same
        exact unwritten row member
      · intro entry member
        rw [threads]
        rcases List.mem_append.mp member with old | last
        · exact entered.within entry old
        · rw [List.mem_singleton.mp last]
          exact bound
      · intro other small row
        rw [List.mem_append, List.mem_singleton, Prod.mk.injEq]
        by_cases here : other = index
        · subst here
          rw [Function.update_self, duty, Duty.logged.injEq]
          constructor
          · rintro rfl
            exact Or.inr ⟨rfl, rfl⟩
          · rintro (old | ⟨-, rfl⟩)
            · exact absurd old (unwritten row)
            · rfl
        · rw [others other here, entered.written other (threads ▸ small) row]
          constructor
          · exact Or.inl
          · rintro (old | ⟨same, -⟩)
            · exact old
            · exact absurd same here

theorem Entered.idle
    {dockets : Nat → Docket} {authored : List (Nat × RejectionRow)}
    (entered : Entered P identity start taken dockets authored) {choice : Move Input Job}
    (same : System.run P identity { shared := start } (taken ++ [choice]) =
      System.run P identity { shared := start } taken) :
    Entered P identity start (taken ++ [choice]) dockets authored := by
  refine ⟨fun index bound => ?_, ?_, entered.numbered, entered.once, ?_, ?_⟩
  · rw [same] at bound
    exact (entered.backed index bound).mono choice
  · rw [System.after, same]
    exact entered.rows
  · rw [same]
    exact entered.within
  · rw [same]
    exact entered.written

theorem entered_nil (dockets : Nat → Docket) : Entered P identity start [] dockets [] where
  backed index bound := absurd bound (Nat.not_lt_zero index)
  rows := (List.append_nil _).symm
  numbered position index row found := by cases found
  once := List.nodup_nil
  within entry member := by cases member
  written index bound := absurd bound (Nat.not_lt_zero index)

/-- Every run has dockets that name the authors of its rows. -/
theorem entered_run (moves : List (Move Input Job)) :
    ∃ dockets, (∃ authored, Entered P identity start moves dockets authored) ∧
      Pool.Tracked (LogRule P identity) (fun later _ => later.Closed P identity)
        (System.run P identity { shared := start } moves) dockets := by
  refine Pool.tracked_run (fun job _ => logs_thread job)
    (fun taken dockets => ∃ authored, Entered P identity start taken dockets authored)
    (fun _ => Job.pump.docket) ⟨[], entered_nil _⟩ ?_ ?_ ?_
  · intro taken job dockets isPrefix holds
    obtain ⟨authored, entered⟩ := holds
    exact ⟨authored, entered.spawn job⟩
  · intro taken index input job thread dockets later isPrefix holds located rule
    obtain ⟨authored, entered⟩ := holds
    exact entered.step (List.getElem?_eq_some_iff.mp located).1 rule
  · intro taken choice dockets isPrefix holds same
    obtain ⟨authored, entered⟩ := holds
    exact ⟨authored, entered.idle same⟩

/-- The thread is an ingest whose payload was refused on the ground that the row states,
at the time the row states. -/
structure Authors (P : Platform) (identity : Identity) (start : World)
    (moves : List (Move Input Job)) (index : Nat) (row : RejectionRow) : Prop where
  grounds : ∃ delivery reason,
    (System.run P identity { shared := start } moves).labels[index]? =
        some (.ingest delivery) ∧
      row.topic = delivery.topic ∧ row.reason = reason.code ∧
      Grounds P identity (ActsIn P identity start moves index) delivery reason
        row.claimedSender row.detail
  dated : ∃ input, .step index input ∈ moves ∧ row.recordedAt = input.now

/-- The rows a run adds to the rejections table, with the threads that added them. -/
structure RejectionsOf (P : Platform) (identity : Identity) (start : World)
    (moves : List (Move Input Job)) (authored : List (Nat × RejectionRow)) : Prop where
  rows : (System.after P identity start moves).store.rejections =
    start.store.rejections ++ authored.map Prod.snd
  numbered : ∀ position index row, authored[position]? = some (index, row) →
    row.seq = start.store.rejections.length + position + 1
  once : (authored.map Prod.fst).Nodup
  authors : ∀ index row, (index, row) ∈ authored →
    Authors P identity start moves index row
  complete : ∀ index delivery,
    (System.run P identity { shared := start } moves).threads[index]? =
        some (.ingest delivery, .pure ()) →
      (∀ input, .step index input ∈ moves → input.Succeeds) →
        (∃ row, (index, row) ∈ authored) ∨
          Spared P identity (ActsIn P identity start moves index) delivery

theorem Entered.authors
    {dockets : Nat → Docket} {authored : List (Nat × RejectionRow)}
    (entered : Entered P identity start moves dockets authored) {index : Nat}
    {row : RejectionRow} (member : (index, row) ∈ authored) :
    Authors P identity start moves index row := by
  have bound := entered.within _ member
  have backed := entered.backed index bound
  have logged := (entered.written index bound row).mpr member
  obtain ⟨⟨delivery, reason, ingests, topic, code, grounds⟩, dated⟩ :=
    backed.logged row logged
  have label := backed.label
  rw [ingests] at label
  exact ⟨⟨delivery, reason, label, topic, code, grounds.mono backed.seen⟩, dated⟩

/-- An ingest that has ended has its row, met a failed store call, or was spared. -/
theorem Entered.complete
    {dockets : Nat → Docket} {authored : List (Nat × RejectionRow)}
    (entered : Entered P identity start moves dockets authored)
    (tracked : Pool.Tracked (LogRule P identity) (fun later _ => later.Closed P identity)
      (System.run P identity { shared := start } moves) dockets)
    {index : Nat} {delivery : Delivery}
    (ended : (System.run P identity { shared := start } moves).threads[index]? =
      some (.ingest delivery, .pure ()))
    (reliable : ∀ input, .step index input ∈ moves → input.Succeeds) :
    (∃ row, (index, row) ∈ authored) ∨
      Spared P identity (ActsIn P identity start moves index) delivery := by
  have bound := (List.getElem?_eq_some_iff.mp ended).1
  have backed := entered.backed index bound
  have closes : (dockets index).Closed P identity := by
    cases tracked index _ _ ended with
    | pure closed =>
        exact closed
  cases duty : (dockets index).duty with
  | logged row =>
      exact Or.inl ⟨row, (entered.written index bound row).mp duty⟩
  | excused =>
      obtain ⟨input, member, failed⟩ := backed.excused duty
      exact absurd (reliable input member) failed
  | due =>
      have label := backed.label
      rw [Pool.labels, List.getElem?_map, ended] at label
      have ingests : (dockets index).job = .ingest delivery := (Option.some.inj label).symm
      exact Or.inr ((closes duty delivery ingests).mono backed.seen)

/-- In every run of the daemon's threads, under any interleaving and any failures of the
store, the rejections table is the old table followed by numbered rows of different
ingests, each of which states why and when its payload was refused; and an ingest whose
store calls succeeded has its row unless there was nothing to refuse. -/
theorem rejection_log_exact
    (P : Platform) (identity : Identity) (start : World) (moves : List (Move Input Job)) :
    ∃ authored, RejectionsOf P identity start moves authored := by
  obtain ⟨dockets, ⟨authored, entered⟩, tracked⟩ :=
    @entered_run P identity start moves
  exact ⟨authored, entered.rows, entered.numbered, entered.once,
    fun _ _ member => entered.authors member,
    fun _ _ ended reliable => entered.complete tracked ended reliable⟩

end Runs

end AgentMsg
