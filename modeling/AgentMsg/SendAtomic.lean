import AgentMsg.Outbox
import AgentMsg.Receipts
import AgentMsg.SendLimits

/-!
# The two writes of a Send

A Send writes to the message log and then to the outbox, in two store calls that fail
independently of each other.  The result of the first is ignored, and when the second
fails the first is not undone.  So the answer tells what is stored only when the two
writes agree.
-/

namespace AgentMsg

/-! ## Outbound rows of the log -/

namespace Store

/-- The log has an outbound row of the message. -/
def Logs (store : Store) (id : String) : Prop :=
  ∃ row ∈ store.messages.rows, row.2.id = id ∧ row.2.direction = .outbound

theorem Logs.holds {store : Store} {id : String} (logs : store.Logs id) :
    store.messages.holds id = true := by
  obtain ⟨row, member, same, -⟩ := logs
  exact RowTable.holds_eq_true_iff.mpr ⟨row, member, same⟩

/-- An outbound row stays one whatever is recorded of its delivery. -/
theorem logs_updateOutbound {store : Store} {id target : String} {guard : DeliveryState → Bool}
    {change : MsgRow → MsgRow} {keeps : ∀ row, (change row).id = row.id}
    (directed : ∀ row, (change row).direction = row.direction) :
    (store.updateOutbound target guard change keeps).Logs id ↔ store.Logs id := by
  have same (chosen : Bool) (row : MsgRow) :
      (if chosen then change row else row).id = row.id ∧
        (if chosen then change row else row).direction = row.direction := by
    split
    · exact ⟨keeps row, directed row⟩
    · exact ⟨rfl, rfl⟩
  constructor
  · rintro ⟨row, member, equal, outbound⟩
    obtain ⟨old, stored, rfl⟩ := RowTable.mem_updateWhere.mp member
    exact ⟨old, stored, (same _ old.2).1.symm.trans equal, (same _ old.2).2.symm.trans outbound⟩
  · rintro ⟨row, member, equal, outbound⟩
    exact ⟨_, RowTable.mem_updateWhere.mpr ⟨row, member, rfl⟩, (same _ row.2).1.trans equal,
      (same _ row.2).2.trans outbound⟩

theorem logs_markSent (store : Store) (id target now : String) :
    (store.markSent target now).Logs id ↔ store.Logs id :=
  logs_updateOutbound fun _ => rfl

end Store

/-! ## The writes -/

section Writes

variable {P : Platform} {topic : String} {inner : Inner} {wrapper : Wrapper}
  {inputs : Nat → Input} {world : World}

/-- The store after the attempt to log a message. -/
def Store.afterLog (store : Store) (inner : Inner) (topic : String) (log : Input) : Store :=
  store.attempt (.insertOutboundLog inner topic) log.fault

theorem Store.afterLog_of_fails {log : Input} (fails : ¬ log.Succeeds) (store : Store) :
    store.afterLog inner topic log = store := by
  obtain ⟨writes, fault⟩ := Option.ne_none_iff_exists'.mp fails
  rw [afterLog, fault]
  rfl

theorem Store.afterLog_of_succeeds {log : Input} (succeeds : log.Succeeds) (store : Store) :
    store.afterLog inner topic log = store.insertOutboundLog inner topic := by
  rw [afterLog, succeeds]
  rfl

theorem Store.outbox_afterLog (store : Store) (inner : Inner) (topic : String) (log : Input) :
    (store.afterLog inner topic log).outbox = store.outbox := by
  by_cases succeeds : log.Succeeds
  · rw [afterLog_of_succeeds succeeds]
    rfl
  · rw [afterLog_of_fails succeeds]

/-- The attempt leaves the rows alone when it fails or the id is taken. -/
theorem Store.rows_afterLog_iff {store : Store} {log : Input} :
    (store.afterLog inner topic log).messages.rows = store.messages.rows ↔
      (log.Succeeds → store.messages.holds inner.id = true) := by
  by_cases succeeds : log.Succeeds
  · rw [afterLog_of_succeeds succeeds]
    rcases store.messages.insertOrIgnore_cases (outboundRow inner topic) with
      ⟨taken, rows, -⟩ | ⟨fresh, rows, -⟩
    · exact iff_of_true rows fun _ => taken
    · refine iff_of_false (fun same => ?_) fun holds => ?_
      · exact List.cons_ne_nil _ _ (List.self_eq_append_right.mp (same.symm.trans rows))
      · exact Bool.false_ne_true (fresh.symm.trans (holds succeeds))
  · rw [afterLog_of_fails succeeds]
    exact iff_of_true rfl fun success => absurd success succeeds

/-- After the attempt the log has the message if it had it before, or if the attempt
succeeds and the id is new. -/
theorem Store.logs_afterLog_iff {store : Store} {log : Input} :
    (store.afterLog inner topic log).Logs inner.id ↔
      store.Logs inner.id ∨ (log.Succeeds ∧ store.messages.holds inner.id = false) := by
  by_cases succeeds : log.Succeeds
  · rw [afterLog_of_succeeds succeeds]
    rcases store.messages.insertOrIgnore_cases (outboundRow inner topic) with
      ⟨taken, rows, -⟩ | ⟨fresh, rows, -⟩
    · have kept : (store.insertOutboundLog inner topic).Logs inner.id ↔ store.Logs inner.id := by
        rw [Logs, insertOutboundLog, rows, Logs]
      rw [kept]
      refine ⟨Or.inl, fun either => either.resolve_right fun new => ?_⟩
      exact Bool.false_ne_true (new.2.symm.trans taken)
    · refine iff_of_true ⟨(store.messages.last + 1, outboundRow inner topic), ?_, rfl, rfl⟩
        (Or.inr ⟨succeeds, fresh⟩)
      rw [insertOutboundLog, rows]
      exact List.mem_append_right _ List.mem_cons_self
  · rw [afterLog_of_fails succeeds]
    exact ⟨Or.inl, fun either => either.resolve_right fun new => succeeds new.1⟩

/-- When the second write fails an error is answered, and the first stays. -/
theorem exec_sendBuilt_of_fails (fails : ¬ (inputs 1).Succeeds) :
    (sendBuilt P topic inner wrapper).exec inputs world =
      ({ world with store := world.store.afterLog inner topic (inputs 0) },
        .error (Error.text (.store ""))) := by
  obtain ⟨writes, fault⟩ := Option.ne_none_iff_exists'.mp fails
  rw [sendBuilt, Calls.insertOutboundLog, exec_storeCall_bind, Calls.enqueueOutbound,
    exec_storeCall_bind]
  simp only [Nat.zero_add, fault]
  rfl

/-- The state in which a message is published, after both writes. -/
def World.queued (P : Platform) (world : World) (topic : String) (inner : Inner)
    (wrapper : Wrapper) (log : Input) : World :=
  { world with
    store := (world.store.afterLog inner topic log).enqueueOutbound
      (outboxEntry P topic inner wrapper) }

/-- When it succeeds the message is published, and answered as sent. -/
theorem exec_sendBuilt_of_succeeds (succeeds : (inputs 1).Succeeds) :
    (sendBuilt P topic inner wrapper).exec inputs world =
      (((publishNow topic inner (P.wrapperJson.encode wrapper)).exec
          (fun index => inputs (index + 1 + 1)) (world.queued P topic inner wrapper (inputs 0))).1,
        .sent inner.id ((publishNow topic inner (P.wrapperJson.encode wrapper)).exec
          (fun index => inputs (index + 1 + 1))
          (world.queued P topic inner wrapper (inputs 0))).2) := by
  have fault : (inputs 1).fault = none := succeeds
  rw [sendBuilt, Calls.insertOutboundLog, exec_storeCall_bind, Calls.enqueueOutbound,
    exec_storeCall_bind]
  simp only [Nat.zero_add, fault, Prog.exec_bind_pure]
  rfl

theorem execUpTo_sendBuilt (succeeds : (inputs 1).Succeeds) :
    (sendBuilt P topic inner wrapper).execUpTo 2 inputs world =
      world.queued P topic inner wrapper (inputs 0) := by
  have fault : (inputs 1).fault = none := succeeds
  have state : (sendBuilt P topic inner wrapper).execUpTo 2 inputs world =
      { world with
        store := (world.store.afterLog inner topic (inputs 0)).attempt
          (.enqueueOutbound (outboxEntry P topic inner wrapper)) (inputs 1).fault } := rfl
  rw [state, fault]
  rfl

/-- Publishing neither adds nor drops outbound rows of the log. -/
theorem logs_publishNow {id : String} {payload : Bytes} :
    ((publishNow topic inner payload).exec inputs world).1.store.Logs id ↔
      world.store.Logs id := by
  have marks : Quiet (fun _ => True)
      (fun operation => ∀ store : Store, (store.apply operation).Logs id ↔ store.Logs id)
      (Calls.markDelivered inner.id) := by
    refine within_storeCall (fun now store => store.logs_markSent id inner.id now) ?_
    intro now writes left remains store
    rw [Store.Op.upTo] at remains
    split at remains
    · cases remains
    · cases remains
      exact store.logs_markSent id inner.id now
  have keeps : Prog.Within (fun _ => True)
      (fun before after : World => after.store.Logs id ↔ before.store.Logs id) (fun _ => True)
      (publishNow topic inner payload) := by
    refine (quiet_publishNow marks topic payload).weaken ?_ fun _ ends => ends
    intro before after _ change
    rcases change with same | ⟨operation, permitted, applied⟩
    · rw [same]
    · rw [applied, permitted]
  rw [← Prog.execUpTo_actions]
  exact @Prog.Within.execUpTo _ _ _ _ _
    (fun before after : World => after.store.Logs id ↔ before.store.Logs id) (fun _ => Iff.rfl)
    (fun earlier later => later.trans earlier) keeps _ _ _

end Writes

/-! ## All or nothing -/

/-- What the answer of a Send tells about the tables: an error that they are as before,
an acknowledgement that the message is in the log as an outbound row and was placed in
the outbox. -/
structure SendAtomic (P : Platform) (identity : Identity) (p : SendParams) (draw : Draw)
    (inputs : Nat → Input) (world : World) : Prop where
  refused : ∀ message,
    ((send P identity p draw).exec inputs world).2 = .error message →
    ((send P identity p draw).exec inputs world).1.store.messages.rows =
        world.store.messages.rows ∧
      ((send P identity p draw).exec inputs world).1.store.outbox.rows = world.store.outbox.rows
  sent : ∀ id state,
    ((send P identity p draw).exec inputs world).2 = .sent id state →
    ((send P identity p draw).exec inputs world).1.store.Logs id ∧
      ∃ count,
        ((send P identity p draw).execUpTo count inputs world).store.outbox.holds id = true

/-- The two writes of a message agree.  When it is not queued, its log row was not
written either, as the write fails or the id is taken; when it is queued, its log row is
written, or the log has an outbound row with its id already. -/
structure WritesAgree (store : Store) (id : String) (log queue : Input) : Prop where
  failed : ¬ queue.Succeeds → log.Succeeds → store.messages.holds id = true
  queued : queue.Succeeds → store.Logs id ∨ (log.Succeeds ∧ store.messages.holds id = false)

/-- For a new id both writes succeed or both fail. -/
theorem writesAgree_fresh {store : Store} {id : String} {log queue : Input}
    (fresh : store.messages.holds id = false) :
    WritesAgree store id log queue ↔ (log.Succeeds ↔ queue.Succeeds) := by
  constructor
  · intro agree
    constructor
    · intro written
      by_contra failed
      exact Bool.false_ne_true (fresh.symm.trans (agree.failed failed written))
    · intro queued
      refine ((agree.queued queued).resolve_left fun logs => ?_).1
      exact Bool.false_ne_true (fresh.symm.trans logs.holds)
  · intro both
    exact ⟨fun failed written => absurd (both.mp written) failed,
      fun queued => Or.inr ⟨both.mpr queued, fresh⟩⟩

section Sending

variable {P : Platform} {identity : Identity} {p : SendParams} {draw : Draw}
  {inputs : Nat → Input} {world : World}

theorem sendAtomic_of_refused {message : String}
    (refused : (send P identity p draw).exec inputs world = (world, .error message)) :
    SendAtomic P identity p draw inputs world := by
  constructor
  · intro _ _
    rw [refused]
    exact ⟨rfl, rfl⟩
  · intro _ _ sent
    rw [refused] at sent
    cases sent

section Built

variable {topic : String} {inner : Inner} {wrapper : Wrapper}
  (built : (send P identity p draw).advance p.checks inputs world =
    (sendBuilt P topic inner wrapper, world))

include built

/-- A Send that is queued is all or nothing exactly when the log then has its message. -/
theorem sendAtomic_of_queued_iff (queued : (inputs (1 + p.checks)).Succeeds) :
    SendAtomic P identity p draw inputs world ↔
      (world.store.afterLog inner topic (inputs (0 + p.checks))).Logs inner.id := by
  have executed := Prog.exec_of_advance built
  rw [exec_sendBuilt_of_succeeds queued] at executed
  constructor
  · intro atomic
    have logs := (atomic.sent _ _ (congrArg Prod.snd executed)).1
    rwa [executed, logs_publishNow] at logs
  · intro logs
    constructor
    · intro message refused
      rw [executed] at refused
      cases refused
    · intro id state sent
      rw [executed] at sent
      cases sent
      refine ⟨?_, 2 + p.checks, ?_⟩
      · rwa [executed, logs_publishNow]
      · rw [Prog.execUpTo_of_advance built, execUpTo_sendBuilt queued]
        refine (RowTable.holds_insertOrIgnore _ _ _).trans ?_
        exact Bool.or_eq_true_iff.mpr (Or.inr (decide_eq_true rfl))

/-- One that is not queued is all or nothing exactly when the log is as before. -/
theorem sendAtomic_of_failed_iff (failed : ¬ (inputs (1 + p.checks)).Succeeds) :
    SendAtomic P identity p draw inputs world ↔
      (world.store.afterLog inner topic (inputs (0 + p.checks))).messages.rows =
        world.store.messages.rows := by
  have executed := Prog.exec_of_advance built
  rw [exec_sendBuilt_of_fails failed] at executed
  constructor
  · intro atomic
    have rows := (atomic.refused _ (congrArg Prod.snd executed)).1
    rwa [executed] at rows
  · intro rows
    constructor
    · intro message refused
      rw [executed]
      exact ⟨rows, congrArg RowTable.rows (world.store.outbox_afterLog inner topic _)⟩
    · intro id state sent
      rw [executed] at sent
      cases sent

/-- A Send that comes to its writes is all or nothing exactly when they agree. -/
theorem sendAtomic_built_iff :
    SendAtomic P identity p draw inputs world ↔
      WritesAgree world.store inner.id (inputs p.checks) (inputs (p.checks + 1)) := by
  have log : inputs (0 + p.checks) = inputs p.checks := congrArg inputs (Nat.zero_add _)
  have queue : inputs (1 + p.checks) = inputs (p.checks + 1) := congrArg inputs (Nat.add_comm _ _)
  by_cases queued : (inputs (1 + p.checks)).Succeeds
  · rw [sendAtomic_of_queued_iff built queued, Store.logs_afterLog_iff, log]
    rw [queue] at queued
    exact ⟨fun logs => ⟨fun failed => absurd queued failed, fun _ => logs⟩,
      fun agree => agree.queued queued⟩
  · rw [sendAtomic_of_failed_iff built queued, Store.rows_afterLog_iff, log]
    rw [queue] at queued
    exact ⟨fun rows => ⟨fun _ => rows, fun success => absurd success queued⟩,
      fun agree => agree.failed queued⟩

end Built

end Sending

/-- A Send is all or nothing exactly when it is refused by a check, or its two writes
agree. -/
theorem send_atomic_iff
    (P : Platform) (identity : Identity) (p : SendParams) (draw : Draw) (inputs : Nat → Input)
    (world : World) :
    SendAtomic P identity p draw inputs world ↔
      ((∃ inner wrapper,
          Sends P identity (world.config P) (world.trust P) p draw inner wrapper) →
        WritesAgree world.store draw.id (inputs p.checks) (inputs (p.checks + 1))) := by
  have passed {inner : Inner} {wrapper : Wrapper}
      (sends : Sends P identity (world.config P) (world.trust P) p draw inner wrapper) :
      SendAtomic P identity p draw inputs world ↔
        WritesAgree world.store draw.id (inputs p.checks) (inputs (p.checks + 1)) := by
    obtain ⟨topic, built⟩ := advance_send_of_sends sends inputs
    obtain ⟨_, _, _, _, made⟩ := sends.built
    rw [sendAtomic_built_iff built, build_id made]
  constructor
  · rintro atomic ⟨inner, wrapper, sends⟩
    exact (passed sends).mp atomic
  · intro agree
    rcases send_cases P identity p draw inputs world with
      ⟨message, refused⟩ | ⟨inner, wrapper, sends⟩
    · exact sendAtomic_of_refused refused
    · exact (passed sends).mpr (agree ⟨inner, wrapper, sends⟩)

/-- A message to Bob that is logged but not queued, and one that is queued but not
logged. -/
theorem send_halfway :
    ¬ SendAtomic carolBench.platform Bench.me
        { recipient := "bob", ctype := CTYPE_TEXT, body := "hi" } ⟨"x", "t0", [], [], []⟩
        (fun index => if index = 2 then { fault := some 0 } else {}) Bench.world ∧
      ¬ SendAtomic carolBench.platform Bench.me
        { recipient := "bob", ctype := CTYPE_TEXT, body := "hi" } ⟨"x", "t0", [], [], []⟩
        (fun index => if index = 1 then { fault := some 0 } else {}) Bench.world := by
  constructor
  · intro atomic
    have rows := (atomic.refused _ rfl).1
    exact absurd rows (by decide)
  · intro atomic
    obtain ⟨row, member, -⟩ := (atomic.sent "x" "pending" rfl).1
    exact absurd member (by decide +revert)

end AgentMsg
