import AgentMsg.Outbox
import AgentMsg.Receipts

/-!
# Messages handed to the broker

Handing a publish to the session only queues it in memory; the broker acknowledges it
later, and a stopped session or process forgets it.  The outbox row is dropped right
after the hand-off, so a message reported as sent may be neither stored nor acknowledged.
It is always one of the two in the runs that drop only acknowledged rows.
-/

namespace AgentMsg

/-- What the clients and the broker have seen. -/
structure Record where
  answers : List Response := []
  acked : List Publish := []
  deriving DecidableEq, Repr

/-- The daemon's state with the record of a run. -/
abbrev Desk := World × Record

/-- What happens beside the jobs of the system. -/
inductive Act where
  | job (started : Job)
  /-- A Send request, whose answer is recorded. -/
  | send (params : SendParams) (draw : Draw)
  /-- The broker acknowledges a request of the live session. -/
  | acknowledge (position : Nat)
  /-- The process exits and is started again. -/
  | exit

section Threads

variable (P : Platform) (identity : Identity)

def Act.thread : Act → Prog Input Desk Unit
  | .job started => (started.thread P identity).lift
  | .send params draw => do
      let response ← (AgentMsg.send P identity params draw).lift
      .call fun _ desk =>
        ((desk.1, { desk.2 with answers := desk.2.answers ++ [response] }), ())
  | .acknowledge position =>
      .call fun _ desk =>
        match desk.1.mqtt with
        | some session =>
            match session.requests[position]? with
            | some publish =>
                if session.connected then
                  ((desk.1, { desk.2 with acked := desk.2.acked ++ [publish] }), ())
                else (desk, ())
            | none => (desk, ())
        | none => (desk, ())
  | .exit => .call fun _ desk => ((desk.1.afterExit, desk.2), ())

abbrev Office := Pool Input Desk Act

def Office.run (start : World) (moves : List (Move Input Act)) : Office :=
  Pool.run (Act.thread P identity) { shared := (start, {}) } moves

/-! ## The property and the condition -/

/-- Every message reported as sent was queued under its id, and is still in the outbox or
acknowledged by the broker. -/
def NoneLost (start : World) (taken : List (Move Input Act)) : Prop :=
  ∀ id state, .sent id state ∈ (Office.run P identity start taken).shared.2.answers →
    ∃ ob : Outbound, ob.id = id ∧
      (∃ earlier, earlier <+: taken ∧
        ob ∈ (Office.run P identity start earlier).shared.1.store.pendingOutbound) ∧
      (ob ∈ (Office.run P identity start taken).shared.1.store.pendingOutbound ∨
        ob.publish ∈ (Office.run P identity start taken).shared.2.acked)

/-- A move that marks a message as delivered finds its outbox row acknowledged. -/
def MarksAcknowledged (office : Office) (choice : Move Input Act) : Prop :=
  ∀ id now, (office.move (Act.thread P identity) choice).shared.1.store =
      office.shared.1.store.markDelivered id now →
    ∀ ob ∈ office.shared.1.store.pendingOutbound, ob.id = id →
      ob.publish ∈ office.shared.2.acked

end Threads

/-! ## One action -/

/-- What a thread knows: the ids it has queued. -/
abbrev Ids := String → Prop

/-- An action changes the store by a store operation, and a thread learns only ids that
are in the outbox. -/
structure QueueRule (ids : Ids) (before after : World) (later : Ids) : Prop where
  store : StoreChange (fun _ => True) before after
  learns : ∀ id, later id → ids id ∨ after.store.outbox.holds id = true

/-- The same over the desk; only an id that the thread knows is reported as sent. -/
structure DeskRule (ids : Ids) (_ : Input) (before after : Desk) (later : Ids) : Prop where
  queue : QueueRule ids before.1 after.1 later
  acked : ∀ publish ∈ before.2.acked, publish ∈ after.2.acked
  answers : ∀ id state, .sent id state ∈ after.2.answers →
    .sent id state ∈ before.2.answers ∨ ids id

theorem QueueRule.keeps
    {ids : Ids} {before after : World} (store : StoreChange (fun _ => True) before after) :
    QueueRule ids before after ids :=
  ⟨store, fun _ => Or.inl⟩

section Sending

variable {P : Platform} {identity : Identity} {ids : Ids}

/-- A thread in which only store operations change the store. -/
abbrev Plain {α : Type} (thread : Thread α) : Prop :=
  Quiet (fun _ => True) (fun _ => True) thread

theorem Plain.queues
    {α : Type} {thread : Thread α} (plain : Plain thread) :
    Prog.Tracks (fun ids (_ : Input) => QueueRule ids) (fun later _ => later = ids) ids thread :=
  (Prog.Within.tracks plain fun _ _ _ change => .keeps change).weaken fun _ _ ends => ends.1

/-- A plain thread before another. -/
theorem Plain.before
    {α β : Type} {thread : Thread α} {rest : α → Thread β} {final : Ids → β → Prop}
    (plain : Plain thread)
    (second : ∀ value,
      Prog.Tracks (fun ids (_ : Input) => QueueRule ids) final ids (rest value)) :
    Prog.Tracks (fun ids (_ : Input) => QueueRule ids) final ids (thread >>= rest) :=
  plain.queues.bind fun _ value same => same ▸ second value

theorem plain_storeCall
    {α : Type} {operation : String → Store.Op} {result : Store → α} :
    Plain (storeCall operation result) :=
  within_storeCall (fun _ => trivial) fun _ _ _ _ => trivial

/-- A successful enqueue leaves the id in the outbox. -/
theorem queues_enqueueOutbound (ob : Outbound) :
    Prog.Tracks (fun ids (_ : Input) => QueueRule ids)
      (fun later (queued : Except Error Unit) => queued = .ok () → later ob.id) ids
      (Calls.enqueueOutbound ob) := by
  refine Prog.Tracks.call fun input world => ?_
  cases fault : input.fault with
  | none =>
      refine ⟨fun id => ids id ∨ id = ob.id, ⟨?_, ?_⟩, fun _ => Or.inr rfl⟩
      · exact Or.inr ⟨.enqueueOutbound ob, trivial, rfl⟩
      · intro id known
        refine known.imp_right fun same => ?_
        rw [same]
        have held := RowTable.holds_insertOrIgnore world.store.outbox ob ob.id
        rw [decide_eq_true rfl, Bool.or_true] at held
        exact held
  | some writes =>
      exact ⟨ids, .keeps (Or.inl rfl), fun queued => by cases queued⟩

/-- Only a message that was queued is reported as sent. -/
abbrev Reported (later : Ids) (response : Response) : Prop :=
  ∀ id state, response = .sent id state → later id

theorem reported_error {ids : Ids} {message : String} : Reported ids (.error message) := by
  intro id state same
  cases same

theorem queues_sendBuilt (topic : String) (inner : Inner) (wrapper : Wrapper) :
    Prog.Tracks (fun ids (_ : Input) => QueueRule ids) Reported ids
      (sendBuilt P topic inner wrapper) := by
  refine Plain.before plain_storeCall fun _ =>
    (queues_enqueueOutbound _).bind fun later queued known => ?_
  split
  · exact .done reported_error
  · refine Plain.before (quiet_publishNow plain_storeCall _ _) fun deliveryState => .done ?_
    intro id state same
    cases same
    exact known rfl

theorem queues_send (p : SendParams) (draw : Draw) :
    Prog.Tracks (fun ids (_ : Input) => QueueRule ids) Reported ids
      (send P identity p draw) := by
  refine Plain.before (quiet_observe _) fun cfg => ?_
  split
  · exact .done reported_error
  · split
    · exact .done reported_error
    · split
      · exact .done reported_error
      · refine Plain.before ?_ fun key => ?_
        · exact (reads_resolveKemKey P _ p).of_reads fun _ => .of_eq rfl
        · split
          · exact .done reported_error
          · split
            · exact .done reported_error
            · exact queues_sendBuilt _ _ _

end Sending

theorem desk_of_queue
    {ids later : Ids} {input : Input} {before after : World} (record : Record)
    (follows : QueueRule ids before after later) :
    DeskRule ids input (before, record) (after, record) later :=
  ⟨follows, fun _ => id, fun _ _ => Or.inl⟩

/-- Every thread of the office follows the rule, knowing nothing at first. -/
theorem tracks_act
    (P : Platform) (identity : Identity) (act : Act) :
    Prog.Tracks DeskRule (fun _ _ => True) (fun _ => False) (act.thread P identity) := by
  cases act with
  | job started =>
      have plain : Plain (started.thread P identity) := by
        refine (confined_thread started).weaken ?_ fun _ _ => trivial
        intro before after _ change
        exact change.imp_right fun ⟨operation, _, changed⟩ => ⟨operation, trivial, changed⟩
      exact (plain.queues.lift fun record follows => desk_of_queue record follows).weaken
        fun _ _ _ => trivial
  | send params draw =>
      refine ((queues_send params draw).lift fun record follows =>
        desk_of_queue record follows).bind fun later response reported => ?_
      refine Prog.Tracks.call fun input desk => ⟨later, ⟨.keeps (Or.inl rfl), ?_, ?_⟩, trivial⟩
      · exact fun publish member => member
      · intro id state member
        rcases List.mem_append.mp member with old | new
        · exact Or.inl old
        · exact Or.inr (reported id state (List.mem_singleton.mp new).symm)
  | acknowledge position =>
      refine Prog.Tracks.call fun input desk => ⟨fun _ => False, ?_, trivial⟩
      have idle : DeskRule (fun _ => False) input desk desk fun _ => False :=
        ⟨.keeps (Or.inl rfl), fun _ => id, fun _ _ => Or.inl⟩
      split
      · split
        · split
          · refine ⟨.keeps (Or.inl rfl), fun publish member => ?_, fun _ _ => Or.inl⟩
            exact List.mem_append_left _ member
          · exact idle
        · exact idle
      · exact idle
  | exit =>
      exact Prog.Tracks.call fun _ _ =>
        ⟨fun _ => False, ⟨.keeps (Or.inl rfl), fun _ => id, fun _ _ => Or.inl⟩, trivial⟩

/-! ## Runs -/

/-- Only the hand-off drops an outbox row. -/
theorem outbox_kept
    (store : Store) (operation : Store.Op) :
    (∀ ob ∈ store.pendingOutbound, ob ∈ (store.apply operation).pendingOutbound) ∨
      ∃ id now, operation = .markDelivered id now := by
  cases operation with
  | markDelivered id now =>
      exact Or.inr ⟨id, now, rfl⟩
  | enqueueOutbound ob =>
      refine Or.inl fun other member => ?_
      obtain ⟨row, stored, rfl⟩ := List.mem_map.mp member
      exact List.mem_map_of_mem (RowTable.mem_insertOrIgnore.mpr (Or.inl stored))
  | insertOutboundLog | markSent =>
      exact Or.inl fun _ member => member
  | _ =>
      refine Or.inl fun other member => ?_
      rw [Store.pendingOutbound, Store.calmOp_outbox]
      · exact member
      · trivial

theorem mem_markDelivered
    {store : Store} {id now : String} {ob : Outbound} (member : ob ∈ store.pendingOutbound)
    (other : ob.id ≠ id) : ob ∈ (store.markDelivered id now).pendingOutbound := by
  obtain ⟨row, stored, rfl⟩ := List.mem_map.mp member
  exact List.mem_map_of_mem
    (RowTable.mem_deleteWhere.mpr ⟨stored, beq_eq_false_iff_ne.mpr other⟩)

section Runs

variable {P : Platform} {identity : Identity} {start : World}

/-- The id was in the outbox at some point of the run. -/
def WasQueued (P : Platform) (identity : Identity) (start : World)
    (taken : List (Move Input Act)) (id : String) : Prop :=
  ∃ ob : Outbound, ob.id = id ∧ ∃ earlier, earlier <+: taken ∧
    ob ∈ (Office.run P identity start earlier).shared.1.store.pendingOutbound

theorem WasQueued.mono
    {taken longer : List (Move Input Act)} {id : String}
    (queued : WasQueued P identity start taken id) (initial : taken <+: longer) :
    WasQueued P identity start longer id := by
  obtain ⟨ob, same, earlier, isPrefix, member⟩ := queued
  exact ⟨ob, same, earlier, isPrefix.trans initial, member⟩

/-- Every id that a thread knows, or that was reported as sent, was queued; and what was
queued is queued or acknowledged. -/
structure Accounted (P : Platform) (identity : Identity) (start : World)
    (taken : List (Move Input Act)) (accounts : Nat → Ids) : Prop where
  known : ∀ index id, accounts index id → WasQueued P identity start taken id
  answers : ∀ id state,
    .sent id state ∈ (Office.run P identity start taken).shared.2.answers →
      WasQueued P identity start taken id
  kept : ∀ earlier, earlier <+: taken →
    ∀ ob ∈ (Office.run P identity start earlier).shared.1.store.pendingOutbound,
      ob ∈ (Office.run P identity start taken).shared.1.store.pendingOutbound ∨
        ob.publish ∈ (Office.run P identity start taken).shared.2.acked

theorem Accounted.step
    {taken : List (Move Input Act)} {choice : Move Input Act} {accounts : Nat → Ids}
    {index : Nat} {input : Input} {later : Ids}
    (accounted : Accounted P identity start taken accounts)
    (acknowledged : MarksAcknowledged P identity (Office.run P identity start taken) choice)
    (follows : DeskRule (accounts index) input (Office.run P identity start taken).shared
      (Office.run P identity start (taken ++ [choice])).shared later) :
    Accounted P identity start (taken ++ [choice]) (Function.update accounts index later) := by
  have longer : taken <+: taken ++ [choice] := List.prefix_append _ _
  have moved : Office.run P identity start (taken ++ [choice]) =
      (Office.run P identity start taken).move (Act.thread P identity) choice := by
    rw [Office.run, Pool.run_append, Pool.run_cons, Pool.run_nil]
    rfl
  refine ⟨?_, ?_, ?_⟩
  · intro position id known
    by_cases here : position = index
    · rw [here, Function.update_self] at known
      rcases follows.queue.learns id known with old | held
      · exact (accounted.known index id old).mono longer
      · obtain ⟨row, member, same⟩ := RowTable.holds_eq_true_iff.mp held
        exact ⟨row.2, same, _, List.prefix_rfl, List.mem_map_of_mem member⟩
    · rw [Function.update_of_ne here] at known
      exact (accounted.known position id known).mono longer
  · intro id state member
    rcases follows.answers id state member with old | known
    · exact (accounted.answers id state old).mono longer
    · exact (accounted.known index id known).mono longer
  · intro earlier isPrefix ob member
    rcases List.prefix_concat_iff.mp isPrefix with rfl | initial
    · exact Or.inl member
    · rcases accounted.kept earlier initial ob member with queued | acked
      · rcases follows.queue.store with same | ⟨operation, _, changed⟩
        · rw [same]
          exact Or.inl queued
        · rw [changed]
          rcases outbox_kept (Office.run P identity start taken).shared.1.store operation with
            stays | ⟨id, now, rfl⟩
          · exact Or.inl (stays ob queued)
          · by_cases own : ob.id = id
            · rw [moved] at changed
              exact Or.inr (follows.acked _ (acknowledged id now changed ob queued own))
            · exact Or.inl (mem_markDelivered queued own)
      · exact Or.inr (follows.acked _ acked)

theorem known_of_blank
    {accounts : Nat → Ids} {index position : Nat} {id : String}
    (known : Function.update accounts index (fun _ => False) position id) :
    accounts position id := by
  by_cases here : position = index
  · rw [here, Function.update_self] at known
    exact known.elim
  · rw [Function.update_of_ne here] at known
    exact known

theorem accounted_nil : Accounted P identity start [] (fun _ _ => False) := by
  refine ⟨fun _ _ known => known.elim, fun id state member => ?_, fun earlier isPrefix => ?_⟩
  · cases member
  · rw [List.prefix_nil.mp isPrefix]
    exact fun ob member => Or.inl member

/-- A move that changes neither the store nor the record. -/
theorem Accounted.same
    {taken : List (Move Input Act)} {choice : Move Input Act} {accounts : Nat → Ids}
    (accounted : Accounted P identity start taken accounts)
    (same : (Office.run P identity start (taken ++ [choice])).shared =
      (Office.run P identity start taken).shared) :
    Accounted P identity start (taken ++ [choice]) accounts := by
  have longer : taken <+: taken ++ [choice] := List.prefix_append _ _
  refine ⟨?_, ?_, ?_⟩
  · exact fun index id known => (accounted.known index id known).mono longer
  · intro id state member
    rw [same] at member
    exact (accounted.answers id state member).mono longer
  · intro earlier isPrefix ob member
    rcases List.prefix_concat_iff.mp isPrefix with rfl | initial
    · exact Or.inl member
    · rw [same]
      exact accounted.kept earlier initial ob member

/-- In every run that marks a message as delivered only after the broker has acknowledged
its publish, every message reported as sent is at all times in the outbox or
acknowledged. -/
theorem sent_messages_kept
    (P : Platform) (identity : Identity) (start : World) (moves : List (Move Input Act))
    (acknowledged : ∀ taken choice, taken ++ [choice] <+: moves →
      MarksAcknowledged P identity (Office.run P identity start taken) choice) :
    ∀ taken, taken <+: moves → NoneLost P identity start taken := by
  intro taken initial
  have condition : ∀ earlier choice, earlier ++ [choice] <+: taken →
      MarksAcknowledged P identity (Office.run P identity start earlier) choice :=
    fun earlier choice isPrefix => acknowledged earlier choice (isPrefix.trans initial)
  have typed : ∀ act, .spawn act ∈ taken →
      Prog.Tracks DeskRule (fun _ _ => True) (fun _ => False) (act.thread P identity) :=
    fun act _ => tracks_act P identity act
  have reached : ∃ accounts, Accounted P identity start taken accounts ∧
      Pool.Tracked DeskRule (fun _ _ => True) (Office.run P identity start taken) accounts := by
    refine Pool.tracked_run typed
      (fun reached accounts => Accounted P identity start reached accounts)
      (fun _ _ => False) accounted_nil ?_ ?_ ?_
    · intro reached act accounts isPrefix accounted
      have same : (Office.run P identity start (reached ++ [.spawn act])).shared =
          (Office.run P identity start reached).shared := by
        rw [Office.run, Pool.run_append]
        rfl
      have kept := accounted.same same
      exact ⟨fun position id known => kept.known position id (known_of_blank known),
        kept.answers, kept.kept⟩
    · intro reached index input act thread accounts later isPrefix accounted _ follows
      exact accounted.step (condition _ _ isPrefix) follows
    · intro reached choice accounts isPrefix accounted idle
      exact accounted.same (congrArg Pool.shared idle)
  obtain ⟨accounts, accounted, _⟩ := reached
  intro id state member
  obtain ⟨ob, same, earlier, isPrefix, queued⟩ := accounted.answers id state member
  exact ⟨ob, same, ⟨earlier, isPrefix, queued⟩, accounted.kept earlier isPrefix ob queued⟩

end Runs

/-! ## A message to Bob -/

/-- The state with a live session. -/
def onlineWorld : World :=
  { Bench.world with mqtt := some { connected := true } }

/-- The message to Bob is sent up to its hand-off to the session. -/
def handOffMoves : List (Move Input Act) :=
  [.spawn (.send { recipient := "bob", ctype := CTYPE_TEXT, body := "hi" }
      ⟨"x", "t0", [], [], []⟩),
    .step 0 {}, .step 0 {}, .step 0 {}, .step 0 {}, .step 0 {}]

/-- It is acknowledged before it is marked and reported. -/
def acknowledgedMoves : List (Move Input Act) :=
  handOffMoves ++ [.spawn (.acknowledge 0), .step 1 {}, .step 0 {}, .step 0 {}]

/-- It is marked and reported, and the session is disconnected. -/
def forgottenMoves : List (Move Input Act) :=
  handOffMoves ++ [.step 0 {}, .step 0 {},
    .spawn (.job (.request .disconnect ⟨"", "", [], [], []⟩ 0)), .step 1 {}]

theorem marks_of_steps
    {P : Platform} {identity : Identity} {start : World} {moves : List (Move Input Act)}
    (steps : ∀ count < moves.length,
      ∀ ob ∈ (Office.run P identity start
        (moves.take count)).shared.1.store.pendingOutbound,
      ob ∈ (Office.run P identity start
          (moves.take (count + 1))).shared.1.store.pendingOutbound ∨
        ob.publish ∈ (Office.run P identity start (moves.take count)).shared.2.acked) :
    ∀ taken choice, taken ++ [choice] <+: moves →
      MarksAcknowledged P identity (Office.run P identity start taken) choice := by
  intro taken choice isPrefix id now marked ob member own
  have short := isPrefix.length_le
  rw [List.length_append, List.length_singleton] at short
  have here : moves.take taken.length = taken :=
    (List.prefix_iff_eq_take.mp ((List.prefix_append _ _).trans isPrefix)).symm
  have next : moves.take (taken.length + 1) = taken ++ [choice] := by
    have whole := List.prefix_iff_eq_take.mp isPrefix
    rw [List.length_append, List.length_singleton] at whole
    exact whole.symm
  have moved : Office.run P identity start (taken ++ [choice]) =
      (Office.run P identity start taken).move (Act.thread P identity) choice := by
    rw [Office.run, Pool.run_append, Pool.run_cons, Pool.run_nil]
    rfl
  have outcome := steps taken.length (by omega)
  rw [here, next, moved, marked] at outcome
  rcases outcome ob member with stays | acked
  · obtain ⟨row, stored, same⟩ := List.mem_map.mp stays
    have different := (RowTable.mem_deleteWhere.mp stored).2
    rw [same, own] at different
    simp at different
  · exact acked

theorem acknowledgedMoves_marks :
    ∀ taken choice, taken ++ [choice] <+: acknowledgedMoves →
      MarksAcknowledged carolBench.platform Bench.me
        (Office.run carolBench.platform Bench.me onlineWorld taken) choice := by
  refine marks_of_steps ?_
  decide

theorem sent_messages_kept_bob :
    NoneLost carolBench.platform Bench.me onlineWorld acknowledgedMoves :=
  sent_messages_kept carolBench.platform Bench.me onlineWorld acknowledgedMoves
    acknowledgedMoves_marks acknowledgedMoves List.prefix_rfl

/-- A message reported as sent is neither in the outbox nor acknowledged. -/
theorem sent_message_lost :
    ¬ ∀ (P : Platform) (identity : Identity) (start : World)
        (moves : List (Move Input Act)), NoneLost P identity start moves := by
  intro none
  have reported : Response.sent "x" "sent" ∈
      (Office.run carolBench.platform Bench.me onlineWorld forgottenMoves).shared.2.answers := by
    decide
  obtain ⟨ob, _, _, queued | acked⟩ :=
    none carolBench.platform Bench.me onlineWorld forgottenMoves "x" "sent" reported
  · have empty : (Office.run carolBench.platform Bench.me onlineWorld
        forgottenMoves).shared.1.store.pendingOutbound = [] := by
      decide
    rw [empty] at queued
    cases queued
  · have nothing : (Office.run carolBench.platform Bench.me onlineWorld
        forgottenMoves).shared.2.acked = [] := by
      decide
    rw [nothing] at acked
    cases acked

end AgentMsg
