import AgentMsg.Cursors
import AgentMsg.Deeds
import AgentMsg.Follow
import AgentMsg.Reference

/-!
# Acknowledgements and the numbers that were assigned

A cursor only moves up, and an acknowledgement moves it to whatever number the client
names.  A number that no row has had yet swallows the messages that are stored under it
later.  Subscriptions only acknowledge rows; requests have to keep to them.
-/

namespace AgentMsg

open Life

/-- A number not above the highest one that a row had in the given states. -/
def Assigned (seen : World → Prop) (seq : Int) : Prop :=
  seq ≤ 0 ∨ ∃ world, seen world ∧ ∃ row ∈ world.store.messages.rows, seq ≤ row.1

section Statements

variable (P : Platform) (identity : Identity) (start : World) (moments : List Moment)

/-- In every state each cursor is at most the highest number assigned so far. -/
def CursorsAssigned : Prop :=
  ∀ taken, taken <+: moments → ∀ consumer,
    Assigned (Reached P identity start taken)
      ((state P identity start taken).store.cursor consumer)

/-- Every acknowledgement that a client asks for and that the store carries out names a
number at most the highest one assigned so far. -/
def AcksAssigned : Prop :=
  ∀ taken index input, taken ++ [.move (.step index input)] <+: moments →
    ∀ consumer seq draw nowSeq,
      (run P identity start taken).threads[index]? =
        some (.request (.ack consumer seq) draw nowSeq,
          Job.thread P identity (.request (.ack consumer seq) draw nowSeq)) →
      input.fault = none → Assigned (Reached P identity start taken) seq

/-- A row that a read of the consumer returns when the limit has room for all rows. -/
def Readable (store : Store) (consumer : String) (row : Int × MsgRow) : Prop :=
  ∀ limit : Int, limit < 0 ∨ store.messages.rows.length ≤ limit →
    rowToMsg row ∈ store.readAfterCursor consumer limit

/-- An inbound message, once it is stored, can be read by every consumer until it is
evicted or the consumer acknowledges it. -/
def ArrivalsReadable : Prop :=
  ∀ taken moment later, taken ++ moment :: later <+: moments → ∀ row : Int × MsgRow,
    row.2.direction = .inbound →
    row ∉ (state P identity start taken).store.messages.rows →
    row ∈ (state P identity start (taken ++ [moment])).store.messages.rows →
    row ∈ (state P identity start (taken ++ moment :: later)).store.messages.rows →
    ∀ consumer,
      Readable (state P identity start (taken ++ moment :: later)).store consumer row ∨
        ∃ middle next rest seq now, later = middle ++ next :: rest ∧ row.1 ≤ seq ∧
          (state P identity start (taken ++ moment :: (middle ++ [next]))).store =
            (state P identity start (taken ++ moment :: middle)).store.ack consumer seq now

end Statements

theorem Assigned.mono
    {seen wider : World → Prop} {seq : Int} (assigned : Assigned seen seq)
    (implies : ∀ world, seen world → wider world) : Assigned wider seq := by
  rcases assigned with low | ⟨world, visited, row, member, le⟩
  · exact Or.inl low
  · exact Or.inr ⟨world, implies world visited, row, member, le⟩

/-! ## Frames in the channels -/

/-- A push puts only its message and a lag notice into a channel. -/
theorem Subscriber.push_queue
    {s pushed : Subscriber} {msg other : StoredMsg} (pushes : s.push msg = some pushed)
    (queued : .message other ∈ pushed.queue) : .message other ∈ s.queue ∨ other = msg := by
  obtain ⟨flushed, flushes, offers⟩ := Option.bind_eq_some_iff.mp pushes
  have second : .message other ∈ flushed.queue ∨ other = msg := by
    unfold offer at offers
    split at offers
    · rename_i sent sends
      cases offers
      rw [trySend_ok sends] at queued
      simpa using queued
    · cases offers
      exact Or.inl queued
    · cases offers
  refine second.imp_left fun early => ?_
  unfold flushLag at flushes
  split at flushes
  · split at flushes
    · rename_i sent sends
      cases flushes
      rw [trySend_ok sends] at early
      simpa using early
    · cases flushes
      exact early
    · cases flushes
  · cases flushes
    exact early

theorem queued_pushToSubscribers
    {subs : List Subscriber} {s : Subscriber} {msg other : StoredMsg}
    (member : s ∈ pushToSubscribers subs msg) (queued : .message other ∈ s.queue) :
    (∃ old ∈ subs, .message other ∈ old.queue) ∨ other = msg := by
  obtain ⟨old, oldMember, pushes⟩ := List.mem_filterMap.mp member
  exact (Subscriber.push_queue pushes queued).imp_left fun early => ⟨old, oldMember, early⟩

section Lives

variable {P : Platform} {identity : Identity} {start : World} {taken moments : List Moment}

theorem Store.number_of_messageBySeq
    {store : Store} {seq : Int} {msg : StoredMsg} (found : store.messageBySeq seq = some msg) :
    ∃ row ∈ store.messages.rows, msg.seq = row.1 := by
  obtain ⟨row, byRowid, rfl⟩ := Option.map_eq_some_iff.mp found
  exact ⟨row, (RowTable.byRowid_eq_some_iff.mp byRowid).1, rfl⟩

/-! ## The threads of acknowledging requests -/

/-- What an acknowledging request does after the store call. -/
def answerAck (P : Platform) (identity : Identity) (seq : Int) (draw : Draw) :
    Except Error Unit → Thread Response
  | .error e => return .error e.text
  | .ok _ => do
      maybeReadReceipt P identity seq draw
      return .ok

/-- The first action of an acknowledging request is the store call, and the rest moves no
cursor. -/
theorem ack_first
    {consumer : String} {seq : Int} {draw : Draw} {nowSeq : Int}
    {update : Input → World → World} {next : Input → World → Thread Unit}
    (initial : .act update next =
      Job.thread P identity (.request (.ack consumer seq) draw nowSeq))
    (input : Input) (world : World) :
    (update input world).store =
        world.store.attempt (.ack consumer seq input.now) input.fault ∧
      Deeds P identity (fun _ => True) .pump (next input world) := by
  have begins : Job.thread P identity (.request (.ack consumer seq) draw nowSeq) =
      Calls.ack consumer seq >>= fun acked => ignore (answerAck P identity seq draw acked) := rfl
  obtain ⟨updates, continues⟩ := Prog.act_eq_call_bind (initial.trans begins) input world
  rw [updates, continues]
  have silent (acked : Except Error Unit) :
      Deeds P identity (fun _ => True) .pump (ignore (answerAck P identity seq draw acked)) := by
    refine deeds_ignore ?_
    cases acked with
    | error e =>
        exact .done
    | ok _ =>
        exact (deeds_maybeReadReceipt seq draw).andThen fun _ => .done
  exact ⟨rfl, silent _⟩

/-- A thread that has not begun, or that moves no cursor any more. -/
def Acknowledging (P : Platform) (identity : Identity) (thread : Job × Thread Unit) : Prop :=
  ∀ consumer seq draw nowSeq, thread.1 = .request (.ack consumer seq) draw nowSeq →
    thread.2 = Job.thread P identity thread.1 ∨
      Deeds P identity (fun _ => True) .pump thread.2

theorem acknowledging_run :
    ∀ thread ∈ (run P identity start taken).threads, Acknowledging P identity thread := by
  induction taken using List.reverseRecOn with
  | nil =>
      simp [run]
  | append_singleton taken moment inductionHypothesis =>
      rw [run_concat]
      cases moment with
      | restart =>
          simp [step]
      | move choice =>
          refine @Pool.forall_threads_run _ _ _ _ _ (Acknowledging P identity)
            (fun _ _ => True) (fun _ _ _ _ _ _ => Or.inl rfl) ?_ [choice]
            (Machine.everyStep_of_forall fun _ _ _ => trivial) inductionHypothesis
          intro pool index input job update next _ _ before consumer seq draw nowSeq same
          dsimp only at same
          subst same
          rcases before consumer seq draw nowSeq rfl with initial | silent
          · exact Or.inr (ack_first initial input pool.shared).2
          · exact Or.inr (Prog.Within.action silent input trivial).2

/-! ## One moment -/

/-- A deed of a job that does not acknowledge leaves the cursors alone. -/
theorem Deed.cursor
    {seen : World → Prop} {job : Job} {before after : World}
    (deed : Deed P identity seen job before after) (consumer : String) :
    after.store.cursor consumer = before.store.cursor consumer ∨
      ∃ seq, job.Acks seen consumer seq ∧ after.store.cursor consumer = seq := by
  cases deed with
  | stores operation acks =>
      by_cases acknowledges : ∃ seq now, operation = .ack consumer seq now
      · obtain ⟨seq, now, rfl⟩ := acknowledges
        rcases before.store.cursor_ack consumer seq now with moved | ⟨kept, _⟩
        · exact Or.inr ⟨seq, acks consumer seq now rfl, moved⟩
        · exact Or.inl kept
      · simp only [not_exists] at acknowledges
        exact Or.inl (before.store.cursor_apply acknowledges)
  | _ =>
      exact Or.inl rfl

/-- A message that is newly in a channel is a row's. -/
theorem Deed.frames
    {seen : World → Prop} {job : Job} {before after : World}
    (deed : Deed P identity seen job before after) {s : Subscriber} {msg : StoredMsg}
    (member : s ∈ after.subscribers) (queued : .message msg ∈ s.queue) :
    (∃ old ∈ before.subscribers, .message msg ∈ old.queue) ∨ Assigned seen msg.seq := by
  cases deed with
  | pushes delivery pushed world seq _ visited found =>
      rcases queued_pushToSubscribers member queued with early | rfl
      · exact Or.inl early
      · obtain ⟨row, stored, number⟩ := Store.number_of_messageBySeq found
        exact Or.inr (Or.inr ⟨world, visited, row, stored, Int.le_of_eq number⟩)
  | serves _ _ _ fewer =>
      exact Or.inl (fewer s member _ queued)
  | _ =>
      exact Or.inl ⟨s, member, queued⟩

/-- What every reached state keeps: the numbers in the channels and the cursors were
assigned. -/
structure Bounded (seen : World → Prop) (world : World) : Prop where
  frames : ∀ s ∈ world.subscribers, ∀ msg, .message msg ∈ s.queue → Assigned seen msg.seq
  cursors : ∀ consumer, Assigned seen (world.store.cursor consumer)

theorem Bounded.mono
    {seen wider : World → Prop} {world : World} (bounded : Bounded seen world)
    (implies : ∀ world, seen world → wider world) : Bounded wider world where
  frames s member msg queued := (bounded.frames s member msg queued).mono implies
  cursors consumer := (bounded.cursors consumer).mono implies

/-- The action of an acknowledging request moves a cursor only when it is the store call
that succeeds. -/
theorem request_moves
    {index : Nat} {input : Input} {consumer owner : String} {seq : Int} {draw : Draw}
    {nowSeq : Int} {update : Input → World → World} {next : Input → World → Thread Unit}
    (located : (run P identity start taken).threads[index]? =
      some (.request (.ack owner seq) draw nowSeq, .act update next)) :
    (update input (state P identity start taken)).store.cursor consumer =
        (state P identity start taken).store.cursor consumer ∨
      .act update next = Job.thread P identity (.request (.ack owner seq) draw nowSeq) ∧
        input.fault = none := by
  rcases acknowledging_run _ (List.mem_of_getElem? located) owner seq draw nowSeq rfl with
    initial | silent
  · cases fault : input.fault with
    | none =>
        exact Or.inr ⟨initial, rfl⟩
    | some writes =>
        have stored := (ack_first initial input (state P identity start taken)).1
        rw [fault] at stored
        rw [stored]
        exact Or.inl rfl
  · rcases Deed.cursor (Prog.Within.action silent input trivial).1 consumer with
      kept | ⟨_, acks, _⟩
    · exact Or.inl kept
    · cases acks

theorem Bounded.after
    {moment : Moment} (assigned : AcksAssigned P identity start moments)
    (isPrefix : taken ++ [moment] <+: moments)
    (all : ∀ world, Reached P identity start taken world →
      Bounded (Reached P identity start taken) world) :
    Bounded (Reached P identity start taken)
      (state P identity start (taken ++ [moment])) := by
  have here := all _ reached_state
  generalize shape : state P identity start (taken ++ [moment]) = after
  have happens : Effect P identity start taken moment after := shape ▸ effect moment
  cases happens with
  | idle =>
      exact here
  | exits =>
      refine ⟨fun s member => ?_, here.cursors⟩
      simp [World.afterExit] at member
  | @acts index input job update next located deed =>
      refine ⟨fun s member msg queued => ?_, fun consumer => ?_⟩
      · rcases deed.frames member queued with ⟨old, oldMember, early⟩ | row
        · exact here.frames old oldMember msg early
        · exact row
      · rcases deed.cursor consumer with kept | ⟨seq, acks, moved⟩
        · rw [kept]
          exact here.cursors consumer
        · rw [moved]
          unfold Job.Acks at acks
          split at acks
          · rename_i owner number _ _
            obtain ⟨rfl, rfl⟩ := acks
            rcases @request_moves _ _ _ _ _ input owner owner _ _ _ _ _ located with
              kept | ⟨initial, succeeds⟩
            · rw [← moved, kept]
              exact here.cursors _
            · rw [initial] at located
              exact assigned taken index input isPrefix _ _ _ _ located succeeds
          · obtain ⟨_, world, s, msg, visited, member, queued, rfl⟩ := acks
            exact (all world visited).frames s member msg queued
          · cases acks

theorem bounded_run
    (initial : ∀ seen, Bounded seen start) (assigned : AcksAssigned P identity start moments)
    (isPrefix : taken <+: moments) :
    ∀ world, Reached P identity start taken world →
      Bounded (Reached P identity start taken) world := by
  induction taken using List.reverseRecOn with
  | nil =>
      rintro world ⟨part, within, rfl⟩
      rw [List.prefix_nil.mp within]
      exact initial _
  | append_singleton taken moment inductionHypothesis =>
      have within : taken <+: taken ++ [moment] := List.prefix_append _ _
      have before := inductionHypothesis (within.trans isPrefix)
      intro world reached
      rcases reached_concat reached with earlier | rfl
      · exact (before world earlier).mono fun _ => reached_mono within
      · exact (Bounded.after assigned isPrefix before).mono fun _ => reached_mono within

/-- The cursors stay within what was assigned exactly when the acknowledgements do. -/
theorem cursorsAssigned_iff (initial : ∀ seen, Bounded seen start) :
    CursorsAssigned P identity start moments ↔ AcksAssigned P identity start moments := by
  constructor
  · intro bounded taken index input isPrefix consumer seq draw nowSeq located succeeds
    have within : taken <+: moments := (List.prefix_append _ _).trans isPrefix
    have stored : (state P identity start (taken ++ [.move (.step index input)])).store =
        (state P identity start taken).store.ack consumer seq input.now := by
      rw [state, run_concat, step, Pool.move, located]
      have attempted : (state P identity start taken).store.attempt
          (.ack consumer seq input.now) input.fault =
          (state P identity start taken).store.ack consumer seq input.now := by
        rw [succeeds]
        rfl
      exact attempted
    rcases (state P identity start taken).store.cursor_ack consumer seq input.now with
      moved | ⟨_, further⟩
    · have after := bounded _ isPrefix consumer
      rw [stored, moved] at after
      rcases after with low | ⟨world, reached, row, member, le⟩
      · exact Or.inl low
      · rcases reached_concat reached with earlier | rfl
        · exact Or.inr ⟨world, earlier, row, member, le⟩
        · rw [stored, Store.ack_messages] at member
          exact Or.inr ⟨_, reached_state, row, member, le⟩
    · rcases bounded _ within consumer with low | ⟨world, reached, row, member, le⟩
      · exact Or.inl (Int.le_trans further low)
      · exact Or.inr ⟨world, reached, row, member, Int.le_trans further le⟩
  · intro assigned taken isPrefix consumer
    exact (bounded_run initial assigned isPrefix _ reached_state).cursors consumer

/-! ## Messages that arrive later -/

theorem reached_last_le {world : World} (reached : Reached P identity start taken world) :
    world.store.messages.last ≤ (state P identity start taken).store.messages.last := by
  induction taken using List.reverseRecOn with
  | nil =>
      obtain ⟨part, within, rfl⟩ := reached
      have none := List.prefix_nil.mp within
      subst none
      exact Int.le_refl _
  | append_singleton taken moment inductionHypothesis =>
      rcases reached_concat reached with earlier | rfl
      · refine Int.le_trans (inductionHypothesis earlier) ?_
        rcases store_of_effect (effect moment) with same | ⟨operation, applied⟩
        · exact Int.le_of_eq (congrArg (·.messages.last) same.symm)
        · rw [applied]
          exact (Store.apply_log _ operation).last_le
      · exact Int.le_refl _

/-- What was assigned lies below the numbers that are drawn next. -/
theorem Assigned.le_last
    {seq : Int} (assigned : Assigned (Reached P identity start taken) seq) :
    seq ≤ (state P identity start taken).store.messages.last := by
  rcases assigned with low | ⟨world, reached, row, member, le⟩
  · exact Int.le_trans low (state P identity start taken).store.messages.nonneg
  · have drawn := world.store.messages.bounded row member
    have last := reached_last_le reached
    omega

theorem readable_of_above
    {store : Store} {consumer : String} {row : Int × MsgRow}
    (member : row ∈ store.messages.rows) (inbound : row.2.direction = .inbound)
    (above : store.cursor consumer < row.1) : Readable store consumer row := by
  intro limit roomy
  have unread : row ∈ store.messages.rows.filter (Store.unreadAfter (store.cursor consumer)) :=
    List.mem_filter.mpr ⟨member, Store.unreadAfter_iff.mpr ⟨inbound, above⟩⟩
  refine List.mem_map_of_mem ?_
  unfold limitRows
  by_cases unlimited : limit < 0
  · rw [if_pos unlimited]
    exact unread
  · have fits : (store.messages.rows.filter
        (Store.unreadAfter (store.cursor consumer))).length ≤ limit.toNat := by
      have fewer := List.length_filter_le (Store.unreadAfter (store.cursor consumer))
        store.messages.rows
      omega
    rw [if_neg unlimited, List.take_of_length_le fits]
    exact unread

/-- A message is stored above every cursor. -/
theorem arrival_above
    {moment : Moment} {row : Int × MsgRow} {consumer : String}
    (assigned : Assigned (Reached P identity start taken)
      ((state P identity start taken).store.cursor consumer))
    (inbound : row.2.direction = .inbound)
    (absent : row ∉ (state P identity start taken).store.messages.rows)
    (arrived : row ∈ (state P identity start (taken ++ [moment])).store.messages.rows) :
    (state P identity start (taken ++ [moment])).store.cursor consumer < row.1 := by
  rcases store_of_effect (effect moment) with same | ⟨operation, applied⟩
  · rw [same] at arrived
    exact absurd arrived absent
  · rw [applied] at arrived ⊢
    rcases (Store.apply_log _ operation).inbound_mem arrived inbound with
      old | ⟨inner, topic, rfl, _, new⟩
    · exact absurd old absent
    · have kept := @Store.cursor_apply consumer (state P identity start taken).store
        (.insertInbound inner topic) (by simp)
      have number : row.1 = (state P identity start taken).store.messages.last + 1 :=
        congrArg Prod.fst new
      have drawn := assigned.le_last
      omega

/-- A cursor below a number passes it only by an acknowledgement. -/
theorem cursor_passes
    {moment : Moment} {later : List Moment} {consumer : String} {number : Int}
    (below : (state P identity start (taken ++ [moment])).store.cursor consumer < number) :
    (state P identity start (taken ++ moment :: later)).store.cursor consumer < number ∨
      ∃ middle next rest seq now, later = middle ++ next :: rest ∧ number ≤ seq ∧
        (state P identity start (taken ++ moment :: (middle ++ [next]))).store =
          (state P identity start (taken ++ moment :: middle)).store.ack consumer seq now := by
  induction later using List.reverseRecOn with
  | nil =>
      exact Or.inl below
  | append_singleton later next inductionHypothesis =>
      rcases inductionHypothesis with still | ⟨middle, other, rest, seq, now, rfl, far, acked⟩
      · have here : taken ++ moment :: (later ++ [next]) =
            (taken ++ moment :: later) ++ [next] := by
          simp
        rcases store_of_effect (@effect P identity start (taken ++ moment :: later) next) with
          same | ⟨operation, applied⟩
        · rw [here, same]
          exact Or.inl still
        · rw [here, applied]
          by_cases acknowledges : ∃ seq now, operation = .ack consumer seq now
          · obtain ⟨seq, now, rfl⟩ := acknowledges
            by_cases far : number ≤ seq
            · refine Or.inr ⟨later, next, [], seq, now, rfl, far, ?_⟩
              rw [here, applied]
              rfl
            · rcases Store.cursor_ack (state P identity start (taken ++ moment :: later)).store
                  consumer seq now with moved | ⟨kept, _⟩
              · rw [Store.apply, moved]
                omega
              · rw [Store.apply, kept]
                exact Or.inl still
          · simp only [not_exists] at acknowledges
            rw [Store.cursor_apply _ acknowledges]
            exact Or.inl still
      · exact Or.inr ⟨middle, other, rest ++ [next], seq, now, by simp, far, acked⟩

theorem arrivalsReadable (bounded : CursorsAssigned P identity start moments) :
    ArrivalsReadable P identity start moments := by
  intro taken moment later isPrefix row inbound absent arrived stored consumer
  have within : taken <+: moments := (List.prefix_append _ _).trans isPrefix
  have above := arrival_above (bounded taken within consumer) inbound absent arrived
  rcases @cursor_passes P identity start taken moment later consumer row.1 above with
    below | acknowledged
  · exact Or.inl (readable_of_above stored inbound below)
  · exact Or.inr acknowledged

end Lives

/-! ## A daemon that starts with an empty store -/

/-- A fresh daemon with its configuration and its trust store. -/
def World.fresh (configFile trustFile : FileState) : World :=
  { configFile, trustFile }

theorem bounded_fresh (configFile trustFile : FileState) (seen : World → Prop) :
    Bounded seen (World.fresh configFile trustFile) where
  frames s member := by
    simp [World.fresh] at member
  cursors consumer := by
    refine Or.inl ?_
    simp [World.fresh, Store.cursor]

/-- Over the whole life of a daemon, with any requests, deliveries and restarts: the
cursors stay within the numbers assigned, and every message that arrives can be read,
exactly when clients acknowledge only numbers that were assigned. -/
theorem acks_swallow_nothing_iff
    (P : Platform) (identity : Identity) (configFile trustFile : FileState)
    (moments : List Moment) :
    (CursorsAssigned P identity (World.fresh configFile trustFile) moments ∧
        ArrivalsReadable P identity (World.fresh configFile trustFile) moments) ↔
      AcksAssigned P identity (World.fresh configFile trustFile) moments := by
  have bounds : CursorsAssigned P identity (World.fresh configFile trustFile) moments ↔
      AcksAssigned P identity (World.fresh configFile trustFile) moments :=
    cursorsAssigned_iff (bounded_fresh configFile trustFile)
  constructor
  · intro holds
    exact bounds.mp holds.1
  · intro assigned
    have bounded := bounds.mpr assigned
    exact ⟨bounded, arrivalsReadable bounded⟩

/-- One acknowledgement of the largest number, before any message has arrived. -/
def acknowledgeFar : List Moment :=
  [.move (.spawn (.request (.ack "me" 9223372036854775807) Reference.draw 0)),
    .move (.step 0 {})]

/-- It moves the cursor to a number that no row has had. -/
theorem ack_swallows :
    ¬ CursorsAssigned (Reference.platform {}) Reference.alice
      (World.fresh .absent .absent) acknowledgeFar := by
  intro bounded
  have assigned := bounded acknowledgeFar List.prefix_rfl "me"
  have stored : (state (Reference.platform {}) Reference.alice (World.fresh .absent .absent)
      acknowledgeFar).store = ({} : Store).ack "me" 9223372036854775807 "" := rfl
  have last := assigned.le_last
  rw [stored] at last
  simp [Store.ack, Store.cursor, RowTable.empty] at last

end AgentMsg
