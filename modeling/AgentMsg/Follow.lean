import AgentMsg.Cursors
import AgentMsg.Daemon
import AgentMsg.Lib.Machine
import Mathlib.Data.List.Nodup

/-!
# Following the queue

A client drains its queue with one read, acknowledges the batch, and opens a stream
whose frames are acknowledged as they are written.  The ingest callback stores a
message, looks the row up again and pushes it to the subscribers.  Between these steps
rows fall through: those that the read left out, those that arrive before the
subscription, and those that find the channel full.
-/

namespace AgentMsg

/-- Push a message to one subscriber; nothing when it is gone. -/
def Subscriber.push (s : Subscriber) (msg : StoredMsg) : Option Subscriber :=
  s.flushLag.bind fun flushed => flushed.offer msg

/-! ## One subscriber among all -/

section Registry

variable {subs : List Subscriber} {subscriber : Subscriber}

/-- A frame that is accepted is the last one of the channel. -/
theorem Subscriber.trySend_ok
    {s sent : Subscriber} {frame : StreamFrame} (sends : s.trySend frame = .ok sent) :
    sent = { s with queue := s.queue ++ [frame] } := by
  unfold trySend at sends
  split at sends
  · cases sends
  · split at sends
    · cases sends
      rfl
    · cases sends

theorem Subscriber.push_id
    {s pushed : Subscriber} {msg : StoredMsg} (pushes : s.push msg = some pushed) :
    pushed.id = s.id := by
  obtain ⟨flushed, flushes, offers⟩ := Option.bind_eq_some_iff.mp pushes
  have first : flushed.id = s.id := by
    unfold flushLag at flushes
    split at flushes
    · split at flushes
      · rename_i sent sends
        cases flushes
        rw [trySend_ok sends]
      · cases flushes
        rfl
      · cases flushes
    · cases flushes
      rfl
  have second : pushed.id = flushed.id := by
    unfold offer at offers
    split at offers
    · rename_i sent sends
      cases offers
      rw [trySend_ok sends]
    · cases offers
      rfl
    · cases offers
  exact second.trans first

/-- A push to all subscribers does to each what a push to it alone does. -/
theorem mem_pushToSubscribers
    (distinct : (subs.map Subscriber.id).Nodup) (member : subscriber ∈ subs) (msg : StoredMsg)
    (later : Subscriber) (id : later.id = subscriber.id) :
    later ∈ pushToSubscribers subs msg ↔ subscriber.push msg = some later := by
  have pushes : later ∈ pushToSubscribers subs msg ↔ ∃ s ∈ subs, s.push msg = some later :=
    List.mem_filterMap
  rw [pushes]
  constructor
  · rintro ⟨other, otherMember, sent⟩
    have same : other = subscriber :=
      List.inj_on_of_nodup_map distinct otherMember member
        ((Subscriber.push_id sent).symm.trans id)
    rwa [same] at sent
  · intro sent
    exact ⟨subscriber, member, sent⟩

/-- Receiving a frame takes the first one of the subscriber with the id. -/
theorem mem_popFrame
    (distinct : (subs.map Subscriber.id).Nodup) (member : subscriber ∈ subs)
    (later : Subscriber) (id : later.id = subscriber.id) :
    later ∈ popFrame subscriber.id subs ↔
      later = { subscriber with queue := subscriber.queue.tail } := by
  rw [popFrame, List.mem_map]
  constructor
  · rintro ⟨other, otherMember, rfl⟩
    have ids : other.id = subscriber.id := by
      by_cases same : other.id = subscriber.id
      · exact same
      · rw [if_neg same] at id
        exact absurd id same
    have same : other = subscriber := List.inj_on_of_nodup_map distinct otherMember member ids
    rw [same, if_pos rfl]
  · rintro rfl
    exact ⟨subscriber, member, if_pos rfl⟩

end Registry

namespace Follow

/-! ## The client, the stream and the ingest -/

/-- A stored message on its way to the subscribers, before and after its row is looked
up. -/
inductive Flight where
  | stored (seq : Int)
  | found (msg : StoredMsg)
  deriving DecidableEq, Repr

def Flight.seq : Flight → Int
  | .stored seq => seq
  | .found msg => msg.seq

/-- What the thread of the subscription does next. -/
inductive Task where
  | receive
  | write (frame : StreamFrame)
  | ack (seq : Int)
  deriving DecidableEq, Repr

inductive Phase where
  | start
  | fetching (fetch : Fetch)
  | drained
  | serving (subscriber : Subscriber) (task : Task)
  | closed
  deriving DecidableEq, Repr

/-- The store, the messages on their way, the client, and what was returned to it. -/
structure State where
  store : Store
  flights : List Flight := []
  phase : Phase := .start
  returned : List StoredMsg := []

/-- A step of the client, of its stream, of the ingest, or of anyone else; nobody else
acknowledges the consumer. -/
inductive Move (consumer : String) where
  | readCursor (limit : Int)
  | select
  | ack (input : Input)
  | subscribe
  | receive
  | write (input : Input)
  | ackFrame (input : Input)
  | insertInbound (inner : Inner) (topic : String)
  | messageBySeq (index : Nat) (input : Input)
  | push (index : Nat)
  | beside (operation : Store.Op) (other : ∀ seq now, operation ≠ .ack consumer seq now)
      (aside : ∀ inner topic, operation ≠ .insertInbound inner topic)

variable {consumer : String}

/-- The client reads once. -/
def Phase.ofFetch : Option Fetch → Phase
  | some fetch => .fetching fetch
  | none => .drained

/-- What a write leaves to do: message frames are acknowledged. -/
def afterWrite : StreamFrame → Task
  | .message msg => .ack msg.seq
  | .lagged _ => .receive

/-- The message a frame carries. -/
def carried : StreamFrame → List StoredMsg
  | .message msg => [msg]
  | .lagged _ => []

/-- The flights after the row of one was looked up: it goes on, or ends there. -/
def lookUp (flights : List Flight) (index : Nat) : Option StoredMsg → List Flight
  | some msg => flights.set index (.found msg)
  | none => flights.eraseIdx index

/-- The subscription after a push. -/
def pushed (msg : StoredMsg) : Phase → Phase
  | .serving subscriber task =>
      match subscriber.push msg with
      | some pushed => .serving pushed task
      | none => .closed
  | phase => phase

/-- A step that the phase of the client does not allow does nothing. -/
def step (state : State) : Move consumer → State
  | .readCursor limit =>
      match state.phase with
      | .start =>
          { state with phase := .fetching (.selecting (state.store.cursor consumer) limit) }
      | _ => state
  | .select =>
      match state.phase with
      | .fetching (.selecting after limit) =>
          let batch := state.store.selectAfter after limit
          { state with
            phase := .ofFetch (Fetch.ofBatch batch), returned := state.returned ++ batch }
      | _ => state
  | .ack input =>
      match state.phase with
      | .fetching (.acking seq) =>
          { state with
            store := state.store.attempt (.ack consumer seq input.now) input.fault
            phase := .drained }
      | _ => state
  | .subscribe =>
      match state.phase with
      | .drained => { state with phase := .serving { id := 0, consumer } .receive }
      | _ => state
  | .receive =>
      match state.phase with
      | .serving subscriber .receive =>
          match subscriber.queue with
          | [] => state
          | frame :: queue =>
              { state with phase := .serving { subscriber with queue } (.write frame) }
      | _ => state
  | .write input =>
      match state.phase with
      | .serving subscriber (.write frame) =>
          if input.accepts then
            { state with
              phase := .serving subscriber (afterWrite frame)
              returned := state.returned ++ carried frame }
          else { state with phase := .closed }
      | _ => state
  | .ackFrame input =>
      match state.phase with
      | .serving subscriber (.ack seq) =>
          { state with
            store := state.store.attempt (.ack consumer seq input.now) input.fault
            phase := .serving subscriber .receive }
      | _ => state
  | .insertInbound inner topic =>
      let inserted := state.store.insertInbound inner topic
      { state with
        store := inserted.1
        flights := state.flights ++ (inserted.2.map Flight.stored).toList }
  | .messageBySeq index input =>
      match state.flights[index]? with
      | some (.stored seq) =>
          { state with
            flights := lookUp state.flights index
              (if input.fault = none then state.store.messageBySeq seq else none) }
      | _ => state
  | .push index =>
      match state.flights[index]? with
      | some (.found msg) =>
          { state with flights := state.flights.eraseIdx index, phase := pushed msg state.phase }
      | _ => state
  | .beside operation _ _ => { state with store := state.store.apply operation }

def run (start : Store) (moves : List (Move consumer)) : State :=
  Machine.run step { store := start } moves

/-- No acknowledged row of the store is missing from what was returned. -/
def NothingSwallowed (consumer : String) (state : State) : Prop :=
  state.store.Covers state.returned (state.store.cursor consumer)

/-! ## The steps that lose nothing -/

/-- The step loses no message: the subscription starts when everything stored was
returned or is on its way, rows are looked up without a fault while it lasts, and pushes
keep the order of the rows and find room in the channel. -/
def LosesNothing (state : State) : Move consumer → Prop
  | .subscribe => state.phase = .drained →
      ∀ row ∈ state.store.messages.rows, row.2.direction = .inbound →
        rowToMsg row ∈ state.returned ∨ row.1 ∈ state.flights.map Flight.seq
  | .messageBySeq _ input => ∀ subscriber task, state.phase = .serving subscriber task →
      input.fault = none
  | .push index => ∀ subscriber task, state.phase = .serving subscriber task →
      index = 0 ∧ subscriber.queue.length < CHANNEL_CAPACITY
  | _ => True

/-! ## Messages on their way -/

/-- The message that was received and not yet written. -/
def inHand : Task → List StoredMsg
  | .write frame => carried frame
  | _ => []

/-- The messages that the subscription has yet to write, in order. -/
def waiting (subscriber : Subscriber) (task : Task) : List StoredMsg :=
  inHand task ++ subscriber.queue.flatMap carried

/-- The numbers of the messages that the client will still get. -/
def line (flights : List Flight) (subscriber : Subscriber) (task : Task) : List Int :=
  (waiting subscriber task).map StoredMsg.seq ++ flights.map Flight.seq

/-- A flight is about an inbound row. -/
def Flight.Sound (store : Store) : Flight → Prop
  | .stored seq => store.DrawnInbound seq
  | .found msg => store.Copy msg

/-- A subscription under which nothing was lost. -/
structure Serving (store : Store) (flights : List Flight) (returned : List StoredMsg)
    (subscriber : Subscriber) (task : Task) : Prop where
  connected : subscriber.connected = true
  undropped : subscriber.dropped = 0
  copies : ∀ msg ∈ waiting subscriber task, store.Copy msg
  sorted : (line flights subscriber task).Pairwise (· < ·)
  accounted : ∀ row ∈ store.messages.rows, row.2.direction = .inbound →
    rowToMsg row ∈ returned ∨ row.1 ∈ line flights subscriber task
  acking : ∀ seq, task = .ack seq →
    seq ≤ store.messages.last ∧ ∀ later ∈ line flights subscriber task, seq < later

/-- What holds besides in a phase of the client. -/
def PhaseHolds (consumer : String) (state : State) : Prop :=
  match state.phase with
  | .fetching (.selecting after _) => after = state.store.cursor consumer
  | .fetching (.acking seq) =>
      state.store.Covers state.returned seq ∧ seq ≤ state.store.messages.last
  | .serving subscriber task =>
      Serving state.store state.flights state.returned subscriber task
  | _ => True

structure Invariant (consumer : String) (state : State) : Prop where
  covers : NothingSwallowed consumer state
  drawn : state.store.cursor consumer ≤ state.store.messages.last
  flights : ∀ flight ∈ state.flights, flight.Sound state.store
  sorted : (state.flights.map Flight.seq).Pairwise (· < ·)
  phase : PhaseHolds consumer state

variable {state : State}

/-! ## When the store changes -/

theorem Flight.Sound.drawn
    {store : Store} {flight : Flight} (sound : flight.Sound store) :
    flight.seq ≤ store.messages.last := by
  cases flight with
  | stored seq =>
      exact Store.DrawnInbound.drawn sound
  | found msg =>
      exact Store.Copy.drawn sound

theorem Flight.Sound.apply
    {store : Store} {flight : Flight} (sound : flight.Sound store) (operation : Store.Op) :
    flight.Sound (store.apply operation) := by
  cases flight with
  | stored seq =>
      exact Store.DrawnInbound.apply sound operation
  | found msg =>
      exact Store.Copy.apply sound operation

variable {store : Store} {flights : List Flight} {returned : List StoredMsg}
  {subscriber : Subscriber} {task : Task}

theorem Serving.apply
    (serving : Serving store flights returned subscriber task) {operation : Store.Op}
    (aside : ∀ inner topic, operation ≠ .insertInbound inner topic) :
    Serving (store.apply operation) flights returned subscriber task := by
  have log := store.apply_log operation
  constructor
  · exact serving.connected
  · exact serving.undropped
  · intro msg member
    exact (serving.copies msg member).apply operation
  · exact serving.sorted
  · intro row member inbound
    rcases log.inbound_mem member inbound with old | ⟨inner, topic, inserts, _⟩
    · exact serving.accounted row old inbound
    · exact absurd inserts (aside inner topic)
  · intro seq acks
    have drawn := serving.acking seq acks
    exact ⟨Int.le_trans drawn.1 log.last_le, drawn.2⟩

theorem Invariant.beside
    (invariant : Invariant consumer state) {operation : Store.Op}
    (other : ∀ seq now, operation ≠ .ack consumer seq now)
    (aside : ∀ inner topic, operation ≠ .insertInbound inner topic) :
    Invariant consumer { state with store := state.store.apply operation } := by
  have log := state.store.apply_log operation
  have cursor := state.store.cursor_apply other
  have drawn := Int.le_trans invariant.drawn log.last_le
  constructor
  · rw [NothingSwallowed, cursor]
    exact invariant.covers.apply invariant.drawn operation
  · rw [← cursor] at drawn
    exact drawn
  · intro flight member
    exact (invariant.flights flight member).apply operation
  · exact invariant.sorted
  · have holds := invariant.phase
    unfold PhaseHolds at holds ⊢
    dsimp only
    split at holds
    · rw [cursor]
      exact holds
    · exact ⟨holds.1.apply holds.2 operation, Int.le_trans holds.2 log.last_le⟩
    · exact holds.apply aside
    · trivial

/-! ## Acknowledgements -/

private theorem attempt_ack (store : Store) (seq : Int) (input : Input) :
    store.attempt (.ack consumer seq input.now) input.fault = store ∨
      store.attempt (.ack consumer seq input.now) input.fault =
        store.ack consumer seq input.now := by
  cases fault : input.fault with
  | none =>
      exact Or.inr rfl
  | some writes =>
      exact Or.inl rfl

/-- An acknowledgement of a number up to which everything was returned swallows nothing. -/
theorem Invariant.acked
    (invariant : Invariant consumer state) {seq : Int}
    (upTo : state.store.Covers state.returned seq) (drawn : seq ≤ state.store.messages.last)
    (input : Input) {phase : Phase}
    (holds : ∀ store : Store, store.messages = state.store.messages →
      PhaseHolds consumer { state with store, phase }) :
    Invariant consumer
      { state with
        store := state.store.attempt (.ack consumer seq input.now) input.fault, phase } := by
  rcases attempt_ack state.store seq input with failed | acked
  · rw [failed]
    exact ⟨invariant.covers, invariant.drawn, invariant.flights, invariant.sorted,
      holds state.store rfl⟩
  · have messages := state.store.ack_messages consumer seq input.now
    rw [acked]
    constructor
    · rw [NothingSwallowed, Store.Covers, messages]
      rcases state.store.cursor_ack consumer seq input.now with moved | ⟨kept, _⟩
      · rw [moved]
        exact upTo
      · rw [kept]
        exact invariant.covers
    · rw [messages]
      rcases state.store.cursor_ack consumer seq input.now with moved | ⟨kept, _⟩
      · rw [moved]
        exact drawn
      · rw [kept]
        exact invariant.drawn
    · intro flight member
      exact (invariant.flights flight member).apply (.ack consumer seq input.now)
    · exact invariant.sorted
    · exact holds _ messages

/-- While a written frame is acknowledged, everything up to it was returned. -/
theorem Serving.upTo
    {seq : Int} (serving : Serving store flights returned subscriber (.ack seq)) :
    store.Covers returned seq := by
  intro row member inbound within
  rcases serving.accounted row member inbound with returned | later
  · exact returned
  · have order := (serving.acking seq rfl).2 row.1 later
    omega

theorem Serving.log
    (serving : Serving store flights returned subscriber task) {later : Store}
    (messages : later.messages = store.messages) :
    Serving later flights returned subscriber task := by
  constructor
  · exact serving.connected
  · exact serving.undropped
  · intro msg member
    have copy := serving.copies msg member
    exact ⟨messages ▸ copy.drawn, copy.inbound, messages ▸ copy.current⟩
  · exact serving.sorted
  · rw [messages]
    exact serving.accounted
  · rw [messages]
    exact serving.acking

/-- The subscription moves on and still has the same messages to write. -/
theorem Serving.retask
    {later : Subscriber} {next : Task}
    (serving : Serving store flights returned subscriber task)
    (same : waiting later next = waiting subscriber task)
    (connected : later.connected = subscriber.connected)
    (dropped : later.dropped = subscriber.dropped) (idle : ∀ seq, next ≠ .ack seq) :
    Serving store flights returned later next := by
  have lines : line flights later next = line flights subscriber task := by
    rw [line, same, line]
  constructor
  · rw [connected]
    exact serving.connected
  · rw [dropped]
    exact serving.undropped
  · rw [same]
    exact serving.copies
  · rw [lines]
    exact serving.sorted
  · rw [lines]
    exact serving.accounted
  · intro seq acks
    exact absurd acks (idle seq)

/-! ## The steps of the client and its stream -/

theorem Invariant.rephase
    (invariant : Invariant consumer state) {phase : Phase}
    (holds : PhaseHolds consumer { state with phase }) :
    Invariant consumer { state with phase } :=
  ⟨invariant.covers, invariant.drawn, invariant.flights, invariant.sorted, holds⟩

theorem Invariant.select
    (invariant : Invariant consumer state) {after limit : Int}
    (selecting : state.phase = .fetching (.selecting after limit)) :
    Invariant consumer
      { state with
        phase := .ofFetch (Fetch.ofBatch (state.store.selectAfter after limit))
        returned := state.returned ++ state.store.selectAfter after limit } := by
  have here : after = state.store.cursor consumer := by
    have holds := invariant.phase
    rw [PhaseHolds, selecting] at holds
    exact holds
  refine ⟨invariant.covers.more _, invariant.drawn, invariant.flights, invariant.sorted, ?_⟩
  cases ends : (state.store.selectAfter after limit).getLast? with
  | none =>
      rw [Fetch.ofBatch_of_none ends]
      trivial
  | some last =>
      have covers : state.store.Covers state.returned after := by
        rw [here]
        exact invariant.covers
      have copy : state.store.Copy last := .of_selectAfter (List.mem_of_getLast? ends)
      rw [Fetch.ofBatch_of_last ends]
      exact ⟨covers.select ends, copy.drawn⟩

theorem Invariant.subscribe
    (invariant : Invariant consumer state)
    (complete : ∀ row ∈ state.store.messages.rows, row.2.direction = .inbound →
      rowToMsg row ∈ state.returned ∨ row.1 ∈ state.flights.map Flight.seq) :
    Invariant consumer
      { state with phase := .serving { id := 0, consumer } .receive } := by
  apply invariant.rephase
  have serving : Serving state.store state.flights state.returned
      { id := 0, consumer } .receive := by
    constructor
    · rfl
    · rfl
    · intro msg member
      cases member
    · exact invariant.sorted
    · exact complete
    · intro seq acks
      cases acks
  exact serving

theorem Serving.written
    {frame : StreamFrame} (serving : Serving store flights returned subscriber (.write frame)) :
    Serving store flights (returned ++ carried frame) subscriber (afterWrite frame) := by
  cases frame with
  | lagged dropped =>
      have same : returned ++ carried (.lagged dropped) = returned :=
        List.append_nil _
      rw [same]
      refine serving.retask rfl rfl rfl fun seq acks => ?_
      cases acks
  | message msg =>
      have sorted := serving.sorted
      have head : line flights subscriber (.write (.message msg)) =
          msg.seq :: line flights subscriber (.ack msg.seq) := rfl
      have member : msg ∈ waiting subscriber (.write (.message msg)) := List.mem_cons_self
      have copy := serving.copies msg member
      rw [head] at sorted
      obtain ⟨first, rest⟩ := List.pairwise_cons.mp sorted
      constructor
      · exact serving.connected
      · exact serving.undropped
      · intro other otherMember
        exact serving.copies other (List.mem_cons_of_mem _ otherMember)
      · exact rest
      · intro row stored inbound
        have accounted := serving.accounted row stored inbound
        rw [head] at accounted
        rcases accounted with returned | inLine
        · exact Or.inl (List.mem_append_left _ returned)
        · rcases List.mem_cons.mp inLine with number | later
          · rw [copy.current row stored number]
            exact Or.inl (List.mem_append_right _ List.mem_cons_self)
          · exact Or.inr later
      · intro seq acks
        cases acks
        exact ⟨copy.drawn, first⟩

theorem Invariant.write
    (invariant : Invariant consumer state) {frame : StreamFrame}
    (phase : state.phase = .serving subscriber (.write frame)) :
    Invariant consumer
      { state with
        phase := .serving subscriber (afterWrite frame)
        returned := state.returned ++ carried frame } := by
  have holds := invariant.phase
  rw [PhaseHolds, phase] at holds
  exact ⟨invariant.covers.more _, invariant.drawn, invariant.flights, invariant.sorted,
    Serving.written holds⟩

/-! ## The steps of the ingest -/

/-- Everything on its way was drawn before. -/
theorem Serving.line_drawn
    (serving : Serving store flights returned subscriber task)
    (sound : ∀ flight ∈ flights, flight.Sound store) :
    ∀ seq ∈ line flights subscriber task, seq ≤ store.messages.last := by
  intro seq member
  rcases List.mem_append.mp member with waits | flies
  · obtain ⟨msg, msgMember, rfl⟩ := List.mem_map.mp waits
    exact (serving.copies msg msgMember).drawn
  · obtain ⟨flight, flightMember, rfl⟩ := List.mem_map.mp flies
    exact (sound flight flightMember).drawn

/-- A new row joins the end of the line. -/
theorem Serving.inserted
    (serving : Serving store flights returned subscriber task)
    (sound : ∀ flight ∈ flights, flight.Sound store) (inner : Inner) (topic : String) :
    Serving (store.insertInbound inner topic).1
      (flights ++ [.stored (store.messages.last + 1)]) returned subscriber task := by
  have lines : line (flights ++ [.stored (store.messages.last + 1)]) subscriber task =
      line flights subscriber task ++ [store.messages.last + 1] := by
    rw [line, line, List.map_append, List.append_assoc]
    rfl
  have drawn := serving.line_drawn sound
  have last := store.messages.insertOrIgnore_last (Store.inboundRow inner topic)
  constructor
  · exact serving.connected
  · exact serving.undropped
  · intro msg member
    exact (serving.copies msg member).apply (.insertInbound inner topic)
  · rw [lines]
    refine List.pairwise_append.mpr ⟨serving.sorted, List.pairwise_singleton _ _, ?_⟩
    intro earlier earlierMember later laterMember
    have bound := drawn earlier earlierMember
    rw [List.mem_singleton.mp laterMember]
    omega
  · intro row member inbound
    rw [lines]
    rcases RowTable.mem_insertOrIgnore.mp member with old | ⟨_, new⟩
    · rcases serving.accounted row old inbound with already | inLine
      · exact Or.inl already
      · exact Or.inr (List.mem_append_left _ inLine)
    · rw [new]
      exact Or.inr (List.mem_append_right _ List.mem_cons_self)
  · intro seq acks
    obtain ⟨seqDrawn, before⟩ := serving.acking seq acks
    have grown : (store.insertInbound inner topic).1.messages.last = store.messages.last + 1 :=
      last
    rw [lines]
    refine ⟨by omega, ?_⟩
    intro later member
    rcases List.mem_append.mp member with inLine | new
    · exact before later inLine
    · rw [List.mem_singleton.mp new]
      omega

/-- An ignored insertion changes nothing but the numbers drawn. -/
theorem Serving.ignored
    (serving : Serving store flights returned subscriber task) {inner : Inner} {topic : String}
    (taken : store.messages.holds inner.id = true) :
    Serving (store.insertInbound inner topic).1 flights returned subscriber task := by
  have rows : (store.insertInbound inner topic).1.messages.rows = store.messages.rows := by
    rw [Store.insertInbound, RowTable.insertOrIgnore_taken taken]
    rfl
  have last := (store.apply_log (.insertInbound inner topic)).last_le
  constructor
  · exact serving.connected
  · exact serving.undropped
  · intro msg member
    exact (serving.copies msg member).apply (.insertInbound inner topic)
  · exact serving.sorted
  · rw [rows]
    exact serving.accounted
  · intro seq acks
    have drawn := serving.acking seq acks
    exact ⟨Int.le_trans drawn.1 last, drawn.2⟩

theorem Invariant.insertInbound
    (invariant : Invariant consumer state) (inner : Inner) (topic : String) :
    Invariant consumer (step state (.insertInbound inner topic : Move consumer)) := by
  have log := state.store.apply_log (.insertInbound inner topic)
  have last := state.store.messages.insertOrIgnore_last (Store.inboundRow inner topic)
  have sound (flight : Flight) (member : flight ∈ state.flights) :
      flight.Sound (state.store.insertInbound inner topic).1 :=
    (invariant.flights flight member).apply (.insertInbound inner topic)
  have covers : (state.store.insertInbound inner topic).1.Covers state.returned
      (state.store.cursor consumer) :=
    invariant.covers.apply invariant.drawn (.insertInbound inner topic)
  have drawn :
      state.store.cursor consumer ≤ (state.store.insertInbound inner topic).1.messages.last :=
    Int.le_trans invariant.drawn log.last_le
  have phase (flights : List Flight)
      (served : ∀ subscriber task,
        Serving state.store state.flights state.returned subscriber task →
        Serving (state.store.insertInbound inner topic).1 flights state.returned subscriber task) :
      PhaseHolds consumer
        { state with store := (state.store.insertInbound inner topic).1, flights } := by
    have holds := invariant.phase
    unfold PhaseHolds at holds ⊢
    dsimp only
    split at holds
    · exact holds
    · exact ⟨holds.1.apply holds.2 (.insertInbound inner topic), Int.le_trans holds.2 log.last_le⟩
    · exact served _ _ holds
    · trivial
  rcases state.store.messages.insertOrIgnore_cases (Store.inboundRow inner topic) with
    ⟨taken, _, result⟩ | ⟨fresh, rows, result⟩
  · have flights : state.flights ++
        ((state.store.insertInbound inner topic).2.map Flight.stored).toList = state.flights := by
      rw [Store.insertInbound, result]
      exact List.append_nil _
    rw [step]
    simp only [flights]
    exact ⟨covers, drawn, sound, invariant.sorted,
      phase state.flights fun _ _ serving => serving.ignored taken⟩
  · have flights : state.flights ++
        ((state.store.insertInbound inner topic).2.map Flight.stored).toList =
          state.flights ++ [.stored (state.store.messages.last + 1)] := by
      rw [Store.insertInbound, result]
      rfl
    rw [step]
    simp only [flights]
    refine ⟨covers, drawn, ?_, ?_, phase _ fun _ _ serving =>
      serving.inserted invariant.flights inner topic⟩
    · intro flight member
      rcases List.mem_append.mp member with old | new
      · exact sound flight old
      · rw [List.mem_singleton.mp new]
        constructor
        · exact Int.le_of_eq last.symm
        · intro row stored number
          rcases RowTable.mem_insertOrIgnore.mp stored with before | ⟨_, value⟩
          · have bounded := state.store.messages.bounded row before
            omega
          · rw [value]
            rfl
    · dsimp only
      rw [List.map_append]
      refine List.pairwise_append.mpr ⟨invariant.sorted, List.pairwise_singleton _ _, ?_⟩
      intro earlier earlierMember later laterMember
      obtain ⟨flight, member, rfl⟩ := List.mem_map.mp earlierMember
      have bound := (invariant.flights flight member).drawn
      rw [List.mem_singleton.mp laterMember, Flight.seq]
      omega

/-- A flight whose row was found keeps its place. -/
private theorem map_seq_set
    {index : Nat} {msg : StoredMsg} (there : flights[index]? = some (.stored msg.seq)) :
    (flights.set index (.found msg)).map Flight.seq = flights.map Flight.seq := by
  have same : (flights.map Flight.seq)[index]? = some msg.seq := by
    rw [List.getElem?_map, there]
    rfl
  obtain ⟨bound, value⟩ := List.getElem?_eq_some_iff.mp same
  calc
    (flights.set index (.found msg)).map Flight.seq =
        (flights.map Flight.seq).set index msg.seq := List.map_set
    _ = (flights.map Flight.seq).set index (flights.map Flight.seq)[index] := by
      rw [value]
    _ = flights.map Flight.seq := List.set_getElem_self bound

/-- The other numbers stay when a flight ends. -/
private theorem mem_eraseIdx_seq
    {index : Nat} {flight : Flight} (there : flights[index]? = some flight) {seq : Int}
    (member : seq ∈ flights.map Flight.seq) (other : seq ≠ flight.seq) :
    seq ∈ (flights.eraseIdx index).map Flight.seq := by
  obtain ⟨found, foundMember, rfl⟩ := List.mem_map.mp member
  obtain ⟨position, located⟩ := List.mem_iff_getElem?.mp foundMember
  have apart : position ≠ index := by
    rintro rfl
    rw [there] at located
    cases located
    exact other rfl
  exact List.mem_map_of_mem (List.mem_eraseIdx_iff_getElem?.mpr ⟨position, apart, located⟩)

/-- The flights may change as long as the line keeps its order and what is not returned. -/
theorem Serving.reline
    (serving : Serving store flights returned subscriber task) {later : List Flight}
    (sublist : (later.map Flight.seq).Sublist (flights.map Flight.seq))
    (kept : ∀ row ∈ store.messages.rows, row.2.direction = .inbound →
      row.1 ∈ flights.map Flight.seq → row.1 ∈ later.map Flight.seq) :
    Serving store later returned subscriber task := by
  have shorter : (line later subscriber task).Sublist (line flights subscriber task) :=
    sublist.append_left _
  constructor
  · exact serving.connected
  · exact serving.undropped
  · exact serving.copies
  · exact serving.sorted.sublist shorter
  · intro row member inbound
    rcases serving.accounted row member inbound with already | inLine
    · exact Or.inl already
    · rcases List.mem_append.mp inLine with waits | flies
      · exact Or.inr (List.mem_append_left _ waits)
      · exact Or.inr (List.mem_append_right _ (kept row member inbound flies))
  · intro seq acks
    obtain ⟨drawn, before⟩ := serving.acking seq acks
    exact ⟨drawn, fun later member => before later (shorter.subset member)⟩

/-- The flights change; outside of a subscription nothing else depends on them. -/
theorem Invariant.fly
    (invariant : Invariant consumer state) {later : List Flight}
    (sound : ∀ flight ∈ later, flight.Sound state.store)
    (sublist : (later.map Flight.seq).Sublist (state.flights.map Flight.seq))
    (served : ∀ subscriber task, state.phase = .serving subscriber task →
      Serving state.store later state.returned subscriber task) :
    Invariant consumer { state with flights := later } := by
  refine ⟨invariant.covers, invariant.drawn, sound, invariant.sorted.sublist sublist, ?_⟩
  have holds := invariant.phase
  unfold PhaseHolds at holds ⊢
  dsimp only
  split at holds
  · exact holds
  · exact holds
  · rename_i subscriber task phase
    exact served subscriber task phase
  · trivial

theorem Invariant.messageBySeq
    (invariant : Invariant consumer state) {index : Nat} {seq : Int} {input : Input}
    (there : state.flights[index]? = some (.stored seq))
    (faultless : ∀ subscriber task, state.phase = .serving subscriber task →
      input.fault = none) :
    Invariant consumer
      { state with
        flights := lookUp state.flights index
          (if input.fault = none then state.store.messageBySeq seq else none) } := by
  have numbered : state.store.DrawnInbound seq :=
    invariant.flights (.stored seq) (List.mem_of_getElem? there)
  have serves {subscriber : Subscriber} {task : Task}
      (phase : state.phase = .serving subscriber task) :
      Serving state.store state.flights state.returned subscriber task := by
    have holds := invariant.phase
    rw [PhaseHolds, phase] at holds
    exact holds
  cases looked : (if input.fault = none then state.store.messageBySeq seq else none) with
  | some msg =>
      have found : state.store.messageBySeq seq = some msg := by
        split at looked
        · exact looked
        · cases looked
      obtain ⟨copy, rfl⟩ := Store.Copy.of_messageBySeq found numbered
      have same := map_seq_set there
      rw [lookUp]
      refine invariant.fly ?_ (by rw [same]) fun subscriber task phase => ?_
      · intro flight member
        rcases List.mem_or_eq_of_mem_set member with old | rfl
        · exact invariant.flights flight old
        · exact copy
      · refine (serves phase).reline (by rw [same]) ?_
        rw [same]
        exact fun _ _ _ member => member
  | none =>
      have shorter := (List.eraseIdx_sublist state.flights index).map Flight.seq
      rw [lookUp]
      refine invariant.fly ?_ shorter fun subscriber task phase => ?_
      · intro flight member
        exact invariant.flights flight (List.mem_of_mem_eraseIdx member)
      · refine (serves phase).reline shorter ?_
        intro row member _ flies
        rw [if_pos (faultless subscriber task phase)] at looked
        apply mem_eraseIdx_seq there flies
        intro number
        have missing : state.store.messages.byRowid seq = some row :=
          RowTable.byRowid_eq_some_iff.mpr ⟨member, number⟩
        rw [Store.messageBySeq, missing] at looked
        cases looked

/-- A message that finds room joins the messages that wait. -/
theorem Serving.pushed
    {msg : StoredMsg} {rest : List Flight}
    (serving : Serving store (.found msg :: rest) returned subscriber task)
    (copy : store.Copy msg) (room : subscriber.queue.length < CHANNEL_CAPACITY) :
    ∃ later, subscriber.push msg = some later ∧ Serving store rest returned later task := by
  have sent : subscriber.push msg =
      some { subscriber with queue := subscriber.queue ++ [.message msg] } := by
    have undropped := serving.undropped
    simp [Subscriber.push, Subscriber.flushLag, Subscriber.offer, Subscriber.trySend, undropped,
      serving.connected, room]
  have waits : waiting { subscriber with queue := subscriber.queue ++ [.message msg] } task =
      waiting subscriber task ++ [msg] := by
    simp [waiting, carried]
  have lines : line rest { subscriber with queue := subscriber.queue ++ [.message msg] } task =
      line (.found msg :: rest) subscriber task := by
    rw [line, waits, line]
    simp [Flight.seq]
  refine ⟨_, sent, ?_⟩
  constructor
  · exact serving.connected
  · exact serving.undropped
  · intro other member
    rw [waits] at member
    rcases List.mem_append.mp member with old | new
    · exact serving.copies other old
    · rw [List.mem_singleton.mp new]
      exact copy
  · rw [lines]
    exact serving.sorted
  · rw [lines]
    exact serving.accounted
  · rw [lines]
    exact serving.acking

private theorem pushed_elsewhere
    {phase : Phase} {msg : StoredMsg}
    (elsewhere : ∀ subscriber task, phase ≠ .serving subscriber task) :
    Follow.pushed msg phase = phase := by
  cases phase with
  | serving subscriber task =>
      exact absurd rfl (elsewhere subscriber task)
  | _ =>
      rfl

theorem Invariant.push
    (invariant : Invariant consumer state) {index : Nat} {msg : StoredMsg}
    (there : state.flights[index]? = some (.found msg))
    (fits : ∀ subscriber task, state.phase = .serving subscriber task →
      index = 0 ∧ subscriber.queue.length < CHANNEL_CAPACITY) :
    Invariant consumer
      { state with
        flights := state.flights.eraseIdx index, phase := Follow.pushed msg state.phase } := by
  have copy : state.store.Copy msg :=
    invariant.flights (.found msg) (List.mem_of_getElem? there)
  have shorter := (List.eraseIdx_sublist state.flights index).map Flight.seq
  have sound (flight : Flight) (member : flight ∈ state.flights.eraseIdx index) :
      flight.Sound state.store := invariant.flights flight (List.mem_of_mem_eraseIdx member)
  by_cases served : ∃ subscriber task, state.phase = .serving subscriber task
  · obtain ⟨subscriber, task, phase⟩ := served
    obtain ⟨rfl, room⟩ := fits subscriber task phase
    obtain ⟨rest, split⟩ : ∃ rest, state.flights = .found msg :: rest := by
      cases listed : state.flights with
      | nil =>
          rw [listed] at there
          cases there
      | cons first rest =>
          rw [listed] at there
          cases there
          exact ⟨rest, rfl⟩
    have holds := invariant.phase
    rw [PhaseHolds, phase] at holds
    dsimp only at holds
    rw [split] at holds
    obtain ⟨later, sent, serving⟩ := holds.pushed copy room
    have next : Follow.pushed msg state.phase = .serving later task := by
      rw [phase, Follow.pushed, sent]
    have rests : state.flights.eraseIdx 0 = rest := by
      rw [split]
      rfl
    rw [next]
    refine ⟨invariant.covers, invariant.drawn, sound, invariant.sorted.sublist shorter, ?_⟩
    rw [PhaseHolds]
    dsimp only
    rw [rests]
    exact serving
  · have elsewhere : ∀ subscriber task, state.phase ≠ .serving subscriber task :=
      fun subscriber task phase => served ⟨subscriber, task, phase⟩
    rw [pushed_elsewhere elsewhere]
    refine invariant.fly sound shorter fun subscriber task phase => ?_
    exact absurd phase (elsewhere subscriber task)

/-! ## Whole runs -/

theorem Invariant.start
    {start : Store} (fresh : start.cursors[consumer]? = none) :
    Invariant consumer { store := start } := by
  have zero : start.cursor consumer = 0 := by
    rw [Store.cursor, fresh]
  have nonneg := start.messages.nonneg
  constructor
  · intro row member _ within
    have positive := start.messages.positive row member
    have bound : row.1 ≤ start.cursor consumer := within
    omega
  · have bound : start.cursor consumer ≤ start.messages.last := by omega
    exact bound
  · exact fun flight member => absurd member List.not_mem_nil
  · exact List.Pairwise.nil
  · trivial

theorem Invariant.step
    (invariant : Invariant consumer state) {move : Move consumer}
    (losesNothing : LosesNothing state move) : Invariant consumer (Follow.step state move) := by
  have holds := invariant.phase
  cases move with
  | readCursor limit =>
      simp only [Follow.step]
      split
      · exact invariant.rephase rfl
      · exact invariant
  | select =>
      simp only [Follow.step]
      split
      · rename_i after limit selecting
        exact invariant.select selecting
      · exact invariant
  | ack input =>
      simp only [Follow.step]
      split
      · rename_i seq acking
        rw [PhaseHolds, acking] at holds
        exact invariant.acked holds.1 holds.2 input fun _ _ => trivial
      · exact invariant
  | subscribe =>
      simp only [Follow.step]
      split
      · rename_i drained
        exact invariant.subscribe (losesNothing drained)
      · exact invariant
  | receive =>
      simp only [Follow.step]
      split
      · rename_i subscriber serving
        rw [PhaseHolds, serving] at holds
        split
        · exact invariant
        · rename_i frame queue queued
          have same : waiting { subscriber with queue } (.write frame) =
              waiting subscriber .receive := by
            simp [waiting, inHand, queued]
          apply invariant.rephase
          refine holds.retask same rfl rfl fun seq acks => ?_
          cases acks
      · exact invariant
  | write input =>
      simp only [Follow.step]
      split
      · rename_i subscriber frame serving
        split
        · exact invariant.write serving
        · exact invariant.rephase trivial
      · exact invariant
  | ackFrame input =>
      simp only [Follow.step]
      split
      · rename_i subscriber seq serving
        rw [PhaseHolds, serving] at holds
        have drawn := (holds.acking seq rfl).1
        refine invariant.acked holds.upTo drawn input fun store messages => ?_
        have next : Serving state.store state.flights state.returned subscriber .receive :=
          holds.retask rfl rfl rfl fun later acks => by cases acks
        exact next.log messages
      · exact invariant
  | insertInbound inner topic =>
      exact invariant.insertInbound inner topic
  | messageBySeq index input =>
      simp only [Follow.step]
      split
      · rename_i seq there
        exact invariant.messageBySeq there losesNothing
      · exact invariant
  | push index =>
      simp only [Follow.step]
      split
      · rename_i msg there
        exact invariant.push there losesNothing
      · exact invariant
  | beside operation other aside =>
      exact invariant.beside other aside

theorem Invariant.run
    {state : State} (invariant : Invariant consumer state) {moves : List (Move consumer)}
    (losesNothing : Machine.EveryStep Follow.step LosesNothing state moves) :
    Invariant consumer (Machine.run Follow.step state moves) :=
  losesNothing.invariant invariant fun _ _ before condition => before.step condition

end Follow

/-- In every run whose steps lose nothing, no state that is reached has an acknowledged
row that was not returned. -/
theorem followed_acks_returned
    (consumer : String) (start : Store) (fresh : start.cursors[consumer]? = none)
    (moves : List (Follow.Move consumer))
    (losesNothing :
      Machine.EveryStep Follow.step Follow.LosesNothing { store := start } moves) :
    ∀ earlier later, moves = earlier ++ later →
      Follow.NothingSwallowed consumer (Follow.run start earlier) := by
  rintro earlier later rfl
  exact (Follow.Invariant.run (.start fresh) losesNothing.initial).covers

/-! ## A row that the read left out -/

namespace Follow

/-- A message that arrives for the client. -/
def arriving (id : String) : Inner :=
  { id, v := PROTOCOL_VERSION, sender := "alice", recipient := "me", ts := "t0", nonce := ""
    ctype := CTYPE_TEXT, body := "" }

/-- The ingest of a message, its callback alone. -/
def ingest (id : String) : List (Move "me") :=
  [.insertInbound (arriving id) "chat", .messageBySeq 0 {}, .push 0]

/-- The client drains the queue and subscribes. -/
def drain (limit : Int) : List (Move "me") :=
  [.readCursor limit, .select, .ack {}, .subscribe]

/-- A frame goes out and is acknowledged. -/
def forward : List (Move "me") :=
  [.receive, .write {}, .ackFrame {}]

end Follow

/-- The read has room for the message that waits, and another one is streamed. -/
theorem followed_acks_returned_roomy :
    Follow.NothingSwallowed "me" (Follow.run {}
      (Follow.ingest "m1" ++ Follow.drain 50 ++ Follow.ingest "m2" ++ Follow.forward)) := by
  refine followed_acks_returned "me" {} (by decide) _ ?_ _ [] (List.append_nil _).symm
  simp only [Follow.ingest, Follow.drain, Follow.forward, List.cons_append, List.nil_append,
    Machine.everyStep_cons_iff]
  refine ⟨trivial, ?_, ?_, trivial, trivial, trivial, ?_, trivial, ?_, ?_, trivial, trivial,
    trivial, Machine.everyStep_nil⟩
  · intro subscriber task serving
    rfl
  · intro subscriber task serving
    cases serving
  · rw [Follow.LosesNothing]
    decide
  · intro subscriber task serving
    rfl
  · intro subscriber task serving
    cases serving
    decide

/-- Two messages wait, the read is limited to one, and the acknowledgement of a third one
that is streamed passes over the second. -/
theorem follow_swallows :
    ¬ ∀ (consumer : String) (start : Store) (moves : List (Follow.Move consumer)),
        start.cursors[consumer]? = none →
        (∀ limit, Follow.Move.readCursor limit ∈ moves → 1 ≤ limit) →
        Follow.NothingSwallowed consumer (Follow.run start moves) := by
  intro delivered
  have swallowed := delivered "me" {}
    (Follow.ingest "m1" ++ Follow.ingest "m2" ++ Follow.drain 1 ++ Follow.ingest "m3" ++
      Follow.forward) (by decide)
    (by
      intro limit member
      have one : limit = 1 := by simpa [Follow.ingest, Follow.drain, Follow.forward] using member
      omega)
  have missing := swallowed (2, Store.inboundRow (Follow.arriving "m2") "chat")
  revert missing
  decide

end AgentMsg
