import AgentMsg.Cursors
import AgentMsg.World
import Mathlib.Data.List.Induction

/-!
# Draining the queue

One client of a consumer reads a batch, acknowledges its last message, and reads again,
while anything else happens to the store except that the consumer is acknowledged by
someone else.  What was returned covers the cursor at all times.
-/

namespace AgentMsg

/-! ## The client and the store -/

namespace Drain

/-- The store, what the client has begun, and the concatenation of the returned batches. -/
structure State where
  store : Store
  fetch : Option Fetch := none
  returned : List StoredMsg := []

/-- A step of the client or of anyone else; only the client acknowledges its consumer. -/
inductive Move (consumer : String) where
  | readCursor (limit : Int)
  | select
  | ack (now : String)
  | beside (operation : Store.Op) (other : ∀ seq now, operation ≠ .ack consumer seq now)

variable {consumer : String}

/-- A step that is not the client's turn does nothing. -/
def step (state : State) : Move consumer → State
  | .readCursor limit =>
      match state.fetch with
      | none =>
          { state with fetch := some (.selecting (state.store.cursor consumer) limit) }
      | _ => state
  | .select =>
      match state.fetch with
      | some (.selecting after limit) =>
          let batch := state.store.selectAfter after limit
          { state with fetch := Fetch.ofBatch batch, returned := state.returned ++ batch }
      | _ => state
  | .ack now =>
      match state.fetch with
      | some (.acking seq) =>
          { state with store := state.store.ack consumer seq now, fetch := none }
      | _ => state
  | .beside operation _ => { state with store := state.store.apply operation }

def run (start : Store) (moves : List (Move consumer)) : State :=
  Machine.run step { store := start } moves

theorem run_concat (start : Store) (moves : List (Move consumer)) (move : Move consumer) :
    run start (moves ++ [move]) = step (run start moves) move :=
  Machine.run_concat

/-- The row was in the store at some time of the run. -/
def WasStored (start : Store) (moves : List (Move consumer)) (row : Int × MsgRow) : Prop :=
  ∃ earlier later, moves = earlier ++ later ∧ row ∈ (run start earlier).store.messages.rows

/-- The row was evicted before it was returned. -/
def EvictedUnread (start : Store) (moves : List (Move consumer)) (row : Int × MsgRow) : Prop :=
  ∃ earlier operation other later, moves = earlier ++ .beside operation other :: later ∧
    operation.Trims ∧ row ∈ (run start earlier).store.messages.rows ∧
    row ∉ ((run start earlier).store.apply operation).messages.rows ∧
    rowToMsg row ∉ (run start earlier).returned

/-- The client has acknowledged a batch. -/
def HasAcked (start : Store) (moves : List (Move consumer)) : Prop :=
  ∃ earlier now later, moves = earlier ++ .ack now :: later ∧
    ∃ seq, (run start earlier).fetch = some (.acking seq)

/-! ## The calls of the daemon -/

/-- The two steps of a read are the two actions of the daemon's call. -/
theorem readAfterCursor_refines
    (limit : Int) (returned : List StoredMsg) (world : World) (inputs : Nat → Input)
    (succeeds : ∀ index, (inputs index).Succeeds) :
    ∃ batch, (Calls.readAfterCursor consumer limit).exec inputs world = (world, .ok batch) ∧
      step (step { store := world.store, returned } (.readCursor limit : Move consumer))
          (.select : Move consumer) =
        { store := world.store, fetch := Fetch.ofBatch batch, returned := returned ++ batch } := by
  refine ⟨world.store.selectAfter (world.store.cursor consumer) limit, ?_, rfl⟩
  have read : Prog.Meets Input.Succeeds (Calls.readAfterCursor consumer limit) world
      fun final found => final = world ∧
        found = .ok (world.store.selectAfter (world.store.cursor consumer) limit) := by
    refine Prog.meets_bind.mpr (meets_storeQuery_succeeds ?_)
    exact meets_storeQuery_succeeds ⟨rfl, rfl⟩
  obtain ⟨final, found⟩ := Prog.exec_of_meets read succeeds
  exact Prod.ext final found

/-- The step of an acknowledgement is the one action of the daemon's call. -/
theorem ack_refines
    (seq : Int) (returned : List StoredMsg) (world : World) (inputs : Nat → Input)
    (succeeds : ∀ index, (inputs index).Succeeds) :
    ∃ now, step { store := world.store, fetch := some (.acking seq), returned }
        (.ack now : Move consumer) =
      { store := ((Calls.ack consumer seq).exec inputs world).1.store, returned } := by
  have acked : Prog.Meets Input.Succeeds (Calls.ack consumer seq) world
      fun final _ => ∃ now, final.store = world.store.ack consumer seq now :=
    meets_storeCall_succeeds fun now => ⟨now, rfl⟩
  obtain ⟨now, final⟩ := Prog.exec_of_meets acked succeeds
  refine ⟨now, ?_⟩
  rw [final]
  rfl

/-! ## What holds at all times -/

/-- How far the returned messages cover the store. -/
def State.reached (consumer : String) (state : State) : Int :=
  match state.fetch with
  | some (.acking seq) => seq
  | _ => state.store.cursor consumer

structure Invariant (consumer : String) (state : State) : Prop where
  sorted : state.returned.Pairwise fun earlier later => earlier.seq < later.seq
  copies : ∀ msg ∈ state.returned, Store.Copy state.store msg
  bounded : ∀ msg ∈ state.returned, msg.seq ≤ state.reached consumer
  covers : Store.Covers state.store state.returned (state.reached consumer)
  drawn : state.reached consumer ≤ state.store.messages.last
  passed : state.store.cursor consumer ≤ state.reached consumer
  selecting : ∀ after limit, state.fetch = some (.selecting after limit) →
    after = state.store.cursor consumer
  repeated : ∀ first ∈ state.returned, ∀ second ∈ state.returned, first.id = second.id →
    first.seq < second.seq → ∀ row ∈ state.store.messages.rows, row.1 ≠ first.seq

theorem Invariant.start
    {start : Store} (fresh : start.cursors[consumer]? = none) :
    Invariant consumer { store := start } := by
  have zero : start.cursor consumer = 0 := by
    rw [Store.cursor, fresh]
  constructor
  · exact List.Pairwise.nil
  · exact fun msg member => absurd member List.not_mem_nil
  · exact fun msg member => absurd member List.not_mem_nil
  · intro row member _ within
    have positive := start.messages.positive row member
    have bound : row.1 ≤ start.cursor consumer := within
    omega
  · have nonneg := start.messages.nonneg
    have bound : start.cursor consumer ≤ start.messages.last := by omega
    exact bound
  · exact Int.le_refl _
  · intro after limit selecting
    cases selecting
  · exact fun msg member => absurd member List.not_mem_nil

/-- Anything else that happens to the store leaves what was returned as it is. -/
theorem Invariant.beside
    {state : State} (invariant : Invariant consumer state) {operation : Store.Op}
    (other : ∀ seq now, operation ≠ .ack consumer seq now) :
    Invariant consumer { state with store := state.store.apply operation } := by
  have log := state.store.apply_log operation
  have cursor := state.store.cursor_apply other
  have reached : State.reached consumer { state with store := state.store.apply operation } =
      state.reached consumer := by
    simp only [State.reached]
    split
    · rfl
    · exact cursor
  have last := log.last_le
  have drawn := invariant.drawn
  constructor
  · exact invariant.sorted
  · exact fun msg member => (invariant.copies msg member).apply operation
  · intro msg member
    rw [reached]
    exact invariant.bounded msg member
  · rw [reached]
    exact invariant.covers.apply drawn operation
  · rw [reached]
    exact Int.le_trans drawn last
  · rw [reached]
    exact Int.le_trans (Int.le_of_eq cursor) invariant.passed
  · intro after limit selecting
    exact (invariant.selecting after limit selecting).trans cursor.symm
  · intro first firstMember second secondMember same order row stored number
    have bounded := invariant.bounded first firstMember
    obtain ⟨old, oldMember, numbers, _⟩ := log.drawn_row stored (by omega)
    exact invariant.repeated first firstMember second secondMember same order old oldMember
      (numbers.symm.trans number)

/-- The client moves on without a change of the store or of the bound it has reached. -/
theorem Invariant.goesOn
    {state : State} (invariant : Invariant consumer state) (fetch : Option Fetch)
    (reached : State.reached consumer { state with fetch } = state.reached consumer)
    (selecting : ∀ after limit, fetch = some (.selecting after limit) →
      after = state.store.cursor consumer) :
    Invariant consumer { state with fetch } where
  sorted := invariant.sorted
  copies := invariant.copies
  bounded := by
    rw [reached]
    exact invariant.bounded
  covers := by
    rw [reached]
    exact invariant.covers
  drawn := by
    rw [reached]
    exact invariant.drawn
  passed := by
    rw [reached]
    exact invariant.passed
  selecting := selecting
  repeated := invariant.repeated

section Batch

variable {state : State} {after limit : Int}

theorem lt_of_mem_batch
    {msg : StoredMsg} (member : msg ∈ state.store.selectAfter after limit) : after < msg.seq := by
  obtain ⟨row, _, _, newer, rfl⟩ := Store.mem_selectAfter member
  exact newer

/-- A batch is selected after the cursor, which is where the returned messages reach. -/
theorem Invariant.selecting_reached
    (invariant : Invariant consumer state)
    (selecting : state.fetch = some (.selecting after limit)) :
    after = state.store.cursor consumer ∧ state.reached consumer = after := by
  have here : after = state.store.cursor consumer := invariant.selecting after limit selecting
  exact ⟨here, by rw [State.reached, selecting, here]⟩

theorem Invariant.le_of_selecting
    (invariant : Invariant consumer state) (selecting : state.fetch = some (.selecting after limit))
    {msg : StoredMsg} (member : msg ∈ state.returned) : msg.seq ≤ after := by
  have bound := invariant.bounded msg member
  have reached := (invariant.selecting_reached selecting).2
  omega

theorem Invariant.select_sorted
    (invariant : Invariant consumer state)
    (selecting : state.fetch = some (.selecting after limit)) :
    (state.returned ++ state.store.selectAfter after limit).Pairwise
      fun earlier later => earlier.seq < later.seq := by
  refine List.pairwise_append.mpr
    ⟨invariant.sorted, state.store.selectAfter_sorted after limit, ?_⟩
  intro earlier earlierMember later laterMember
  have low := invariant.le_of_selecting selecting earlierMember
  have high := lt_of_mem_batch laterMember
  omega

theorem Invariant.select_copies
    (invariant : Invariant consumer state) :
    ∀ msg ∈ state.returned ++ state.store.selectAfter after limit,
      Store.Copy state.store msg := by
  intro msg member
  rcases List.mem_append.mp member with old | new
  · exact invariant.copies msg old
  · exact .of_selectAfter new

/-- An id that is selected again was returned under a number that is gone. -/
theorem Invariant.select_repeated
    (invariant : Invariant consumer state)
    (selecting : state.fetch = some (.selecting after limit)) :
    ∀ first ∈ state.returned ++ state.store.selectAfter after limit,
      ∀ second ∈ state.returned ++ state.store.selectAfter after limit, first.id = second.id →
        first.seq < second.seq → ∀ row ∈ state.store.messages.rows, row.1 ≠ first.seq := by
  intro first firstMember second secondMember same order row stored number
  rcases List.mem_append.mp secondMember with secondOld | secondNew
  · rcases List.mem_append.mp firstMember with firstOld | firstNew
    · exact invariant.repeated first firstOld second secondOld same order row stored number
    · have low := invariant.le_of_selecting selecting secondOld
      have high := lt_of_mem_batch firstNew
      omega
  · obtain ⟨source, sourceStored, _, _, rfl⟩ := Store.mem_selectAfter secondNew
    have message := (invariant.select_copies first firstMember).current row stored number
    have ids : row.2.id = source.2.id := by
      rw [← message] at same
      exact same
    have identical := state.store.messages.key_injective stored sourceStored ids
    have numbers : row.1 = source.1 := congrArg Prod.fst identical
    have later : first.seq < source.1 := order
    omega

/-- The last message of a batch has the largest number that was returned. -/
theorem Invariant.le_last
    (invariant : Invariant consumer state) (selecting : state.fetch = some (.selecting after limit))
    {last : StoredMsg} (ends : (state.store.selectAfter after limit).getLast? = some last)
    {msg : StoredMsg} (member : msg ∈ state.returned ++ state.store.selectAfter after limit) :
    msg.seq ≤ last.seq := by
  obtain ⟨init, batch⟩ := List.getLast?_eq_some_iff.mp ends
  have sorted := state.store.selectAfter_sorted after limit
  rcases List.mem_append.mp member with old | new
  · have low := invariant.le_of_selecting selecting old
    have newer := lt_of_mem_batch (List.mem_of_getLast? ends)
    omega
  · rw [batch] at sorted new
    rcases List.mem_append.mp new with earlier | final
    · exact Int.le_of_lt ((List.pairwise_append.mp sorted).2.2 msg earlier last
        (List.mem_singleton.mpr rfl))
    · exact Int.le_of_eq (congrArg StoredMsg.seq (List.mem_singleton.mp final))

/-- A batch continues what was returned. -/
theorem Invariant.select
    (invariant : Invariant consumer state)
    (selecting : state.fetch = some (.selecting after limit)) :
    Invariant consumer
      { state with
        fetch := Fetch.ofBatch (state.store.selectAfter after limit)
        returned := state.returned ++ state.store.selectAfter after limit } := by
  obtain ⟨here, reachedHere⟩ := invariant.selecting_reached selecting
  cases ends : (state.store.selectAfter after limit).getLast? with
  | none =>
      have empty : state.store.selectAfter after limit = [] := List.getLast?_eq_none_iff.mp ends
      rw [Fetch.ofBatch_of_none ends, empty, List.append_nil]
      refine invariant.goesOn none (here.symm.trans reachedHere.symm) ?_
      intro _ _ selecting
      cases selecting
  | some last =>
      have lastMember : last ∈ state.store.selectAfter after limit := List.mem_of_getLast? ends
      have newer := lt_of_mem_batch lastMember
      rw [Fetch.ofBatch_of_last ends]
      constructor
      · exact invariant.select_sorted selecting
      · exact invariant.select_copies
      · exact fun msg member => invariant.le_last selecting ends member
      · have covers := invariant.covers
        rw [reachedHere] at covers
        exact covers.select ends
      · obtain ⟨row, stored, _, _, rfl⟩ := Store.mem_selectAfter lastMember
        exact state.store.messages.bounded row stored
      · have order : state.store.cursor consumer ≤ last.seq := by omega
        exact order
      · intro _ _ selecting
        cases selecting
      · exact invariant.select_repeated selecting

end Batch

/-- An acknowledgement moves the cursor to where the returned messages reach. -/
theorem Invariant.ack
    {state : State} (invariant : Invariant consumer state) {seq : Int}
    (acking : state.fetch = some (.acking seq)) (now : String) :
    Invariant consumer
      { state with store := state.store.ack consumer seq now, fetch := none } := by
  have messages := state.store.ack_messages consumer seq now
  have reachedHere : state.reached consumer = seq := by
    rw [State.reached, acking]
  have passed := invariant.passed
  have cursor : (state.store.ack consumer seq now).cursor consumer = seq := by
    rcases state.store.cursor_ack consumer seq now with moved | ⟨kept, further⟩
    · exact moved
    · omega
  have reached : State.reached consumer
      { state with store := state.store.ack consumer seq now, fetch := none } =
        state.reached consumer := cursor.trans reachedHere.symm
  constructor
  · exact invariant.sorted
  · exact fun msg member => (invariant.copies msg member).apply (.ack consumer seq now)
  · rw [reached]
    exact invariant.bounded
  · rw [reached, Store.Covers, messages]
    exact invariant.covers
  · rw [reached, messages]
    exact invariant.drawn
  · exact Int.le_refl _
  · intro _ _ selecting
    cases selecting
  · rw [messages]
    exact invariant.repeated

theorem Invariant.step
    {state : State} (invariant : Invariant consumer state) (move : Move consumer) :
    Invariant consumer (Drain.step state move) := by
  cases move with
  | readCursor limit =>
      simp only [Drain.step]
      split
      · rename_i idle
        refine invariant.goesOn _ ?_ ?_
        · rw [State.reached, State.reached, idle]
        · intro after found selecting
          cases selecting
          rfl
      · exact invariant
  | select =>
      simp only [Drain.step]
      split
      · rename_i after limit selecting
        exact invariant.select selecting
      · exact invariant
  | ack now =>
      simp only [Drain.step]
      split
      · rename_i seq acking
        exact invariant.ack acking now
      · exact invariant
  | beside operation other =>
      exact invariant.beside other

/-! ## Whole runs -/

theorem Invariant.run
    {start : Store} (fresh : start.cursors[consumer]? = none) (moves : List (Move consumer)) :
    Invariant consumer (Drain.run start moves) := by
  induction moves using List.reverseRecOn with
  | nil =>
      exact .start fresh
  | append_singleton moves move inductionHypothesis =>
      rw [run_concat]
      exact inductionHypothesis.step move

/-- What was returned stays returned. -/
theorem returned_step (state : State) (move : Move consumer) :
    ∃ batch, (step state move).returned = state.returned ++ batch := by
  cases move with
  | select =>
      simp only [step]
      split
      · exact ⟨_, rfl⟩
      · exact ⟨[], (List.append_nil _).symm⟩
  | readCursor limit =>
      refine ⟨[], ?_⟩
      rw [List.append_nil, step]
      split <;> rfl
  | ack now =>
      refine ⟨[], ?_⟩
      rw [List.append_nil, step]
      split <;> rfl
  | beside operation other =>
      exact ⟨[], (List.append_nil _).symm⟩

/-- Rows disappear only when an operation deletes them. -/
theorem vanished_step
    {state : State} {move : Move consumer} {row : Int × MsgRow}
    (member : row ∈ state.store.messages.rows) (inbound : row.2.direction = .inbound)
    (gone : row ∉ (step state move).store.messages.rows) :
    ∃ operation other, move = .beside operation other ∧ operation.Trims := by
  cases move with
  | readCursor limit =>
      refine absurd ?_ gone
      simp only [step]
      split <;> exact member
  | select =>
      refine absurd ?_ gone
      simp only [step]
      split <;> exact member
  | ack now =>
      refine absurd ?_ gone
      simp only [step]
      split
      · rw [Store.ack_messages]
        exact member
      · exact member
  | beside operation other =>
      have stays := (state.store.apply_log operation).inbound_stays member inbound
      exact ⟨operation, other, rfl, stays.resolve_left gone⟩

variable {start : Store} {moves : List (Move consumer)}

theorem WasStored.concat
    {move : Move consumer} {row : Int × MsgRow} (was : WasStored start (moves ++ [move]) row) :
    WasStored start moves row ∨ row ∈ (run start (moves ++ [move])).store.messages.rows := by
  obtain ⟨earlier, later, split, member⟩ := was
  rcases List.eq_nil_or_concat later with rfl | ⟨front, last, rfl⟩
  · rw [List.append_nil] at split
    rw [split]
    exact Or.inr member
  · rw [List.concat_eq_append, ← List.append_assoc] at split
    obtain ⟨same, _⟩ := List.append_inj' split rfl
    exact Or.inl ⟨earlier, front, same, member⟩

theorem EvictedUnread.concat
    {row : Int × MsgRow} (evicted : EvictedUnread start moves row) (move : Move consumer) :
    EvictedUnread start (moves ++ [move]) row := by
  obtain ⟨earlier, operation, other, later, rfl, rest⟩ := evicted
  refine ⟨earlier, operation, other, later ++ [move], ?_, rest⟩
  rw [List.append_assoc, List.cons_append]

/-- Every inbound row was returned, is still to be returned, or was evicted unread. -/
theorem accounted
    (fresh : start.cursors[consumer]? = none) (moves : List (Move consumer)) :
    ∀ row, WasStored start moves row → row.2.direction = .inbound →
      rowToMsg row ∈ (run start moves).returned ∨
        (row ∈ (run start moves).store.messages.rows ∧
          (run start moves).store.cursor consumer < row.1) ∨
        EvictedUnread start moves row := by
  have present (moves : List (Move consumer)) (row : Int × MsgRow)
      (member : row ∈ (run start moves).store.messages.rows)
      (inbound : row.2.direction = .inbound) :
      rowToMsg row ∈ (run start moves).returned ∨
        (row ∈ (run start moves).store.messages.rows ∧
          (run start moves).store.cursor consumer < row.1) ∨
        EvictedUnread start moves row := by
    have invariant := Invariant.run fresh moves
    by_cases covered : row.1 ≤ (run start moves).reached consumer
    · exact Or.inl (invariant.covers row member inbound covered)
    · have passed := invariant.passed
      exact Or.inr (Or.inl ⟨member, by omega⟩)
  induction moves using List.reverseRecOn with
  | nil =>
      rintro row ⟨earlier, later, split, member⟩ inbound
      obtain ⟨rfl, rfl⟩ := List.append_eq_nil_iff.mp split.symm
      exact present [] row member inbound
  | append_singleton moves move inductionHypothesis =>
      intro row was inbound
      by_cases member : row ∈ (run start (moves ++ [move])).store.messages.rows
      · exact present _ row member inbound
      · have earlier := was.concat.resolve_right member
        obtain ⟨batch, returned⟩ := returned_step (run start moves) move
        rw [run_concat] at member ⊢
        rcases inductionHypothesis row earlier inbound with old | ⟨stored, _⟩ | evicted
        · rw [returned]
          exact Or.inl (List.mem_append_left batch old)
        · obtain ⟨operation, other, rfl, trims⟩ := vanished_step stored inbound member
          by_cases read : rowToMsg row ∈ (run start moves).returned
          · rw [returned]
            exact Or.inl (List.mem_append_left batch read)
          · exact Or.inr (Or.inr ⟨moves, operation, other, [], rfl, trims, stored, member, read⟩)
        · exact Or.inr (Or.inr (evicted.concat move))

/-- The cursor of the client is there once it has acknowledged a batch. -/
theorem cursor_of_hasAcked
    (moves : List (Move consumer)) (acked : HasAcked start moves) :
    ((run start moves).store.cursors[consumer]?).isSome = true := by
  have stays (state : State) (move : Move consumer)
      (there : (state.store.cursors[consumer]?).isSome = true) :
      ((step state move).store.cursors[consumer]?).isSome = true := by
    cases move with
    | ack now =>
        simp only [step]
        split
        · exact state.store.cursors_ack_isSome consumer _ now
        · exact there
    | beside operation other =>
        have same := state.store.cursors_apply other
        simp only [step]
        rw [same]
        exact there
    | readCursor limit =>
        simp only [step]
        split <;> exact there
    | select =>
        simp only [step]
        split <;> exact there
  obtain ⟨earlier, now, later, rfl, seq, acking⟩ := acked
  induction later using List.reverseRecOn with
  | nil =>
      rw [run_concat]
      simp only [step, acking]
      exact (run start earlier).store.cursors_ack_isSome consumer seq now
  | append_singleton later move inductionHypothesis =>
      rw [← List.cons_append, ← List.append_assoc, run_concat]
      exact stays _ move inductionHypothesis

end Drain

/-- What the client of a queue can rely on. -/
structure Drained (consumer : String) (start : Store) (moves : List (Drain.Move consumer)) :
    Prop where
  ordered : ((Drain.run start moves).returned.map StoredMsg.seq).Pairwise (· < ·)
  once : (Drain.run start moves).returned.Nodup
  /-- An id is returned again only if its row was deleted. -/
  repeated : ∀ first ∈ (Drain.run start moves).returned,
    ∀ second ∈ (Drain.run start moves).returned, first.id = second.id → first.seq < second.seq →
      ∀ row ∈ (Drain.run start moves).store.messages.rows, row.1 ≠ first.seq
  accounted : ∀ row, Drain.WasStored start moves row → row.2.direction = .inbound →
    rowToMsg row ∈ (Drain.run start moves).returned ∨
      (row ∈ (Drain.run start moves).store.messages.rows ∧
        (Drain.run start moves).store.cursor consumer < row.1) ∨
      Drain.EvictedUnread start moves row
  listed : Drain.HasAcked start moves →
    ∃ entry ∈ (Drain.run start moves).store.consumers, entry.consumer = consumer
  unread : ∀ entry ∈ (Drain.run start moves).store.consumers, entry.consumer = consumer →
    ∀ limit < 0,
      entry.unread = ((Drain.run start moves).store.readAfterCursor consumer limit).length

/-- A client that reads and acknowledges gets every message once and in order, whatever
happens to the store meanwhile. -/
theorem queue_drained
    (consumer : String) (start : Store) (fresh : start.cursors[consumer]? = none)
    (moves : List (Drain.Move consumer)) : Drained consumer start moves := by
  have invariant := Drain.Invariant.run fresh moves
  constructor
  · exact List.pairwise_map.mpr invariant.sorted
  · refine invariant.sorted.imp fun order same => ?_
    rw [same] at order
    exact Int.lt_irrefl _ order
  · exact invariant.repeated
  · exact Drain.accounted fresh moves
  · intro acked
    exact Store.mem_consumers_of_isSome (Drain.cursor_of_hasAcked moves acked)
  · rintro entry member rfl limit unlimited
    exact Store.unread_of_mem_consumers member unlimited

/-- A message that arrives for the client. -/
def arriving (id : String) : Store.Op :=
  .insertInbound
    { id, v := PROTOCOL_VERSION, sender := "alice", recipient := "me", ts := "t0", nonce := ""
      ctype := CTYPE_TEXT, body := "" } "chat"

/-- One message is read and acknowledged, and another is stored meanwhile. -/
theorem queue_drained_two :
    Drained "me" {} [.beside (arriving "m1") nofun, .readCursor 1, .select,
      .beside (arriving "m2") nofun, .ack "now", .readCursor 1, .select] :=
  queue_drained "me" {} (by decide) _

end AgentMsg
