import AgentMsg.Deeds
import AgentMsg.Log
import AgentMsg.Schema

/-!
# Stored messages are faithful and immutable

A stored row is what the message says, column by column, although the columns are matched
by position; afterwards only the delivery columns of an outbound row change, until the row
is deleted.  Its number is above all numbers drawn before, and is never drawn again.
-/

namespace AgentMsg

open Sql

namespace Store

/-- `message_by_seq`: the selected columns of the row, read back by their positions. -/
def fetchBySeq (store : Store) (seq : Int) : Option StoredMsg :=
  (store.messages.byRowid seq).bind fun row =>
    (select MESSAGES MSG_COLS (columnValues row)).bind readRow

theorem fetchBySeq_eq (store : Store) (seq : Int) :
    store.fetchBySeq seq = store.messageBySeq seq := by
  have read : (fun row : Int × MsgRow =>
      (select MESSAGES MSG_COLS (columnValues row)).bind readRow) =
        fun row => some (rowToMsg row) := by
    funext row
    rw [select_columns, Option.bind_some, readRow_columns]
  rw [fetchBySeq, read, messageBySeq]
  cases store.messages.byRowid seq <;> rfl

/-- The number of the row that a call inserts. -/
def newSeq (store : Store) : Op → Option Int
  | .insertInbound inner topic => (store.insertInbound inner topic).2
  | .insertOutboundLog inner topic =>
      (store.messages.insertOrIgnore (outboundRow inner topic)).2
  | _ => none

/-- The numbers of the rows that are inserted one after the other. -/
def drawn : Store → List Op → List Int
  | _, [] => []
  | store, operation :: rest =>
      (store.newSeq operation).toList ++ drawn (store.apply operation) rest

/-! ## Numbers -/

theorem newSeq_spec
    {store : Store} {operation : Op} {seq : Int} (new : store.newSeq operation = some seq) :
    seq = store.messages.last + 1 ∧ seq ≤ (store.apply operation).messages.last := by
  have inserted (row : MsgRow) (found : (store.messages.insertOrIgnore row).2 = some seq) :
      seq = store.messages.last + 1 := by
    rcases store.messages.insertOrIgnore_cases row with ⟨_, _, none⟩ | ⟨_, _, number⟩
    · rw [none] at found
      cases found
    · rw [number] at found
      exact (Option.some.inj found).symm
  cases operation with
  | insertInbound inner topic =>
      have number := inserted _ new
      have last := store.messages.insertOrIgnore_last (inboundRow inner topic)
      exact ⟨number, number ▸ Int.le_of_eq last.symm⟩
  | insertOutboundLog inner topic =>
      have number := inserted _ new
      have last := store.messages.insertOrIgnore_last (outboundRow inner topic)
      exact ⟨number, number ▸ Int.le_of_eq last.symm⟩
  | _ =>
      cases new

theorem lt_of_mem_drawn
    {store : Store} {operations : List Op} {seq : Int} (member : seq ∈ drawn store operations) :
    store.messages.last < seq := by
  induction operations generalizing store with
  | nil =>
      cases member
  | cons operation rest inductionHypothesis =>
      rcases List.mem_append.mp member with here | later
      · have number := (newSeq_spec (Option.mem_toList.mp here)).1
        omega
      · have above := inductionHypothesis later
        have last := (store.apply_log operation).last_le
        omega

/-- The numbers increase in the order of insertion. -/
theorem drawn_increasing (store : Store) (operations : List Op) :
    (drawn store operations).Pairwise (· < ·) := by
  induction operations generalizing store with
  | nil =>
      exact List.Pairwise.nil
  | cons operation rest inductionHypothesis =>
      refine List.pairwise_append.mpr ⟨?_, inductionHypothesis _, ?_⟩
      · cases store.newSeq operation <;> simp
      · intro seq here later member
        have reached := (newSeq_spec (Option.mem_toList.mp here)).2
        have above := lt_of_mem_drawn member
        omega

/-! ## One row in all later states -/

/-- The rows under a drawn number have the content of the given one, and are it when it is
inbound. -/
structure Keeps (store : Store) (seq : Int) (row : MsgRow) : Prop where
  drawn : seq ≤ store.messages.last
  rows : ∀ stored ∈ store.messages.rows, stored.1 = seq →
    stored.2.content = row.content ∧ (row.direction = .inbound → stored.2 = row)

theorem Keeps.apply
    {store : Store} {seq : Int} {row : MsgRow} (keeps : Keeps store seq row) (operation : Op) :
    Keeps (store.apply operation) seq row := by
  have log := store.apply_log operation
  refine ⟨Int.le_trans keeps.drawn log.last_le, fun stored member number => ?_⟩
  obtain ⟨old, oldMember, same, unchanged⟩ :=
    log.drawn_row member (number ▸ keeps.drawn)
  obtain ⟨content, fixed⟩ := keeps.rows old oldMember (same ▸ number)
  have columns : stored.2.content = old.2.content := by
    rcases log.same_row oldMember member same with kept | ⟨update, _, _, changed⟩
    · rw [kept]
    · rw [changed]
      exact update.content old.2
  refine ⟨columns.trans content, fun inbound => ?_⟩
  have isRow := fixed inbound
  rcases unchanged with kept | outbound
  · rw [kept]
    exact isRow
  · rw [isRow, inbound] at outbound
    cases outbound

theorem Keeps.run
    {store : Store} {seq : Int} {row : MsgRow} (keeps : Keeps store seq row)
    (operations : List Op) : Keeps (store.run operations) seq row :=
  @Machine.run_invariant _ _ Store.apply store (Keeps · seq row) keeps
    (fun _ operation before => Keeps.apply before operation) operations

/-- A number without a row, once it was drawn, never gets one. -/
theorem gone_run
    {store : Store} {seq : Int} (drawn : seq ≤ store.messages.last)
    (gone : ∀ row ∈ store.messages.rows, row.1 ≠ seq) (operations : List Op) :
    ∀ row ∈ (store.run operations).messages.rows, row.1 ≠ seq := by
  have kept : seq ≤ (store.run operations).messages.last ∧
      ∀ row ∈ (store.run operations).messages.rows, row.1 ≠ seq := by
    refine @Machine.run_invariant _ _ apply store (fun middle => seq ≤ middle.messages.last ∧
      ∀ row ∈ middle.messages.rows, row.1 ≠ seq) ⟨drawn, gone⟩
      (fun middle operation before => ?_) operations
    have log := middle.apply_log operation
    refine ⟨Int.le_trans before.1 log.last_le, fun row member number => ?_⟩
    obtain ⟨old, oldMember, same, _⟩ := log.drawn_row member (number ▸ before.1)
    exact before.2 old oldMember (same ▸ number)
  exact kept.2

theorem fetchBySeq_eq_none_iff {store : Store} {seq : Int} :
    store.fetchBySeq seq = none ↔ ∀ row ∈ store.messages.rows, row.1 ≠ seq := by
  rw [fetchBySeq_eq, messageBySeq, Option.map_eq_none_iff, RowTable.byRowid]
  simp [List.find?_eq_none]

theorem fetchBySeq_of_mem
    {store : Store} {row : Int × MsgRow} (member : row ∈ store.messages.rows) :
    store.fetchBySeq row.1 = some (rowToMsg row) := by
  rw [fetchBySeq_eq, messageBySeq, RowTable.byRowid_eq_some_iff.mpr ⟨member, rfl⟩]
  rfl

/-- In every later state the row is what is allowed, or it is gone for good. -/
def Remains (store : Store) (seq : Int) (allowed : StoredMsg → Prop) : Prop :=
  ∀ later, (∃ msg, (store.run later).fetchBySeq seq = some msg ∧ allowed msg) ∨
    ∀ more, (store.run (later ++ more)).fetchBySeq seq = none

theorem Keeps.remains
    {store : Store} {seq : Int} {row : MsgRow} (keeps : Keeps store seq row)
    {allowed : StoredMsg → Prop}
    (allows : ∀ stored : MsgRow, stored.content = row.content →
      (row.direction = .inbound → stored = row) → allowed (rowToMsg (seq, stored))) :
    Remains store seq allowed := by
  intro later
  have here := keeps.run later
  by_cases there : ∃ stored ∈ (store.run later).messages.rows, stored.1 = seq
  · obtain ⟨stored, member, rfl⟩ := there
    obtain ⟨content, fixed⟩ := here.rows stored member rfl
    exact Or.inl ⟨_, fetchBySeq_of_mem member, allows stored.2 content fixed⟩
  · right
    intro more
    have gone : ∀ row ∈ (store.run later).messages.rows, row.1 ≠ seq := fun stored member number =>
      there ⟨stored, member, number⟩
    rw [store.run_append]
    exact fetchBySeq_eq_none_iff.mpr (gone_run here.drawn gone more)

end Store

/-! ## What is stored -/

/-- What a reader is given for an inbound message. -/
def receivedMsg (inner : Inner) (topic : String) (seq : Int) : StoredMsg where
  seq := seq
  id := inner.id
  direction := .inbound
  sender := inner.sender
  recipient := inner.recipient
  topic := topic
  ts := inner.ts
  ctype := inner.ctype
  inReplyTo := inner.inReplyTo
  body := inner.body
  kind := kindStr inner.kind
  correlationId := inner.correlationId
  supersedes := inner.supersedes
  encrypted := inner.enc.isSome
  deliveryState := .none

/-- What a reader is given for a message that was just logged. -/
def loggedMsg (inner : Inner) (topic : String) (seq : Int) : StoredMsg :=
  { receivedMsg inner topic seq with direction := .outbound, deliveryState := .pending }

/-- The same message, except for the delivery columns. -/
def StoredMsg.SameContent (msg other : StoredMsg) : Prop :=
  msg.seq = other.seq ∧ msg.toMsgRow.content = other.toMsgRow.content

/-- The row of a call is stored under a new number as its statement says, is read back as
the given message, and stays so. -/
structure StoredAs (before after : Store) (statement : List Value) (seq : Int)
    (msg : StoredMsg) (allowed : StoredMsg → Prop) : Prop where
  number : before.messages.last < seq
  columns : ∃ row ∈ after.messages.rows, row.1 = seq ∧ columnValues row = statement
  fetched : after.fetchBySeq seq = some msg
  remains : after.Remains seq allowed

private theorem keeps_inserted
    {before : Store} {row : MsgRow} (fresh : before.messages.holds row.id = false) :
    (before.messages.last + 1, row) ∈ (before.messages.insertOrIgnore row).1.rows ∧
      ∀ store : Store, store.messages = (before.messages.insertOrIgnore row).1 →
        store.Keeps (before.messages.last + 1) row := by
  have member : (before.messages.last + 1, row) ∈ (before.messages.insertOrIgnore row).1.rows :=
    RowTable.mem_insertOrIgnore.mpr (Or.inr ⟨fresh, rfl⟩)
  refine ⟨member, fun store table => ⟨?_, fun stored storedMember number => ?_⟩⟩
  · have last := before.messages.insertOrIgnore_last row
    exact Int.le_of_eq (last.symm.trans (congrArg RowTable.last table.symm))
  · rw [table] at storedMember
    have same := RowTable.rowid_injective _ storedMember member number
    rw [same]
    exact ⟨rfl, fun _ => rfl⟩

theorem storedAs_inbound
    {store : Store} {inner : Inner} {topic : String} {seq : Int}
    (inserted : (store.insertInbound inner topic).2 = some seq) :
    StoredAs store (store.insertInbound inner topic).1 (INSERT_INBOUND.row inner topic seq) seq
      (receivedMsg inner topic seq) (· = receivedMsg inner topic seq) := by
  rcases store.messages.insertOrIgnore_cases (Store.inboundRow inner topic) with
    ⟨_, _, none⟩ | ⟨fresh, _, number⟩
  · have found : (store.messages.insertOrIgnore (Store.inboundRow inner topic)).2 = some seq :=
      inserted
    rw [none] at found
    cases found
  · have found : (store.messages.insertOrIgnore (Store.inboundRow inner topic)).2 = some seq :=
      inserted
    rw [number] at found
    cases found
    obtain ⟨member, keeps⟩ := keeps_inserted fresh
    refine ⟨by omega, ⟨_, member, rfl, (inbound_columns inner topic _).symm⟩,
      @Store.fetchBySeq_of_mem _ (_, Store.inboundRow inner topic) member,
      (keeps _ rfl).remains fun stored _ fixed => ?_⟩
    rw [fixed rfl]
    rfl

theorem storedAs_outbound
    {store : Store} {inner : Inner} (topic : String) (fresh : store.containsId inner.id = false) :
    StoredAs store (store.insertOutboundLog inner topic)
      (INSERT_OUTBOUND_LOG.row inner topic (store.messages.last + 1)) (store.messages.last + 1)
      (loggedMsg inner topic (store.messages.last + 1))
      (·.SameContent (loggedMsg inner topic (store.messages.last + 1))) := by
  obtain ⟨member, keeps⟩ := @keeps_inserted store (Store.outboundRow inner topic) fresh
  exact ⟨by omega, ⟨_, member, rfl, (outbound_columns inner topic _).symm⟩,
    @Store.fetchBySeq_of_mem _ (_, Store.outboundRow inner topic) member,
    (keeps _ rfl).remains fun stored content _ => ⟨rfl, content⟩⟩

/-! ## Every run of the daemon is a run of calls -/

theorem Life.store_run
    {P : Platform} {identity : Identity} {start : World} (taken later : List Life.Moment) :
    ∃ operations, (Life.state P identity start (taken ++ later)).store =
      (Life.state P identity start taken).store.run operations := by
  induction later using List.reverseRecOn with
  | nil =>
      exact ⟨[], by rw [List.append_nil]; rfl⟩
  | append_singleton later moment inductionHypothesis =>
      obtain ⟨operations, ran⟩ := inductionHypothesis
      rw [← List.append_assoc]
      rcases Life.store_of_effect (Life.effect moment) with same | ⟨operation, applied⟩
      · exact ⟨operations, same.trans ran⟩
      · refine ⟨operations ++ [operation], ?_⟩
        rw [applied, ran]
        exact Machine.run_concat.symm

/-- In every store, for every message: what an insertion stores is the message, field by
field, nothing changes it later but the delivery columns of an outbound row, and the
numbers increase and are never used again.  The later states are those after any calls of
any threads, which every life of a daemon consists of. -/
theorem stored_rows_faithful (store : Store) (inner : Inner) (topic : String) :
    (∀ seq, (store.insertInbound inner topic).2 = some seq →
      StoredAs store (store.insertInbound inner topic).1 (INSERT_INBOUND.row inner topic seq) seq
        (receivedMsg inner topic seq) (· = receivedMsg inner topic seq)) ∧
    (store.containsId inner.id = false →
      StoredAs store (store.insertOutboundLog inner topic)
        (INSERT_OUTBOUND_LOG.row inner topic (store.messages.last + 1)) (store.messages.last + 1)
        (loggedMsg inner topic (store.messages.last + 1))
        (·.SameContent (loggedMsg inner topic (store.messages.last + 1)))) ∧
    (∀ operations, (store.drawn operations).Pairwise (· < ·) ∧
      (∀ seq ∈ store.drawn operations, store.messages.last < seq) ∧
      ∀ seq, seq ≤ store.messages.last → store.fetchBySeq seq = none →
        (store.run operations).fetchBySeq seq = none) ∧
    ∀ (P : Platform) (identity : Identity) (start : World) (taken later : List Life.Moment),
      ∃ operations, (Life.state P identity start (taken ++ later)).store =
        (Life.state P identity start taken).store.run operations := by
  refine ⟨fun seq => storedAs_inbound, storedAs_outbound topic, fun operations => ?_,
    fun P identity start => Life.store_run⟩
  refine ⟨store.drawn_increasing operations, fun seq => Store.lt_of_mem_drawn,
    fun seq drawn gone => ?_⟩
  exact Store.fetchBySeq_eq_none_iff.mpr
    (Store.gone_run drawn (Store.fetchBySeq_eq_none_iff.mp gone) operations)

end AgentMsg
