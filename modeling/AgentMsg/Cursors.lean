import AgentMsg.Log

/-!
# Cursors and what they pass

A consumer's cursor says that everything up to it was handled.  A list of messages
covers a bound when it holds every stored inbound row up to the bound: the sequence
numbers only grow, so no operation of the store uncovers a bound, and a batch that is
read after a covered bound covers up to its last message.
-/

namespace AgentMsg

/-! ## Batches -/

/-- What a client has begun: it has taken its cursor and selects the rows behind it, or it has
the rows and acknowledges the last of them. -/
inductive Fetch where
  | selecting (after limit : Int)
  | acking (seq : Int)
  deriving DecidableEq, Repr

namespace Fetch

/-- What is left to do with a batch.  An empty one is not acknowledged. -/
def ofBatch (batch : List StoredMsg) : Option Fetch :=
  batch.getLast?.map fun last => .acking last.seq

variable {batch : List StoredMsg}

theorem ofBatch_of_none (ends : batch.getLast? = none) : ofBatch batch = none := by
  rw [ofBatch, ends, Option.map_none]

theorem ofBatch_of_last
    {last : StoredMsg} (ends : batch.getLast? = some last) :
    ofBatch batch = some (.acking last.seq) := by
  rw [ofBatch, ends, Option.map_some]

end Fetch

namespace Store

variable {consumer : String}

/-! ## Which calls move a cursor -/

private theorem cursors_ack_other
    (store : Store) {other : String} (different : other ≠ consumer) (seq : Int) (now : String) :
    (store.ack other seq now).cursors[consumer]? = store.cursors[consumer]? := by
  have inserted :
      (store.cursors.insert other ⟨seq, now⟩)[consumer]? = store.cursors[consumer]? := by
    rw [Std.TreeMap.getElem?_insert, if_neg]
    simpa using different
  unfold ack
  split
  · exact inserted
  · split
    · exact inserted
    · rfl

/-- Only an acknowledgement of the consumer moves its cursor. -/
theorem cursors_apply
    (store : Store) {operation : Op} (other : ∀ seq now, operation ≠ .ack consumer seq now) :
    (store.apply operation).cursors[consumer]? = store.cursors[consumer]? := by
  cases operation with
  | ack owner seq now =>
      have different : owner ≠ consumer := by
        rintro rfl
        exact other seq now rfl
      exact store.cursors_ack_other different seq now
  | upsertPresence agent beacon lastSeen now =>
      simp only [apply, upsertPresence]
      split
      · rfl
      · split <;> rfl
  | seenGrant grantId now =>
      simp only [apply, seenGrant]
      split <;> rfl
  | _ =>
      rfl

theorem cursor_apply
    (store : Store) {operation : Op} (other : ∀ seq now, operation ≠ .ack consumer seq now) :
    (store.apply operation).cursor consumer = store.cursor consumer := by
  rw [cursor, cursors_apply store other, cursor]

/-- An acknowledgement moves the cursor to its number, unless the cursor is further. -/
theorem cursor_ack (store : Store) (consumer : String) (seq : Int) (now : String) :
    (store.ack consumer seq now).cursor consumer = seq ∨
      (store.ack consumer seq now).cursor consumer = store.cursor consumer ∧
        seq ≤ store.cursor consumer := by
  unfold ack
  split
  · exact Or.inl (by simp [cursor])
  · rename_i row found
    by_cases further : seq > row.lastSeq
    · rw [if_pos further]
      exact Or.inl (by simp [cursor])
    · rw [if_neg further]
      have here : store.cursor consumer = row.lastSeq := by
        rw [cursor, found]
      refine Or.inr ⟨rfl, ?_⟩
      omega

theorem cursors_ack_isSome (store : Store) (consumer : String) (seq : Int) (now : String) :
    ((store.ack consumer seq now).cursors[consumer]?).isSome = true := by
  unfold ack
  split
  · simp
  · rename_i row found
    split
    · simp
    · simp [found]

/-! ## The rows a read returns -/

theorem limitRows_prefix {α : Type} (limit : Int) (rows : List α) :
    ∃ rest, rows = limitRows limit rows ++ rest := by
  unfold limitRows
  by_cases unlimited : limit < 0
  · rw [if_pos unlimited]
    exact ⟨[], (List.append_nil rows).symm⟩
  · rw [if_neg unlimited]
    exact ⟨rows.drop limit.toNat, (List.take_append_drop _ rows).symm⟩

variable {store : Store} {after limit : Int}

theorem unreadAfter_iff {row : Int × MsgRow} :
    unreadAfter after row = true ↔ row.2.direction = .inbound ∧ after < row.1 := by
  simp [unreadAfter]

theorem mem_selectAfter
    {msg : StoredMsg} (member : msg ∈ store.selectAfter after limit) :
    ∃ row ∈ store.messages.rows, row.2.direction = .inbound ∧ after < row.1 ∧
      rowToMsg row = msg := by
  obtain ⟨row, limited, rfl⟩ := List.mem_map.mp member
  obtain ⟨rest, split⟩ := limitRows_prefix limit (store.messages.rows.filter (unreadAfter after))
  have unread : row ∈ store.messages.rows.filter (unreadAfter after) := by
    rw [split]
    exact List.mem_append_left rest limited
  obtain ⟨stored, chosen⟩ := List.mem_filter.mp unread
  obtain ⟨inbound, newer⟩ := unreadAfter_iff.mp chosen
  exact ⟨row, stored, inbound, newer, rfl⟩

theorem selectAfter_sorted (store : Store) (after limit : Int) :
    (store.selectAfter after limit).Pairwise fun earlier later => earlier.seq < later.seq := by
  obtain ⟨rest, split⟩ := limitRows_prefix limit (store.messages.rows.filter (unreadAfter after))
  have sorted : (store.messages.rows.filter (unreadAfter after)).Pairwise
      fun earlier later => earlier.1 < later.1 := store.messages.sorted.filter _
  rw [split] at sorted
  exact List.pairwise_map.mpr (List.pairwise_append.mp sorted).1

/-! ## Covered bounds -/

/-- The messages hold every stored inbound row up to the bound. -/
def Covers (store : Store) (returned : List StoredMsg) (bound : Int) : Prop :=
  ∀ row ∈ store.messages.rows, row.2.direction = .inbound → row.1 ≤ bound →
    rowToMsg row ∈ returned

variable {returned : List StoredMsg} {bound : Int}

theorem Covers.more
    (covers : Covers store returned bound) (batch : List StoredMsg) :
    Covers store (returned ++ batch) bound :=
  fun row member inbound within =>
    List.mem_append_left batch (covers row member inbound within)

/-- New rows are numbered behind every bound that was reached. -/
theorem Covers.apply
    (covers : Covers store returned bound) (reached : bound ≤ store.messages.last)
    (operation : Op) : Covers (store.apply operation) returned bound := by
  intro row member inbound within
  rcases (store.apply_log operation).inbound_mem member inbound with
    old | ⟨inner, topic, _, _, new⟩
  · exact covers row old inbound within
  · have number : row.1 = store.messages.last + 1 := congrArg Prod.fst new
    omega

/-- A batch covers up to its last message, if the messages before it covered up to where
it starts. -/
theorem Covers.select
    (covers : Covers store returned after) {last : StoredMsg}
    (ends : (store.selectAfter after limit).getLast? = some last) :
    Covers store (returned ++ store.selectAfter after limit) last.seq := by
  intro row member inbound within
  by_cases old : row.1 ≤ after
  · exact List.mem_append_left _ (covers row member inbound old)
  · have unread : row ∈ store.messages.rows.filter (unreadAfter after) :=
      List.mem_filter.mpr ⟨member, unreadAfter_iff.mpr ⟨inbound, by omega⟩⟩
    have sorted : (store.messages.rows.filter (unreadAfter after)).Pairwise
        fun earlier later => earlier.1 < later.1 := store.messages.sorted.filter _
    obtain ⟨rest, split⟩ := limitRows_prefix limit (store.messages.rows.filter (unreadAfter after))
    rw [split] at unread sorted
    rcases List.mem_append.mp unread with chosen | left
    · exact List.mem_append_right _ (List.mem_map_of_mem chosen)
    · obtain ⟨final, finalMember, rfl⟩ := List.mem_map.mp (List.mem_of_getLast? ends)
      have order := (List.pairwise_append.mp sorted).2.2 final finalMember row left
      have bound : row.1 ≤ final.1 := within
      omega

/-! ## Copies of inbound rows -/

/-- A number that was drawn for an inbound row. -/
structure DrawnInbound (store : Store) (seq : Int) : Prop where
  drawn : seq ≤ store.messages.last
  inbound : ∀ row ∈ store.messages.rows, row.1 = seq → row.2.direction = .inbound

/-- A message read off the store: its row is inbound, and is unchanged while it exists. -/
structure Copy (store : Store) (msg : StoredMsg) : Prop where
  drawn : msg.seq ≤ store.messages.last
  inbound : msg.direction = .inbound
  current : ∀ row ∈ store.messages.rows, row.1 = msg.seq → rowToMsg row = msg

theorem DrawnInbound.apply
    {seq : Int} (numbered : DrawnInbound store seq) (operation : Op) :
    DrawnInbound (store.apply operation) seq := by
  have log := store.apply_log operation
  have drawn := numbered.drawn
  have last := log.last_le
  constructor
  · omega
  · intro row member number
    obtain ⟨old, oldMember, same, kept | outbound⟩ := log.drawn_row member (by omega)
    · rw [kept]
      exact numbered.inbound old oldMember (same.symm.trans number)
    · have inbound := numbered.inbound old oldMember (same.symm.trans number)
      rw [outbound] at inbound
      cases inbound

theorem Copy.numbered {msg : StoredMsg} (copy : Copy store msg) : DrawnInbound store msg.seq where
  drawn := copy.drawn
  inbound := by
    intro row member number
    have inbound := copy.inbound
    rwa [← copy.current row member number] at inbound

theorem Copy.apply
    {msg : StoredMsg} (copy : Copy store msg) (operation : Op) :
    Copy (store.apply operation) msg := by
  have log := store.apply_log operation
  have drawn := copy.drawn
  have last := log.last_le
  constructor
  · omega
  · exact copy.inbound
  · intro row member number
    obtain ⟨old, oldMember, same, kept | outbound⟩ := log.drawn_row member (by omega)
    · rw [kept]
      exact copy.current old oldMember (same.symm.trans number)
    · have inbound := copy.numbered.inbound old oldMember (same.symm.trans number)
      rw [outbound] at inbound
      cases inbound

private theorem Copy.of_row
    {row : Int × MsgRow} (member : row ∈ store.messages.rows)
    (inbound : row.2.direction = .inbound) : Copy store (rowToMsg row) where
  drawn := store.messages.bounded row member
  inbound := inbound
  current := by
    intro other otherMember number
    rw [store.messages.rowid_injective otherMember member number]

theorem Copy.of_selectAfter
    {msg : StoredMsg} (member : msg ∈ store.selectAfter after limit) : Copy store msg := by
  obtain ⟨row, stored, inbound, _, rfl⟩ := mem_selectAfter member
  exact .of_row stored inbound

theorem Copy.of_messageBySeq
    {seq : Int} {msg : StoredMsg} (found : store.messageBySeq seq = some msg)
    (numbered : DrawnInbound store seq) : Copy store msg ∧ msg.seq = seq := by
  obtain ⟨row, byRowid, rfl⟩ := Option.map_eq_some_iff.mp found
  obtain ⟨member, number⟩ := RowTable.byRowid_eq_some_iff.mp byRowid
  exact ⟨.of_row member (numbered.inbound row member number), number⟩

/-! ## The unread count -/

/-- The unread count of a consumer is the length of an unlimited read. -/
theorem unread_of_mem_consumers
    {entry : ConsumerRow} (member : entry ∈ store.consumers) (unlimited : limit < 0) :
    entry.unread = (store.readAfterCursor entry.consumer limit).length := by
  obtain ⟨⟨name, row⟩, listed, rfl⟩ := List.mem_map.mp member
  have found : store.cursors[name]? = some row :=
    Std.TreeMap.mem_toList_iff_getElem?_eq_some.mp listed
  have here : store.cursor name = row.lastSeq := by
    rw [cursor, found]
  simp only [readAfterCursor, selectAfter, limitRows, if_pos unlimited, here, List.length_map]

theorem mem_consumers_of_isSome (found : (store.cursors[consumer]?).isSome = true) :
    ∃ entry ∈ store.consumers, entry.consumer = consumer := by
  obtain ⟨row, present⟩ := Option.isSome_iff_exists.mp found
  have listed := Std.TreeMap.mem_toList_iff_getElem?_eq_some.mpr present
  exact ⟨_, List.mem_map_of_mem listed, rfl⟩

end Store

end AgentMsg
