import AgentMsg.Store

/-!
# What the operations do to the message log

Every operation leaves the log as it is, inserts one row at its end, updates the
delivery columns of one outbound row, or deletes rows.  The results about whole
runs are derived from these four cases.
-/

namespace AgentMsg

namespace Store

/-! ## Deletion -/

theorem deleteFirst_sublist (table : MessageTable) (selected : Int × MsgRow → Bool) (limit : Nat) :
    (table.deleteFirst selected limit).rows.Sublist table.rows :=
  List.filter_sublist

theorem trimLoop_sublist (maxBytes fuel : Nat) (table : MessageTable) :
    (trimLoop maxBytes fuel table).1.rows.Sublist table.rows ∧
      (trimLoop maxBytes fuel table).1.last = table.last := by
  induction fuel generalizing table with
  | zero =>
      exact ⟨List.Sublist.refl _, rfl⟩
  | succ fuel inductionHypothesis =>
      unfold trimLoop
      split
      · exact ⟨List.Sublist.refl _, rfl⟩
      · split
        · exact ⟨List.Sublist.refl _, rfl⟩
        · obtain ⟨sublist, last⟩ := inductionHypothesis (evictOldest table TRIM_BATCH)
          exact ⟨sublist.trans (deleteFirst_sublist _ _ _), last⟩

theorem boundTable_sublist (table : MessageTable) (maxMessages maxBytes : Nat) :
    (boundTable table maxMessages maxBytes).1.rows.Sublist table.rows ∧
      (boundTable table maxMessages maxBytes).1.last = table.last := by
  unfold boundTable
  split
  · obtain ⟨sublist, last⟩ := trimLoop_sublist maxBytes _
      (evictOldest table (table.rows.length - maxMessages))
    exact ⟨sublist.trans (deleteFirst_sublist _ _ _), last⟩
  · exact ⟨List.Sublist.refl _, rfl⟩

theorem boundTableUpTo_sublist (table : MessageTable) (maxMessages maxBytes deletions : Nat) :
    (boundTableUpTo table maxMessages maxBytes deletions).rows.Sublist table.rows ∧
      (boundTableUpTo table maxMessages maxBytes deletions).last = table.last := by
  unfold boundTableUpTo
  split
  · dsimp only
    split
    · exact trimLoop_sublist _ _ _
    · split
      · exact ⟨List.Sublist.refl _, rfl⟩
      · rename_i rest
        obtain ⟨sublist, last⟩ := trimLoop_sublist maxBytes rest
          (evictOldest table (table.rows.length - maxMessages))
        exact ⟨sublist.trans (deleteFirst_sublist _ _ _), last⟩
  · exact ⟨List.Sublist.refl _, rfl⟩

/-- The longer the trim runs, the fewer rows are left. -/
theorem trimLoop_antitone
    (maxBytes : Nat) {fewer more : Nat} (le : fewer ≤ more) (table : MessageTable) :
    (trimLoop maxBytes more table).1.rows.Sublist (trimLoop maxBytes fewer table).1.rows := by
  induction fewer generalizing more table with
  | zero =>
      exact (trimLoop_sublist maxBytes more table).1
  | succ fewer inductionHypothesis =>
      obtain ⟨rest, rfl⟩ : ∃ rest, more = rest + 1 := ⟨more - 1, by omega⟩
      unfold trimLoop
      split
      · exact List.Sublist.refl _
      · split
        · exact List.Sublist.refl _
        · exact inductionHypothesis (by omega) (evictOldest table TRIM_BATCH)

/-- A round that deletes rows makes the table shorter. -/
theorem length_evictOldest_lt
    {table : MessageTable} {count : Nat} (some : evictCount table count ≠ 0) :
    (evictOldest table count).rows.length < table.rows.length := by
  have length := table.length_deleteFirst (fun row => evictable row.2) count
  rw [evictCount] at some
  rw [evictOldest]
  omega

/-- A table needs no more rounds than it has rows. -/
theorem trimLoop_succ
    (maxBytes : Nat) {fuel : Nat} (table : MessageTable) (enough : table.rows.length ≤ fuel) :
    trimLoop maxBytes (fuel + 1) table = trimLoop maxBytes fuel table := by
  induction fuel generalizing table with
  | zero =>
      have none : table.rows = [] := List.length_eq_zero_iff.mp (by omega)
      have within : totalBytes table ≤ maxBytes := by
        simp [totalBytes, none]
      simp only [trimLoop, if_pos within]
  | succ fuel inductionHypothesis =>
      rw [trimLoop]
      conv_rhs => rw [trimLoop]
      split
      · rfl
      · split
        · rfl
        · rename_i deletes
          have shorter := length_evictOldest_lt deletes
          rw [inductionHypothesis (evictOldest table TRIM_BATCH) (by omega)]

theorem trimLoop_enough
    (maxBytes : Nat) {fuel : Nat} (table : MessageTable) (enough : table.rows.length ≤ fuel) :
    trimLoop maxBytes fuel table = trimBytes maxBytes table := by
  obtain ⟨extra, rfl⟩ := Nat.exists_eq_add_of_le enough
  induction extra with
  | zero =>
      exact (trimLoop_succ maxBytes table (Nat.le_refl _)).symm
  | succ extra inductionHypothesis =>
      have within : table.rows.length ≤ table.rows.length + extra := Nat.le_add_right _ _
      rw [← Nat.add_assoc, trimLoop_succ maxBytes table within, inductionHypothesis within]

/-- A trim that fails halfway leaves at least the rows a complete one leaves. -/
theorem trimBytes_sublist_trimLoop (maxBytes fuel : Nat) (table : MessageTable) :
    (trimBytes maxBytes table).1.rows.Sublist (trimLoop maxBytes fuel table).1.rows := by
  rcases Nat.le_total fuel (table.rows.length + 1) with short | long
  · exact trimLoop_antitone maxBytes short table
  · rw [trimLoop_enough maxBytes table (by omega)]

theorem boundTable_sublist_upTo
    (table : MessageTable) (maxMessages maxBytes deletions : Nat) :
    (boundTable table maxMessages maxBytes).1.rows.Sublist
      (boundTableUpTo table maxMessages maxBytes deletions).rows := by
  have whole := (boundTable_sublist table maxMessages maxBytes).1
  unfold boundTable boundTableUpTo at *
  split at whole
  · rename_i exceeds
    rw [if_pos exceeds, if_pos exceeds]
    dsimp only
    split
    · rename_i none
      have same : evictOldest table (table.rows.length - maxMessages) = table := by
        rw [none, evictOldest, RowTable.deleteFirst_zero]
      rw [same]
      exact trimBytes_sublist_trimLoop maxBytes deletions table
    · split
      · exact whole
      · exact trimBytes_sublist_trimLoop maxBytes _ _
  · rename_i within
    rw [if_neg within, if_neg within]

/-! ## The four cases -/

/-- Does the operation delete rows? -/
def Op.Trims : Op → Prop
  | .enforceBounds _ _ => True
  | .enforceBoundsUpTo _ _ _ => True
  | _ => False

/-- What an operation makes of the message log. -/
inductive LogStep (before : MessageTable) : Op → MessageTable → Prop
  | same {operation : Op} : LogStep before operation before
  | inbound (inner : Inner) (topic : String) :
      LogStep before (.insertInbound inner topic)
        (before.insertOrIgnore (inboundRow inner topic)).1
  | outbound (inner : Inner) (topic : String) :
      LogStep before (.insertOutboundLog inner topic)
        (before.insertOrIgnore (outboundRow inner topic)).1
  | updated {operation : Op} (update : DeliveryUpdate)
      (found : operation.update = some update) :
      LogStep before operation
        (before.updateWhere update.selects update.change update.keeps)
  | trimmed {operation : Op} {after : MessageTable} (trims : operation.Trims)
      (sublist : after.rows.Sublist before.rows) (last : after.last = before.last) :
      LogStep before operation after

theorem seenGrant_messages (store : Store) (grantId now : String) :
    (store.seenGrant grantId now).1.messages = store.messages := by
  unfold seenGrant
  split <;> rfl

theorem ack_messages (store : Store) (consumer : String) (seq : Int) (now : String) :
    (store.ack consumer seq now).messages = store.messages := by
  unfold ack
  split
  · rfl
  · split <;> rfl

theorem apply_log (store : Store) (operation : Op) :
    LogStep store.messages operation (store.apply operation).messages := by
  cases operation with
  | insertInbound inner topic =>
      exact .inbound inner topic
  | insertOutboundLog inner topic =>
      exact .outbound inner topic
  | ack consumer seq now =>
      exact store.ack_messages consumer seq now ▸ .same
  | enqueueOutbound | recordRejection =>
      exact .same
  | markSent id now =>
      exact .updated (sentUpdate id now) rfl
  | markDelivered id now =>
      exact .updated (sentUpdate id now) rfl
  | applyDeliveryReceipt origId ts =>
      exact .updated (deliveredUpdate origId ts) rfl
  | applyReadReceipt origId ts =>
      exact .updated (readUpdate origId ts) rfl
  | markFailed id =>
      exact .updated (failedUpdate id) rfl
  | upsertPresence agent beacon lastSeen now =>
      have same :
          (store.upsertPresence agent beacon lastSeen now).messages = store.messages := by
        unfold upsertPresence
        dsimp only
        split
        · rfl
        · split <;> rfl
      exact same ▸ .same
  | seenGrant grantId now =>
      exact store.seenGrant_messages grantId now ▸ .same
  | enforceBounds maxMessages maxBytes =>
      obtain ⟨sublist, last⟩ := boundTable_sublist store.messages maxMessages maxBytes
      exact .trimmed trivial sublist last
  | enforceBoundsUpTo maxMessages maxBytes deletions =>
      obtain ⟨sublist, last⟩ :=
        boundTableUpTo_sublist store.messages maxMessages maxBytes deletions
      exact .trimmed trivial sublist last

/-! ## Inbound rows -/

private theorem update_inbound
    {update : DeliveryUpdate} {row : MsgRow}
    (inbound :
      (if update.selects row then update.change row else row).direction = .inbound) :
    (if update.selects row then update.change row else row) = row := by
  by_cases selected : update.selects row = true
  · rw [if_pos selected] at inbound
    have direction : (update.change row).content.direction = row.content.direction := by
      rw [update.content row]
    simp only [DeliveryUpdate.selects, Bool.and_eq_true, beq_iff_eq] at selected
    have outbound : (update.change row).direction = .outbound :=
      direction.trans selected.1.2
    rw [outbound] at inbound
    exact nomatch inbound
  · rw [if_neg selected]

/-- An inbound row was there before, or has just been inserted. -/
theorem LogStep.inbound_mem
    {before after : MessageTable} {operation : Op} (step : LogStep before operation after)
    {row : Int × MsgRow} (member : row ∈ after.rows) (direction : row.2.direction = .inbound) :
    row ∈ before.rows ∨
      ∃ inner topic, operation = .insertInbound inner topic ∧
        before.holds inner.id = false ∧
        row = (before.last + 1, inboundRow inner topic) := by
  cases step with
  | same =>
      exact Or.inl member
  | inbound inner topic =>
      rcases RowTable.mem_insertOrIgnore.mp member with old | ⟨fresh, new⟩
      · exact Or.inl old
      · exact Or.inr ⟨inner, topic, rfl, fresh, new⟩
  | outbound inner topic =>
      rcases RowTable.mem_insertOrIgnore.mp member with old | ⟨_, new⟩
      · exact Or.inl old
      · rw [new] at direction
        exact nomatch direction
  | updated update _ =>
      obtain ⟨old, oldMember, rfl⟩ := RowTable.mem_updateWhere.mp member
      rw [update_inbound direction]
      exact Or.inl oldMember
  | trimmed _ sublist _ =>
      exact Or.inl (sublist.subset member)

/-- The inbound rows are the same before and after. -/
def SameInbound (before after : MessageTable) : Prop :=
  ∀ row : Int × MsgRow, row.2.direction = .inbound → (row ∈ after.rows ↔ row ∈ before.rows)

theorem SameInbound.refl (table : MessageTable) : SameInbound table table :=
  fun _ _ => Iff.rfl

theorem SameInbound.trans
    {first second third : MessageTable}
    (earlier : SameInbound first second) (later : SameInbound second third) :
    SameInbound first third :=
  fun row inbound => (later row inbound).trans (earlier row inbound)

/-- An operation that neither stores a message nor deletes rows. -/
def Op.Quiet (operation : Op) : Prop :=
  (∀ inner topic, operation ≠ .insertInbound inner topic) ∧ ¬ operation.Trims

/-- An inbound row stays until rows are deleted. -/
theorem LogStep.inbound_stays
    {before after : MessageTable} {operation : Op} (step : LogStep before operation after)
    {row : Int × MsgRow} (member : row ∈ before.rows) (inbound : row.2.direction = .inbound) :
    row ∈ after.rows ∨ operation.Trims := by
  cases step with
  | same =>
      exact Or.inl member
  | inbound inner topic =>
      exact Or.inl (RowTable.mem_insertOrIgnore.mpr (Or.inl member))
  | outbound inner topic =>
      exact Or.inl (RowTable.mem_insertOrIgnore.mpr (Or.inl member))
  | updated update _ =>
      have unselected : update.selects row.2 = false := by
        simp [DeliveryUpdate.selects, inbound]
      refine Or.inl (RowTable.mem_updateWhere.mpr ⟨row, member, ?_⟩)
      rw [unselected]
      rfl
  | trimmed trims _ _ =>
      exact Or.inr trims

theorem LogStep.sameInbound
    {before after : MessageTable} {operation : Op} (step : LogStep before operation after)
    (quiet : operation.Quiet) : SameInbound before after := by
  intro row inbound
  constructor
  · intro member
    rcases step.inbound_mem member inbound with old | ⟨inner, topic, inserts, _⟩
    · exact old
    · exact absurd inserts (quiet.1 inner topic)
  · intro member
    exact (step.inbound_stays member inbound).resolve_right quiet.2

/-- The numbers drawn so far only grow. -/
theorem LogStep.last_le
    {before after : MessageTable} {operation : Op} (step : LogStep before operation after) :
    before.last ≤ after.last := by
  cases step with
  | same =>
      exact Int.le_refl _
  | inbound inner topic =>
      have drawn := before.insertOrIgnore_last (inboundRow inner topic)
      omega
  | outbound inner topic =>
      have drawn := before.insertOrIgnore_last (outboundRow inner topic)
      omega
  | updated update _ =>
      exact Int.le_refl _
  | trimmed _ _ last =>
      exact Int.le_of_eq last.symm

/-! ## The same row before and after -/

/-- A row keeps its columns, except for the delivery columns of the row that the
operation updates. -/
theorem LogStep.same_row
    {before after : MessageTable} {operation : Op} (step : LogStep before operation after)
    {old new : Int × MsgRow} (oldMember : old ∈ before.rows) (newMember : new ∈ after.rows)
    (seq : new.1 = old.1) :
    new = old ∨
      ∃ update, operation.update = some update ∧ update.selects old.2 = true ∧
        new = (old.1, update.change old.2) := by
  have inserted (value : MsgRow)
      (member : new ∈ (before.insertOrIgnore value).1.rows) : new = old := by
    rcases RowTable.mem_insertOrIgnore.mp member with kept | ⟨_, added⟩
    · exact before.rowid_injective kept oldMember seq
    · have bound := before.bounded old oldMember
      rw [added] at seq
      dsimp only at seq
      omega
  cases step with
  | same =>
      exact Or.inl (before.rowid_injective newMember oldMember seq)
  | inbound inner topic =>
      exact Or.inl (inserted _ newMember)
  | outbound inner topic =>
      exact Or.inl (inserted _ newMember)
  | updated update found =>
      obtain ⟨source, sourceMember, rfl⟩ := RowTable.mem_updateWhere.mp newMember
      have same : source = old := before.rowid_injective sourceMember oldMember seq
      subst same
      by_cases selected : update.selects source.2 = true
      · rw [if_pos selected]
        exact Or.inr ⟨update, found, selected, rfl⟩
      · rw [if_neg selected]
        exact Or.inl rfl
  | trimmed _ sublist _ =>
      exact Or.inl (before.rowid_injective (sublist.subset newMember) oldMember seq)

/-- A row with a number drawn before was there before, and if it changed it is outbound. -/
theorem LogStep.drawn_row
    {before after : MessageTable} {operation : Op} (step : LogStep before operation after)
    {row : Int × MsgRow} (member : row ∈ after.rows) (drawn : row.1 ≤ before.last) :
    ∃ old ∈ before.rows, row.1 = old.1 ∧ (row = old ∨ old.2.direction = .outbound) := by
  have inserted (value : MsgRow)
      (found : row ∈ (before.insertOrIgnore value).1.rows) :
      ∃ old ∈ before.rows, row.1 = old.1 ∧ (row = old ∨ old.2.direction = .outbound) := by
    rcases RowTable.mem_insertOrIgnore.mp found with old | ⟨_, new⟩
    · exact ⟨row, old, rfl, Or.inl rfl⟩
    · have number : row.1 = before.last + 1 := congrArg Prod.fst new
      omega
  cases step with
  | same =>
      exact ⟨row, member, rfl, Or.inl rfl⟩
  | inbound inner topic =>
      exact inserted _ member
  | outbound inner topic =>
      exact inserted _ member
  | updated update _ =>
      obtain ⟨old, oldMember, rfl⟩ := RowTable.mem_updateWhere.mp member
      refine ⟨old, oldMember, rfl, ?_⟩
      by_cases selected : update.selects old.2 = true
      · have outbound : old.2.direction = .outbound := by
          simp only [DeliveryUpdate.selects, Bool.and_eq_true, beq_iff_eq] at selected
          exact selected.1.2
        exact Or.inr outbound
      · rw [if_neg selected]
        exact Or.inl rfl
  | trimmed _ sublist _ =>
      exact ⟨row, sublist.subset member, rfl, Or.inl rfl⟩

end Store

end AgentMsg
