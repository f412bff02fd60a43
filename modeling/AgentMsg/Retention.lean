import AgentMsg.Acceptance

/-!
# Retention of the message that was just stored

The bounds are enforced right after a message is stored, and outbound rows that await
a receipt are exempt.  The new row is the newest evictable one: it goes with the last
batch that the trim takes, when the exempt rows alone leave no room for it.
-/

namespace AgentMsg

namespace Store

/-! ## Evictable and exempt rows -/

def evictableRows (table : MessageTable) : List (Int × MsgRow) :=
  table.rows.filter fun row => evictable row.2

/-- Outbound rows that await a receipt. -/
def exemptRows (table : MessageTable) : List (Int × MsgRow) :=
  table.rows.filter fun row => !evictable row.2

/-- The size of the bodies of rows, for a measure of texts. -/
def measured (size : String → Nat) (rows : List (Int × MsgRow)) : Nat :=
  (rows.map fun row => size row.2.body).sum

section Measured

variable (size : String → Nat)

theorem measured_cons (row : Int × MsgRow) (rows : List (Int × MsgRow)) :
    measured size (row :: rows) = size row.2.body + measured size rows := by
  simp [measured]

theorem measured_append (first second : List (Int × MsgRow)) :
    measured size (first ++ second) = measured size first + measured size second := by
  simp [measured]

theorem measured_drop_antitone (rows : List (Int × MsgRow)) {fewer more : Nat}
    (drops : fewer ≤ more) : measured size (rows.drop more) ≤ measured size (rows.drop fewer) := by
  obtain ⟨further, rfl⟩ := Nat.exists_eq_add_of_le drops
  have split := measured_append size ((rows.drop fewer).take further)
    ((rows.drop fewer).drop further)
  rw [List.take_append_drop, List.drop_drop] at split
  omega

theorem measured_filter_add (rows : List (Int × MsgRow)) (selected : Int × MsgRow → Bool) :
    measured size (rows.filter fun row => !selected row) + measured size (rows.filter selected) =
      measured size rows := by
  induction rows with
  | nil =>
      rfl
  | cons row rest inductionHypothesis =>
      cases chosen : selected row with
      | true =>
          simp only [List.filter_cons, chosen, Bool.not_true, Bool.false_eq_true, if_false,
            if_true, measured_cons]
          omega
      | false =>
          simp only [List.filter_cons, chosen, Bool.not_false, Bool.false_eq_true, if_false,
            if_true, measured_cons]
          omega

end Measured

def bodyBytes (rows : List (Int × MsgRow)) : Nat :=
  (rows.map fun row => sqlLength row.2.body).sum

theorem bodyBytes_drop_antitone (rows : List (Int × MsgRow)) {fewer more : Nat}
    (drops : fewer ≤ more) : bodyBytes (rows.drop more) ≤ bodyBytes (rows.drop fewer) :=
  measured_drop_antitone sqlLength rows drops

theorem bodyBytes_drop_le (rows : List (Int × MsgRow)) (count : Nat) :
    bodyBytes (rows.drop count) ≤ bodyBytes rows :=
  bodyBytes_drop_antitone rows (Nat.zero_le count)

theorem bodyBytes_filter_add (rows : List (Int × MsgRow)) (selected : Int × MsgRow → Bool) :
    bodyBytes (rows.filter fun row => !selected row) + bodyBytes (rows.filter selected) =
      bodyBytes rows :=
  measured_filter_add sqlLength rows selected

theorem totalBytes_eq (table : MessageTable) :
    totalBytes table = bodyBytes (exemptRows table) + bodyBytes (evictableRows table) :=
  (bodyBytes_filter_add table.rows fun row => evictable row.2).symm

theorem length_rows_eq (table : MessageTable) :
    table.rows.length = (evictableRows table).length + (exemptRows table).length :=
  (RowTable.length_filter_add (fun row => evictable row.2) table.rows).symm

theorem exemptRows_evictOldest (table : MessageTable) (count : Nat) :
    exemptRows (evictOldest table count) = exemptRows table :=
  table.filter_not_deleteFirst (fun row => evictable row.2) count

theorem evictableRows_evictOldest (table : MessageTable) (count : Nat) :
    evictableRows (evictOldest table count) = (evictableRows table).drop count :=
  table.filter_deleteFirst (fun row => evictable row.2) count

/-! ## The newest evictable row -/

section Newest

variable {table : MessageTable} {older : List (Int × MsgRow)} {row : Int × MsgRow}

private theorem mem_of_newest (newest : evictableRows table = older ++ [row]) :
    row ∈ table.rows := by
  have member : row ∈ evictableRows table := by
    rw [newest]
    exact List.mem_append_right older List.mem_cons_self
  exact (List.mem_filter.mp member).1

private theorem evictable_of_newest (newest : evictableRows table = older ++ [row]) :
    evictable row.2 = true := by
  have member : row ∈ evictableRows table := by
    rw [newest]
    exact List.mem_append_right older List.mem_cons_self
  exact (List.mem_filter.mp member).2

private theorem newest_evictOldest
    {count : Nat} (newest : evictableRows table = older ++ [row])
    (spared : count ≤ older.length) :
    evictableRows (evictOldest table count) = older.drop count ++ [row] := by
  rw [evictableRows_evictOldest, newest, List.drop_append_of_le_length spared]

private theorem not_mem_of_evictableRows_nil
    {later : MessageTable} (sublist : later.rows.Sublist table.rows)
    (none : evictableRows table = []) (chosen : evictable row.2 = true) : row ∉ later.rows := by
  intro member
  have found : row ∈ evictableRows table :=
    List.mem_filter.mpr ⟨sublist.subset member, chosen⟩
  rw [none] at found
  exact List.not_mem_nil found

/-- The byte trim spares the newest evictable row when the exempt rows and the last
batch fit into the budget. -/
theorem mem_trimLoop_iff
    (maxBytes : Nat) {fuel : Nat} (enough : table.rows.length ≤ fuel)
    (newest : evictableRows table = older ++ [row]) :
    row ∈ (trimLoop maxBytes fuel table).1.rows ↔
      bodyBytes (exemptRows table) +
        bodyBytes ((evictableRows table).drop (TRIM_BATCH * (older.length / TRIM_BATCH))) ≤
          maxBytes := by
  induction fuel generalizing table older with
  | zero =>
      have member := mem_of_newest newest
      rw [List.length_eq_zero_iff.mp (Nat.le_zero.mp enough)] at member
      exact absurd member List.not_mem_nil
  | succ fuel inductionHypothesis =>
      have total := totalBytes_eq table
      unfold trimLoop
      by_cases within : totalBytes table ≤ maxBytes
      · rw [if_pos within]
        have dropped := bodyBytes_drop_le (evictableRows table)
          (TRIM_BATCH * (older.length / TRIM_BATCH))
        exact iff_of_true (mem_of_newest newest) (by omega)
      · have deletes : evictCount table TRIM_BATCH ≠ 0 := by
          have length : (evictableRows table).length = older.length + 1 := by
            rw [newest, List.length_append]
            rfl
          have count : evictCount table TRIM_BATCH =
              min TRIM_BATCH (evictableRows table).length :=
            List.length_take
          rw [count, length, TRIM_BATCH]
          omega
        rw [if_neg within, if_neg deletes]
        by_cases last : older.length < TRIM_BATCH
        · have gone : evictableRows (evictOldest table TRIM_BATCH) = [] := by
            rw [evictableRows_evictOldest, newest]
            refine List.drop_eq_nil_of_le ?_
            rw [List.length_append]
            exact last
          have absent := not_mem_of_evictableRows_nil (trimLoop_sublist maxBytes fuel _).1 gone
            (evictable_of_newest newest)
          refine iff_of_false absent ?_
          rw [Nat.div_eq_of_lt last, Nat.mul_zero, List.drop_zero]
          omega
        · have spared : TRIM_BATCH ≤ older.length := Nat.le_of_not_lt last
          have shorter := length_evictOldest_lt deletes
          have rest := inductionHypothesis (by omega) (newest_evictOldest newest spared)
          have batches : TRIM_BATCH * (older.length / TRIM_BATCH) =
              TRIM_BATCH + TRIM_BATCH * ((older.drop TRIM_BATCH).length / TRIM_BATCH) := by
            rw [List.length_drop, TRIM_BATCH] at *
            omega
          rw [rest, exemptRows_evictOldest, evictableRows_evictOldest, List.drop_drop, ← batches]

/-- The rows that the last batch of the trim would take. -/
def lastBatch (table : MessageTable) (maxMessages : Nat) : List (Int × MsgRow) :=
  let excess := table.rows.length - maxMessages
  let left := (evictableRows table).length - 1 - excess
  (evictableRows table).drop (excess + TRIM_BATCH * (left / TRIM_BATCH))

/-- The rows that await a receipt leave room for one more message, and they and the last
batch fit into the byte budget. -/
def SparesNewest (table : MessageTable) (maxMessages maxBytes : Nat) : Prop :=
  (exemptRows table).length + 1 ≤ maxMessages ∧
    bodyBytes (exemptRows table) + bodyBytes (lastBatch table maxMessages) ≤ maxBytes

theorem mem_boundTable_iff
    (maxMessages maxBytes : Nat) (newest : evictableRows table = older ++ [row]) :
    row ∈ (boundTable table maxMessages maxBytes).1.rows ↔
      SparesNewest table maxMessages maxBytes := by
  have length : (evictableRows table).length = older.length + 1 := by
    rw [newest, List.length_append]
    rfl
  have rows := length_rows_eq table
  have total := totalBytes_eq table
  unfold boundTable SparesNewest lastBatch
  dsimp only
  by_cases exceeds : table.rows.length > maxMessages ∨ totalBytes table > maxBytes
  · rw [if_pos exceeds]
    by_cases spared : table.rows.length - maxMessages ≤ older.length
    · have trimmed := mem_trimLoop_iff maxBytes (Nat.le_succ _)
        (newest_evictOldest newest spared)
      rw [exemptRows_evictOldest, evictableRows_evictOldest, List.length_drop, List.drop_drop]
        at trimmed
      have left : (evictableRows table).length - 1 - (table.rows.length - maxMessages) =
          older.length - (table.rows.length - maxMessages) := by
        omega
      rw [left]
      refine trimmed.trans (iff_and_self.mpr fun _ => ?_)
      omega
    · have gone :
          evictableRows (evictOldest table (table.rows.length - maxMessages)) = [] := by
        rw [evictableRows_evictOldest]
        refine List.drop_eq_nil_of_le ?_
        omega
      refine iff_of_false (not_mem_of_evictableRows_nil (trimLoop_sublist maxBytes _ _).1 gone
        (evictable_of_newest newest)) fun room => ?_
      omega
  · rw [if_neg exceeds]
    have dropped := bodyBytes_drop_le (evictableRows table)
      (table.rows.length - maxMessages + TRIM_BATCH *
        (((evictableRows table).length - 1 - (table.rows.length - maxMessages)) / TRIM_BATCH))
    exact iff_of_true (mem_of_newest newest) ⟨by omega, by omega⟩

end Newest

end Store

/-! ## One ingest -/

/-- A stored message that outlives its ingest: its row is there, every consumer with a
smaller cursor can read it, and its receipt was not queued without it. -/
structure Kept (before final : Store) (row : Int × MsgRow) : Prop where
  present : row ∈ final.messages.rows
  readable : ∀ consumer, final.cursor consumer < row.1 →
    rowToMsg row ∈ final.readAfterCursor consumer (-1)
  receipted : ∀ entry ∈ final.outbox.rows, entry ∉ before.outbox.rows →
    row ∈ final.messages.rows

theorem kept_iff
    {before final : Store} {row : Int × MsgRow} (inbound : row.2.direction = .inbound) :
    Kept before final row ↔ row ∈ final.messages.rows := by
  constructor
  · intro kept
    exact kept.present
  · intro present
    refine ⟨present, fun consumer below => ?_, fun _ _ _ => present⟩
    have unread : Store.unreadAfter (final.cursor consumer) row = true := by
      simp [Store.unreadAfter, inbound, below]
    have selected := List.mem_filter.mpr ⟨present, unread⟩
    exact List.mem_map_of_mem selected

theorem Store.mem_receipted
    {P : Platform} {identity : Identity} {cfg : Config} {delivery : Delivery} {inner : Inner}
    {store : Store} {row : Int × MsgRow} (inbound : row.2.direction = .inbound) :
    row ∈ (store.receipted P identity cfg delivery inner).messages.rows ↔
      row ∈ store.messages.rows := by
  unfold receipted
  split
  · split
    · rfl
    · have inserted (reply : Inner) (topic : String) :
          row ∈ (store.insertOutboundLog reply topic).messages.rows ↔
            row ∈ store.messages.rows := by
        refine RowTable.mem_insertOrIgnore.trans (or_iff_left ?_)
        rintro ⟨_, rfl⟩
        cases inbound
      exact inserted _ _
  · rfl

/-- The new row is the last one of the log. -/
theorem insertedLog_rows
    (world : World) (delivery : Delivery) (inner : Inner)
    (fresh : world.store.messages.holds inner.id = false) :
    (insertedLog world delivery inner).rows =
      world.store.messages.rows ++
        [(world.store.messages.last + 1, Store.inboundRow inner delivery.topic)] := by
  have free : world.store.messages.holds (Store.inboundRow inner delivery.topic).id = false :=
    fresh
  exact (RowTable.insertOrIgnore_fresh free).1

/-- The new row is the newest evictable one. -/
theorem evictableRows_insertedLog
    (world : World) (delivery : Delivery) (inner : Inner)
    (fresh : world.store.messages.holds inner.id = false) :
    Store.evictableRows (insertedLog world delivery inner) =
      Store.evictableRows world.store.messages ++
        [(world.store.messages.last + 1, Store.inboundRow inner delivery.topic)] := by
  have chosen : Store.evictable (Store.inboundRow inner delivery.topic) = true := rfl
  rw [Store.evictableRows, insertedLog_rows world delivery inner fresh, List.filter_append]
  simp only [List.filter_cons, chosen, if_true, List.filter_nil]
  rfl

/-- The new row is not exempt. -/
theorem exemptRows_insertedLog
    (world : World) (delivery : Delivery) (inner : Inner)
    (fresh : world.store.messages.holds inner.id = false) :
    Store.exemptRows (insertedLog world delivery inner) =
      Store.exemptRows world.store.messages := by
  rw [Store.exemptRows, insertedLog_rows world delivery inner fresh, List.filter_append]
  exact List.append_nil _

/-- An ingest that stores a message keeps it exactly when the exempt rows leave room
for it. -/
theorem Ingested.kept_iff
    {P : Platform} {identity : Identity} {world final : World} {delivery : Delivery}
    {seq : Int} {inner : Inner}
    (ingested : Ingested P identity world delivery final (.stored seq inner)) :
    Kept world.store final.store (seq, Store.inboundRow inner delivery.topic) ↔
      Store.SparesNewest (insertedLog world delivery inner) (world.config P).maxMessages
        (world.config P).maxBytes := by
  cases ingested with
  | aside _ unstored _ =>
      cases unstored
  | stored _ now accepted plain unused fresh result =>
      have bounded := Store.mem_boundTable_iff (world.config P).maxMessages
        (world.config P).maxBytes (evictableRows_insertedLog world delivery inner fresh)
      have recorded := world.store.recordGrant_messages
        (guardClaims P (world.trust P) delivery.clock.guardCheck inner) now
      rw [AgentMsg.kept_iff rfl, result, Store.mem_receipted rfl, ← bounded]
      simp only [Store.enforceBounds, Store.insertInbound, recorded, insertedLog]

/-- In every state that a run of the system reaches, an ingest that stores a message
keeps it exactly when the exempt rows leave room for it. -/
theorem stored_message_kept_iff
    (P : Platform) (identity : Identity) (start : World) (moves : List (Move Input Job))
    (delivery : Delivery) (inputs : Nat → Input)
    (succeeds : ∀ index, (inputs index).Succeeds) (seq : Int) (inner : Inner)
    (stored : ((onMsg P identity delivery).exec inputs
      (System.after P identity start moves)).2 = .stored seq inner) :
    Kept (System.after P identity start moves).store
        ((onMsg P identity delivery).exec inputs (System.after P identity start moves)).1.store
        (seq, Store.inboundRow inner delivery.topic) ↔
      Store.SparesNewest (insertedLog (System.after P identity start moves) delivery inner)
        ((System.after P identity start moves).config P).maxMessages
        ((System.after P identity start moves).config P).maxBytes := by
  have ingested : Ingested P identity (System.after P identity start moves) delivery
      ((onMsg P identity delivery).exec inputs (System.after P identity start moves)).1
      ((onMsg P identity delivery).exec inputs (System.after P identity start moves)).2 :=
    Prog.exec_of_meets onMsg_succeeds succeeds
  rw [stored] at ingested
  exact ingested.kept_iff

/-! ## A message to a full log -/

/-- One message to the daemon, whose log holds the given number of messages. -/
def fullBench (maxMessages : Nat) : Bench :=
  { inners := [Bench.textTo "me" "m1" "alice" "t0" "hello"], instants := [("t0", 0)]
    config := { topics := ["chat"], maxMessages, maxBytes := 100 }
    trust := Bench.trusting ["alice"] }

/-- A message of the daemon that waits for its receipt. -/
def sendToAlice : Job :=
  .request (.send { recipient := "alice", ctype := CTYPE_TEXT, body := "hi" })
    ⟨"x", "t0", [], [], []⟩ 0

/-- The moves of the request, executed alone. -/
def sendMoves (maxMessages : Nat) : List (Move Input Job) :=
  sendToAlice.alone (fullBench maxMessages).platform Bench.me (fun _ => {}) Bench.world

/-- The state after the request. -/
def sentWorld (maxMessages : Nat) : World :=
  System.after (fullBench maxMessages).platform Bench.me Bench.world (sendMoves maxMessages)

theorem sentWorld_eq (maxMessages : Nat) :
    sentWorld maxMessages =
      ((sendToAlice.thread (fullBench maxMessages).platform Bench.me).exec (fun _ => {})
        Bench.world).1 := by
  rw [sentWorld, System.after, sendMoves, Job.run_alone]

/-- The message passes the checks under the files of the bench. -/
theorem Bench.full_accepts
    {maxMessages : Nat} {world : World}
    (config : world.configFile = Bench.world.configFile)
    (trust : world.trustFile = Bench.world.trustFile) :
    Accepted (fullBench maxMessages).platform Bench.me
      (world.config (fullBench maxMessages).platform)
      (world.trust (fullBench maxMessages).platform) (Bench.delivery 0 0 "r1")
      (Bench.textTo "me" "m1" "alice" "t0" "hello") := by
  have small : "hello".utf8ByteSize ≤ 256 * 1024 := by decide
  rw [World.config, World.trust, config, trust]
  exact Bench.accepted rfl rfl (by decide) (by decide)
    (Bench.trusting_publicKey List.mem_cons_self) (by decide) small rfl rfl nofun

theorem full_accepted (maxMessages : Nat) :
    Accepted (fullBench maxMessages).platform Bench.me
      ((sentWorld maxMessages).config (fullBench maxMessages).platform)
      ((sentWorld maxMessages).trust (fullBench maxMessages).platform) (Bench.delivery 0 0 "r1")
      (Bench.textTo "me" "m1" "alice" "t0" "hello") := by
  have files : (sentWorld maxMessages).configFile = Bench.world.configFile ∧
      (sentWorld maxMessages).trustFile = Bench.world.trustFile := by
    rw [sentWorld_eq]
    exact ⟨rfl, rfl⟩
  exact Bench.full_accepts files.1 files.2

/-- The ingest of the message after the request. -/
def fullIngest (maxMessages : Nat) : World × Outcome :=
  (onMsg (fullBench maxMessages).platform Bench.me (Bench.delivery 0 0 "r1")).exec (fun _ => {})
    (sentWorld maxMessages)

theorem fullIngest_eq (maxMessages : Nat) :
    fullIngest maxMessages =
      (acceptMessage (fullBench maxMessages).platform Bench.me
        ((sentWorld maxMessages).config (fullBench maxMessages).platform)
        ((sentWorld maxMessages).trust (fullBench maxMessages).platform)
        (Bench.delivery 0 0 "r1") (Bench.textTo "me" "m1" "alice" "t0" "hello")).exec
          (fun _ => {}) (sentWorld maxMessages) := by
  rw [fullIngest, (full_accepted maxMessages).exec_eq]

theorem fullIngest_stored_one :
    (fullIngest 1).2 = .stored 2 (Bench.textTo "me" "m1" "alice" "t0" "hello") := by
  rw [fullIngest_eq, sentWorld_eq]
  decide

theorem fullIngest_stored_two :
    (fullIngest 2).2 = .stored 2 (Bench.textTo "me" "m1" "alice" "t0" "hello") := by
  rw [fullIngest_eq, sentWorld_eq]
  decide

/-- There is room for the message beside the one that waits for its receipt. -/
theorem stored_message_kept_iff_room :
    Kept (sentWorld 2).store (fullIngest 2).1.store
      (2, Store.inboundRow (Bench.textTo "me" "m1" "alice" "t0" "hello") "chat") := by
  have stored := fullIngest_stored_two
  rw [fullIngest, sentWorld] at stored ⊢
  refine (stored_message_kept_iff (fullBench 2).platform Bench.me Bench.world (sendMoves 2)
    (Bench.delivery 0 0 "r1") (fun _ => {}) (fun _ => rfl) 2
    (Bench.textTo "me" "m1" "alice" "t0" "hello") stored).mpr ?_
  have room : Store.SparesNewest (insertedLog (sentWorld 2) (Bench.delivery 0 0 "r1")
      (Bench.textTo "me" "m1" "alice" "t0" "hello")) 2 100 := by
    rw [sentWorld_eq]
    exact ⟨by decide, by decide⟩
  rw [sentWorld] at room
  exact room

/-- A direct message is gone when its ingest ends, and its receipt is queued. -/
theorem direct_message_lost :
    ¬ ∀ (P : Platform) (identity : Identity) (start : World) (moves : List (Move Input Job))
        (delivery : Delivery) (inputs : Nat → Input) (seq : Int) (inner : Inner),
        start.store.messages.rows = [] → (∀ index, (inputs index).Succeeds) →
        ((onMsg P identity delivery).exec inputs
          (System.after P identity start moves)).2 = .stored seq inner →
        inner.recipient = identity.name → inner.isBroadcast = false →
        1 ≤ ((System.after P identity start moves).config P).maxMessages →
        inner.body.utf8ByteSize ≤ ((System.after P identity start moves).config P).maxBytes →
        Kept (System.after P identity start moves).store
          ((onMsg P identity delivery).exec inputs
            (System.after P identity start moves)).1.store
          (seq, Store.inboundRow inner delivery.topic) := by
  intro delivered
  have stored := fullIngest_stored_one
  have bounds : ((sentWorld 1).config (fullBench 1).platform).maxMessages = 1 ∧
      ((sentWorld 1).config (fullBench 1).platform).maxBytes = 100 := by
    rw [sentWorld_eq]
    exact ⟨rfl, rfl⟩
  rw [sentWorld] at bounds
  rw [fullIngest, sentWorld] at stored
  have kept := delivered (fullBench 1).platform Bench.me Bench.world (sendMoves 1)
    (Bench.delivery 0 0 "r1") (fun _ => {}) 2 (Bench.textTo "me" "m1" "alice" "t0" "hello")
    rfl (fun _ => rfl) stored rfl rfl (Nat.le_of_eq bounds.1.symm)
    (by rw [bounds.2]; decide)
  have present := kept.present
  rw [← sentWorld, ← fullIngest, fullIngest_eq, sentWorld_eq] at present
  revert present
  decide

end AgentMsg
