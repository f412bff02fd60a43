import AgentMsg.Lib.Machine
import AgentMsg.Repeated
import AgentMsg.Retention

/-!
# The size of the message log

The bounds are enforced after each message that is stored, and never at the cost of an
outbound row that is pending or sent.  Some of these rows await a receipt of their
recipient; automatic receipts and broadcasts never get one, and an automatic receipt is
logged after the bounds were enforced.  What is left after an ingest is counted from the
log before it.
-/

namespace AgentMsg

namespace Store

/-! ## Rows that are exempt -/

/-- A message to one recipient that is not a receipt. -/
def direct (row : MsgRow) : Bool :=
  row.recipient != "*" && row.kind != kindStr .receipt

/-- Direct outbound messages that are pending or sent. -/
def awaitedRows (table : MessageTable) : List (Int × MsgRow) :=
  (exemptRows table).filter fun row => direct row.2

/-- Outbound receipts and broadcasts that are pending or sent. -/
def unansweredRows (table : MessageTable) : List (Int × MsgRow) :=
  (exemptRows table).filter fun row => !direct row.2

theorem length_exemptRows (table : MessageTable) :
    (exemptRows table).length = (awaitedRows table).length + (unansweredRows table).length :=
  (RowTable.length_filter_add (fun row => direct row.2) (exemptRows table)).symm

/-! ## How many rows the bounds leave -/

theorem exemptRows_trimLoop (maxBytes fuel : Nat) (table : MessageTable) :
    exemptRows (trimLoop maxBytes fuel table).1 = exemptRows table := by
  induction fuel generalizing table with
  | zero =>
      rfl
  | succ fuel inductionHypothesis =>
      unfold trimLoop
      split
      · rfl
      · split
        · rfl
        · exact (inductionHypothesis _).trans (exemptRows_evictOldest table TRIM_BATCH)

theorem exemptRows_boundTable (table : MessageTable) (maxMessages maxBytes : Nat) :
    exemptRows (boundTable table maxMessages maxBytes).1 = exemptRows table := by
  unfold boundTable
  split
  · exact (exemptRows_trimLoop maxBytes _ _).trans (exemptRows_evictOldest table _)
  · rfl

theorem length_evictableRows_trimLoop_le (maxBytes fuel : Nat) (table : MessageTable) :
    (evictableRows (trimLoop maxBytes fuel table).1).length ≤ (evictableRows table).length :=
  ((trimLoop_sublist maxBytes fuel table).1.filter _).length_le

/-- The byte trim leaves a table alone that is within the budget, and otherwise deletes an
evictable row if there is one. -/
theorem length_evictableRows_trimBytes (maxBytes : Nat) (table : MessageTable) :
    (totalBytes table ≤ maxBytes →
      (evictableRows (trimBytes maxBytes table).1).length = (evictableRows table).length) ∧
    (maxBytes < totalBytes table →
      (evictableRows (trimBytes maxBytes table).1).length ≤ (evictableRows table).length - 1) := by
  rw [trimBytes, trimLoop]
  refine ⟨fun within => by rw [if_pos within], fun exceeds => ?_⟩
  rw [if_neg (Nat.not_le.mpr exceeds)]
  split
  · next none =>
      have taken : min TRIM_BATCH (evictableRows table).length = 0 :=
        List.length_take.symm.trans none
      rw [TRIM_BATCH] at taken
      dsimp only
      omega
  · have shorter := length_evictableRows_trimLoop_le maxBytes table.rows.length
      (evictOldest table TRIM_BATCH)
    have batch : 1 ≤ TRIM_BATCH := by decide
    rw [evictableRows_evictOldest, List.length_drop] at shorter
    dsimp only
    omega

/-- The evictable rows within the cap on messages are left, unless the byte budget takes
some more of them. -/
theorem length_evictableRows_boundTable (table : MessageTable) (maxMessages maxBytes : Nat) :
    let excess := table.rows.length - maxMessages
    let bytes := bodyBytes (exemptRows table) + bodyBytes ((evictableRows table).drop excess)
    (bytes ≤ maxBytes → (evictableRows (boundTable table maxMessages maxBytes).1).length =
      (evictableRows table).length - excess) ∧
    (maxBytes < bytes → (evictableRows (boundTable table maxMessages maxBytes).1).length ≤
      (evictableRows table).length - excess - 1) := by
  intro excess bytes
  have total : totalBytes (evictOldest table excess) = bytes := by
    rw [totalBytes_eq, exemptRows_evictOldest, evictableRows_evictOldest]
  have left : (evictableRows (evictOldest table excess)).length =
      (evictableRows table).length - excess := by
    rw [evictableRows_evictOldest, List.length_drop]
  have trimmed := length_evictableRows_trimBytes maxBytes (evictOldest table excess)
  rw [total, left] at trimmed
  rw [boundTable]
  by_cases exceeds : table.rows.length > maxMessages ∨ totalBytes table > maxBytes
  · rw [if_pos exceeds]
    exact trimmed
  · rw [if_neg exceeds]
    have within : excess = 0 := by omega
    have same : bytes = totalBytes table := by
      rw [totalBytes_eq]
      simp only [bytes, within, List.drop_zero]
    rw [within, same]
    exact ⟨fun _ => rfl, fun larger => absurd larger (by omega)⟩

end Store

/-! ## One ingest -/

/-- The automatic receipts that an ingest logs. -/
def replies (identity : Identity) (cfg : Config) (inner : Inner) : Nat :=
  if wantsReceipt identity cfg inner then 1 else 0

/-- The rows that no receipt comes for, with the one that is logged, are within the cap; and
if one is logged, then a message is awaited, the log is not full, or the byte budget takes
one row more. -/
def StaysBounded (identity : Identity) (cfg : Config) (inner : Inner) (log : MessageTable) :
    Prop :=
  (Store.unansweredRows log).length + replies identity cfg inner ≤ cfg.maxMessages ∧
    (replies identity cfg inner = 0 ∨ 1 ≤ (Store.awaitedRows log).length ∨
      log.rows.length < cfg.maxMessages ∨
      cfg.maxBytes < Store.bodyBytes (Store.exemptRows log) +
        Store.bodyBytes ((Store.evictableRows log).drop (log.rows.length - cfg.maxMessages)))

/-- How many rows are left within the bounds, one more for an automatic receipt. -/
theorem bounded_iff_staysBounded
    (identity : Identity) (cfg : Config) (inner : Inner) (log : MessageTable) :
    (Store.boundTable log cfg.maxMessages cfg.maxBytes).1.rows.length + replies identity cfg inner ≤
        cfg.maxMessages + (Store.awaitedRows log).length ↔
      StaysBounded identity cfg inner log := by
  have rows := Store.length_rows_eq log
  have after := Store.length_rows_eq (Store.boundTable log cfg.maxMessages cfg.maxBytes).1
  have exempt := Store.length_exemptRows log
  obtain ⟨exact, less⟩ :=
    Store.length_evictableRows_boundTable log cfg.maxMessages cfg.maxBytes
  have reply : replies identity cfg inner ≤ 1 := by
    unfold replies
    split <;> omega
  rw [Store.exemptRows_boundTable] at after
  rw [StaysBounded]
  by_cases within : Store.bodyBytes (Store.exemptRows log) + Store.bodyBytes
      ((Store.evictableRows log).drop (log.rows.length - cfg.maxMessages)) ≤ cfg.maxBytes
  · have left := exact within
    omega
  · have left := less (by omega)
    omega

/-- The receipt of an ingest is logged as one more row that no receipt comes for. -/
theorem Store.receipted_rows
    {P : Platform} {identity : Identity} {cfg : Config} {delivery : Delivery} {inner : Inner}
    {store : Store} (fresh : store.messages.holds delivery.draw.id = false) :
    (store.receipted P identity cfg delivery inner).messages.rows.length =
        store.messages.rows.length + replies identity cfg inner ∧
      awaitedRows (store.receipted P identity cfg delivery inner).messages =
        awaitedRows store.messages := by
  rw [receipted, replies]
  by_cases wanted : wantsReceipt identity cfg inner = true
  · rw [if_pos wanted, if_pos wanted, build_plain rfl]
    let reply := outboundRow
      (draft identity delivery.draw (receiptOpts inner.sender inner.id .delivered)) delivery.topic
    have free : store.messages.holds reply.id = false := fresh
    have rows : (store.messages.insertOrIgnore reply).1.rows =
        store.messages.rows ++ [(store.messages.last + 1, reply)] :=
      (RowTable.insertOrIgnore_fresh free).1
    have unanswered : direct reply = false := by
      simp [direct, reply, outboundRow, inboundRow, draft, receiptOpts]
    refine ⟨(congrArg List.length rows).trans List.length_append, ?_⟩
    have awaited : awaitedRows (store.messages.insertOrIgnore reply).1 =
        awaitedRows store.messages := by
      rw [awaitedRows, exemptRows, rows, List.filter_append, List.filter_append, awaitedRows,
        exemptRows]
      simp [List.filter_cons, unanswered, apply_ite]
    exact awaited
  · rw [if_neg wanted, if_neg wanted]
    exact ⟨rfl, rfl⟩

/-- An ingest that stores a message leaves the bounded log with its receipt. -/
theorem Ingested.rows_of_stored
    {P : Platform} {identity : Identity} {world final : World} {delivery : Delivery}
    {seq : Int} {inner : Inner}
    (ingested : Ingested P identity world delivery final (.stored seq inner))
    (unused : (insertedLog world delivery inner).holds delivery.draw.id = false) :
    final.store.messages.rows.length =
        (Store.boundTable (insertedLog world delivery inner) (world.config P).maxMessages
          (world.config P).maxBytes).1.rows.length + replies identity (world.config P) inner ∧
      Store.awaitedRows final.store.messages =
        Store.awaitedRows (insertedLog world delivery inner) := by
  cases ingested with
  | aside _ unstored _ =>
      cases unstored
  | stored _ now accepted plain _ fresh result =>
      let log := insertedLog world delivery inner
      let bounded := (Store.boundTable log (world.config P).maxMessages (world.config P).maxBytes).1
      let kept := (((world.store.recordGrant
        (guardClaims P (world.trust P) delivery.clock.guardCheck inner) now).insertInbound
          inner delivery.topic).1.enforceBounds
            (world.config P).maxMessages (world.config P).maxBytes).1
      have messages : kept.messages = bounded := by
        have recorded := world.store.recordGrant_messages
          (guardClaims P (world.trust P) delivery.clock.guardCheck inner) now
        simp only [kept, bounded, log, Store.enforceBounds, Store.insertInbound, recorded,
          insertedLog]
      have free : kept.messages.holds delivery.draw.id = false := by
        rw [messages]
        refine RowTable.holds_eq_false_iff.mpr fun row member => ?_
        have remaining := (Store.boundTable_sublist log (world.config P).maxMessages
          (world.config P).maxBytes).1
        exact RowTable.holds_eq_false_iff.mp unused row (remaining.subset member)
      obtain ⟨rows, awaited⟩ := @Store.receipted_rows P identity (world.config P) delivery inner
        kept free
      have same : Store.awaitedRows bounded = Store.awaitedRows log :=
        congrArg (List.filter _) (Store.exemptRows_boundTable log _ _)
      rw [result, rows, awaited, messages, same]
      exact ⟨rfl, rfl⟩

/-- An ingest that stores a message leaves the log within the cap and the awaited rows
exactly when the log before it allows so. -/
theorem Ingested.bounded_iff
    {P : Platform} {identity : Identity} {world final : World} {delivery : Delivery}
    {seq : Int} {inner : Inner}
    (ingested : Ingested P identity world delivery final (.stored seq inner))
    (unused : (insertedLog world delivery inner).holds delivery.draw.id = false) :
    final.store.messages.rows.length ≤
        (world.config P).maxMessages + (Store.awaitedRows final.store.messages).length ↔
      StaysBounded identity (world.config P) inner (insertedLog world delivery inner) := by
  obtain ⟨rows, awaited⟩ := ingested.rows_of_stored unused
  rw [rows, awaited]
  exact bounded_iff_staysBounded identity (world.config P) inner _

/-! ## Runs -/

/-- A step of a run: a move of the system, or a whole ingest that no thread interrupts. -/
inductive CourseStep where
  | move (next : Move Input Job)
  | ingest (delivery : Delivery) (inputs : Nat → Input)

section Runs

variable (P : Platform) (identity : Identity)

def courseStep (system : System) : CourseStep → System
  | .move next => system.run P identity [next]
  | .ingest delivery inputs => system.complete P identity (.ingest delivery) inputs

theorem courseStep_ingest (system : System) (delivery : Delivery) (inputs : Nat → Input) :
    (courseStep P identity system (.ingest delivery inputs)).shared =
      ((onMsg P identity delivery).exec inputs system.shared).1 :=
  (System.complete_shared P identity system (.ingest delivery) inputs).trans
    (exec_ignore (onMsg P identity delivery) inputs system.shared)

/-- The ingest stores a message, its store calls succeed, and the id it draws is new. -/
structure Storing (world : World) (delivery : Delivery) (inputs : Nat → Input) (seq : Int)
    (inner : Inner) : Prop where
  succeeds : ∀ index, (inputs index).Succeeds
  stored : ((onMsg P identity delivery).exec inputs world).2 = .stored seq inner
  unused : (insertedLog world delivery inner).holds delivery.draw.id = false

/-- After an ingest that stores a message, the rows beside the awaited ones are within a
limit that depends on the cap. -/
def StoresWithin (limit : Nat → Nat) (system : System) : CourseStep → Prop
  | .move _ => True
  | .ingest delivery inputs =>
      ∀ seq inner, Storing P identity system.shared delivery inputs seq inner →
        let log := (courseStep P identity system (.ingest delivery inputs)).shared.store.messages
        log.rows.length ≤
          limit (system.shared.config P).maxMessages + (Store.awaitedRows log).length

/-- The log before an ingest that stores a message, with its row, stays bounded. -/
def LeavesRoom (system : System) : CourseStep → Prop
  | .move _ => True
  | .ingest delivery inputs =>
      ∀ seq inner, Storing P identity system.shared delivery inputs seq inner →
        StaysBounded identity (system.shared.config P) inner
          (insertedLog system.shared delivery inner)

theorem storesWithin_iff (system : System) (step : CourseStep) :
    StoresWithin P identity id system step ↔ LeavesRoom P identity system step := by
  cases step with
  | move next =>
      rfl
  | ingest delivery inputs =>
      refine forall_congr' fun seq => forall_congr' fun inner => forall_congr' fun storing => ?_
      have ingested : Ingested P identity system.shared delivery
          ((onMsg P identity delivery).exec inputs system.shared).1
          ((onMsg P identity delivery).exec inputs system.shared).2 :=
        Prog.exec_of_meets onMsg_succeeds storing.succeeds
      rw [storing.stored] at ingested
      rw [courseStep_ingest]
      exact ingested.bounded_iff storing.unused

/-- In a run of the system, every ingest that stores a message leaves no more rows than the
cap and the awaited ones exactly when each meets the condition on the log before it. -/
theorem store_bounded_iff (start : System) (steps : List CourseStep) :
    Machine.EveryStep (courseStep P identity) (StoresWithin P identity id) start steps ↔
      Machine.EveryStep (courseStep P identity) (LeavesRoom P identity) start steps :=
  Machine.everyStep_congr (storesWithin_iff P identity)

end Runs

/-! ## Broadcasts that fill the log -/

/-- A broadcast that nobody answers. -/
def toEveryone : SendParams :=
  { recipient := "*", ctype := CTYPE_TEXT, body := "hi" }

def broadcastDraw (index : Nat) : Draw :=
  ⟨String.ofList (List.replicate index 'b'), "t0", [], [], []⟩

theorem broadcast_repeats :
    Repeats (fullBench 1).platform Bench.me toEveryone broadcastDraw Bench.world where
  sends index :=
    ⟨_, ⟨"chat", rfl⟩, by decide, none, none, rfl, rfl, build_plain rfl⟩
  distinct _ _ := eq_of_replicate_letter

/-- The broadcasts are exempt, and none is awaited. -/
theorem Repeated.unanswered
    {count : Nat} {world : World}
    (repeated : Repeated Bench.me toEveryone broadcastDraw Bench.world count world) :
    Store.exemptRows world.store.messages = world.store.messages.rows ∧
      Store.awaitedRows world.store.messages = [] := by
  have exempt : Store.exemptRows world.store.messages = world.store.messages.rows := by
    refine List.filter_eq_self.mpr fun row member => ?_
    obtain ⟨index, _, topic, stored⟩ := repeated.rows row member
    rw [stored]
    rfl
  refine ⟨exempt, ?_⟩
  rw [Store.awaitedRows, exempt]
  refine List.filter_eq_nil_iff.mpr fun row member => ?_
  obtain ⟨index, _, topic, stored⟩ := repeated.rows row member
  rw [stored]
  simp [Store.direct, Store.outboundRow, Store.inboundRow, draft, sendOpts, toEveryone]

/-- No broadcast has an id with another letter. -/
theorem Repeated.not_holds
    {count : Nat} {world : World} {id : String} {letter : Char}
    (repeated : Repeated Bench.me toEveryone broadcastDraw Bench.world count world)
    (member : letter ∈ id.toList) (other : letter ≠ 'b') :
    world.store.messages.holds id = false := by
  refine RowTable.holds_eq_false_iff.mpr fun row present same => ?_
  obtain ⟨index, _, topic, stored⟩ := repeated.rows row present
  have letters : id = String.ofList (List.replicate index 'b') :=
    same.symm.trans (congrArg MsgRow.id stored)
  rw [letters, String.toList_ofList] at member
  exact other (List.eq_of_mem_replicate member)

/-- A message of Alice to the daemon. -/
def fullText : Inner :=
  Bench.textTo "me" "m1" "alice" "t0" "hello"

/-- After the broadcasts the message is stored. -/
theorem Repeated.storing
    {count : Nat} {world : World}
    (repeated : Repeated Bench.me toEveryone broadcastDraw Bench.world count world) :
    Storing (fullBench 1).platform Bench.me world (Bench.delivery 0 0 "r1") (fun _ => {})
      (world.store.messages.last + 1) fullText := by
  have fresh : world.store.messages.holds fullText.id = false :=
    @Repeated.not_holds _ _ "m1" 'm' repeated (by decide) (by decide)
  have accepts : Accepted (fullBench 1).platform Bench.me (world.config (fullBench 1).platform)
      (world.trust (fullBench 1).platform) (Bench.delivery 0 0 "r1") fullText :=
    Bench.full_accepts repeated.config repeated.trust
  refine ⟨fun _ => rfl, ?_, ?_⟩
  · have ingested : Ingested (fullBench 1).platform Bench.me world (Bench.delivery 0 0 "r1")
        ((onMsg (fullBench 1).platform Bench.me (Bench.delivery 0 0 "r1")).exec (fun _ => {})
          world).1
        ((onMsg (fullBench 1).platform Bench.me (Bench.delivery 0 0 "r1")).exec (fun _ => {})
          world).2 := Prog.exec_of_meets onMsg_succeeds fun _ => rfl
    generalize (onMsg (fullBench 1).platform Bench.me (Bench.delivery 0 0 "r1")).exec
      (fun _ => {}) world = ended at ingested ⊢
    obtain ⟨final, outcome⟩ := ended
    cases ingested with
    | aside unplain _ _ =>
        exact absurd ⟨by decide, by decide⟩ (unplain fullText accepts)
    | replayed inner _ _ accepted _ used _ =>
        cases accepted.unique accepts
        cases used
    | duplicate inner _ accepted _ _ taken _ =>
        cases accepted.unique accepts
        rw [fresh] at taken
        cases taken
    | stored inner _ accepted _ _ _ _ =>
        cases accepted.unique accepts
        rfl
  · have free : world.store.messages.holds "r1" = false :=
      @Repeated.not_holds _ _ "r1" 'r' repeated (by decide) (by decide)
    have inserted := RowTable.holds_insertOrIgnore world.store.messages
      (Store.inboundRow fullText "chat") "r1"
    exact inserted.trans (by rw [free]; decide)

/-- The rows of the broadcasts are all kept, and none is awaited. -/
theorem Repeated.crowds
    {count : Nat} {world : World}
    (repeated : Repeated Bench.me toEveryone broadcastDraw Bench.world count world) :
    let final := ((onMsg (fullBench 1).platform Bench.me (Bench.delivery 0 0 "r1")).exec
      (fun _ => {}) world).1
    count ≤ final.store.messages.rows.length ∧ Store.awaitedRows final.store.messages = [] := by
  intro final
  obtain ⟨succeeds, stored, unused⟩ := repeated.storing
  have ingested : Ingested (fullBench 1).platform Bench.me world (Bench.delivery 0 0 "r1") final
      ((onMsg (fullBench 1).platform Bench.me (Bench.delivery 0 0 "r1")).exec (fun _ => {})
        world).2 := Prog.exec_of_meets onMsg_succeeds succeeds
  rw [stored] at ingested
  obtain ⟨rows, awaited⟩ := ingested.rows_of_stored unused
  have fresh : world.store.messages.holds fullText.id = false :=
    @Repeated.not_holds _ _ "m1" 'm' repeated (by decide) (by decide)
  have exempt := exemptRows_insertedLog world (Bench.delivery 0 0 "r1") fullText fresh
  obtain ⟨all, none⟩ := repeated.unanswered
  constructor
  · have kept := Store.length_rows_eq (Store.boundTable
      (insertedLog world (Bench.delivery 0 0 "r1") fullText)
      (world.config (fullBench 1).platform).maxMessages
      (world.config (fullBench 1).platform).maxBytes).1
    rw [Store.exemptRows_boundTable, exempt, all, repeated.length] at kept
    rw [rows]
    omega
  · rw [awaited, Store.awaitedRows, exempt]
    exact none

theorem run_moves
    (P : Platform) (identity : Identity) (system : System) (moves : List (Move Input Job)) :
    Machine.run (courseStep P identity) system (moves.map .move) =
      System.run P identity system moves := by
  induction moves generalizing system with
  | nil =>
      rfl
  | cons next rest inductionHypothesis =>
      exact inductionHypothesis (Pool.move (Job.thread P identity) system next)

/-- Broadcasts are logged as pending, never answered and never evicted, so that the log
exceeds every limit. -/
theorem store_grows :
    ¬ ∃ limit : Nat → Nat, ∀ (P : Platform) (identity : Identity) (start : World)
        (steps : List CourseStep), start.store.messages.rows = [] →
        Machine.EveryStep (courseStep P identity) (StoresWithin P identity limit)
          { shared := start } steps := by
  rintro ⟨limit, bounded⟩
  obtain ⟨moves, repeated⟩ := repeated_reached broadcast_repeats rfl rfl (limit 1 + 1)
  have every := bounded (fullBench 1).platform Bench.me Bench.world
    (moves.map .move ++ [.ingest (Bench.delivery 0 0 "r1") fun _ => {}]) rfl
  have within := every.last
  rw [run_moves] at within
  have stays := within _ fullText repeated.storing
  obtain ⟨many, awaited⟩ := repeated.crowds
  have cap : ((System.after (fullBench 1).platform Bench.me Bench.world moves).config
      (fullBench 1).platform).maxMessages = 1 := by
    rw [World.config, repeated.config]
    rfl
  rw [courseStep_ingest] at stays
  dsimp only at stays
  rw [System.after] at awaited many cap
  rw [awaited, cap] at stays
  exact Nat.not_succ_le_self (limit 1) (many.trans stays)

end AgentMsg
