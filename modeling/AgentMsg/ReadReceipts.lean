import AgentMsg.Cursors
import AgentMsg.Silence
import Mathlib.Data.List.Forall2

/-!
# Read receipts and what was acknowledged

An acknowledgement covers every message up to its number, and the read receipt is made for
the message at that number.  The two agree when the message at the number is all that the
acknowledgement covers, and not when it passes others on the way or comes again.
-/

namespace AgentMsg

/-! ## What an acknowledgement covers -/

/-- The stored inbound messages to an agent that are numbered in `(after, upTo]`. -/
def Store.addressed (store : Store) (name : String) (after upTo : Int) : List (Int × MsgRow) :=
  store.messages.rows.filter fun row =>
    row.2.direction == .inbound && row.2.recipient == name &&
      decide (after < row.1) && decide (row.1 ≤ upTo)

/-- The entry carries a read receipt for the row. -/
def ReadReceipt (P : Platform) (identity : Identity) (row : Int × MsgRow) (entry : Outbound) :
    Prop :=
  ∃ draw inner wrapper,
    build P identity draw (receiptOpts row.2.sender row.2.id .read) = .ok (inner, wrapper) ∧
      entry = outboxEntry P row.2.topic inner wrapper

/-- What is enqueued is one read receipt for each message that the cursor has moved
over. -/
def ReceiptsMatch (P : Platform) (identity : Identity) (consumer : String)
    (before after : Store) : Prop :=
  ∃ new rows, after.pendingOutbound = before.pendingOutbound ++ new ∧
    rows.Perm
      (before.addressed identity.name (before.cursor consumer) (after.cursor consumer)) ∧
    List.Forall₂ (ReadReceipt P identity) rows new

/-- Is the row one that gets a read receipt? -/
def MsgRow.isDirectTo (name : String) (row : MsgRow) : Bool :=
  row.direction == .inbound && row.recipient == name && row.recipient != "*"

/-- The row that gets the read receipt, when the calls that make it succeed: the inputs
are those of the look-up, of the log and of the outbox. -/
def Store.receiptRow (store : Store) (name : String) (seq : Int) (draw : Draw)
    (inputs : Nat → Input) : Option (Int × MsgRow) :=
  if (inputs 0).fault = none ∧ (inputs 2).fault = none ∧ store.outbox.holds draw.id = false then
    (store.messages.byRowid seq).filter fun row => row.2.isDirectTo name
  else none

section ReadReceipts

variable {P : Platform} {identity : Identity} {draw : Draw} {seq : Int} {consumer : String}
  {world : World} {inputs : Nat → Input}

theorem Store.mem_addressed
    {store : Store} {name : String} {after upTo : Int} {row : Int × MsgRow} :
    row ∈ store.addressed name after upTo ↔
      row ∈ store.messages.rows ∧ row.2.direction = .inbound ∧ row.2.recipient = name ∧
        after < row.1 ∧ row.1 ≤ upTo := by
  simp only [addressed, List.mem_filter, Bool.and_eq_true, beq_iff_eq, decide_eq_true_eq,
    and_assoc]

theorem MsgRow.isDirectTo_iff {name : String} {row : MsgRow} :
    row.isDirectTo name = true ↔
      row.direction = .inbound ∧ row.recipient = name ∧ row.recipient ≠ "*" := by
  simp only [isDirectTo, Bool.and_eq_true, beq_iff_eq, bne_iff_ne, and_assoc]

theorem Store.receiptRow_eq_some
    {store : Store} {name : String} {row : Int × MsgRow}
    (found : store.receiptRow name seq draw inputs = some row) :
    row ∈ store.messages.rows ∧ row.1 = seq ∧ row.2.direction = .inbound ∧
      row.2.recipient = name := by
  unfold receiptRow at found
  split at found
  · obtain ⟨stored, chosen⟩ := Option.filter_eq_some_iff.mp found
    obtain ⟨member, numbered⟩ := RowTable.byRowid_eq_some_iff.mp stored
    obtain ⟨inbound, mine, _⟩ := MsgRow.isDirectTo_iff.mp chosen
    exact ⟨member, numbered, inbound, mine⟩
  · cases found

/-! ## What is enqueued -/

theorem pendingOutbound_enqueue (store : Store) (entry : Outbound) :
    (store.enqueueOutbound entry).pendingOutbound =
      store.pendingOutbound ++ if store.outbox.holds entry.id = false then [entry] else [] := by
  unfold Store.enqueueOutbound Store.pendingOutbound
  rcases store.outbox.insertOrIgnore_cases entry with ⟨taken, rows, _⟩ | ⟨fresh, rows, _⟩
  · rw [if_neg (by simp [taken]), List.append_nil]
    exact congrArg (List.map Prod.snd) rows
  · rw [if_pos fresh]
    exact (congrArg (List.map Prod.snd) rows).trans List.map_append

/-- The automatic receipt is queued unless its call fails or its id is taken. -/
theorem enqueueReceipt_enqueues
    (world : World) (inputs : Nat → Input) (draw : Draw) (recipient refId : String)
    (status : ReceiptStatus) (topic : String) :
    ∃ inner wrapper,
      build P identity draw (receiptOpts recipient refId status) = .ok (inner, wrapper) ∧
      ((enqueueReceipt P identity draw recipient refId status topic).exec inputs
          world).1.store.pendingOutbound =
        world.store.pendingOutbound ++
          if (inputs 1).fault = none ∧ world.store.outbox.holds draw.id = false then
            [outboxEntry P topic inner wrapper]
          else [] := by
  have built := @build_plain P identity draw (receiptOpts recipient refId status) rfl
  refine ⟨_, _, built, ?_⟩
  unfold enqueueReceipt
  rw [built]
  dsimp only
  unfold Calls.insertOutboundLog Calls.enqueueOutbound
  rw [exec_storeCall_bind, exec_storeCall_bind, Prog.exec_pure]
  dsimp only
  generalize logged : world.store.attempt _ (inputs 0).fault = store
  have outbox : store.outbox = world.store.outbox := by
    rw [← logged]
    cases (inputs 0).fault <;> rfl
  have pending : store.pendingOutbound = world.store.pendingOutbound := by
    rw [Store.pendingOutbound, outbox, Store.pendingOutbound]
  cases fault : (inputs 1).fault with
  | none =>
      rw [← pending, ← outbox]
      refine (pendingOutbound_enqueue store _).trans ?_
      simp only [true_and]
      rfl
  | some writes =>
      rw [if_neg (fun both => Option.some_ne_none writes both.1), List.append_nil, ← pending]
      rfl

/-- The read receipt that an acknowledgement enqueues. -/
theorem maybeReadReceipt_enqueues
    (automatic : (world.config P).autoReceipts = true) :
    ∃ new, ((maybeReadReceipt P identity seq draw).exec inputs world).1.store.pendingOutbound =
        world.store.pendingOutbound ++ new ∧
      List.Forall₂ (ReadReceipt P identity)
        (world.store.receiptRow identity.name seq draw fun index => inputs (index + 1)).toList
        new := by
  unfold maybeReadReceipt loadConfig Calls.messageBySeq
  rw [Prog.exec_observe_bind, if_pos automatic, exec_storeQuery_bind]
  cases fault : (inputs 1).fault with
  | some writes =>
      refine ⟨[], (List.append_nil _).symm, ?_⟩
      rw [Store.receiptRow, if_neg (by simp [fault])]
      exact .nil
  | none =>
      unfold Store.receiptRow Store.messageBySeq
      cases found : world.store.messages.byRowid seq with
      | none =>
          refine ⟨[], (List.append_nil _).symm, ?_⟩
          rw [Option.filter_none, ite_self]
          exact .nil
      | some row =>
          dsimp only [Option.map_some]
          cases direct : row.2.isDirectTo identity.name with
          | true =>
              obtain ⟨inner, wrapper, built, queued⟩ := @enqueueReceipt_enqueues P identity world
                (fun index => inputs (index + 2)) draw row.2.sender row.2.id .read row.2.topic
              have condition : (rowToMsg row).direction = .inbound ∧
                  (rowToMsg row).recipient = identity.name ∧ (rowToMsg row).recipient ≠ "*" :=
                MsgRow.isDirectTo_iff.mp direct
              rw [if_pos condition]
              refine ⟨_, queued, ?_⟩
              simp only [fault, true_and, Option.filter_some, direct, if_true]
              split
              · exact .cons ⟨draw, inner, wrapper, built, rfl⟩ .nil
              · exact .nil
          | false =>
              have condition : ¬ ((rowToMsg row).direction = .inbound ∧
                  (rowToMsg row).recipient = identity.name ∧ (rowToMsg row).recipient ≠ "*") := by
                intro both
                have chosen := MsgRow.isDirectTo_iff.mpr both
                exact Bool.false_ne_true (direct.symm.trans chosen)
              rw [if_neg condition]
              refine ⟨[], (List.append_nil _).symm, ?_⟩
              simp only [Option.filter_some, direct, Bool.false_eq_true, if_false, ite_self]
              exact .nil

/-! ## The cursor -/

private theorem meets_cursors
    {α : Type} {operation : String → Store.Op} {result : Store → α}
    (keeps : ∀ now fault, (world.store.attempt (operation now) fault).cursors =
      world.store.cursors) :
    Prog.Meets (fun _ => True) (storeCall operation result) world fun final _ =>
      final.store.cursors = world.store.cursors :=
  fun input _ => keeps input.now input.fault

private theorem enqueueReceipt_cursors
    (recipient refId : String) (status : ReceiptStatus) (topic : String) :
    Prog.Meets (fun _ => True) (enqueueReceipt P identity draw recipient refId status topic) world
      fun final _ => final.store.cursors = world.store.cursors := by
  unfold enqueueReceipt
  split
  · exact rfl
  · refine Prog.meets_bind.mpr ((meets_cursors fun _ fault => ?_).weaken fun logged _ same => ?_)
    · cases fault <;> rfl
    · refine Prog.meets_bind.mpr ((meets_cursors fun _ fault => ?_).weaken fun _ _ later => ?_)
      · cases fault <;> rfl
      · exact later.trans same

theorem maybeReadReceipt_cursors :
    Prog.Meets (fun _ => True) (maybeReadReceipt P identity seq draw) world fun final _ =>
      final.store.cursors = world.store.cursors := by
  refine Prog.meets_bind.mpr (meets_observe ?_)
  split
  · refine Prog.meets_bind.mpr (Prog.meets_call.mpr fun input _ => ?_)
    dsimp only
    split
    · split
      · exact enqueueReceipt_cursors _ _ _ _
      · exact rfl
    · exact rfl
  · exact rfl

/-- The acknowledgement covers what is numbered up to its number. -/
theorem addressed_ack (store : Store) (name consumer : String) (seq : Int) (now : String) :
    store.addressed name (store.cursor consumer) ((store.ack consumer seq now).cursor consumer) =
      store.addressed name (store.cursor consumer) seq := by
  rcases store.cursor_ack consumer seq now with moved | ⟨stays, within⟩
  · rw [moved]
  · rw [stays]
    refine List.filter_congr fun row _ => ?_
    have same : (decide (store.cursor consumer < row.1) && decide (row.1 ≤ store.cursor consumer)) =
        (decide (store.cursor consumer < row.1) && decide (row.1 ≤ seq)) := by
      rw [Bool.eq_iff_iff]
      simp only [Bool.and_eq_true, decide_eq_true_eq]
      omega
    rw [Bool.and_assoc, same, ← Bool.and_assoc]

/-! ## When they agree -/

/-- Receipts for one row at most match the rows that are due exactly when that row is all
that is due. -/
theorem matched_iff
    {due : List (Int × MsgRow)} {answered : Option (Int × MsgRow)} {new : List Outbound}
    {relation : Int × MsgRow → Outbound → Prop}
    (matched : List.Forall₂ relation answered.toList new)
    (belongs : due ≠ [] → ∀ row, answered = some row → row ∈ due) :
    (∃ rows : List (Int × MsgRow), rows.Perm due ∧ List.Forall₂ relation rows new) ↔
      due = answered.toList := by
  constructor
  · rintro ⟨rows, same, other⟩
    have length : due.length = answered.toList.length := by
      rw [← same.length_eq, other.length_eq, matched.length_eq]
    cases answered with
    | none =>
        exact List.length_eq_zero_iff.mp length
    | some row =>
        obtain ⟨only, rfl⟩ := List.length_eq_one_iff.mp length
        have member := belongs (List.cons_ne_nil _ _) row rfl
        rw [List.mem_singleton.mp member]
        rfl
  · rintro rfl
    exact ⟨_, .refl _, matched⟩

theorem attempt_ack (store : Store) (consumer : String) (seq : Int) (input : Input) :
    ∃ cursors,
      store.attempt (.ack consumer seq input.now) input.fault = { store with cursors } := by
  cases input.fault with
  | some writes =>
      exact ⟨store.cursors, rfl⟩
  | none =>
      simp only [Store.attempt, Store.apply, Store.ack]
      split
      · exact ⟨_, rfl⟩
      · split
        · exact ⟨_, rfl⟩
        · exact ⟨store.cursors, rfl⟩

/-- The rows that the cursor moves over when the acknowledgement is attempted. -/
theorem addressed_attempt_ack (store : Store) (name consumer : String) (seq : Int) (input : Input) :
    store.addressed name (store.cursor consumer)
        ((store.attempt (.ack consumer seq input.now) input.fault).cursor consumer) =
      if input.fault = none then store.addressed name (store.cursor consumer) seq else [] := by
  cases fault : input.fault with
  | none =>
      rw [if_pos rfl]
      exact addressed_ack store name consumer seq input.now
  | some writes =>
      rw [if_neg (Option.some_ne_none writes)]
      refine List.filter_eq_nil_iff.mpr fun row _ => ?_
      have apart : ¬ (store.cursor consumer < row.1 ∧ row.1 ≤ store.cursor consumer) := by
        omega
      simp only [Bool.and_eq_true, decide_eq_true_eq, not_and]
      exact fun before within => apart ⟨before.2, within⟩

/-- After the cursor was moved, or was not, the receipt is made for the one number. -/
theorem receiptsMatch_iff
    (input : Input) (automatic : (world.config P).autoReceipts = true) :
    ReceiptsMatch P identity consumer world.store
        ((maybeReadReceipt P identity seq draw).exec inputs { world with
          store := world.store.attempt (.ack consumer seq input.now) input.fault }).1.store ↔
      (if input.fault = none then
          world.store.addressed identity.name (world.store.cursor consumer) seq else []) =
        (world.store.receiptRow identity.name seq draw fun index => inputs (index + 1)).toList := by
  rw [← addressed_attempt_ack]
  obtain ⟨cursors, acked⟩ := attempt_ack world.store consumer seq input
  rw [acked]
  obtain ⟨new, queued, matched⟩ := @maybeReadReceipt_enqueues P identity draw seq
    { world with store := { world.store with cursors } } inputs automatic
  have stays : ((maybeReadReceipt P identity seq draw).exec inputs
      { world with store := { world.store with cursors } }).1.store.cursors = cursors :=
    Prog.exec_of_meets maybeReadReceipt_cursors fun _ => trivial
  generalize ((maybeReadReceipt P identity seq draw).exec inputs
    { world with store := { world.store with cursors } }).1.store = final at queued stays ⊢
  have pending : final.pendingOutbound = world.store.pendingOutbound ++ new := queued
  have receipted : List.Forall₂ (ReadReceipt P identity)
      (world.store.receiptRow identity.name seq draw fun index => inputs (index + 1)).toList new :=
    matched
  have cursor : final.cursor consumer =
      ({ world.store with cursors } : Store).cursor consumer := by
    rw [Store.cursor, stays, Store.cursor]
  rw [← matched_iff receipted ?_, ← cursor]
  · constructor
    · rintro ⟨others, rows, enqueued, same, other⟩
      rw [pending] at enqueued
      exact ⟨rows, same, List.append_cancel_left enqueued ▸ other⟩
    · rintro ⟨rows, same, other⟩
      exact ⟨new, rows, pending, same, other⟩
  · intro nonempty row found
    obtain ⟨member, rfl, inbound, mine⟩ := Store.receiptRow_eq_some found
    rw [← acked, addressed_attempt_ack] at nonempty ⊢
    by_cases fault : input.fault = none
    · rw [if_pos fault] at nonempty ⊢
      obtain ⟨due, dueMember⟩ := List.exists_mem_of_ne_nil _ nonempty
      obtain ⟨_, _, _, after, upTo⟩ := Store.mem_addressed.mp dueMember
      exact Store.mem_addressed.mpr ⟨member, inbound, mine, by omega, le_refl _⟩
    · rw [if_neg fault] at nonempty
      exact absurd rfl nonempty

end ReadReceipts

/-- With automatic receipts, an acknowledgement of a request or of a stream frame enqueues
the read receipts of what it covers exactly when that is the message at its number. -/
theorem read_receipts_match_iff
    (P : Platform) (identity : Identity) (world : World) (consumer : String) (draw : Draw)
    (inputs : Nat → Input) (automatic : (world.config P).autoReceipts = true) :
    (∀ seq, ReceiptsMatch P identity consumer world.store
        ((ackRequest P identity consumer seq draw).exec inputs world).1.store ↔
      ((inputs 0).fault = none →
        world.store.addressed identity.name (world.store.cursor consumer) seq =
          (world.store.receiptRow identity.name seq draw fun index => inputs (index + 2)).toList)) ∧
    ∀ msg : StoredMsg, ReceiptsMatch P identity consumer world.store
        ((ackFrame P identity consumer true draw (.message msg)).exec inputs world).1.store ↔
      (if (inputs 0).fault = none then
          world.store.addressed identity.name (world.store.cursor consumer) msg.seq else []) =
        (world.store.receiptRow identity.name msg.seq draw fun index =>
          inputs (index + 2)).toList := by
  constructor
  · intro seq
    have iff := @receiptsMatch_iff P identity draw seq consumer world
      (fun index => inputs (index + 1)) (inputs 0) automatic
    unfold ackRequest Calls.ack
    rw [exec_storeCall_bind]
    cases fault : (inputs 0).fault with
    | none =>
        rw [fault, if_pos rfl] at iff
        dsimp only
        rw [Prog.exec_bind_pure]
        exact iff.trans ⟨fun same _ => same, fun same => same rfl⟩
    | some writes =>
        refine iff_of_true ⟨[], [], (List.append_nil _).symm, ?_, .nil⟩ fun none => ?_
        · have kept := addressed_attempt_ack world.store identity.name consumer seq (inputs 0)
          rw [fault, if_neg (Option.some_ne_none writes)] at kept
          rw [← kept]
          exact .refl _
        · cases none
  · intro msg
    exact @receiptsMatch_iff P identity draw msg.seq consumer world
      (fun index => inputs (index + 1)) (inputs 0) automatic

/-! ## Two messages and one acknowledgement -/

/-- Two messages to the daemon are stored and none is acknowledged. -/
def twoTexts : World :=
  { Bench.world with
    store := ((({} : Store).insertInbound (Bench.textTo "me" "m1" "alice" "t0" "hi")
      "chat").1.insertInbound (Bench.textTo "me" "m2" "alice" "t0" "ho") "chat").1 }

def readDraw : Draw := ⟨"r1", "t0", [], [], []⟩

/-- The first message is acknowledged, and there is one receipt for it. -/
theorem read_receipts_match_iff_first :
    ReceiptsMatch noisyBench.platform Bench.me "reader" twoTexts.store
      ((ackRequest noisyBench.platform Bench.me "reader" 1 readDraw).exec (fun _ => {})
        twoTexts).1.store :=
  ((read_receipts_match_iff noisyBench.platform Bench.me twoTexts "reader" readDraw (fun _ => {})
    rfl).1 1).mpr fun _ => rfl

/-- Both messages are acknowledged at once, and there is no receipt for the first. -/
theorem batch_acknowledged_once :
    ¬ ∀ (seq : Int) (draw : Draw) (inputs : Nat → Input), (∀ index, (inputs index).Succeeds) →
      twoTexts.store.outbox.holds draw.id = false →
      ReceiptsMatch noisyBench.platform Bench.me "reader" twoTexts.store
        ((ackRequest noisyBench.platform Bench.me "reader" seq draw).exec inputs
          twoTexts).1.store := by
  intro matched
  have all := ((read_receipts_match_iff noisyBench.platform Bench.me twoTexts "reader" readDraw
    (fun _ => {}) rfl).1 2).mp (matched 2 readDraw (fun _ => {}) (fun _ => rfl) rfl) rfl
  have both : (twoTexts.store.addressed Bench.me.name (twoTexts.store.cursor "reader") 2).length =
      2 := rfl
  rw [all] at both
  cases found : twoTexts.store.receiptRow Bench.me.name 2 readDraw fun _ => {} with
  | none =>
      rw [found] at both
      cases both
  | some row =>
      rw [found] at both
      cases both

end AgentMsg
