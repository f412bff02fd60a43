import AgentMsg.Log
import Mathlib.Data.List.Induction

/-!
# The delivery state of outbound messages

The hand-off to the broker, the two receipts and the permanent failure each update
the delivery columns of one outbound row under a condition on its state.  The
conditions make the state move forward only.  They also make the order of the two
receipts matter, for one column: a delivered receipt is refused after a read receipt,
and its timestamp is lost.
-/

namespace AgentMsg

def DeliveryState.rank : DeliveryState → Nat
  | .none => 0
  | .pending => 0
  | .sent => 1
  | .delivered => 2
  | .read => 3
  | .failed => 4

theorem DeliveryState.rank_le_failed (state : DeliveryState) :
    state.rank ≤ DeliveryState.failed.rank := by
  cases state <;> decide

theorem DeliveryState.rank_le_read
    {state : DeliveryState} (live : state ≠ .failed) :
    state.rank ≤ DeliveryState.read.rank := by
  cases state with
  | failed =>
      exact absurd rfl live
  | _ =>
      decide

theorem DeliveryState.rank_le_delivered
    {state : DeliveryState} (awaiting : state ≠ .read ∧ state ≠ .failed) :
    state.rank ≤ DeliveryState.delivered.rank := by
  cases state with
  | read =>
      exact absurd rfl awaiting.1
  | failed =>
      exact absurd rfl awaiting.2
  | _ =>
      decide

theorem DeliveryState.eq_failed_of_rank
    {state : DeliveryState} (reached : DeliveryState.failed.rank ≤ state.rank) :
    state = .failed := by
  cases state with
  | failed =>
      rfl
  | _ =>
      exact absurd reached (by decide)

/-- The timestamp that belongs to the delivery state is set. -/
def MsgRow.Coherent (row : MsgRow) : Prop :=
  match row.deliveryState with
  | .sent => row.brokerAckTs.isSome = true
  | .delivered => row.deliveredTs.isSome = true
  | .read => row.readTs.isSome = true
  | _ => True

namespace Store

/-! ## One operation -/

/-- The calls that move the delivery state. -/
def Op.Delivers : Op → Prop
  | .markDelivered _ _ => True
  | .applyDeliveryReceipt _ _ => True
  | .applyReadReceipt _ _ => True
  | .markFailed _ => True
  | _ => False

theorem Op.Delivers.quiet {operation : Op} (delivers : operation.Delivers) :
    operation.Quiet := by
  cases operation with
  | markDelivered | applyDeliveryReceipt | applyReadReceipt | markFailed =>
      refine ⟨fun _ _ same => ?_, fun trims => trims⟩
      cases same
  | _ =>
      exact delivers.elim

/-- The state does not fall, and the new state has its timestamp. -/
theorem Op.update_forward
    {operation : Op} {update : DeliveryUpdate} (found : operation.update = some update)
    {row : MsgRow} (selected : update.selects row = true) :
    row.deliveryState.rank ≤ (update.change row).deliveryState.rank ∧
      (update.change row).Coherent := by
  simp only [DeliveryUpdate.selects, Bool.and_eq_true, beq_iff_eq] at selected
  obtain ⟨_, guarded⟩ := selected
  cases operation with
  | markSent id now | markDelivered id now =>
      cases found
      have state : row.deliveryState = .pending ∨ row.deliveryState = .none := by
        simpa [sentUpdate] using guarded
      have rank : row.deliveryState.rank = 0 := by
        rcases state with state | state <;> rw [state] <;> rfl
      exact ⟨rank ▸ Nat.zero_le _, rfl⟩
  | applyDeliveryReceipt origId ts =>
      cases found
      have state : row.deliveryState ≠ .read ∧ row.deliveryState ≠ .failed := by
        simpa [deliveredUpdate] using guarded
      exact ⟨DeliveryState.rank_le_delivered state, rfl⟩
  | applyReadReceipt origId ts =>
      cases found
      have state : row.deliveryState ≠ .failed := by
        simpa [readUpdate] using guarded
      exact ⟨DeliveryState.rank_le_read state, rfl⟩
  | markFailed id =>
      cases found
      exact ⟨DeliveryState.rank_le_failed _, trivial⟩
  | _ =>
      cases found

/-- The same row before and after an operation. -/
theorem LogStep.forward
    {before after : MessageTable} {operation : Op} (step : LogStep before operation after)
    {old new : Int × MsgRow} (oldMember : old ∈ before.rows) (newMember : new ∈ after.rows)
    (seq : new.1 = old.1) (coherent : old.2.Coherent) :
    old.2.deliveryState.rank ≤ new.2.deliveryState.rank ∧ new.2.Coherent := by
  rcases step.same_row oldMember newMember seq with rfl | ⟨update, found, selected, rfl⟩
  · exact ⟨Nat.le_refl _, coherent⟩
  · exact Op.update_forward found selected

/-- A row stays until rows are deleted. -/
theorem LogStep.stays
    {before after : MessageTable} {operation : Op} (step : LogStep before operation after)
    {old : Int × MsgRow} (member : old ∈ before.rows) (keeps : ¬ operation.Trims) :
    ∃ new ∈ after.rows, new.1 = old.1 := by
  cases step with
  | same =>
      exact ⟨old, member, rfl⟩
  | inbound inner topic =>
      exact ⟨old, RowTable.mem_insertOrIgnore.mpr (Or.inl member), rfl⟩
  | outbound inner topic =>
      exact ⟨old, RowTable.mem_insertOrIgnore.mpr (Or.inl member), rfl⟩
  | updated update _ =>
      exact ⟨_, RowTable.mem_updateWhere.mpr ⟨old, member, rfl⟩, rfl⟩
  | trimmed trims _ _ =>
      exact absurd trims keeps

/-! ## Runs of operations -/

theorem run_last_le (store : Store) (operations : List Op) :
    store.messages.last ≤ (store.run operations).messages.last := by
  induction operations generalizing store with
  | nil =>
      exact Int.le_refl _
  | cons operation operations inductionHypothesis =>
      have here := (store.apply_log operation).last_le
      have later := inductionHypothesis (store.apply operation)
      rw [run_cons]
      omega

/-- A row keeps what it has gained, whatever is done to the store. -/
theorem run_forward
    {store : Store} {old new : Int × MsgRow} (oldMember : old ∈ store.messages.rows)
    (coherent : old.2.Coherent) (operations : List Op)
    (newMember : new ∈ (store.run operations).messages.rows) (seq : new.1 = old.1) :
    old.2.deliveryState.rank ≤ new.2.deliveryState.rank ∧ new.2.Coherent ∧
      new.2.content = old.2.content := by
  induction operations using List.reverseRecOn generalizing new with
  | nil =>
      have same := RowTable.rowid_injective _ newMember oldMember seq
      rw [same]
      exact ⟨Nat.le_refl _, coherent, rfl⟩
  | append_singleton operations operation inductionHypothesis =>
      rw [run_concat] at newMember
      have step := (store.run operations).apply_log operation
      have drawn : new.1 ≤ (store.run operations).messages.last := by
        have bound := store.messages.bounded old oldMember
        have grows := store.run_last_le operations
        omega
      obtain ⟨middle, middleMember, number, _⟩ := step.drawn_row newMember drawn
      obtain ⟨earlier, middleCoherent, content⟩ :=
        inductionHypothesis middleMember (number.symm.trans seq)
      obtain ⟨later, newCoherent⟩ := step.forward middleMember newMember number middleCoherent
      refine ⟨Nat.le_trans earlier later, newCoherent, Eq.trans ?_ content⟩
      rcases step.same_row middleMember newMember number with rfl | ⟨update, _, _, rfl⟩
      · rfl
      · exact update.content middle.2

theorem run_stays
    {store : Store} {old : Int × MsgRow} (member : old ∈ store.messages.rows)
    (operations : List Op) (keeps : ∀ operation ∈ operations, ¬ operation.Trims) :
    ∃ new ∈ (store.run operations).messages.rows, new.1 = old.1 := by
  induction operations generalizing store old with
  | nil =>
      exact ⟨old, member, rfl⟩
  | cons operation operations inductionHypothesis =>
      have here := keeps operation List.mem_cons_self
      obtain ⟨middle, middleMember, number⟩ := (store.apply_log operation).stays member here
      obtain ⟨new, newMember, sameNumber⟩ :=
        inductionHypothesis middleMember fun later afterwards =>
          keeps later (List.mem_cons_of_mem _ afterwards)
      exact ⟨new, newMember, sameNumber.trans number⟩

/-- The row an outbound message is logged in. -/
theorem logged_row
    {store : Store} {inner : Inner} (topic : String) (fresh : store.containsId inner.id = false) :
    (store.messages.last + 1, outboundRow inner topic) ∈
      (store.insertOutboundLog inner topic).messages.rows :=
  RowTable.mem_insertOrIgnore.mpr (Or.inr ⟨fresh, rfl⟩)

/-- Whatever is done to the store after an outbound message was logged, its row, while
it is there, moves forward only and has the timestamp of its state; it stays until rows
are evicted; and the calls that move it change no inbound row. -/
theorem delivery_moves_forward
    (store : Store) (inner : Inner) (topic : String) (earlier later : List Op)
    (fresh : store.containsId inner.id = false) :
    (∀ old ∈ ((store.insertOutboundLog inner topic).run earlier).messages.rows,
        ∀ new ∈ ((store.insertOutboundLog inner topic).run
          (earlier ++ later)).messages.rows,
        old.1 = store.messages.last + 1 → new.1 = store.messages.last + 1 →
          old.2.deliveryState.rank ≤ new.2.deliveryState.rank ∧
            (old.2.deliveryState = .failed → new.2.deliveryState = .failed) ∧
            old.2.Coherent ∧ new.2.Coherent ∧
            new.2.content = (outboundRow inner topic).content) ∧
      ((∀ operation ∈ earlier ++ later, ¬ operation.Trims) →
        ∃ row ∈ ((store.insertOutboundLog inner topic).run
          (earlier ++ later)).messages.rows, row.1 = store.messages.last + 1) ∧
      ∀ (reached : Store) (operation : Op), operation.Delivers →
        SameInbound reached.messages (reached.apply operation).messages := by
  have logged := logged_row topic fresh
  have coherent : (outboundRow inner topic).Coherent := trivial
  refine ⟨?_, ?_, ?_⟩
  · intro old oldMember new newMember oldNumber newNumber
    obtain ⟨_, oldCoherent, oldContent⟩ :=
      run_forward logged coherent earlier oldMember oldNumber
    rw [run_append] at newMember
    obtain ⟨rank, newCoherent, newContent⟩ :=
      run_forward oldMember oldCoherent later newMember (newNumber.trans oldNumber.symm)
    refine ⟨rank, fun failed => ?_, oldCoherent, newCoherent, newContent.trans oldContent⟩
    rw [failed] at rank
    exact DeliveryState.eq_failed_of_rank rank
  · exact fun keeps => run_stays logged _ keeps
  · intro reached operation delivers
    exact (reached.apply_log operation).sameInbound delivers.quiet

/-- A message to Bob. -/
def toBob : Inner :=
  { id := "x", v := PROTOCOL_VERSION, sender := "me", recipient := "bob", ts := "t0",
    nonce := "", ctype := CTYPE_TEXT, body := "hi" }

/-- The message is taken by the broker; its receipts arrive in the wrong order. -/
theorem delivery_moves_forward_toBob :
    ∃ row ∈ ((({} : Store).insertOutboundLog toBob "chat").run
        ([.markDelivered "x" "t1"] ++
          [.applyReadReceipt "x" "t2", .applyDeliveryReceipt "x" "t3"])).messages.rows,
      row.1 = 1 ∧ row.2.Coherent := by
  obtain ⟨forward, stays, _⟩ :=
    delivery_moves_forward {} toBob "chat"
      ([.markDelivered "x" "t1"] ++
        [.applyReadReceipt "x" "t2", .applyDeliveryReceipt "x" "t3"]) [] rfl
  rw [List.append_nil] at forward stays
  obtain ⟨row, member, number⟩ := stays (by simp [Op.Trims])
  exact ⟨row, member, number, (forward row member row member number number).2.2.1⟩

/-! ## Receipts in any order -/

/-- The receipts and the hand-off. -/
def Op.Arrives : Op → Prop
  | .markDelivered _ _ => True
  | .applyDeliveryReceipt _ _ => True
  | .applyReadReceipt _ _ => True
  | _ => False

/-- The operation without the time at which a hand-off is recorded. -/
def Op.unstamped : Op → Op
  | .markDelivered id _ => .markDelivered id ""
  | operation => operation

/-- The timestamp of a delivered receipt for a message. -/
def Op.deliveredFor (id : String) : Op → Option String
  | .applyDeliveryReceipt origId ts => if origId = id then some ts else none
  | _ => none

/-- The timestamp of a read receipt for a message. -/
def Op.readFor (id : String) : Op → Option String
  | .applyReadReceipt origId ts => if origId = id then some ts else none
  | _ => none

/-- Two orders of the same receipts and hand-offs, with at most one receipt of each
status for a message. -/
structure Reordered (left right : List Op) : Prop where
  arrives : ∀ operation ∈ left, operation.Arrives
  deliveredOnce : ∀ id, (left.filterMap (Op.deliveredFor id)).length ≤ 1
  readOnce : ∀ id, (left.filterMap (Op.readFor id)).length ≤ 1
  permuted : (left.map Op.unstamped).Perm (right.map Op.unstamped)

/-- What an operation makes of a row. -/
def Op.advance (operation : Op) (row : MsgRow) : MsgRow :=
  match operation.update with
  | some update => if update.selects row then update.change row else row
  | none => row

def advanceAll (operations : List Op) (row : MsgRow) : MsgRow :=
  operations.foldl (fun reached operation => operation.advance reached) row

theorem Op.Arrives.rows
    {operation : Op} (arrives : operation.Arrives) (store : Store) :
    (store.apply operation).messages.rows =
      store.messages.rows.map fun row => (row.1, operation.advance row.2) := by
  cases operation with
  | markDelivered | applyDeliveryReceipt | applyReadReceipt =>
      rfl
  | _ =>
      exact arrives.elim

theorem rows_run
    {operations : List Op} (arrives : ∀ operation ∈ operations, operation.Arrives)
    (store : Store) :
    (store.run operations).messages.rows =
      store.messages.rows.map fun row => (row.1, advanceAll operations row.2) := by
  induction operations generalizing store with
  | nil =>
      exact (List.map_id _).symm
  | cons operation operations inductionHypothesis =>
      rw [run_cons,
        inductionHypothesis (fun later member => arrives later (List.mem_cons_of_mem _ member)),
        (arrives operation List.mem_cons_self).rows, List.map_map]
      rfl

/-! ### The state and the time of reading -/

/-- Raise a state to a level. -/
def raise (level state : DeliveryState) : DeliveryState :=
  if state.rank < level.rank then level else state

theorem raise_comm (first second state : DeliveryState) :
    raise first (raise second state) = raise second (raise first state) := by
  cases first <;> cases second <;> cases state <;> rfl

theorem raise_eq_failed
    {level state : DeliveryState} (below : level ≠ .failed) :
    raise level state = .failed ↔ state = .failed := by
  cases level with
  | failed =>
      exact absurd rfl below
  | _ =>
      cases state <;> decide

/-- The row a call refers to, and the state it raises it to. -/
def Op.target : Op → String × DeliveryState
  | .markDelivered id _ => (id, .sent)
  | .applyDeliveryReceipt origId _ => (origId, .delivered)
  | .applyReadReceipt origId _ => (origId, .read)
  | _ => ("", .none)

theorem Op.target_below (operation : Op) : operation.target.2 ≠ .failed := by
  cases operation <;> simp [Op.target]

/-- A row without the columns that depend on the order of the receipts. -/
def settled (row : MsgRow) : MsgRow :=
  { row with brokerAckTs := none, deliveredTs := none }

/-- What an operation makes of the columns that do not depend on the order. -/
def Op.settle (operation : Op) (row : MsgRow) : MsgRow :=
  if row.id = operation.target.1 ∧ row.direction = .outbound ∧ row.deliveryState ≠ .failed then
    { row with
      deliveryState := raise operation.target.2 row.deliveryState
      readTs := (operation.readFor row.id).or row.readTs }
  else row

theorem Op.Arrives.settled_advance
    {operation : Op} (arrives : operation.Arrives) (row : MsgRow) :
    settled (operation.advance row) = operation.settle (settled row) := by
  rcases row with ⟨id, direction, _, _, _, _, _, _, _, _, _, _, _, state, _, _, _⟩
  cases operation with
  | markDelivered target now =>
      by_cases own : id = target
      · cases direction <;> cases state <;>
          simp [Op.advance, Op.update, sentUpdate, DeliveryUpdate.selects, settled, Op.settle,
            Op.target, Op.readFor, raise, DeliveryState.rank, own]
      · simp [Op.advance, Op.update, sentUpdate, DeliveryUpdate.selects, settled, Op.settle,
          Op.target, own]
  | applyDeliveryReceipt target ts =>
      by_cases own : id = target
      · cases direction <;> cases state <;>
          simp [Op.advance, Op.update, deliveredUpdate, DeliveryUpdate.selects, settled,
            Op.settle, Op.target, Op.readFor, raise, DeliveryState.rank, own]
      · simp [Op.advance, Op.update, deliveredUpdate, DeliveryUpdate.selects, settled,
          Op.settle, Op.target, own]
  | applyReadReceipt target ts =>
      by_cases own : id = target
      · cases direction <;> cases state <;>
          simp [Op.advance, Op.update, readUpdate, DeliveryUpdate.selects, settled,
            Op.settle, Op.target, Op.readFor, raise, DeliveryState.rank, own]
      · simp [Op.advance, Op.update, readUpdate, DeliveryUpdate.selects, settled,
          Op.settle, Op.target, own]
  | _ =>
      exact arrives.elim

theorem settled_advanceAll
    {operations : List Op} (arrives : ∀ operation ∈ operations, operation.Arrives)
    (row : MsgRow) :
    settled (advanceAll operations row) =
      (operations.map Op.unstamped).foldl (fun reached operation => operation.settle reached)
        (settled row) := by
  induction operations generalizing row with
  | nil =>
      rfl
  | cons operation operations inductionHypothesis =>
      have here := (arrives operation List.mem_cons_self).settled_advance row
      have same : operation.unstamped.settle = operation.settle := by
        cases operation <;> rfl
      rw [List.map_cons, List.foldl_cons, same, ← here]
      exact inductionHypothesis (fun later member => arrives later (List.mem_cons_of_mem _ member))
        (operation.advance row)

/-- Two operations commute, if they do not carry two times of reading. -/
theorem Op.settle_comm
    {first second : Op} (row : MsgRow)
    (agree : ∀ ts other, first.readFor row.id = some ts → second.readFor row.id = some other →
      ts = other) :
    second.settle (first.settle row) = first.settle (second.settle row) := by
  by_cases own : row.id = first.target.1 ∧ row.direction = .outbound ∧ row.deliveryState ≠ .failed
  · by_cases other :
        row.id = second.target.1 ∧ row.direction = .outbound ∧ row.deliveryState ≠ .failed
    · have firstLive := mt (raise_eq_failed first.target_below).mp own.2.2
      have secondLive := mt (raise_eq_failed second.target_below).mp own.2.2
      have times : (second.readFor row.id).or ((first.readFor row.id).or row.readTs) =
          (first.readFor row.id).or ((second.readFor row.id).or row.readTs) := by
        cases firstTime : first.readFor row.id with
        | none =>
            rfl
        | some ts =>
            cases secondTime : second.readFor row.id with
            | none =>
                rfl
            | some ts' =>
                rw [agree ts ts' firstTime secondTime]
      simp only [Op.settle, if_pos own, if_pos other]
      rw [if_pos ⟨other.1, own.2.1, firstLive⟩, if_pos ⟨own.1, own.2.1, secondLive⟩]
      simp only [raise_comm second.target.2, times]
    · simp only [Op.settle, if_pos own, if_neg other]
      rw [if_neg fun applies => other ⟨applies.1, own.2⟩]
  · by_cases other :
        row.id = second.target.1 ∧ row.direction = .outbound ∧ row.deliveryState ≠ .failed
    · simp only [Op.settle, if_neg own, if_pos other]
      rw [if_neg fun applies => own ⟨applies.1, other.2⟩]
    · simp only [Op.settle, if_neg own, if_neg other]

theorem filterMap_eq_of_once
    {α β : Type} {project : α → Option β} {items : List α}
    (once : (items.filterMap project).length ≤ 1) {first second : α}
    (firstMember : first ∈ items) (secondMember : second ∈ items) {left right : β}
    (isLeft : project first = some left) (isRight : project second = some right) :
    left = right := by
  have leftMember : left ∈ items.filterMap project :=
    List.mem_filterMap.mpr ⟨first, firstMember, isLeft⟩
  have rightMember : right ∈ items.filterMap project :=
    List.mem_filterMap.mpr ⟨second, secondMember, isRight⟩
  match items.filterMap project, once, leftMember, rightMember with
  | [only], _, isOnly, isOnlyToo =>
      rw [List.mem_singleton.mp isOnly, List.mem_singleton.mp isOnlyToo]

theorem Reordered.arrivesRight
    {left right : List Op} (reordered : Reordered left right) :
    ∀ operation ∈ right, operation.Arrives := by
  intro operation member
  have unstamped : operation.unstamped ∈ left.map Op.unstamped :=
    reordered.permuted.mem_iff.mpr (List.mem_map_of_mem member)
  obtain ⟨other, otherMember, same⟩ := List.mem_map.mp unstamped
  have arrives := reordered.arrives other otherMember
  cases operation with
  | markDelivered | applyDeliveryReceipt | applyReadReceipt =>
      trivial
  | _ =>
      cases other <;> first | exact arrives.elim | cases same

/-- The same state and time of reading in both orders. -/
theorem Reordered.settled_eq
    {left right : List Op} (reordered : Reordered left right) (row : MsgRow) :
    settled (advanceAll left row) = settled (advanceAll right row) := by
  rw [settled_advanceAll reordered.arrives, settled_advanceAll reordered.arrivesRight]
  refine reordered.permuted.foldl_eq' ?_ _
  intro first firstMember second secondMember reached
  obtain ⟨first, firstLeft, rfl⟩ := List.mem_map.mp firstMember
  obtain ⟨second, secondLeft, rfl⟩ := List.mem_map.mp secondMember
  refine Op.settle_comm reached fun ts other isFirst isSecond => ?_
  have unstamped (operation : Op) :
      operation.unstamped.readFor reached.id = operation.readFor reached.id := by
    cases operation <;> rfl
  rw [unstamped] at isFirst isSecond
  exact filterMap_eq_of_once (reordered.readOnce _) firstLeft secondLeft isFirst isSecond

/-! ### The time of delivery -/

/-- The row refuses a delivered receipt. -/
def Refuses (row : MsgRow) : Prop :=
  row.direction = .inbound ∨ row.deliveryState = .read ∨ row.deliveryState = .failed

/-- A delivered receipt for a message comes before any read receipt for it. -/
def Counts (operations : List Op) (id ts : String) : Prop :=
  ∃ before after, operations = before ++ .applyDeliveryReceipt id ts :: after ∧
    ∀ operation ∈ before, operation.readFor id = none

theorem DeliveryUpdate.direction (update : DeliveryUpdate) (row : MsgRow) :
    (update.change row).direction = row.direction := by
  have same := congrArg MsgRow.direction (update.content row)
  exact same

theorem Op.advance_cases (operation : Op) (row : MsgRow) :
    operation.advance row = row ∨
      ∃ update, operation.update = some update ∧ update.selects row = true ∧
        operation.advance row = update.change row := by
  unfold Op.advance
  cases found : operation.update with
  | none =>
      exact Or.inl rfl
  | some update =>
      by_cases selected : update.selects row = true
      · exact Or.inr ⟨update, rfl, selected, if_pos selected⟩
      · exact Or.inl (if_neg selected)

theorem Op.advance_content (operation : Op) (row : MsgRow) :
    (operation.advance row).content = row.content := by
  rcases operation.advance_cases row with same | ⟨update, _, _, changed⟩
  · rw [same]
  · rw [changed, update.content]

theorem Op.advance_id (operation : Op) (row : MsgRow) :
    (operation.advance row).id = row.id := by
  have same := congrArg MsgRow.id (operation.advance_content row)
  exact same

theorem advanceAll_id (operations : List Op) (row : MsgRow) :
    (advanceAll operations row).id = row.id := by
  induction operations generalizing row with
  | nil =>
      rfl
  | cons operation operations inductionHypothesis =>
      exact (inductionHypothesis (operation.advance row)).trans (operation.advance_id row)

/-- Only a delivered receipt for the row, on a row that does not refuse it, changes its
time of delivery. -/
theorem Op.Arrives.deliveredTs_advance
    {operation : Op} (arrives : operation.Arrives) {row : MsgRow}
    (other : Refuses row ∨ operation.deliveredFor row.id = none) :
    (operation.advance row).deliveredTs = row.deliveredTs := by
  rcases operation.advance_cases row with same | ⟨update, found, selected, changed⟩
  · rw [same]
  · rw [changed]
    cases operation with
    | markDelivered | applyReadReceipt =>
        cases found
        rfl
    | applyDeliveryReceipt origId ts =>
        cases found
        simp only [DeliveryUpdate.selects, deliveredUpdate, Bool.and_eq_true, beq_iff_eq]
          at selected
        obtain ⟨⟨own, outbound⟩, accepts⟩ := selected
        rcases other with (inbound | read | failed) | notFor
        · rw [outbound] at inbound
          cases inbound
        · rw [read] at accepts
          cases accepts
        · rw [failed] at accepts
          cases accepts
        · rw [Op.deliveredFor, if_pos own.symm] at notFor
          cases notFor
    | _ =>
        exact arrives.elim

theorem Op.refuses_advance
    (operation : Op) {row : MsgRow} (refuses : Refuses row) :
    Refuses (operation.advance row) := by
  rcases operation.advance_cases row with same | ⟨update, found, selected, changed⟩
  · rwa [same]
  · rw [changed]
    have forward := (Op.update_forward found selected).1
    have kept := update.direction row
    rcases refuses with inbound | read | failed
    · exact Or.inl (kept.trans inbound)
    · rw [read] at forward
      right
      cases state : (update.change row).deliveryState with
      | read =>
          exact Or.inl rfl
      | failed =>
          exact Or.inr rfl
      | _ =>
          rw [state] at forward
          exact absurd forward (by decide)
    · rw [failed] at forward
      exact Or.inr (Or.inr (DeliveryState.eq_failed_of_rank forward))

theorem refuses_advanceAll
    {operations : List Op} (arrives : ∀ operation ∈ operations, operation.Arrives)
    {row : MsgRow} (refuses : Refuses row) :
    (advanceAll operations row).deliveredTs = row.deliveredTs := by
  induction operations generalizing row with
  | nil =>
      rfl
  | cons operation operations inductionHypothesis =>
      have here := arrives operation List.mem_cons_self
      have kept := here.deliveredTs_advance (Or.inl refuses)
      have later := inductionHypothesis (fun later member => arrives later (.tail _ member))
        (operation.refuses_advance refuses)
      exact later.trans kept

/-- After a read receipt the row refuses a delivered one. -/
theorem refuses_of_read
    {operation : Op} {row : MsgRow} {ts : String} (isRead : operation.readFor row.id = some ts) :
    Refuses (operation.advance row) := by
  cases operation with
  | applyReadReceipt origId other =>
      have own : origId = row.id := by
        by_contra different
        rw [Op.readFor, if_neg different] at isRead
        cases isRead
      by_cases selected : (readUpdate origId other).selects row = true
      · right
        left
        rw [Op.advance, Op.update]
        dsimp only
        rw [if_pos selected]
        rfl
      · have same : (Op.applyReadReceipt origId other).advance row = row := if_neg selected
        rw [same]
        by_cases inbound : row.direction = .inbound
        · exact Or.inl inbound
        · have outbound : row.direction = .outbound := by
            cases direction : row.direction with
            | inbound =>
                exact absurd direction inbound
            | outbound =>
                rfl
          have failed : row.deliveryState = .failed := by
            simpa [DeliveryUpdate.selects, readUpdate, own, outbound] using selected
          exact Or.inr (Or.inr failed)
  | _ =>
      cases isRead

/-- A row that accepts a delivered receipt does so until a read receipt comes. -/
theorem Op.Arrives.accepts_advance
    {operation : Op} (arrives : operation.Arrives) {row : MsgRow} (accepts : ¬ Refuses row)
    (noRead : operation.readFor row.id = none) : ¬ Refuses (operation.advance row) := by
  rcases operation.advance_cases row with same | ⟨update, found, selected, changed⟩
  · rwa [same]
  · rw [changed]
    have kept := update.direction row
    simp only [DeliveryUpdate.selects, Bool.and_eq_true, beq_iff_eq] at selected
    rintro (inbound | state)
    · exact accepts (Or.inl (kept.symm.trans inbound))
    · cases operation with
      | markDelivered | applyDeliveryReceipt =>
          cases found
          rcases state with state | state <;> cases state
      | applyReadReceipt origId ts =>
          cases found
          have own : origId = row.id := selected.1.1.symm
          rw [Op.readFor, if_pos own] at noRead
          cases noRead
      | _ =>
          exact arrives.elim

theorem deliveredTs_of_not_counts
    {operations : List Op} (arrives : ∀ operation ∈ operations, operation.Arrives)
    {row : MsgRow} (uncounted : ∀ ts, ¬ Counts operations row.id ts) :
    (advanceAll operations row).deliveredTs = row.deliveredTs := by
  induction operations generalizing row with
  | nil =>
      rfl
  | cons operation operations inductionHypothesis =>
      have here := arrives operation List.mem_cons_self
      have rest : ∀ later ∈ operations, later.Arrives :=
        fun later member => arrives later (.tail _ member)
      have notDelivered : operation.deliveredFor row.id = none := by
        cases operation with
        | applyDeliveryReceipt origId ts =>
            refine if_neg ?_
            rintro rfl
            exact uncounted ts ⟨[], operations, rfl, fun _ member => by cases member⟩
        | _ =>
            rfl
      have kept := here.deliveredTs_advance (Or.inr notDelivered)
      cases readTime : operation.readFor row.id with
      | some ts =>
          have later := refuses_advanceAll rest (refuses_of_read readTime)
          exact later.trans kept
      | none =>
          refine Eq.trans (inductionHypothesis rest ?_) kept
          rintro ts ⟨before, after, split, noRead⟩
          rw [operation.advance_id] at split noRead
          refine uncounted ts ⟨operation :: before, after, by rw [split]; rfl, ?_⟩
          intro other member
          rcases List.mem_cons.mp member with rfl | later
          · exact readTime
          · exact noRead other later

theorem accepts_advanceAll
    {operations : List Op} (arrives : ∀ operation ∈ operations, operation.Arrives)
    {row : MsgRow} (accepts : ¬ Refuses row)
    (noRead : ∀ operation ∈ operations, operation.readFor row.id = none) :
    ¬ Refuses (advanceAll operations row) := by
  induction operations generalizing row with
  | nil =>
      exact accepts
  | cons operation operations inductionHypothesis =>
      refine inductionHypothesis (fun later member => arrives later (.tail _ member)) ?_ ?_
      · exact (arrives operation List.mem_cons_self).accepts_advance accepts
          (noRead operation List.mem_cons_self)
      · intro later member
        rw [operation.advance_id]
        exact noRead later (.tail _ member)

theorem deliveredTs_of_counts
    {operations : List Op} (arrives : ∀ operation ∈ operations, operation.Arrives)
    {row : MsgRow} (accepts : ¬ Refuses row)
    (once : (operations.filterMap (Op.deliveredFor row.id)).length ≤ 1)
    {ts : String} (counts : Counts operations row.id ts) :
    (advanceAll operations row).deliveredTs = some ts := by
  obtain ⟨before, after, rfl, noRead⟩ := counts
  have early : ∀ operation ∈ before, operation.Arrives :=
    fun operation member => arrives operation (List.mem_append_left _ member)
  have late : ∀ operation ∈ after, operation.Arrives :=
    fun operation member => arrives operation (List.mem_append_right _ (.tail _ member))
  have ready := accepts_advanceAll early accepts noRead
  have stamped :
      ((Op.applyDeliveryReceipt row.id ts).advance (advanceAll before row)).deliveredTs =
        some ts := by
    have selected : (deliveredUpdate row.id ts).selects (advanceAll before row) = true := by
      rw [Refuses, not_or, not_or] at ready
      have outbound : (advanceAll before row).direction = .outbound := by
        cases direction : (advanceAll before row).direction with
        | inbound =>
            exact absurd direction ready.1
        | outbound =>
            rfl
      simp [DeliveryUpdate.selects, deliveredUpdate, advanceAll_id, outbound, ready]
    have applied :
        (Op.applyDeliveryReceipt row.id ts).advance (advanceAll before row) =
          (deliveredUpdate row.id ts).change (advanceAll before row) := if_pos selected
    rw [applied]
    rfl
  rw [advanceAll, List.foldl_append]
  refine Eq.trans (deliveredTs_of_not_counts late ?_) stamped
  rintro other ⟨first, second, split, _⟩
  have same : ((Op.applyDeliveryReceipt row.id ts).advance (advanceAll before row)).id = row.id :=
    (Op.advance_id _ _).trans (advanceAll_id before row)
  have twice : Op.deliveredFor row.id (.applyDeliveryReceipt row.id other) = some other :=
    if_pos rfl
  have own : Op.deliveredFor row.id (.applyDeliveryReceipt row.id ts) = some ts := if_pos rfl
  have after_eq : after = first ++ .applyDeliveryReceipt row.id other :: second := by
    rw [← same]
    exact split
  rw [after_eq] at once
  simp only [List.filterMap_append, List.filterMap_cons, twice, own, List.length_append,
    List.length_cons] at once
  omega

theorem deliveredFor_eq_some
    {operation : Op} {id ts : String} (isFor : operation.deliveredFor id = some ts) :
    operation = .applyDeliveryReceipt id ts := by
  cases operation with
  | applyDeliveryReceipt origId other =>
      by_cases own : origId = id
      · rw [Op.deliveredFor, if_pos own] at isFor
        cases isFor
        rw [own]
      · rw [Op.deliveredFor, if_neg own] at isFor
        cases isFor
  | _ =>
      cases isFor

theorem Counts.mem
    {operations : List Op} {id ts : String} (counts : Counts operations id ts) :
    .applyDeliveryReceipt id ts ∈ operations := by
  obtain ⟨before, after, rfl, _⟩ := counts
  exact List.mem_append_right _ List.mem_cons_self

section Reordering

variable {left right : List Op}

theorem Reordered.filterMap_perm
    (reordered : Reordered left right) {project : Op → Option String}
    (blind : ∀ operation : Op, project operation.unstamped = project operation) :
    (left.filterMap project).Perm (right.filterMap project) := by
  have same (operations : List Op) :
      (operations.map Op.unstamped).filterMap project = operations.filterMap project := by
    rw [List.filterMap_map]
    exact congrArg (List.filterMap · operations) (funext blind)
  rw [← same left, ← same right]
  exact reordered.permuted.filterMap project

theorem Reordered.symm (reordered : Reordered left right) : Reordered right left where
  arrives := reordered.arrivesRight
  deliveredOnce id := by
    have permuted : (left.filterMap (Op.deliveredFor id)).Perm
        (right.filterMap (Op.deliveredFor id)) :=
      reordered.filterMap_perm fun operation => by cases operation <;> rfl
    rw [← permuted.length_eq]
    exact reordered.deliveredOnce id
  readOnce id := by
    have permuted : (left.filterMap (Op.readFor id)).Perm (right.filterMap (Op.readFor id)) :=
      reordered.filterMap_perm fun operation => by cases operation <;> rfl
    rw [← permuted.length_eq]
    exact reordered.readOnce id
  permuted := reordered.permuted.symm

/-- The time of delivery after a list of receipts. -/
theorem Reordered.deliveredTs_cases
    (reordered : Reordered left right) {row : MsgRow} (accepts : ¬ Refuses row) :
    (∃ ts, Counts left row.id ts ∧ (advanceAll left row).deliveredTs = some ts) ∨
      ((∀ ts, ¬ Counts left row.id ts) ∧
        (advanceAll left row).deliveredTs = row.deliveredTs) := by
  by_cases counted : ∃ ts, Counts left row.id ts
  · obtain ⟨ts, counts⟩ := counted
    exact Or.inl ⟨ts, counts, deliveredTs_of_counts reordered.arrives accepts
      (reordered.deliveredOnce row.id) counts⟩
  · have uncounted : ∀ ts, ¬ Counts left row.id ts :=
      fun ts counts => counted ⟨ts, counts⟩
    exact Or.inr ⟨uncounted, deliveredTs_of_not_counts reordered.arrives uncounted⟩

theorem Reordered.delivered_mem
    (reordered : Reordered left right) {id ts : String}
    (member : .applyDeliveryReceipt id ts ∈ right) : .applyDeliveryReceipt id ts ∈ left := by
  have permuted : (left.filterMap (Op.deliveredFor id)).Perm
      (right.filterMap (Op.deliveredFor id)) :=
    reordered.filterMap_perm fun operation => by cases operation <;> rfl
  have onLeft : ts ∈ left.filterMap (Op.deliveredFor id) := by
    rw [permuted.mem_iff]
    exact List.mem_filterMap.mpr ⟨_, member, if_pos rfl⟩
  obtain ⟨operation, found, isFor⟩ := List.mem_filterMap.mp onLeft
  rw [deliveredFor_eq_some isFor] at found
  exact found

theorem Reordered.delivered_unique
    (reordered : Reordered left right) {id first second : String}
    (firstMember : .applyDeliveryReceipt id first ∈ left)
    (secondMember : .applyDeliveryReceipt id second ∈ left) : first = second :=
  filterMap_eq_of_once (reordered.deliveredOnce id) firstMember secondMember
    (if_pos rfl) (if_pos rfl)

end Reordering

theorem Reordered.deliveredTs_iff
    {left right : List Op} (reordered : Reordered left right) (row : MsgRow) :
    (advanceAll left row).deliveredTs = (advanceAll right row).deliveredTs ↔
      Refuses row ∨ (∀ ts, Counts left row.id ts ↔ Counts right row.id ts) ∨
        ∀ ts, .applyDeliveryReceipt row.id ts ∈ left → row.deliveredTs = some ts := by
  by_cases refuses : Refuses row
  · rw [refuses_advanceAll reordered.arrives refuses,
      refuses_advanceAll reordered.arrivesRight refuses]
    exact iff_of_true rfl (Or.inl refuses)
  · rcases reordered.deliveredTs_cases refuses with
      ⟨ts, onLeft, leftTime⟩ | ⟨notLeft, leftTime⟩
    · rcases reordered.symm.deliveredTs_cases refuses with
        ⟨other, onRight, rightTime⟩ | ⟨notRight, rightTime⟩
      · have member := reordered.delivered_mem onRight.mem
        have same : ts = other := reordered.delivered_unique onLeft.mem member
        rw [leftTime, rightTime, same]
        refine iff_of_true rfl (Or.inr (Or.inl fun any => ⟨fun counts => ?_, fun counts => ?_⟩))
        · rw [reordered.delivered_unique counts.mem member]
          exact onRight
        · rw [reordered.delivered_unique (reordered.delivered_mem counts.mem) onLeft.mem]
          exact onLeft
      · rw [leftTime, rightTime]
        constructor
        · intro kept
          refine Or.inr (Or.inr fun any member => ?_)
          rw [← kept, reordered.delivered_unique onLeft.mem member]
        · rintro (refused | sameCounts | already)
          · exact absurd refused refuses
          · exact absurd ((sameCounts ts).mp onLeft) (notRight ts)
          · exact (already ts onLeft.mem).symm
    · rcases reordered.symm.deliveredTs_cases refuses with
        ⟨other, onRight, rightTime⟩ | ⟨notRight, rightTime⟩
      · have member := reordered.delivered_mem onRight.mem
        rw [leftTime, rightTime]
        constructor
        · intro kept
          refine Or.inr (Or.inr fun any anyMember => ?_)
          rw [kept, reordered.delivered_unique member anyMember]
        · rintro (refused | sameCounts | already)
          · exact absurd refused refuses
          · exact absurd ((sameCounts other).mpr onRight) (notLeft other)
          · exact already other member
      · rw [leftTime, rightTime]
        exact iff_of_true rfl (Or.inr (Or.inl fun any =>
          iff_of_false (notLeft any) (notRight any)))

/-- The columns that do not depend on the order of the receipts. -/
def ordered (row : Int × MsgRow) : Int × DeliveryState × Option String :=
  (row.1, row.2.deliveryState, row.2.readTs)

/-- Two orders of the same receipts and hand-offs leave the same state and the same time
of reading on every row.  They leave the same time of delivery exactly on the rows that
refuse a delivered receipt from the start, on those whose delivered receipt comes before
their read receipt in both orders or in neither, and on those that already have its
time. -/
theorem receipts_in_any_order
    (store : Store) (left right : List Op) (reordered : Reordered left right) :
    (store.run left).messages.rows.map ordered =
        (store.run right).messages.rows.map ordered ∧
      ∀ row ∈ store.messages.rows,
        ∀ first ∈ (store.run left).messages.rows,
        ∀ second ∈ (store.run right).messages.rows,
          first.1 = row.1 → second.1 = row.1 →
            (first.2.deliveredTs = second.2.deliveredTs ↔
              Refuses row.2 ∨
                (∀ ts, Counts left row.2.id ts ↔ Counts right row.2.id ts) ∨
                ∀ ts, .applyDeliveryReceipt row.2.id ts ∈ left →
                  row.2.deliveredTs = some ts) := by
  have afterLeft := rows_run reordered.arrives store
  have afterRight := rows_run reordered.arrivesRight store
  constructor
  · rw [afterLeft, afterRight, List.map_map, List.map_map]
    refine List.map_congr_left fun row _ => ?_
    have same := reordered.settled_eq row.2
    have state := congrArg MsgRow.deliveryState same
    have time := congrArg MsgRow.readTs same
    exact congrArg (Prod.mk row.1) (Prod.ext state time)
  · intro row member first firstMember second secondMember firstNumber secondNumber
    have identify {operations : List Op} (arrives : ∀ operation ∈ operations, operation.Arrives)
        {reached : Int × MsgRow} (found : reached ∈ (store.run operations).messages.rows)
        (number : reached.1 = row.1) : reached.2 = advanceAll operations row.2 := by
      rw [rows_run arrives store] at found
      obtain ⟨source, sourceMember, rfl⟩ := List.mem_map.mp found
      have same : source = row := store.messages.rowid_injective sourceMember member number
      rw [same]
    rw [identify reordered.arrives firstMember firstNumber,
      identify reordered.arrivesRight secondMember secondNumber]
    exact reordered.deliveredTs_iff row.2

/-! ### The two receipts of one message -/

/-- The message was logged and taken by the broker. -/
def handedOff : Store :=
  ({} : Store).run [.insertOutboundLog toBob "chat", .markDelivered "x" "t1"]

def deliveredFirst : List Op :=
  [.applyDeliveryReceipt "x" "t2", .applyReadReceipt "x" "t3"]

def readFirst : List Op :=
  [.applyReadReceipt "x" "t3", .applyDeliveryReceipt "x" "t2"]

theorem deliveredFirst_reordered : Reordered deliveredFirst readFirst where
  arrives := by simp [deliveredFirst, Op.Arrives]
  deliveredOnce id := by
    by_cases own : "x" = id <;>
      simp [deliveredFirst, List.filterMap_cons, Op.deliveredFor, own]
  readOnce id := by
    by_cases own : "x" = id <;> simp [deliveredFirst, List.filterMap_cons, Op.readFor, own]
  permuted := List.Perm.swap _ _ _

theorem receipts_in_any_order_toBob :
    (handedOff.run deliveredFirst).messages.rows.map ordered =
      (handedOff.run readFirst).messages.rows.map ordered :=
  (receipts_in_any_order handedOff deliveredFirst readFirst deliveredFirst_reordered).1

/-- The time of delivery is lost when the read receipt comes first. -/
theorem delivery_time_depends_on_order :
    ¬ ∀ (store : Store) (left right : List Op),
      (∀ row ∈ store.messages.rows, row.2.deliveryState ≠ .failed) → Reordered left right →
        (store.run left).messages.rows.map (fun row =>
            (row.1, row.2.deliveryState, row.2.deliveredTs, row.2.readTs)) =
          (store.run right).messages.rows.map (fun row =>
            (row.1, row.2.deliveryState, row.2.deliveredTs, row.2.readTs)) := by
  intro independent
  have same := independent handedOff deliveredFirst readFirst (by decide) deliveredFirst_reordered
  exact absurd same (by decide)

end Store

end AgentMsg
