import AgentMsg.Authenticity

/-!
# Who may confirm an outbound message

The delivery state of an outbound row becomes `delivered` or `read` only while an
accepted receipt that names the row's id is being ingested.  The receipt's sender is
not compared with the row's recipient: any sender that verification accepts will do.
-/

namespace AgentMsg

/-- The delivery state of an outbound row has become `delivered` or `read`. -/
structure Confirms (before after : Store) (old new : Int × MsgRow) : Prop where
  was : old ∈ before.messages.rows
  is : new ∈ after.messages.rows
  seq : new.1 = old.1
  outbound : old.2.direction = .outbound
  changed : new.2.deliveryState ≠ old.2.deliveryState
  confirmed : new.2.deliveryState = .delivered ∨ new.2.deliveryState = .read

/-- The delivery state a receipt stands for. -/
def ReceiptStatus.state : ReceiptStatus → DeliveryState
  | .delivered => .delivered
  | .read => .read

/-- The move is a step of the ingest of a receipt, which verification accepts under the files
that this ingest has read. -/
structure ReceiptIngest (P : Platform) (identity : Identity) (start : World)
    (taken : List (Move Input Job)) (choice : Move Input Job) (atConfig atTrust : World)
    (delivery : Delivery) (inner : Inner) (rcpt : Receipt) : Prop where
  steps : ∃ index input, choice = .step index input ∧
    (System.run P identity { shared := start } taken).labels[index]? = some (.ingest delivery) ∧
    ReadsFiles P identity start taken index delivery atConfig atTrust
  accepted : Accepted P identity (atConfig.config P) (atTrust.trust P) delivery inner
  receipt : inner.kind = .receipt ∨ inner.ctype = CTYPE_RECEIPT
  carried : inner.receipt = some rcpt

theorem ReceiptIngest.spawned
    {P : Platform} {identity : Identity} {start : World} {taken : List (Move Input Job)}
    {choice : Move Input Job} {atConfig atTrust : World} {delivery : Delivery} {inner : Inner}
    {rcpt : Receipt}
    (ingest : ReceiptIngest P identity start taken choice atConfig atTrust delivery inner rcpt) :
    .spawn (.ingest delivery) ∈ taken := by
  obtain ⟨_, _, _, labelled, _⟩ := ingest.steps
  exact spawned_of_label labelled

/-! ## Operations that confirm -/

/-- Only the application of a receipt confirms a row, and it is the row the receipt
refers to. -/
theorem confirming_operation
    {store : Store} {operation : Store.Op} {old new : Int × MsgRow}
    (confirms : Confirms store (store.apply operation) old new) :
    ∃ ts, (operation = .applyDeliveryReceipt old.2.id ts ∧ new.2.deliveryState = .delivered) ∨
      (operation = .applyReadReceipt old.2.id ts ∧ new.2.deliveryState = .read) := by
  rcases (store.apply_log operation).same_row confirms.was confirms.is confirms.seq with
    rfl | ⟨update, found, selected, rfl⟩
  · exact absurd rfl confirms.changed
  · have confirmed := confirms.confirmed
    simp only [Store.DeliveryUpdate.selects, Bool.and_eq_true, beq_iff_eq] at selected
    obtain ⟨⟨id, _⟩, _⟩ := selected
    cases operation with
    | markSent | markDelivered | markFailed =>
        cases found
        rcases confirmed with state | state <;> cases state
    | applyDeliveryReceipt origId ts =>
        cases found
        exact ⟨ts, Or.inl ⟨by rw [id]; rfl, rfl⟩⟩
    | applyReadReceipt origId ts =>
        cases found
        exact ⟨ts, Or.inr ⟨by rw [id]; rfl, rfl⟩⟩
    | _ =>
        cases found

section Runs

variable {P : Platform} {identity : Identity} {start : World}

/-- What follows from two files and applies a receipt comes from an accepted receipt. -/
theorem receipt_of_settles
    {cfg : Config} {trust : TrustStore} {delivery : Delivery} {operation : Store.Op}
    {refId ts : String} {state : DeliveryState}
    (settles : SettleOp P identity cfg trust delivery operation)
    (applies :
      (operation = .applyDeliveryReceipt refId ts ∧ state = .delivered) ∨
        (operation = .applyReadReceipt refId ts ∧ state = .read)) :
    ∃ inner rcpt, Accepted P identity cfg trust delivery inner ∧
      (inner.kind = .receipt ∨ inner.ctype = CTYPE_RECEIPT) ∧ inner.receipt = some rcpt ∧
      rcpt.refId = refId ∧ rcpt.status.state = state := by
  cases settles with
  | reject =>
      rcases applies with ⟨same, _⟩ | ⟨same, _⟩ <;> exact nomatch same
  | accepted inner operation accepted permitted =>
      cases permitted with
      | delivered rcpt carried status receipt =>
          rcases applies with ⟨same, rfl⟩ | ⟨same, _⟩
          · cases same
            exact ⟨inner, rcpt, accepted, receipt, carried, rfl, by rw [status]; rfl⟩
          · exact nomatch same
      | read rcpt carried status receipt =>
          rcases applies with ⟨same, _⟩ | ⟨same, rfl⟩
          · exact nomatch same
          · cases same
            exact ⟨inner, rcpt, accepted, receipt, carried, rfl, by rw [status]; rfl⟩
      | _ =>
          rcases applies with ⟨same, _⟩ | ⟨same, _⟩ <;> exact nomatch same

/-- A move that confirms a row is a step of the ingest of a receipt that names the row's id
and the new state. -/
theorem receiptIngest_of_confirms
    {taken : List (Move Input Job)} {choice : Move Input Job} {old new : Int × MsgRow}
    (confirms : Confirms (System.after P identity start taken).store
      (System.after P identity start (taken ++ [choice])).store old new) :
    ∃ atConfig atTrust delivery inner rcpt,
      ReceiptIngest P identity start taken choice atConfig atTrust delivery inner rcpt ∧
        rcpt.refId = old.2.id ∧ rcpt.status.state = new.2.deliveryState := by
  rcases run_store taken choice with
    same | ⟨operation, index, input, job, rfl, labelled, changed, permitted⟩
  · have kept := confirms.is
    rw [same] at kept
    have equal := RowTable.rowid_injective _ kept confirms.was confirms.seq
    exact absurd (by rw [equal]) confirms.changed
  · rw [changed] at confirms
    obtain ⟨ts, applies⟩ := confirming_operation confirms
    rcases permitted with outbound | ⟨delivery, rfl, rejects | ⟨atConfig, atTrust, read, settled⟩⟩
    · rcases applies with ⟨rfl, _⟩ | ⟨rfl, _⟩ <;> exact nomatch outbound
    · rcases applies with ⟨rfl, _⟩ | ⟨rfl, _⟩ <;> exact nomatch rejects
    · obtain ⟨inner, rcpt, accepted, receipt, carried, refId, status⟩ :=
        receipt_of_settles settled applies
      exact ⟨atConfig, atTrust, delivery, inner, rcpt,
        ⟨⟨index, input, rfl, labelled, read⟩, accepted, receipt, carried⟩, refId, status⟩

end Runs

/-- In every run, a row is confirmed only by a step of the ingest of a receipt that names its
id and the new state, and that was accepted under the files this ingest has read, from a sender
with a usable key unless unsigned messages are allowed. -/
theorem confirmed_by_accepted_receipt
    (P : Platform) (identity : Identity) (start : World) (taken : List (Move Input Job))
    (choice : Move Input Job) (old new : Int × MsgRow)
    (confirms : Confirms (System.run P identity { shared := start } taken).shared.store
      (System.run P identity { shared := start } (taken ++ [choice])).shared.store old new) :
    ∃ atConfig atTrust delivery inner rcpt,
      ReceiptIngest P identity start taken choice atConfig atTrust delivery inner rcpt ∧
        rcpt.refId = old.2.id ∧ rcpt.status.state = new.2.deliveryState ∧
        ((atConfig.config P).allowUnsigned = false →
          ∃ publicKey, (atTrust.trust P).publicKey inner.sender = .ok publicKey) := by
  obtain ⟨atConfig, atTrust, delivery, inner, rcpt, ingest, refId, status⟩ :=
    receiptIngest_of_confirms confirms
  exact ⟨atConfig, atTrust, delivery, inner, rcpt, ingest, refId, status,
    trusted_of_accepted ingest.accepted⟩

/-! ## A receipt of a third agent -/

/-- Carol's receipt for a message that was sent to Bob. -/
def carolReceipt : Inner :=
  { id := "r1", v := PROTOCOL_VERSION, sender := "carol", recipient := "me", ts := "t0",
    nonce := "", ctype := CTYPE_RECEIPT, body := "", kind := .receipt,
    receipt := some { refId := "x", status := .delivered } }

def carolBench : Bench :=
  { inners := [carolReceipt], instants := [("t0", 0)], config := { topics := ["chat"] }
    trust := Bench.trusting ["bob", "carol"] }

/-- The message to Bob is sent. -/
def sendToBob : Job :=
  .request (.send { recipient := "bob", ctype := CTYPE_TEXT, body := "hi" })
    ⟨"x", "t0", [], [], []⟩ 0

/-- The state after the message to Bob was logged. -/
def afterSend : World :=
  ((sendToBob.thread carolBench.platform Bench.me).exec (fun _ => {}) Bench.world).1

/-- The message is sent, and the ingest of Carol's receipt has read the files. -/
def carolMoves : List (Move Input Job) :=
  sendToBob.alone carolBench.platform Bench.me (fun _ => {}) Bench.world ++
    [.spawn (.ingest (Bench.delivery 0 0 "")), .step 1 {}, .step 1 {}]

theorem carolReceipt_accepted :
    Accepted carolBench.platform Bench.me (afterSend.config carolBench.platform)
      (afterSend.trust carolBench.platform) (Bench.delivery 0 0 "") carolReceipt :=
  Bench.accepted rfl rfl (by decide) (by decide)
    (Bench.trusting_publicKey (List.mem_cons_of_mem _ List.mem_cons_self))
    (by decide) (by decide) (by decide) rfl nofun

theorem carolMoves_pool :
    System.run carolBench.platform Bench.me { shared := Bench.world } carolMoves =
      { shared := afterSend
        threads := [(sendToBob, .pure ()), (.ingest (Bench.delivery 0 0 ""),
          ignore (acceptMessage carolBench.platform Bench.me
            (afterSend.config carolBench.platform) (afterSend.trust carolBench.platform)
            (Bench.delivery 0 0 "") carolReceipt))] } := by
  have sent := Job.run_alone carolBench.platform Bench.me sendToBob (fun _ => {}) Bench.world
  rw [System.run] at sent
  rw [carolMoves, System.run, Pool.run_append, sent]
  exact System.run_ingest_reads _ _ carolReceipt_accepted [(sendToBob, .pure ())] {} {}

/-- The logged row of the message to Bob, in a given delivery state. -/
def bobRow (deliveryState : DeliveryState) (deliveredTs : Option String) : Int × MsgRow :=
  (1, { Store.outboundRow (Bench.textTo "bob" "x" "me" "t0" "hi") "chat" with
    deliveryState, deliveredTs })

theorem carol_confirms :
    Confirms
      (System.run carolBench.platform Bench.me { shared := Bench.world } carolMoves).shared.store
      (System.run carolBench.platform Bench.me { shared := Bench.world }
        (carolMoves ++ [.step 1 {}])).shared.store
      (bobRow .pending none) (bobRow .delivered (some "t0")) := by
  have before := carolMoves_pool
  rw [System.run] at before
  rw [System.run, System.run, Pool.run_append, before]
  exact ⟨by decide, by decide, rfl, rfl, by decide, Or.inl rfl⟩

theorem confirmed_by_accepted_receipt_carol :
    ∃ atConfig atTrust delivery inner rcpt,
      ReceiptIngest carolBench.platform Bench.me Bench.world carolMoves (.step 1 {}) atConfig
          atTrust delivery inner rcpt ∧
        rcpt.refId = "x" := by
  obtain ⟨atConfig, atTrust, delivery, inner, rcpt, ingest, refId, _⟩ :=
    confirmed_by_accepted_receipt carolBench.platform Bench.me Bench.world carolMoves
      (.step 1 {}) (bobRow .pending none) (bobRow .delivered (some "t0")) carol_confirms
  exact ⟨atConfig, atTrust, delivery, inner, rcpt, ingest, refId⟩

/-- A row may be confirmed without any receipt from its recipient. -/
theorem confirmed_without_recipient :
    ¬ ∀ (P : Platform) (identity : Identity) (start : World) (taken : List (Move Input Job))
        (choice : Move Input Job) (old new : Int × MsgRow),
        Confirms (System.run P identity { shared := start } taken).shared.store
          (System.run P identity { shared := start } (taken ++ [choice])).shared.store old new →
        old.2.recipient ≠ BROADCAST →
        ∃ atConfig atTrust delivery inner rcpt,
          ReceiptIngest P identity start taken choice atConfig atTrust delivery inner rcpt ∧
            inner.sender = old.2.recipient := by
  intro authentic
  obtain ⟨atConfig, atTrust, delivery, inner, rcpt, ingest, sender⟩ :=
    authentic _ _ _ _ _ _ _ carol_confirms (by decide)
  have spawned := ingest.spawned
  simp only [carolMoves, Job.alone, sendToBob, List.mem_append, List.mem_cons, List.mem_map,
    Move.spawn.injEq, Job.ingest.injEq, reduceCtorEq, and_false, exists_false,
    false_or, or_false, List.not_mem_nil] at spawned
  have fromCarol : inner.sender = "carol" := by
    rw [spawned] at ingest
    exact Bench.sender_of_accepted ingest.accepted rfl rfl
  rw [fromCarol] at sender
  exact absurd sender (by decide)

end AgentMsg
