import AgentMsg.Exchange

/-!
# What receipts vouch for

A daemon enqueues a delivery receipt only for a message that it has stored for its agent,
and a read receipt only for one whose number a client has acknowledged or been sent.  Every
thread keeps an account of what it has seen, so that this holds whatever other threads do in
between.  In a network whose broker forges nothing, the delivery states of outbound messages
are therefore true of some daemon that the message was addressed to.
-/

namespace AgentMsg

open Checked

/-! ## What a receipt says -/

/-- The payload carries the receipt. -/
def Carries (P : Platform) (rcpt : Receipt) (payload : Bytes) : Prop :=
  ∃ wrapper inner, P.wrapperJson.decode payload = some wrapper ∧
    wrapper.peek P = .ok inner ∧ inner.receipt = some rcpt

/-- The payload carries no receipt. -/
def Receiptless (P : Platform) (payload : Bytes) : Prop :=
  ∀ rcpt, ¬ Carries P rcpt payload

/-- The log holds a message for the agent under a number. -/
def World.Holds (name : String) (world : World) (id : String) (seq : Int) : Prop :=
  ∃ row ∈ world.store.messages.rows, row.1 = seq ∧ row.2.id = id ∧
    row.2.direction = .inbound ∧ row.2.recipient = name

/-- A client has acknowledged the number, or the message was written to a subscriber. -/
def World.Passed (world : World) (seq : Int) : Prop :=
  (∃ consumer, seq ≤ world.store.cursor consumer) ∨
    ∃ id msg, (id, .message msg) ∈ world.written ∧ msg.seq = seq

/-! ## The account of a thread -/

/-- What a thread has seen: messages that were stored for the agent, numbers that were passed,
messages that were stored under a passed number, and payloads of the outbox. -/
structure Voucher where
  stored : String → Prop
  passed : Int → Prop
  read : String → Prop
  knows : Bytes → Prop

namespace Voucher

/-- A thread that has seen nothing. -/
def none : Voucher :=
  ⟨fun _ => False, fun _ => False, fun _ => False, fun _ => False⟩

/-- What the thread has seen makes the receipt true. -/
def Covers (voucher : Voucher) (rcpt : Receipt) : Prop :=
  match rcpt.status with
  | .delivered => voucher.stored rcpt.refId
  | .read => voucher.read rcpt.refId

/-- The thread may put the payload into the outbox, or hand it to the session. -/
def Vouches (P : Platform) (voucher : Voucher) (payload : Bytes) : Prop :=
  voucher.knows payload ∨ ∀ rcpt, Carries P rcpt payload → voucher.Covers rcpt

/-- The account of the same thread later. -/
structure Grows (voucher later : Voucher) : Prop where
  stored : ∀ id, voucher.stored id → later.stored id
  passed : ∀ seq, voucher.passed seq → later.passed seq

theorem Grows.refl (voucher : Voucher) : voucher.Grows voucher :=
  ⟨fun _ seen => seen, fun _ seen => seen⟩

/-- The thread has seen messages stored. -/
def keep (voucher : Voucher) (ids : String → Prop) : Voucher :=
  { voucher with stored := fun id => voucher.stored id ∨ ids id }

/-- The thread has seen numbers passed. -/
def pass (voucher : Voucher) (seqs : Int → Prop) : Voucher :=
  { voucher with passed := fun seq => voucher.passed seq ∨ seqs seq }

/-- The thread has seen messages under passed numbers. -/
def look (voucher : Voucher) (ids : String → Prop) : Voucher :=
  { voucher with read := fun id => voucher.read id ∨ ids id }

/-- The thread has seen payloads in the outbox. -/
def learn (voucher : Voucher) (payloads : Bytes → Prop) : Voucher :=
  { voucher with knows := fun payload => voucher.knows payload ∨ payloads payload }

theorem grows_keep (voucher : Voucher) (ids : String → Prop) : voucher.Grows (voucher.keep ids) :=
  ⟨fun _ seen => Or.inl seen, fun _ seen => seen⟩

theorem grows_pass (voucher : Voucher) (seqs : Int → Prop) : voucher.Grows (voucher.pass seqs) :=
  ⟨fun _ seen => seen, fun _ seen => Or.inl seen⟩

end Voucher

/-- The changes that a thread makes, by what it has seen and what it sees in them. -/
structure VouchRule (P : Platform) (name : String) (voucher : Voucher) (_ : Input)
    (before after : World) (later : Voucher) : Prop where
  stored : ∀ id, later.stored id → voucher.stored id ∨ ∃ seq, after.Holds name id seq
  passed : ∀ seq, later.passed seq → voucher.passed seq ∨ after.Passed seq
  read : ∀ id, later.read id →
    voucher.read id ∨ ∃ seq, voucher.passed seq ∧ before.Holds name id seq
  knows : ∀ payload, later.knows payload →
    voucher.knows payload ∨ ∃ entry ∈ before.store.pendingOutbound, entry.payload = payload
  outbox : ∀ entry ∈ after.store.pendingOutbound,
    entry ∈ before.store.pendingOutbound ∨ voucher.Vouches P entry.payload
  requests : ∀ publish ∈ after.requests,
    publish ∈ before.requests ∨ voucher.Vouches P publish.payload

/-- What is new in the outbox and in the session carries no receipt. -/
structure Plainly (P : Platform) (before after : World) : Prop where
  outbox : ∀ entry ∈ after.store.pendingOutbound,
    entry ∈ before.store.pendingOutbound ∨ Receiptless P entry.payload
  requests : ∀ publish ∈ after.requests,
    publish ∈ before.requests ∨ Receiptless P publish.payload

section Threads

variable {P : Platform} {identity : Identity} {name : String} {voucher : Voucher}

theorem Receiptless.vouched {payload : Bytes} (clear : Receiptless P payload) :
    voucher.Vouches P payload :=
  Or.inr fun rcpt carries => absurd carries (clear rcpt)

theorem Still.plainly {before after : World} (still : Still before after) :
    Plainly P before after :=
  ⟨fun _ member => Or.inl (still.outbox.subset member),
    fun _ member => Or.inl (still.requests member)⟩

/-- A change that adds no receipt follows the rule with any account that sees what it adds. -/
theorem Plainly.rule
    {before after : World} {input : Input} {later : Voucher} (plainly : Plainly P before after)
    (stored : ∀ id, later.stored id → voucher.stored id ∨ ∃ seq, after.Holds name id seq)
    (passed : ∀ seq, later.passed seq → voucher.passed seq ∨ after.Passed seq)
    (read : ∀ id, later.read id →
      voucher.read id ∨ ∃ seq, voucher.passed seq ∧ before.Holds name id seq)
    (knows : ∀ payload, later.knows payload →
      voucher.knows payload ∨ ∃ entry ∈ before.store.pendingOutbound, entry.payload = payload) :
    VouchRule P name voucher input before after later where
  stored := stored
  passed := passed
  read := read
  knows := knows
  outbox entry member := (plainly.outbox entry member).imp_right Receiptless.vouched
  requests publish member := (plainly.requests publish member).imp_right Receiptless.vouched

theorem Plainly.rule_same
    {before after : World} {input : Input} (plainly : Plainly P before after) :
    VouchRule P name voucher input before after voucher :=
  plainly.rule (fun _ seen => Or.inl seen) (fun _ seen => Or.inl seen) (fun _ seen => Or.inl seen)
    fun _ seen => Or.inl seen

/-! ## Threads that add no receipt -/

/-- A thread that adds no receipt. -/
abbrev NoReceipt {α : Type} (P : Platform) (thread : Thread α) : Prop :=
  Prog.Within (fun _ => True) (Plainly P) (fun _ => True) thread

theorem Stills.clear {α : Type} {thread : Thread α} (stills : Stills thread) : NoReceipt P thread :=
  stills.weaken (fun _ _ _ still => still.plainly) fun _ _ => trivial

theorem clear_observe {α : Type} (view : World → α) : NoReceipt P (Prog.observe view) :=
  (stills_observe view).clear

theorem NoReceipt.tracks {α : Type} {thread : Thread α} (clear : NoReceipt P thread) :
    Prog.Tracks (VouchRule P name) (fun later _ => later = voucher) voucher thread :=
  (Prog.Within.tracks clear fun _ _ _ plainly => plainly.rule_same).weaken fun _ _ ends => ends.1

theorem NoReceipt.before
    {α β : Type} {thread : Thread α} {rest : α → Thread β} {final : Voucher → β → Prop}
    (clear : NoReceipt P thread)
    (second : ∀ value, Prog.Tracks (VouchRule P name) final voucher (rest value)) :
    Prog.Tracks (VouchRule P name) final voucher (thread >>= rest) :=
  clear.tracks.bind fun _ value same => same ▸ second value

theorem NoReceipt.tracksAny {α : Type} {thread : Thread α} (clear : NoReceipt P thread) :
    Prog.Tracks (VouchRule P name) (fun _ _ => True) voucher thread :=
  clear.tracks.weaken fun _ _ _ => trivial

theorem vouch_done {α : Type} {value : α} :
    Prog.Tracks (VouchRule P name) (fun _ _ => True) voucher (Pure.pure value : Thread α) :=
  .done trivial

theorem clear_enqueueOutbound {entry : Outbound} (clear : Receiptless P entry.payload) :
    NoReceipt P (Calls.enqueueOutbound entry) := by
  refine .call (fun input world _ => ?_) fun _ _ _ => trivial
  rcases attempt_enqueue world.store entry input.fault with same | queued
  · exact Still.plainly ⟨same ▸ .refl _, List.Subset.refl _⟩
  · refine ⟨fun other member => ?_, fun _ member => Or.inl member⟩
    have split : other ∈ world.store.pendingOutbound ++ [entry] := queued ▸ member
    rcases List.mem_append.mp split with old | new
    · exact Or.inl old
    · rw [List.mem_singleton.mp new]
      exact Or.inr clear

/-- Handing a payload to the session adds nothing else. -/
theorem within_handed (topic : String) (payload : Bytes) (retain : Bool) :
    Prog.Within (fun _ => True)
      (fun before after => after.store = before.store ∧
        ∀ publish ∈ after.requests, publish ∈ before.requests ∨ publish.payload = payload)
      (fun _ => True) (publishOn topic payload retain) := by
  refine .call (fun input world _ => ?_) fun _ _ _ => trivial
  cases session : world.mqtt with
  | none =>
      exact ⟨rfl, fun _ member => Or.inl member⟩
  | some live =>
      cases accepts : input.accepts with
      | false =>
          exact ⟨rfl, fun _ member => Or.inl member⟩
      | true =>
          refine ⟨rfl, fun publish member => ?_⟩
          have listed : publish ∈ live.requests ++ [⟨topic, payload, retain⟩] := member
          rw [World.requests, session]
          refine (List.mem_append.mp listed).imp_right fun new => ?_
          rw [List.mem_singleton.mp new]

theorem vouch_publishOn
    {topic : String} {payload : Bytes} {retain : Bool} (vouched : voucher.Vouches P payload) :
    Prog.Tracks (VouchRule P name) (fun later _ => later = voucher) voucher
      (publishOn topic payload retain) := by
  refine (Prog.Within.tracks (within_handed topic payload retain) ?_).weaken
    fun _ _ ends => ends.1
  intro input before after change
  refine ⟨fun _ seen => Or.inl seen, fun _ seen => Or.inl seen, fun _ seen => Or.inl seen,
    fun _ seen => Or.inl seen, fun entry member => Or.inl ?_, fun publish member => ?_⟩
  · rw [← change.1]
    exact member
  · exact (change.2 publish member).imp_right fun same => by rw [same]; exact vouched

theorem clear_publishOn
    {topic : String} {payload : Bytes} {retain : Bool} (clear : Receiptless P payload) :
    NoReceipt P (publishOn topic payload retain) := by
  refine (within_handed topic payload retain).weaken (fun before after _ change => ?_)
    fun _ _ => trivial
  refine ⟨fun entry member => Or.inl ?_, fun publish member => ?_⟩
  · rw [← change.1]
    exact member
  · exact (change.2 publish member).imp_right fun same => by rw [same]; exact clear

theorem clear_publishNow
    {topic : String} {inner : Inner} {payload : Bytes} (clear : Receiptless P payload) :
    NoReceipt P (publishNow topic inner payload) := by
  refine (clear_observe _).andThen fun connected => ?_
  split
  · refine Prog.Within.andThen (clear_publishOn clear) fun published => ?_
    split
    · exact (stills_storeCall fun _ _ => Store.Op.noConfusion).clear.andThen fun _ => .done
    · exact .done
  · exact .done

/-! ## What clients send -/

section Lawful

variable (wrapperJson : P.wrapperJson.Lawful) (innerJson : P.innerJson.Lawful)

include wrapperJson innerJson

/-- A built message carries the receipt that it was built with. -/
theorem carries_built
    {draw : Draw} {opts : BuildOpts} {inner : Inner} {wrapper : Wrapper}
    (built : build P identity draw opts = .ok (inner, wrapper)) {rcpt : Receipt}
    (carries : Carries P rcpt (P.wrapperJson.encode wrapper)) : opts.receipt = some rcpt := by
  obtain ⟨shape, form⟩ := build_ok built
  have receipt : inner.receipt = opts.receipt := by
    rcases form with ⟨_, rfl⟩ | ⟨_, _, _, _, _, _, rfl⟩ <;> rfl
  obtain ⟨found, peeked, decoded, parsed, carried⟩ := carries
  rw [wrapperJson, Option.some.injEq] at decoded
  rw [← decoded, shape, peek_wrapped innerJson] at parsed
  cases parsed
  exact receipt.symm.trans carried

theorem receiptless_built
    {draw : Draw} {opts : BuildOpts} {inner : Inner} {wrapper : Wrapper}
    (built : build P identity draw opts = .ok (inner, wrapper)) (without : opts.receipt = none) :
    Receiptless P (P.wrapperJson.encode wrapper) := by
  intro rcpt carries
  have carried := carries_built wrapperJson innerJson built carries
  cases without.symm.trans carried

theorem clear_send (p : SendParams) (draw : Draw) : NoReceipt P (send P identity p draw) := by
  refine (clear_observe _).andThen fun cfg => ?_
  split
  · exact .done
  · split
    · exact .done
    · split
      · exact .done
      · refine Prog.Within.andThen ?_ fun key => ?_
        · exact (reads_resolveKemKey P _ p).of_reads fun world => (Still.refl world).plainly
        · split
          · exact .done
          · split
            · exact .done
            · rename_i inner wrapper built
              have clear := receiptless_built wrapperJson innerJson built rfl
              refine (stills_storeCall fun _ _ => Store.Op.noConfusion).clear.andThen fun _ =>
                (clear_enqueueOutbound clear).andThen fun queued => ?_
              split
              · exact .done
              · exact (clear_publishNow clear).andThen fun _ => .done

theorem clear_enqueuePresence (draw : Draw) (topic : String) (beacon : PresenceBeacon) :
    NoReceipt P (enqueuePresence P identity draw topic beacon) := by
  unfold enqueuePresence
  split
  · exact .done
  · rename_i inner wrapper built
    exact (clear_enqueueOutbound (receiptless_built wrapperJson innerJson built rfl)).andThen
      fun _ => .done

theorem clear_pairStart (topic : Option String) (draw : Draw) :
    NoReceipt P (pairStart P identity topic draw) := by
  refine (clear_observe _).andThen fun cfg => ?_
  split
  · exact .done
  · split
    · exact .done
    · rename_i inner wrapper built
      have clear := receiptless_built wrapperJson innerJson built rfl
      refine (clear_enqueueOutbound clear).andThen fun queued => ?_
      split
      · exact .done
      · refine (clear_observe _).andThen fun connected => ?_
        split
        · exact (clear_publishOn clear).andThen fun _ => .done
        · exact .done

end Lawful

/-! ## Receipts -/

/-- An acknowledgement that succeeds passes its number. -/
theorem vouch_ack (consumer : String) (seq : Int) :
    Prog.Tracks (VouchRule P name)
      (fun later acked => voucher.Grows later ∧ (acked = .ok () → later.passed seq))
      voucher (Calls.ack consumer seq) := by
  refine Prog.Tracks.call fun input world => ?_
  have still := still_attempt world (fun entry => Store.Op.noConfusion :
    ∀ entry, Store.Op.ack consumer seq input.now ≠ .enqueueOutbound entry) input.fault
  cases fault : input.fault with
  | some writes =>
      rw [fault] at still
      exact ⟨voucher, still.plainly.rule_same, .refl voucher, nofun⟩
  | none =>
      rw [fault] at still
      refine ⟨voucher.pass (· = seq), still.plainly.rule (fun _ seen => Or.inl seen)
        (fun number seen => seen.imp_right ?_) (fun _ seen => Or.inl seen)
        (fun _ seen => Or.inl seen), voucher.grows_pass _, fun _ => Or.inr rfl⟩
      rintro rfl
      refine Or.inl ⟨consumer, ?_⟩
      rcases world.store.cursor_ack consumer number input.now with moved | ⟨kept, further⟩
      · exact moved.symm.le
      · exact further.trans kept.symm.le

/-- A message that is written to a connection passes its number. -/
theorem vouch_writeFrame (id : Nat) (frame : StreamFrame) :
    Prog.Tracks (VouchRule P name)
      (fun later wrote => voucher.Grows later ∧
        (wrote = true → ∀ msg, frame = .message msg → later.passed msg.seq))
      voucher (writeFrame id frame) := by
  refine Prog.Tracks.call fun input world => ?_
  cases accepts : input.accepts with
  | false =>
      exact ⟨voucher, (Still.refl world).plainly.rule_same, .refl voucher, nofun⟩
  | true =>
      have still : Still world { world with written := world.written ++ [(id, frame)] } :=
        ⟨.refl _, List.Subset.refl _⟩
      refine ⟨voucher.pass fun number => ∃ msg, frame = .message msg ∧ msg.seq = number,
        still.plainly.rule (fun _ seen => Or.inl seen) (fun number seen => seen.imp_right ?_)
          (fun _ seen => Or.inl seen) (fun _ seen => Or.inl seen),
        voucher.grows_pass _, fun _ msg same => Or.inr ⟨msg, same, rfl⟩⟩
      rintro ⟨msg, rfl, same⟩
      exact Or.inr ⟨id, msg, List.mem_append_right _ List.mem_cons_self, same⟩

/-- A row that is inserted for the agent is one that the thread has seen stored. -/
theorem vouch_insertInbound (inner : Inner) (topic : String) :
    Prog.Tracks (VouchRule P name)
      (fun later found => voucher.Grows later ∧
        ∀ seq, found = .ok (some seq) → inner.recipient = name → later.stored inner.id)
      voucher (Calls.insertInbound inner topic) := by
  refine Prog.Tracks.call fun input world => ?_
  cases input.fault with
  | some writes =>
      exact ⟨voucher, (Still.refl world).plainly.rule_same, .refl voucher, nofun⟩
  | none =>
      have still : Still world
          { world with store := world.store.attempt (.insertInbound inner topic) none } :=
        ⟨.refl _, List.Subset.refl _⟩
      rcases world.store.messages.insertOrIgnore_cases (Store.inboundRow inner topic) with
        ⟨_, _, nothing⟩ | ⟨_, rows, _⟩
      · refine ⟨voucher, still.plainly.rule_same, .refl voucher, fun seq found => ?_⟩
        have answered : (world.store.insertInbound inner topic).2 = Option.some seq :=
          Except.ok.inj found
        exact absurd (answered.symm.trans nothing) (Option.some_ne_none seq)
      · refine ⟨voucher.keep fun id => inner.recipient = name ∧ id = inner.id,
          still.plainly.rule (fun id seen => seen.imp_right ?_) (fun _ seen => Or.inl seen)
            (fun _ seen => Or.inl seen) (fun _ seen => Or.inl seen),
          voucher.grows_keep _, fun _ _ mine => Or.inr ⟨mine, rfl⟩⟩
        rintro ⟨mine, rfl⟩
        have added : (world.store.messages.last + 1, Store.inboundRow inner topic) ∈
            (world.store.insertInbound inner topic).1.messages.rows := by
          have appended : (world.store.insertInbound inner topic).1.messages.rows =
            world.store.messages.rows ++ [(world.store.messages.last + 1,
              Store.inboundRow inner topic)] := rows
          rw [appended]
          exact List.mem_append_right _ List.mem_cons_self
        exact ⟨_, _, added, rfl, rfl, rfl, mine⟩

/-- A row that is found under a passed number is one that the thread has seen read. -/
theorem vouch_messageBySeq {seq : Int} (passed : voucher.passed seq) :
    Prog.Tracks (VouchRule P name)
      (fun later found => ∀ msg, found = .ok (some msg) → msg.direction = .inbound →
        msg.recipient = name → later.read msg.id)
      voucher (Calls.messageBySeq seq) := by
  refine Prog.Tracks.call fun input world => ?_
  refine ⟨voucher.look fun id => world.Holds name id seq,
    (Still.refl world).plainly.rule (fun _ seen => Or.inl seen) (fun _ seen => Or.inl seen)
      (fun id seen => seen.imp_right fun holds => ⟨seq, passed, holds⟩)
      (fun _ seen => Or.inl seen), ?_⟩
  intro msg found inbound mine
  cases fault : input.fault with
  | some writes =>
      rw [fault] at found
      cases found
  | none =>
      rw [fault] at found
      have answered : world.store.messageBySeq seq = Option.some msg := Except.ok.inj found
      obtain ⟨row, located, rfl⟩ := Option.map_eq_some_iff.mp answered
      obtain ⟨member, number⟩ := RowTable.byRowid_eq_some_iff.mp located
      exact Or.inr ⟨row, member, number, rfl, inbound, mine⟩

section Lawful

variable (wrapperJson : P.wrapperJson.Lawful) (innerJson : P.innerJson.Lawful)

include wrapperJson innerJson

theorem vouch_enqueueReceipt
    (draw : Draw) (recipient refId : String) (status : ReceiptStatus) (topic : String)
    (covered : voucher.Covers ⟨refId, status⟩) :
    Prog.Tracks (VouchRule P name) (fun _ _ => True) voucher
      (enqueueReceipt P identity draw recipient refId status topic) := by
  unfold enqueueReceipt
  split
  · exact vouch_done
  · rename_i inner wrapper built
    refine NoReceipt.before (stills_storeCall fun _ _ => Store.Op.noConfusion).clear fun _ => ?_
    have queues : Prog.Tracks (VouchRule P name) (fun _ _ => True) voucher
        (Calls.enqueueOutbound (outboxEntry P topic inner wrapper)) := ?_
    · exact queues.bind fun _ _ _ => vouch_done
    refine Prog.Tracks.call fun input world => ⟨voucher, ?_, trivial⟩
    refine ⟨fun _ seen => Or.inl seen, fun _ seen => Or.inl seen, fun _ seen => Or.inl seen,
      fun _ seen => Or.inl seen, fun other member => ?_, fun publish member => Or.inl member⟩
    rcases attempt_enqueue world.store (outboxEntry P topic inner wrapper) input.fault with
      same | queued
    · exact Or.inl (same ▸ member)
    · have split : other ∈ world.store.pendingOutbound ++ [outboxEntry P topic inner wrapper] :=
        queued ▸ member
      refine (List.mem_append.mp split).imp_right fun new => ?_
      rw [List.mem_singleton.mp new]
      refine Or.inr fun rcpt carries => ?_
      cases carries_built wrapperJson innerJson built carries
      exact covered

/-- A read receipt follows a number that was passed. -/
theorem vouch_maybeReadReceipt
    {seq : Int} (draw : Draw) (passed : voucher.passed seq) :
    Prog.Tracks (VouchRule P identity.name) (fun _ _ => True) voucher
      (maybeReadReceipt P identity seq draw) := by
  refine NoReceipt.before (clear_observe _) fun cfg => ?_
  split
  · refine (vouch_messageBySeq passed).bind fun later found seen => ?_
    split
    · rename_i m
      split
      · rename_i direct
        have covered : later.Covers ⟨m.id, .read⟩ := seen m rfl direct.1 direct.2.1
        exact vouch_enqueueReceipt wrapperJson innerJson _ _ _ _ _ covered
      · exact vouch_done
    · exact vouch_done
  · exact vouch_done

theorem vouch_ackRequest (consumer : String) (seq : Int) (draw : Draw) :
    Prog.Tracks (VouchRule P identity.name) (fun _ _ => True) voucher
      (ackRequest P identity consumer seq draw) := by
  refine (vouch_ack consumer seq).bind fun later acked seen => ?_
  split
  · exact vouch_done
  · exact (vouch_maybeReadReceipt wrapperJson innerJson draw (seen.2 rfl)).bind
      fun _ _ _ => vouch_done

theorem vouch_ackFrame
    (consumer : String) (ack : Bool) (draw : Draw) (frame : StreamFrame)
    (passed : ∀ msg, frame = .message msg → voucher.passed msg.seq) :
    Prog.Tracks (VouchRule P identity.name) (fun _ _ => True) voucher
      (ackFrame P identity consumer ack draw frame) := by
  cases frame with
  | lagged dropped =>
      exact vouch_done
  | message msg =>
      cases ack with
      | false =>
          exact vouch_done
      | true =>
          exact NoReceipt.before (stills_storeCall fun _ _ => Store.Op.noConfusion).clear fun _ =>
            vouch_maybeReadReceipt wrapperJson innerJson draw (passed msg rfl)

theorem vouch_forward
    (id : Nat) (consumer : String) (ack : Bool) (rounds : Nat) (draws : Nat → Draw) :
    Prog.Tracks (VouchRule P identity.name) (fun _ _ => True) voucher
      (forward P identity id consumer ack rounds draws) := by
  induction rounds generalizing draws voucher with
  | zero =>
      exact vouch_done
  | succ rounds inductionHypothesis =>
      refine NoReceipt.before (stills_call fun _ _ => ⟨.refl _, List.Subset.refl _⟩).clear
        fun received => ?_
      split
      · exact inductionHypothesis _
      · rename_i frame
        refine (vouch_writeFrame id frame).bind fun later wrote ends => ?_
        split
        · rename_i written
          exact (vouch_ackFrame wrapperJson innerJson consumer ack _ frame (ends.2 written)).bind
            fun _ _ _ => inductionHypothesis _
        · exact (stills_call fun _ _ => ⟨.refl _, List.Subset.refl _⟩).clear.tracksAny

/-- A delivery receipt follows the row that it answers. -/
theorem vouch_storeMessage (cfg : Config) (delivery : Delivery) (inner : Inner) :
    Prog.Tracks (VouchRule P identity.name) (fun _ _ => True) voucher
      (storeMessage P identity cfg delivery inner) := by
  refine (vouch_insertInbound inner delivery.topic).bind fun later found ends => ?_
  split
  · rename_i seq
    refine NoReceipt.before (stills_storeCall fun _ _ => Store.Op.noConfusion).clear fun _ =>
      NoReceipt.before (stills_pushStored seq).clear fun _ => ?_
    split
    · rename_i wanted
      have mine : inner.recipient = identity.name := by
        simp only [wantsReceipt, Bool.and_eq_true, beq_iff_eq] at wanted
        exact wanted.1.2
      have covered : later.Covers ⟨inner.id, .delivered⟩ := ends.2 seq rfl mine
      exact (vouch_enqueueReceipt wrapperJson innerJson _ _ _ _ _ covered).bind
        fun _ _ _ => vouch_done
    · exact vouch_done
  · exact vouch_done
  · exact vouch_done

theorem vouch_acceptMessage
    (cfg : Config) (trust : TrustStore) (delivery : Delivery) (inner : Inner) :
    Prog.Tracks (VouchRule P identity.name) (fun _ _ => True) voucher
      (acceptMessage P identity cfg trust delivery inner) := by
  by_cases plain : inner.Plain
  · rw [acceptMessage_of_plain plain]
    refine NoReceipt.before (stills_grantReplayed _ _ _).clear fun replayed => ?_
    split
    · exact NoReceipt.before (stills_storeCall fun _ _ => Store.Op.noConfusion).clear
        fun _ => vouch_done
    · exact vouch_storeMessage wrapperJson innerJson cfg delivery inner
  · exact (stills_acceptMessage plain).clear.tracksAny

theorem vouch_onMsg (delivery : Delivery) :
    Prog.Tracks (VouchRule P identity.name) (fun _ _ => True) voucher
      (onMsg P identity delivery) := by
  unfold onMsg
  split
  · exact vouch_done
  · exact NoReceipt.before (stills_offerPending _).clear fun _ => vouch_done
  · exact NoReceipt.before (stills_storeCall fun _ _ => Store.Op.noConfusion).clear
      fun _ => vouch_done
  · refine NoReceipt.before (clear_observe _) fun cfg => NoReceipt.before (clear_observe _)
      fun trust => ?_
    unfold settle
    split
    · exact vouch_acceptMessage wrapperJson innerJson _ _ _ _
    · exact NoReceipt.before (stills_storeCall fun _ _ => Store.Op.noConfusion).clear
        fun _ => vouch_done

/-! ## Every job -/

theorem vouch_handle (asked : Request) (draw : Draw) (nowSeq : Int) :
    Prog.Tracks (VouchRule P identity.name) (fun _ _ => True) voucher
      (handle P identity draw nowSeq asked) := by
  cases asked with
  | ping | hello | shutdown =>
      exact vouch_done
  | status =>
      exact asides_status.stills.clear.tracksAny
  | send params =>
      exact (clear_send wrapperJson innerJson params draw).tracksAny
  | read consumer limit =>
      refine NoReceipt.tracksAny (Stills.clear (Prog.Within.andThen ?_ fun _ => .done))
      refine stills_storeQuery.andThen fun after => ?_
      split
      · exact stills_storeQuery
      · exact .done
  | ack consumer seq =>
      exact vouch_ackRequest wrapperJson innerJson consumer seq draw
  | browse | transcript | rejections | consumers | presenceList =>
      exact (asides_query _ _).stills.clear.tracksAny
  | receipts id limit state =>
      cases id <;> exact (asides_query _ _).stills.clear.tracksAny
  | reply msgId ctype body =>
      refine NoReceipt.before stills_storeQuery.clear fun found => ?_
      split
      · exact vouch_done
      · exact vouch_done
      · exact (clear_send wrapperJson innerJson _ draw).tracksAny
  | presence state ttlSecs detail =>
      refine NoReceipt.before (clear_observe _) fun cfg => ?_
      split
      · exact vouch_done
      · exact NoReceipt.before (clear_enqueuePresence wrapperJson innerJson _ _ _)
          fun _ => vouch_done
  | pairStart topic =>
      exact (clear_pairStart wrapperJson innerJson topic draw).tracksAny
  | pairList =>
      exact (clear_observe _).tracksAny
  | pairConfirm pair =>
      exact (asides_pairConfirm pair).stills.clear.tracksAny
  | connect =>
      exact asides_connect.stills.clear.tracksAny
  | disconnect =>
      exact (stills_call fun _ _ => ⟨.refl _, List.nil_subset _⟩).clear.tracksAny

end Lawful

/-! ## The pump -/

theorem vouch_pendingOutbound :
    Prog.Tracks (VouchRule P name)
      (fun later pending => ∀ entry ∈ unwrapOr [] pending, later.knows entry.payload)
      voucher (storeQuery Store.pendingOutbound) := by
  refine Prog.Tracks.call fun input world => ?_
  refine ⟨voucher.learn fun payload =>
      ∃ entry ∈ world.store.pendingOutbound, entry.payload = payload,
    (Still.refl world).plainly.rule (fun _ seen => Or.inl seen) (fun _ seen => Or.inl seen)
      (fun _ seen => Or.inl seen) fun _ seen => seen, ?_⟩
  cases input.fault with
  | none =>
      exact fun entry member => Or.inr ⟨entry, member, rfl⟩
  | some writes =>
      exact fun entry member => absurd member List.not_mem_nil

theorem vouch_pumpAll
    {pending : List Outbound} (known : ∀ entry ∈ pending, voucher.knows entry.payload) :
    Prog.Tracks (VouchRule P name) (fun _ _ => True) voucher (pumpAll pending) := by
  induction pending with
  | nil =>
      exact vouch_done
  | cons entry pending inductionHypothesis =>
      have rest := inductionHypothesis fun other member => known other (.tail _ member)
      refine (vouch_publishOn (Or.inl (known entry List.mem_cons_self))).bind
        fun later published same => ?_
      subst same
      split
      · exact NoReceipt.before (stills_storeCall fun _ _ => Store.Op.noConfusion).clear
          fun _ => rest
      · exact rest

theorem vouch_pumpRound :
    Prog.Tracks (VouchRule P name) (fun _ _ => True) voucher pumpRound := by
  refine NoReceipt.before (clear_observe _) fun connected => ?_
  split
  · exact vouch_pendingOutbound.bind fun later pending known => vouch_pumpAll known
  · exact vouch_done

/-- Every thread of the system follows the rule. -/
theorem vouch_thread
    (wrapperJson : P.wrapperJson.Lawful) (innerJson : P.innerJson.Lawful) (job : Job) :
    Prog.Tracks (VouchRule P identity.name) (fun _ _ => True) voucher
      (job.thread P identity) := by
  cases job with
  | ingest delivery =>
      exact (vouch_onMsg wrapperJson innerJson delivery).bind fun _ _ _ => vouch_done
  | request asked draw nowSeq =>
      exact (vouch_handle wrapperJson innerJson asked draw nowSeq).bind fun _ _ _ => vouch_done
  | subscribe consumer ack rounds draws =>
      exact NoReceipt.before (stills_call fun _ _ => ⟨.refl _, List.Subset.refl _⟩).clear fun id =>
        NoReceipt.before (stills_call fun _ _ => ⟨.refl _, List.Subset.refl _⟩).clear fun _ =>
          vouch_forward wrapperJson innerJson id consumer ack rounds draws
  | pump =>
      exact vouch_pumpRound
  | heartbeat draw nowSeq =>
      refine NoReceipt.tracksAny ((clear_observe _).andThen fun cfg => ?_)
      split
      · exact .done
      · split
        · exact .done
        · exact clear_enqueuePresence wrapperJson innerJson _ _ _
  | agentAdd text rotate =>
      exact (asides_agentAdd text rotate).stills.clear.tracksAny.bind fun _ _ _ => vouch_done
  | agentRemove other =>
      exact (asides_editTrust _).stills.clear.tracksAny.bind fun _ _ _ => vouch_done
  | authorityAdd text =>
      exact (asides_authorityAdd text).stills.clear.tracksAny.bind fun _ _ _ => vouch_done
  | authorityRemove other =>
      exact (asides_editTrust _).stills.clear.tracksAny.bind fun _ _ _ => vouch_done
  | editConfig | editTrustFile =>
      exact (stills_call fun _ _ => ⟨.refl _, List.Subset.refl _⟩).clear.tracksAny
  | connection up =>
      refine (stills_call fun _ world => ⟨.refl _, ?_⟩).clear.tracksAny
      cases session : world.mqtt with
      | none =>
          simp [World.requests, session]
      | some live =>
          simp [World.requests, session]

end Threads

/-! ## Runs of one daemon -/

section Runs

variable (P : Platform) (identity : Identity) (start : World)

/-- What a receipt says has been true at some point of a run. -/
def TrueIn (taken : List (Move Input Job)) (rcpt : Receipt) : Prop :=
  ∃ earlier seq, earlier <+: taken ∧
    (System.after P identity start earlier).Holds identity.name rcpt.refId seq ∧
    (rcpt.status = .read →
      ∃ later, later <+: taken ∧ (System.after P identity start later).Passed seq)

/-- The receipts that a payload carries are true. -/
def BackedIn (taken : List (Move Input Job)) (payload : Bytes) : Prop :=
  ∀ rcpt, Carries P rcpt payload → TrueIn P identity start taken rcpt

/-- The account of a thread is true of a run. -/
structure Voucher.TrueIn (taken : List (Move Input Job)) (voucher : Voucher) : Prop where
  stored : ∀ id, voucher.stored id → AgentMsg.TrueIn P identity start taken ⟨id, .delivered⟩
  passed : ∀ seq, voucher.passed seq →
    ∃ later, later <+: taken ∧ (System.after P identity start later).Passed seq
  read : ∀ id, voucher.read id → AgentMsg.TrueIn P identity start taken ⟨id, .read⟩
  knows : ∀ payload, voucher.knows payload → BackedIn P identity start taken payload

/-- The receipts in the outbox, in the session and in the accounts are true. -/
structure Backed (taken : List (Move Input Job)) (vouchers : Nat → Voucher) : Prop where
  outbox : ∀ entry ∈ (System.after P identity start taken).store.pendingOutbound,
    BackedIn P identity start taken entry.payload
  requests : ∀ publish ∈ (System.after P identity start taken).requests,
    BackedIn P identity start taken publish.payload
  accounts : ∀ index, (vouchers index).TrueIn P identity start taken

variable {P identity start} {taken moves : List (Move Input Job)} {vouchers : Nat → Voucher}

theorem TrueIn.mono
    {rcpt : Receipt} (holds : TrueIn P identity start taken rcpt) (longer : taken <+: moves) :
    TrueIn P identity start moves rcpt := by
  obtain ⟨earlier, seq, isPrefix, stored, read⟩ := holds
  refine ⟨earlier, seq, isPrefix.trans longer, stored, fun status => ?_⟩
  obtain ⟨later, laterPrefix, passed⟩ := read status
  exact ⟨later, laterPrefix.trans longer, passed⟩

theorem BackedIn.mono
    {payload : Bytes} (backed : BackedIn P identity start taken payload)
    (longer : taken <+: moves) : BackedIn P identity start moves payload :=
  fun rcpt carries => (backed rcpt carries).mono longer

theorem Voucher.TrueIn.mono
    {voucher : Voucher} (holds : voucher.TrueIn P identity start taken)
    (longer : taken <+: moves) : voucher.TrueIn P identity start moves where
  stored id seen := (holds.stored id seen).mono longer
  passed seq seen := by
    obtain ⟨later, isPrefix, passed⟩ := holds.passed seq seen
    exact ⟨later, isPrefix.trans longer, passed⟩
  read id seen := (holds.read id seen).mono longer
  knows payload seen := (holds.knows payload seen).mono longer

theorem Voucher.trueIn_none : Voucher.none.TrueIn P identity start taken :=
  ⟨fun _ => False.elim, fun _ => False.elim, fun _ => False.elim, fun _ => False.elim⟩

/-- What a true account vouches for is true. -/
theorem Voucher.TrueIn.backs
    {voucher : Voucher} {payload : Bytes} (holds : voucher.TrueIn P identity start taken)
    (vouches : voucher.Vouches P payload) : BackedIn P identity start taken payload := by
  rcases vouches with known | covered
  · exact holds.knows payload known
  · rintro ⟨refId, status⟩ carries
    cases status with
    | delivered =>
        exact holds.stored refId (covered _ carries)
    | read =>
        exact holds.read refId (covered _ carries)

/-- A step that follows the rule leaves a true account true. -/
theorem Voucher.TrueIn.step
    {voucher later : Voucher} {choice : Move Input Job} {input : Input}
    (holds : voucher.TrueIn P identity start taken)
    (outbox : ∀ entry ∈ (System.after P identity start taken).store.pendingOutbound,
      BackedIn P identity start taken entry.payload)
    (rule : VouchRule P identity.name voucher input (System.after P identity start taken)
      (System.after P identity start (taken ++ [choice])) later) :
    later.TrueIn P identity start (taken ++ [choice]) := by
  have longer : taken <+: taken ++ [choice] := List.prefix_append _ _
  have earlier := holds.mono longer
  constructor
  · intro id seen
    rcases rule.stored id seen with old | ⟨seq, stored⟩
    · exact earlier.stored id old
    · exact ⟨_, seq, List.prefix_rfl, stored, nofun⟩
  · intro seq seen
    rcases rule.passed seq seen with old | passed
    · exact earlier.passed seq old
    · exact ⟨_, List.prefix_rfl, passed⟩
  · intro id seen
    rcases rule.read id seen with old | ⟨seq, passed, stored⟩
    · exact earlier.read id old
    · exact ⟨taken, seq, longer, stored, fun _ => earlier.passed seq passed⟩
  · intro payload seen
    rcases rule.knows payload seen with old | ⟨entry, member, rfl⟩
    · exact earlier.knows payload old
    · exact (outbox entry member).mono longer

theorem Backed.step
    (backed : Backed P identity start taken vouchers) {index : Nat} {input : Input}
    {later : Voucher}
    (rule : VouchRule P identity.name (vouchers index) input (System.after P identity start taken)
      (System.after P identity start (taken ++ [.step index input])) later) :
    Backed P identity start (taken ++ [.step index input])
      (Function.update vouchers index later) := by
  have longer : taken <+: taken ++ [.step index input] := List.prefix_append _ _
  constructor
  · intro entry member
    rcases rule.outbox entry member with old | vouches
    · exact (backed.outbox entry old).mono longer
    · exact ((backed.accounts index).backs vouches).mono longer
  · intro publish member
    rcases rule.requests publish member with old | vouches
    · exact (backed.requests publish old).mono longer
    · exact ((backed.accounts index).backs vouches).mono longer
  · intro other
    by_cases same : other = index
    · rw [same, Function.update_self]
      exact (backed.accounts index).step backed.outbox rule
    · rw [Function.update_of_ne same]
      exact (backed.accounts other).mono longer

/-- A move that leaves the shared state alone. -/
theorem Backed.idle
    (backed : Backed P identity start taken vouchers) {choice : Move Input Job}
    (same :
      System.after P identity start (taken ++ [choice]) = System.after P identity start taken) :
    Backed P identity start (taken ++ [choice]) vouchers := by
  have longer : taken <+: taken ++ [choice] := List.prefix_append _ _
  constructor
  · rw [same]
    exact fun entry member => (backed.outbox entry member).mono longer
  · rw [same]
    exact fun publish member => (backed.requests publish member).mono longer
  · exact fun index => (backed.accounts index).mono longer

/-- In every run of a daemon that starts with nothing queued, the receipts that are queued or
handed to the session are true. -/
theorem backed_run
    (wrapperJson : P.wrapperJson.Lawful) (innerJson : P.innerJson.Lawful) (fresh : start.Untouched)
    (moves : List (Move Input Job)) : ∃ vouchers, Backed P identity start moves vouchers := by
  have typed : ∀ job, .spawn job ∈ moves →
      Prog.Tracks (VouchRule P identity.name) (fun _ _ => True) Voucher.none
        (job.thread P identity) :=
    fun job _ => vouch_thread wrapperJson innerJson job
  have initial : Backed P identity start [] (fun _ => Voucher.none) := by
    refine ⟨fun entry member => ?_, fun publish member => ?_, fun _ => Voucher.trueIn_none⟩
    · have none : entry ∈ start.store.pendingOutbound := member
      rw [fresh.outbox] at none
      exact absurd none List.not_mem_nil
    · have none : publish ∈ start.requests := member
      rw [fresh.session] at none
      exact absurd none List.not_mem_nil
  have reached := Pool.tracked_run typed
    (fun taken vouchers => Backed P identity start taken vouchers) (fun _ => Voucher.none) initial
    (fun taken job vouchers _ backed => ?_)
    (fun taken index input job thread vouchers later _ backed _ rule => backed.step rule)
    (fun taken choice vouchers _ backed same => backed.idle (congrArg Pool.shared same))
  · obtain ⟨vouchers, backed, _⟩ := reached
    exact ⟨vouchers, backed⟩
  · have spawned : System.after P identity start (taken ++ [.spawn job]) =
        System.after P identity start taken := by
      rw [System.after, run_snoc]
      rfl
    refine ⟨(backed.idle spawned).outbox, (backed.idle spawned).requests, fun index => ?_⟩
    by_cases same : index =
        (Pool.run (Job.thread P identity) { shared := start } taken).threads.length
    · rw [same, Function.update_self]
      exact Voucher.trueIn_none
    · rw [Function.update_of_ne same]
      exact (backed.idle spawned).accounts index

end Runs

/-! ## Networks -/

section Network

variable {P : Platform} {ι : Type} [DecidableEq ι] {identity : ι → Identity} {start : ι → World}
  {moves : ι → List (Move Input Job)} {broker : List Publish}

theorem prefix_update (moves : ι → List (Move Input Job)) (i : ι) (choice : Move Input Job)
    (j : ι) : moves j <+: Function.update moves i (moves i ++ [choice]) j := by
  by_cases same : j = i
  · subst same
    rw [Function.update_self]
    exact List.prefix_append _ _
  · rw [Function.update_of_ne same]

variable (P identity start) in
/-- The receipts that a payload carries are true of one of the daemons. -/
def BackedBySome (moves : ι → List (Move Input Job)) (payload : Bytes) : Prop :=
  ∀ rcpt, Carries P rcpt payload → ∃ j, TrueIn P (identity j) (start j) (moves j) rcpt

omit [DecidableEq ι] in
theorem BackedBySome.mono
    {later : ι → List (Move Input Job)} {payload : Bytes}
    (backed : BackedBySome P identity start moves payload) (longer : ∀ j, moves j <+: later j) :
    BackedBySome P identity start later payload := by
  intro rcpt carries
  obtain ⟨j, holds⟩ := backed rcpt carries
  exact ⟨j, holds.mono (longer j)⟩

/-- The receipts that the broker holds, and those that it delivers, are true. -/
theorem Network.backed
    (wrapperJson : P.wrapperJson.Lawful) (innerJson : P.innerJson.Lawful)
    (fresh : ∀ i, (start i).Untouched) (network : Network P identity start moves broker) :
    (∀ publish ∈ broker, BackedBySome P identity start moves publish.payload) ∧
      ∀ i delivery, .spawn (.ingest delivery) ∈ moves i →
        BackedBySome P identity start moves delivery.payload := by
  induction network with
  | start =>
      exact ⟨fun publish member => absurd member List.not_mem_nil,
        fun i delivery member => absurd member List.not_mem_nil⟩
  | act moves broker i choice earlier own inductionHypothesis =>
      have longer := prefix_update moves i choice
      refine ⟨fun publish member => (inductionHypothesis.1 publish member).mono longer, ?_⟩
      intro j delivery member
      rcases mem_update member with old | same
      · exact (inductionHypothesis.2 j delivery old).mono longer
      · exact absurd same.symm (own delivery)
  | publish moves broker i publish earlier handed inductionHypothesis =>
      refine ⟨?_, inductionHypothesis.2⟩
      intro other member
      rcases List.mem_append.mp member with old | new
      · exact inductionHypothesis.1 other old
      · rw [List.mem_singleton.mp new]
        obtain ⟨_, backed⟩ :=
          @backed_run P (identity i) (start i) wrapperJson innerJson (fresh i) (moves i)
        exact fun rcpt carries => ⟨i, backed.requests publish handed rcpt carries⟩
  | deliver moves broker i publish clock draw earlier held inductionHypothesis =>
      have longer := prefix_update moves i
        (.spawn (.ingest ⟨publish.topic, publish.payload, clock, draw⟩))
      refine ⟨fun publish member => (inductionHypothesis.1 publish member).mono longer, ?_⟩
      intro j delivery member
      rcases mem_update member with old | same
      · exact (inductionHypothesis.2 j delivery old).mono longer
      · cases same
        exact (inductionHypothesis.1 publish held).mono longer

end Network

section Confirmed

variable {P : Platform} {identity : Identity} {start : World}

/-- An accepted message carries the receipt that its payload carries. -/
theorem carries_of_accepted
    {cfg : Config} {trust : TrustStore} {delivery : Delivery} {inner : Inner} {rcpt : Receipt}
    (accepted : Accepted P identity cfg trust delivery inner)
    (carried : inner.receipt = some rcpt) : Carries P rcpt delivery.payload := by
  obtain ⟨wrapper, sent, parsed, finalized, path⟩ := verifyIncoming_ok accepted.verified
  have same : inner.receipt = sent.receipt := by
    rw [finalized.same]
  refine ⟨wrapper, sent, parsed, ?_, same.symm.trans carried⟩
  rcases path with ⟨_, _, signed⟩ | ⟨_, _, peeked, _⟩
  · exact signed.peek
  · exact peeked

/-- A row that is confirmed was confirmed by a delivery that carries the receipt. -/
theorem delivered_of_confirms
    {taken : List (Move Input Job)} {choice : Move Input Job} {old new : Int × MsgRow}
    (confirms : Confirms (System.after P identity start taken).store
      (System.after P identity start (taken ++ [choice])).store old new) :
    ∃ delivery rcpt, .spawn (.ingest delivery) ∈ taken ∧ Carries P rcpt delivery.payload ∧
      rcpt.refId = old.2.id ∧ rcpt.status.state = new.2.deliveryState := by
  obtain ⟨_, _, delivery, _, rcpt, ingest, refId, status⟩ := receiptIngest_of_confirms confirms
  exact ⟨delivery, rcpt, ingest.spawned, carries_of_accepted ingest.accepted ingest.carried,
    refId, status⟩

/-- A step confirms a row, with the id and in the state of the given one. -/
def ConfirmedIn (P : Platform) (identity : Identity) (start : World)
    (moves : List (Move Input Job)) (row : MsgRow) : Prop :=
  ∃ taken choice old new, taken ++ [choice] <+: moves ∧
    Confirms (System.after P identity start taken).store
      (System.after P identity start (taken ++ [choice])).store old new ∧
    old.2.id = row.id ∧ new.2.deliveryState = row.deliveryState

theorem ConfirmedIn.snoc
    {moves : List (Move Input Job)} {choice : Move Input Job} {row : MsgRow}
    (earlier : ConfirmedIn P identity start moves row) :
    ConfirmedIn P identity start (moves ++ [choice]) row := by
  obtain ⟨taken, step, old, new, isPrefix, confirms⟩ := earlier
  exact ⟨taken, step, old, new, isPrefix.trans (List.prefix_append _ _), confirms⟩

/-- An outbound row in one of the states is an old row in this state, or has just been
confirmed. -/
theorem old_or_confirms
    {before : Store} {operation : Store.Op} {row : Int × MsgRow}
    (member : row ∈ (before.apply operation).messages.rows) (outbound : row.2.direction = .outbound)
    (state : row.2.deliveryState = .delivered ∨ row.2.deliveryState = .read) :
    row ∈ before.messages.rows ∨
      ∃ old ∈ before.messages.rows, old.2.direction = .outbound ∧ old.2.id = row.2.id ∧
        (old.2.deliveryState = row.2.deliveryState ∨
          Confirms before (before.apply operation) old row) := by
  have is := member
  have step := before.apply_log operation
  generalize (before.apply operation).messages = after at step member
  cases step with
  | same =>
      exact Or.inl member
  | inbound inner topic =>
      rcases RowTable.mem_insertOrIgnore.mp member with old | ⟨_, new⟩
      · exact Or.inl old
      · rw [new] at outbound
        cases outbound
  | outbound inner topic =>
      rcases RowTable.mem_insertOrIgnore.mp member with old | ⟨_, new⟩
      · exact Or.inl old
      · rw [new] at state
        rcases state with impossible | impossible <;> cases impossible
  | updated update found =>
      obtain ⟨old, was, changed⟩ := RowTable.mem_updateWhere.mp member
      by_cases selected : update.selects old.2 = true
      · have directed : old.2.direction = .outbound := by
          simp only [Store.DeliveryUpdate.selects, Bool.and_eq_true, beq_iff_eq] at selected
          exact selected.1.2
        have same : row.2.id = old.2.id := by
          rw [changed]
          exact (congrArg MsgRow.id (if_pos selected)).trans (update.keeps old.2)
        refine Or.inr ⟨old, was, directed, same.symm, ?_⟩
        by_cases kept : old.2.deliveryState = row.2.deliveryState
        · exact Or.inl kept
        · exact Or.inr ⟨was, is, by rw [changed], directed,
            fun equal => kept equal.symm, state⟩
      · rw [if_neg selected] at changed
        rw [changed]
        exact Or.inl was
  | trimmed _ sublist _ =>
      exact Or.inl (sublist.subset member)

/-- When nothing is stored at the start, every outbound row in one of the states was
confirmed. -/
theorem confirmed_earlier
    (empty : start.store.messages.rows = []) (moves : List (Move Input Job)) :
    ∀ row ∈ (System.after P identity start moves).store.messages.rows,
      row.2.direction = .outbound →
      (row.2.deliveryState = .delivered ∨ row.2.deliveryState = .read) →
      ConfirmedIn P identity start moves row.2 := by
  induction moves using List.reverseRecOn with
  | nil =>
      intro row member
      have none : row ∈ start.store.messages.rows := member
      rw [empty] at none
      exact absurd none List.not_mem_nil
  | append_singleton moves choice inductionHypothesis =>
      intro row member outbound state
      have unchanged (same : (System.after P identity start (moves ++ [choice])).store =
          (System.after P identity start moves).store) :
          ConfirmedIn P identity start (moves ++ [choice]) row.2 := by
        rw [same] at member
        exact (inductionHypothesis row member outbound state).snoc
      rcases Pool.run_change choice (fun job _ => confined_thread job) with
        same | ⟨job, spawned, same | ⟨operation, permitted, changed⟩⟩
      · exact unchanged (congrArg World.store same)
      · exact unchanged same
      · have applied : (System.after P identity start (moves ++ [choice])).store =
            (System.after P identity start moves).store.apply operation := changed
        rw [applied] at member
        rcases old_or_confirms member outbound state with
          old | ⟨old, was, directed, same, kept | confirms⟩
        · exact (inductionHypothesis row old outbound state).snoc
        · rw [← kept] at state
          obtain ⟨taken, step, first, new, isPrefix, confirms, id, stands⟩ :=
            (inductionHypothesis old was directed state).snoc
          exact ⟨taken, step, first, new, isPrefix, confirms, id.trans same, stands.trans kept⟩
        · rw [← applied] at confirms
          exact ⟨moves, choice, old, row, List.prefix_rfl, confirms, same, rfl⟩

end Confirmed

/-- Every outbound row of a daemon that is `delivered` or `read` has the id of a message that
some daemon of the network has stored for its own agent; and when it is `read`, a client of that
daemon has acknowledged the number the message was stored under, or a subscriber has been sent
it. -/
def DeliveryVouched (P : Platform) {ι : Type} (identity : ι → Identity) (start : ι → World)
    (moves : ι → List (Move Input Job)) (i : ι) : Prop :=
  ∀ row ∈ (System.after P (identity i) (start i) (moves i)).store.messages.rows,
    row.2.direction = .outbound →
    (row.2.deliveryState = .delivered ∨ row.2.deliveryState = .read) →
    ∃ j earlier seq, earlier <+: moves j ∧
      (System.after P (identity j) (start j) earlier).Holds (identity j).name row.2.id seq ∧
      (row.2.deliveryState = .read →
        ∃ later, later <+: moves j ∧
          (System.after P (identity j) (start j) later).Passed seq)

/-- In every run of a network of daemons that start with nothing stored or queued, every
delivery state that a sender sees is true. -/
theorem delivery_states_true
    (P : Platform) (wrapperJson : P.wrapperJson.Lawful) (innerJson : P.innerJson.Lawful)
    {ι : Type} [DecidableEq ι] (identity : ι → Identity) (start : ι → World)
    (fresh : ∀ i, (start i).Untouched) (moves : ι → List (Move Input Job)) (broker : List Publish)
    (network : Network P identity start moves broker) (i : ι) :
    DeliveryVouched P identity start moves i := by
  intro row member outbound state
  obtain ⟨taken, choice, old, new, isPrefix, confirms, id, stands⟩ :=
    confirmed_earlier (fresh i).log (moves i) row member outbound state
  obtain ⟨delivery, rcpt, spawned, carries, refId, status⟩ := delivered_of_confirms confirms
  have delivered : .spawn (.ingest delivery) ∈ moves i :=
    isPrefix.subset (List.mem_append_left _ spawned)
  obtain ⟨j, earlier, seq, earlierPrefix, holds, read⟩ :=
    (network.backed wrapperJson innerJson fresh).2 i delivery delivered rcpt carries
  rw [refId, id] at holds
  refine ⟨j, earlier, seq, earlierPrefix, holds, fun wasRead => read ?_⟩
  rw [stands, wasRead] at status
  cases said : rcpt.status with
  | delivered =>
      rw [said] at status
      cases status
  | read =>
      rfl

/-- Alice's greeting is delivered in a run, and Bob vouches for it. -/
theorem delivery_states_true_greeting :
    ∃ moves broker,
      Network (Reference.platform chatConfig) pair chatStart moves broker ∧
      (System.after (Reference.platform chatConfig) (pair true) (chatStart true)
        (moves true)).store.LoggedDelivered Reference.draw.id ∧
      DeliveryVouched (Reference.platform chatConfig) pair chatStart moves true := by
  obtain ⟨worlds, broker, ⟨moves, network, after⟩, delivered⟩ := greeting_confirmed
  rw [← after true] at delivered
  exact ⟨moves, broker, network, delivered,
    delivery_states_true (Reference.platform chatConfig)
      (Reference.wrapperJson_lawful chatConfig) (Reference.innerJson_lawful chatConfig) pair
      chatStart chatStart_untouched moves broker network true⟩

end AgentMsg
