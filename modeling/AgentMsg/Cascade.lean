import AgentMsg.Ledger
import AgentMsg.Lib.Tally

/-!
# Automatic receipts do not cascade

Every delivery receipt that a daemon enqueues answers a row that it inserted for its agent,
and every read receipt an acknowledgement.  In a network of daemons the inserted rows carry
messages that clients sent, never automatic ones.
-/

namespace AgentMsg

open Checked

/-! ## Actions that earn a receipt -/

/-- The action inserts an inbound row for the agent. -/
def Receives (name : String) (update : Input → World → World) (input : Input)
    (world : World) : Prop :=
  ∃ row, Inserts world (update input world) row ∧ row.2.recipient = name

/-- The action acknowledges: it is the store call that moves a consumer's cursor. -/
def Acknowledges (update : Input → World → World) (_ : Input) (_ : World) : Prop :=
  ∃ consumer seq, update = fun input world =>
    { world with store := world.store.attempt (.ack consumer seq input.now) input.fault }

section Rule

variable {P : Platform} {name : String} {purse later : Purse} {input : Input}
  {before after : World}

/-! ## What one action costs -/

/-- What an action earns a receipt for, under the account of its thread. -/
def Purse.Earns (purse : Purse) (name : String) (before after : World) : ReceiptStatus → Prop
  | .delivered => ∃ row, Inserts before after row ∧ row.2.recipient = name
  | .read => purse.acking = true ∧ Writes before after

theorem not_enqueues_of_sublist
    {status : ReceiptStatus}
    (outbox : after.store.pendingOutbound.Sublist before.store.pendingOutbound) :
    ¬ Enqueues P status before after := by
  rintro ⟨entry, queued, _⟩
  have shorter := outbox.length_le
  rw [queued, List.length_append, List.length_singleton] at shorter
  omega

theorem isReceipt_of_enqueues
    {status : ReceiptStatus} {entry : Outbound}
    (queued : after.store.pendingOutbound = before.store.pendingOutbound ++ [entry])
    (enqueues : Enqueues P status before after) : IsReceipt P status entry.payload := by
  obtain ⟨other, otherQueued, isReceipt⟩ := enqueues
  have same := List.append_cancel_left (queued.symm.trans otherQueued)
  rw [(List.cons.inj same).1]
  exact isReceipt

/-- A receipt that is enqueued was paid for: it was among those left, or is earned by the
action itself. -/
theorem ReceiptRule.balance
    (rule : ReceiptRule P name purse input before after later) (status : ReceiptStatus) :
    indicator (Enqueues P status before after) + later.credit status ≤
      purse.credit status + indicator (purse.Earns name before after status) := by
  have idle (same : later.credit status = purse.credit status)
      (nothing : ¬ Enqueues P status before after) :
      indicator (Enqueues P status before after) + later.credit status ≤
        purse.credit status + indicator (purse.Earns name before after status) := by
    rw [indicator_of_not nothing, same]
    omega
  have earned (other : ReceiptStatus) (still : Still before after)
      (earns : purse.Earns name before after other) :
      indicator (Enqueues P status before after) + (purse.earn other).credit status ≤
        purse.credit status + indicator (purse.Earns name before after status) := by
    rw [indicator_of_not (not_enqueues_of_sublist still.outbox)]
    by_cases same : status = other
    · subst same
      rw [indicator_of earns, Purse.credit_earn]
      omega
    · rw [Purse.credit_earn_of_ne same]
      omega
  cases rule with
  | still change =>
      exact idle rfl (not_enqueues_of_sublist change.outbox)
  | reads =>
      exact idle rfl (not_enqueues_of_sublist (.refl _))
  | inserts row change event mine =>
      exact earned .delivered change ⟨row, event, mine⟩
  | writes acking change event =>
      exact earned .read change ⟨acking, event⟩
  | queues entry queued requests made other =>
      exact idle rfl fun enqueues => other status (isReceipt_of_enqueues queued enqueues)
  | pays entry paid queued requests made one solvent =>
      by_cases same : status = paid
      · subst same
        have most := @indicator_le (Enqueues P status before after)
        rw [Purse.credit_pay]
        omega
      · refine idle (Purse.credit_pay_of_ne same) fun enqueues => same ?_
        exact one status (isReceipt_of_enqueues queued enqueues)
  | hands publish known outbox requests =>
      exact idle rfl (not_enqueues_of_sublist outbox)

theorem ReceiptRule.acking
    (rule : ReceiptRule P name purse input before after later) : later.acking = purse.acking := by
  cases rule <;> rfl

theorem ReceiptRule.makes
    (rule : ReceiptRule P name purse input before after later) : later.makes = purse.makes := by
  cases rule <;> rfl

theorem ReceiptRule.knows
    (rule : ReceiptRule P name purse input before after later) {payload : Bytes}
    (known : later.knows payload) :
    purse.knows payload ∨ ∃ entry ∈ before.store.pendingOutbound, entry.payload = payload := by
  cases rule with
  | reads =>
      exact known
  | _ =>
      exact Or.inl known

theorem ReceiptRule.outbox
    (rule : ReceiptRule P name purse input before after later) {entry : Outbound}
    (member : entry ∈ after.store.pendingOutbound) :
    entry ∈ before.store.pendingOutbound ∨ purse.makes entry.payload := by
  have appended (queuedEntry : Outbound)
      (queued : after.store.pendingOutbound = before.store.pendingOutbound ++ [queuedEntry])
      (made : purse.makes queuedEntry.payload) :
      entry ∈ before.store.pendingOutbound ∨ purse.makes entry.payload := by
    rw [queued] at member
    rcases List.mem_append.mp member with old | new
    · exact Or.inl old
    · rw [List.mem_singleton.mp new]
      exact Or.inr made
  cases rule with
  | still change | inserts _ change _ _ | writes _ change _ =>
      exact Or.inl (change.outbox.subset member)
  | reads =>
      exact Or.inl member
  | queues queuedEntry queued _ made _ =>
      exact appended queuedEntry queued made
  | pays queuedEntry _ queued _ made _ _ =>
      exact appended queuedEntry queued made
  | hands _ _ outbox _ =>
      exact Or.inl (outbox.subset member)

theorem ReceiptRule.requests
    (rule : ReceiptRule P name purse input before after later) {publish : Publish}
    (member : publish ∈ after.requests) :
    publish ∈ before.requests ∨ purse.makes publish.payload ∨ purse.knows publish.payload := by
  cases rule with
  | still change | inserts _ change _ _ | writes _ change _ =>
      exact Or.inl (change.requests member)
  | reads =>
      exact Or.inl member
  | queues _ _ requests _ _ | pays _ _ _ requests _ _ _ =>
      exact Or.inl (requests member)
  | hands handed known _ requests =>
      rw [requests] at member
      rcases List.mem_append.mp member with old | new
      · exact Or.inl old
      · rw [List.mem_singleton.mp new]
        exact Or.inr known

end Rule

section Threads

variable {P : Platform} {identity : Identity} {name : String}

/-! ## What threads earn -/

/-- A thread that earns no read receipts on its way spends those of its account. -/
theorem covered_of_books
    {α : Type} {thread : Thread α} {purse : Purse} {final : Purse → α → Prop}
    {earns : (Input → World → World) → Input → World → Prop}
    (tracks : Prog.Tracks (ReceiptRule P name) final purse thread)
    (quiet : purse.acking = false) :
    Prog.Covered earns (Enqueues P .read) (fun _ _ => True) (purse.credit .read) thread := by
  refine @Prog.Tracks.covered _ _ _ _ _ _ _ _ _ _ (fun current => current.acking = false)
    (fun current => current.credit .read) tracks quiet ?_ ?_
  · intro _ _ _ _ _ rule acking
    exact rule.acking.trans acking
  · intro current update input state later rule acking
    have balance := rule.balance .read
    have nothing : ¬ current.Earns name state (update input state) .read := fun earns =>
      Bool.false_ne_true (acking.symm.trans earns.1)
    rw [indicator_of_not nothing] at balance
    exact balance.trans (Nat.add_le_add_left (Nat.zero_le _) _)

theorem Stills.covered
    {α : Type} {thread : Thread α} {status : ReceiptStatus} {left : Nat}
    {earns : (Input → World → World) → Input → World → Prop} (stills : Stills thread) :
    Prog.Covered earns (Enqueues P status) (fun later _ => later = left) left thread :=
  Prog.Within.covered stills fun _ _ still => not_enqueues_of_sublist still.outbox

theorem covered_ack (consumer : String) (seq : Int) (left : Nat) :
    Prog.Covered Acknowledges (Enqueues P .read) (fun later _ => later = left + 1) left
      (Calls.ack consumer seq) := by
  refine Prog.Covered.call (fun input world => ?_) fun _ _ => ⟨consumer, seq, rfl⟩
  have kept := still_attempt world (fun entry => Store.Op.noConfusion :
    ∀ entry, Store.Op.ack consumer seq input.now ≠ .enqueueOutbound entry) input.fault
  exact not_enqueues_of_sublist kept.outbox

theorem stills_writeFrame (id : Nat) (frame : StreamFrame) : Stills (writeFrame id frame) := by
  refine stills_call fun input world => ?_
  split
  · exact ⟨.refl _, List.Subset.refl _⟩
  · exact .refl world

section Lawful

variable (wrapperJson : P.wrapperJson.Lawful) (innerJson : P.innerJson.Lawful)

include wrapperJson innerJson

/-- What follows an acknowledgement is covered by it. -/
theorem covered_maybeReadReceipt (seq : Int) (draw : Draw) (left : Nat) :
    Prog.Covered Acknowledges (Enqueues P .read) (fun _ _ => True) (left + 1)
      (maybeReadReceipt P identity seq draw) :=
  covered_of_books
    (@books_maybeReadReceipt P identity identity.name
      { Job.pump.purse P identity with credit := fun _ => left + 1 } Job.pump wrapperJson innerJson
      rfl seq draw (Nat.succ_pos left)) rfl

theorem covered_ackFrame
    (consumer : String) (ack : Bool) (draw : Draw) (frame : StreamFrame) (left : Nat) :
    Prog.Covered Acknowledges (Enqueues P .read) (fun _ _ => True) left
      (ackFrame P identity consumer ack draw frame) := by
  cases frame with
  | lagged dropped =>
      exact .pure trivial
  | message msg =>
      cases ack with
      | false =>
          exact .pure trivial
      | true =>
          refine (covered_ack consumer msg.seq left).bind fun later _ earned => ?_
          subst earned
          exact covered_maybeReadReceipt wrapperJson innerJson msg.seq draw left

theorem covered_forward
    (id : Nat) (consumer : String) (ack : Bool) (rounds : Nat) (draws : Nat → Draw)
    (left : Nat) :
    Prog.Covered Acknowledges (Enqueues P .read) (fun _ _ => True) left
      (forward P identity id consumer ack rounds draws) := by
  induction rounds generalizing draws left with
  | zero =>
      exact .pure trivial
  | succ rounds inductionHypothesis =>
      have receives : Stills (receiveFrame id) :=
        stills_call fun _ _ => ⟨.refl _, List.Subset.refl _⟩
      refine receives.covered.bind fun same received kept => ?_
      subst kept
      split
      · exact inductionHypothesis _ _
      · rename_i frame
        refine (stills_writeFrame id frame).covered.bind fun later wrote kept => ?_
        subst kept
        split
        · exact (covered_ackFrame wrapperJson innerJson consumer ack _ frame _).bind
            fun rest _ _ => inductionHypothesis _ rest
        · have leaves : Stills (deregister id) :=
            stills_call fun _ _ => ⟨.refl _, List.Subset.refl _⟩
          exact leaves.covered.bind fun rest _ _ => .done trivial

theorem covered_of_job
    {job : Job} (acks : job.acks = false) (isAck : job.isAck = false) :
    Prog.Covered Acknowledges (Enqueues P .read) (fun _ _ => True) 0
      (job.thread P identity) := by
  have nothing : (job.purse P identity).credit .read = 0 := by
    simp [Job.purse, isAck]
  have covered := @covered_of_books P _ _ _ _ _ Acknowledges
    (@books_thread P identity wrapperJson innerJson job) acks
  rw [nothing] at covered
  exact covered

/-- No thread enqueues more read receipts than it acknowledged. -/
theorem covered_reads (job : Job) :
    Prog.Covered Acknowledges (Enqueues P .read) (fun _ _ => True) 0
      (job.thread P identity) := by
  cases job with
  | subscribe consumer ack rounds draws =>
      have fetches : Stills fetchSubId := stills_call fun _ _ => ⟨.refl _, List.Subset.refl _⟩
      refine fetches.covered.bind fun later id _ => ?_
      have registers : Stills (register id consumer) :=
        stills_call fun _ _ => ⟨.refl _, List.Subset.refl _⟩
      exact registers.covered.bind fun last _ _ =>
        covered_forward wrapperJson innerJson id consumer ack rounds draws last
  | request asked draw nowSeq =>
      cases asked with
      | ack consumer seq =>
          have answers : Prog.Covered Acknowledges (Enqueues P .read) (fun _ _ => True) 0
              (ackRequest P identity consumer seq draw) := by
            refine (covered_ack consumer seq 0).bind fun left acked earned => ?_
            subst earned
            split
            · exact .done trivial
            · exact (covered_maybeReadReceipt wrapperJson innerJson seq draw 0).bind
                fun _ _ _ => .done trivial
          exact answers.bind fun _ _ _ => .done trivial
      | _ =>
          exact covered_of_job wrapperJson innerJson rfl rfl
  | _ =>
      exact covered_of_job wrapperJson innerJson rfl rfl

/-- No thread enqueues more delivery receipts than it inserted rows for the agent. -/
theorem covered_deliveries (job : Job) :
    Prog.Covered (Receives identity.name) (Enqueues P .delivered) (fun _ _ => True) 0
      (job.thread P identity) :=
  @Prog.Tracks.covered _ _ _ _ _ _ _ _ _ _ (fun _ => True)
    (fun current => current.credit .delivered) (books_thread wrapperJson innerJson job) trivial
    (fun _ _ => trivial) fun rule _ => rule.balance .delivered

end Lawful

end Threads

/-! ## Counts of a run -/

/-- How many receipts a run enqueues. -/
noncomputable def System.receipts (P : Platform) (identity : Identity) (status : ReceiptStatus)
    (start : World) : List (Move Input Job) → Nat :=
  Pool.tally (Job.thread P identity) (Pool.Spending (Enqueues P status)) { shared := start }

/-- How many inbound rows for its agent a run inserts. -/
noncomputable def System.received (P : Platform) (identity : Identity) (start : World) :
    List (Move Input Job) → Nat :=
  Pool.tally (Job.thread P identity) (Pool.Earning (Receives identity.name)) { shared := start }

/-- How often a run acknowledges. -/
noncomputable def System.acknowledged (P : Platform) (identity : Identity) (start : World) :
    List (Move Input Job) → Nat :=
  Pool.tally (Job.thread P identity) (Pool.Earning Acknowledges) { shared := start }

section Counts

variable {P : Platform} (wrapperJson : P.wrapperJson.Lawful) (innerJson : P.innerJson.Lawful)
  (identity : Identity) (start : World) (moves : List (Move Input Job))

include wrapperJson innerJson

theorem deliveries_le_received :
    System.receipts P identity .delivered start moves ≤ System.received P identity start moves :=
  Pool.tally_spending_le (covered_deliveries wrapperJson innerJson)
    (fun _ => not_enqueues_of_sublist (.refl _)) moves

theorem reads_le_acknowledged :
    System.receipts P identity .read start moves ≤ System.acknowledged P identity start moves :=
  Pool.tally_spending_le (covered_reads wrapperJson innerJson)
    (fun _ => not_enqueues_of_sublist (.refl _)) moves

end Counts

/-! ## Where payloads come from -/

section Runs

variable {P : Platform} {identity : Identity} {start : World} {taken : List (Move Input Job)}
  {purses : Nat → Purse}

theorem run_snoc (choice : Move Input Job) :
    System.run P identity { shared := start } (taken ++ [choice]) =
      Pool.move (Job.thread P identity) (System.run P identity { shared := start } taken)
        choice := by
  rw [System.run, Pool.run_append, Pool.run_cons, Pool.run_nil]
  rfl

variable (P identity start) in
/-- Where a payload of the daemon comes from: it was in the outbox or in the session at the
start, or a thread of the daemon builds it. -/
inductive Origin (taken : List (Move Input Job)) (payload : Bytes) : Prop
  | queued (entry : Outbound) (member : entry ∈ start.store.pendingOutbound)
      (same : entry.payload = payload) : Origin taken payload
  | handed (publish : Publish) (member : publish ∈ start.requests)
      (same : publish.payload = payload) : Origin taken payload
  | made (job : Job) (spawned : .spawn job ∈ taken) (makes : Makes P identity job payload) :
      Origin taken payload

theorem Origin.mono
    {moves : List (Move Input Job)} {payload : Bytes}
    (origin : Origin P identity start taken payload) (later : taken ⊆ moves) :
    Origin P identity start moves payload := by
  cases origin with
  | queued entry member same =>
      exact .queued entry member same
  | handed publish member same =>
      exact .handed publish member same
  | made job spawned makes =>
      exact .made job (later spawned) makes

variable (P identity start) in
/-- The payloads in the outbox, in the session and in the accounts have an origin. -/
structure Supplied (taken : List (Move Input Job)) (purses : Nat → Purse) : Prop where
  outbox : ∀ entry ∈
      (System.run P identity { shared := start } taken).shared.store.pendingOutbound,
    Origin P identity start taken entry.payload
  requests : ∀ publish ∈ (System.run P identity { shared := start } taken).shared.requests,
    Origin P identity start taken publish.payload
  accounts : ∀ index < (System.run P identity { shared := start } taken).labels.length,
    ∀ payload, (purses index).makes payload ∨ (purses index).knows payload →
      Origin P identity start taken payload

theorem Supplied.spawn
    (supplied : Supplied P identity start taken purses) (job : Job) :
    Supplied P identity start (taken ++ [.spawn job])
      (Function.update purses
        (System.run P identity { shared := start } taken).labels.length
        (job.purse P identity)) := by
  have longer : taken ⊆ taken ++ [.spawn job] := List.subset_append_left _ _
  have shared : (System.run P identity { shared := start } (taken ++ [.spawn job])).shared =
      (System.run P identity { shared := start } taken).shared := by
    rw [run_snoc]
    rfl
  have labels : (System.run P identity { shared := start } (taken ++ [.spawn job])).labels =
      (System.run P identity { shared := start } taken).labels ++ [job] := by
    rw [run_snoc]
    exact Pool.labels_spawn
  constructor
  · rw [shared]
    exact fun entry member => (supplied.outbox entry member).mono longer
  · rw [shared]
    exact fun publish member => (supplied.requests publish member).mono longer
  · intro index within payload known
    rw [labels, List.length_append, List.length_singleton] at within
    by_cases last : index = (System.run P identity { shared := start } taken).labels.length
    · rw [last, Function.update_self] at known
      rcases known with makes | knows
      · exact .made job (List.mem_append_right _ List.mem_cons_self) makes
      · exact knows.elim
    · rw [Function.update_of_ne last] at known
      exact (supplied.accounts index (by omega) payload known).mono longer

theorem Supplied.step
    (supplied : Supplied P identity start taken purses) {index : Nat} {input : Input}
    {later : Purse}
    (within : index < (System.run P identity { shared := start } taken).labels.length)
    (rule : ReceiptRule P identity.name (purses index) input
      (System.run P identity { shared := start } taken).shared
      (System.run P identity { shared := start } (taken ++ [.step index input])).shared later) :
    Supplied P identity start (taken ++ [.step index input])
      (Function.update purses index later) := by
  have longer : taken ⊆ taken ++ [.step index input] := List.subset_append_left _ _
  have labels : (System.run P identity { shared := start } (taken ++ [.step index input])).labels =
      (System.run P identity { shared := start } taken).labels := by
    rw [run_snoc]
    exact Pool.labels_step _ _ _ _
  have own := supplied.accounts index within
  constructor
  · intro entry member
    rcases rule.outbox member with old | makes
    · exact (supplied.outbox entry old).mono longer
    · exact (own _ (Or.inl makes)).mono longer
  · intro publish member
    rcases rule.requests member with old | known
    · exact (supplied.requests publish old).mono longer
    · exact (own _ known).mono longer
  · intro other otherWithin payload known
    rw [labels] at otherWithin
    by_cases same : other = index
    · rw [same, Function.update_self] at known
      rcases known with makes | knows
      · rw [rule.makes] at makes
        exact (own payload (Or.inl makes)).mono longer
      · rcases rule.knows knows with old | ⟨entry, member, rfl⟩
        · exact (own payload (Or.inr old)).mono longer
        · exact (supplied.outbox entry member).mono longer
    · rw [Function.update_of_ne same] at known
      exact (supplied.accounts other otherWithin payload known).mono longer

theorem Supplied.idle
    (supplied : Supplied P identity start taken purses) {choice : Move Input Job}
    (same : System.run P identity { shared := start } (taken ++ [choice]) =
      System.run P identity { shared := start } taken) :
    Supplied P identity start (taken ++ [choice]) purses := by
  have longer : taken ⊆ taken ++ [choice] := List.subset_append_left _ _
  constructor
  · rw [same]
    exact fun entry member => (supplied.outbox entry member).mono longer
  · rw [same]
    exact fun publish member => (supplied.requests publish member).mono longer
  · rw [same]
    exact fun index within payload known =>
      (supplied.accounts index within payload known).mono longer

/-- Every run has accounts with which its payloads have an origin. -/
theorem supplied_run
    (wrapperJson : P.wrapperJson.Lawful) (innerJson : P.innerJson.Lawful)
    (moves : List (Move Input Job)) : ∃ purses, Supplied P identity start moves purses := by
  have typed : ∀ job, .spawn job ∈ moves →
      Prog.Tracks (ReceiptRule P identity.name) (fun _ _ => True) (job.purse P identity)
        (job.thread P identity) :=
    fun job _ => (books_thread wrapperJson innerJson job).weaken fun _ _ _ => trivial
  have initial : Supplied P identity start [] (fun _ => Job.pump.purse P identity) :=
    ⟨fun entry member => .queued entry member rfl,
      fun publish member => .handed publish member rfl,
      fun index within => absurd within (Nat.not_lt_zero index)⟩
  have reached : ∃ purses, Supplied P identity start moves purses ∧
      Pool.Tracked (ReceiptRule P identity.name) (fun _ _ => True)
        (System.run P identity { shared := start } moves) purses := by
    refine Pool.tracked_run typed (fun taken purses => Supplied P identity start taken purses)
      (fun _ => Job.pump.purse P identity) initial ?_ ?_ ?_
    · intro taken job purses isPrefix supplied
      have count : (Pool.run (Job.thread P identity) { shared := start } taken).threads.length =
          (System.run P identity { shared := start } taken).labels.length :=
        (List.length_map ..).symm
      rw [count]
      exact supplied.spawn job
    · intro taken index input job thread purses later isPrefix supplied found rule
      have located : (System.run P identity { shared := start } taken).labels[index]? =
          some job := by
        rw [Pool.labels, List.getElem?_map, System.run, found]
        rfl
      exact supplied.step (List.getElem?_eq_some_iff.mp located).1 rule
    · intro taken choice purses isPrefix supplied same
      exact supplied.idle same
  obtain ⟨purses, supplied, _⟩ := reached
  exact ⟨purses, supplied⟩

end Runs

end AgentMsg
