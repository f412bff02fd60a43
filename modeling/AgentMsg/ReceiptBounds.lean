import AgentMsg.AckBounds
import AgentMsg.Exchange
import AgentMsg.StoreBounds

/-!
# How many receipts a network enqueues

The receipts of a network are limited by what its clients send and acknowledge, and by the
rows that its daemons drop.  A dropped row is forgotten, and a broker that delivers its
message again gets another receipt.
-/

namespace AgentMsg

/-! ## Rows that are inserted and dropped -/

/-- The ids of the inbound rows. -/
def World.inboundIds (world : World) : List String :=
  (world.store.messages.rows.filter fun row => row.2.direction = .inbound).map fun row => row.2.id

/-- How many inbound rows a run drops from the log. -/
def System.evicted (P : Platform) (identity : Identity) (start : World)
    (moves : List (Move Input Job)) : Nat :=
  Pool.total (Job.thread P identity)
    (fun before _ after => before.shared.inboundIds.length - after.shared.inboundIds.length)
    { shared := start } moves

section Counts

variable {P : Platform} {identity : Identity} {start : World} {moves : List (Move Input Job)}

/-- The rows that are inserted are in the log at the end, or were dropped. -/
theorem received_le (empty : start.store.messages.rows = []) :
    System.received P identity start moves ≤
      (System.run P identity { shared := start } moves).shared.inboundIds.length +
        System.evicted P identity start moves := by
  have none : start.inboundIds.length = 0 := by
    rw [World.inboundIds, empty]
    rfl
  have ends := @Pool.measure_add_falls Input World Job (Job.thread P identity)
    { shared := start } moves (fun world => world.inboundIds.length)
  have rises : System.received P identity start moves ≤
      Pool.total (Job.thread P identity)
        (fun before _ after => after.shared.inboundIds.length - before.shared.inboundIds.length)
        { shared := start } moves := by
    refine Pool.total_mono fun before choice => ?_
    by_cases receives : Pool.Earning (Receives identity.name) before choice
        (before.move (Job.thread P identity) choice)
    · rw [indicator_of receives]
      obtain ⟨index, input, job, update, next, rfl, found, row, ⟨appended, inbound⟩, _⟩ := receives
      have moved : (before.move (Job.thread P identity) (.step index input)).shared =
          update input before.shared := by
        simp [Pool.move, found]
      have grown : (update input before.shared).inboundIds =
          before.shared.inboundIds ++ [row.2.id] := by
        rw [World.inboundIds, World.inboundIds, appended, List.filter_append, List.map_append,
          List.filter_cons_of_pos (by simp [inbound])]
        rfl
      rw [moved, grown, List.length_append, List.length_singleton, Nat.add_sub_cancel_left]
    · rw [indicator_of_not receives]
      exact Nat.zero_le _
  rw [System.evicted, System.run]
  dsimp only at ends
  omega

/-- Different rows have different ids. -/
theorem nodup_inboundIds (world : World) : world.inboundIds.Nodup := by
  rw [World.inboundIds, List.Nodup, List.pairwise_map]
  exact world.store.messages.distinct.filter _

end Counts

section Bounds

variable {P : Platform} {ι : Type} [Fintype ι] [DecidableEq ι] {identity : ι → Identity}
  {start : ι → World} {moves : ι → List (Move Input Job)} {broker : List Publish}

/-- A daemon holds no more inbound rows than clients sent messages. -/
theorem Network.inboundIds_le
    (wrapperJson : P.wrapperJson.Lawful) (innerJson : P.innerJson.Lawful)
    (fresh : ∀ i, (start i).Untouched) (network : Network P identity start moves broker) (i : ι) :
    (System.run P (identity i) { shared := start i } (moves i)).shared.inboundIds.length ≤
      ∑ j, (sentIds (moves j)).length := by
  have sent : (System.run P (identity i) { shared := start i }
        (moves i)).shared.inboundIds.toFinset ⊆
      Finset.univ.biUnion fun j => (sentIds (moves j)).toFinset := by
    intro id member
    obtain ⟨row, kept, rfl⟩ := List.mem_map.mp (List.mem_toFinset.mp member)
    obtain ⟨stored, inbound⟩ := List.mem_filter.mp kept
    obtain ⟨j, sends⟩ :=
      network.sent wrapperJson innerJson fresh stored (of_decide_eq_true inbound)
    exact Finset.mem_biUnion.mpr ⟨j, Finset.mem_univ j, List.mem_toFinset.mpr sends⟩
  calc (System.run P (identity i) { shared := start i } (moves i)).shared.inboundIds.length
      = (System.run P (identity i) { shared := start i }
          (moves i)).shared.inboundIds.toFinset.card :=
        (List.toFinset_card_of_nodup (nodup_inboundIds _)).symm
    _ ≤ (Finset.univ.biUnion fun j => (sentIds (moves j)).toFinset).card :=
        Finset.card_le_card sent
    _ ≤ ∑ j, (sentIds (moves j)).toFinset.card := Finset.card_biUnion_le
    _ ≤ ∑ j, (sentIds (moves j)).length :=
        Finset.sum_le_sum fun j _ => List.toFinset_card_le _

/-- The receipts of all daemons are limited by what their clients do and by what is dropped
from the logs. -/
theorem Network.receipts_le
    (wrapperJson : P.wrapperJson.Lawful) (innerJson : P.innerJson.Lawful)
    (fresh : ∀ i, (start i).Untouched) (network : Network P identity start moves broker) :
    ∑ i, (System.receipts P (identity i) .delivered (start i) (moves i) +
        System.receipts P (identity i) .read (start i) (moves i)) ≤
      Fintype.card ι * ∑ j, (sentIds (moves j)).length +
        ∑ i, System.evicted P (identity i) (start i) (moves i) +
        ∑ i, System.acknowledged P (identity i) (start i) (moves i) := by
  have each (i : ι) :
      System.receipts P (identity i) .delivered (start i) (moves i) +
          System.receipts P (identity i) .read (start i) (moves i) ≤
        ∑ j, (sentIds (moves j)).length +
          System.evicted P (identity i) (start i) (moves i) +
          System.acknowledged P (identity i) (start i) (moves i) := by
    have delivered :=
      deliveries_le_received wrapperJson innerJson (identity i) (start i) (moves i)
    have read := reads_le_acknowledged wrapperJson innerJson (identity i) (start i) (moves i)
    have inserted := @received_le P (identity i) (start i) (moves i) (fresh i).log
    have held := network.inboundIds_le wrapperJson innerJson fresh i
    exact Nat.add_le_add (delivered.trans (inserted.trans (Nat.add_le_add_right held _))) read
  refine (Finset.sum_le_sum fun i _ => each i).trans ?_
  rw [Finset.sum_add_distrib, Finset.sum_add_distrib, Finset.sum_const, Finset.card_univ]
  exact Nat.le_refl _

end Bounds

/-- In every run of a network, a daemon enqueues no more delivery receipts than it inserted
rows for its agent, and no more read receipts than it acknowledged; a receipt, a beacon and a
recognized hello lead to none; and the receipts of all daemons are limited by what their
clients send and acknowledge, and by the rows that are dropped. -/
theorem receipts_do_not_cascade
    (P : Platform) (wrapperJson : P.wrapperJson.Lawful) (innerJson : P.innerJson.Lawful)
    {ι : Type} [Fintype ι] [DecidableEq ι] (identity : ι → Identity) (start : ι → World)
    (moves : ι → List (Move Input Job)) (broker : List Publish)
    (network : Network P identity start moves broker) :
    (∀ i, System.receipts P (identity i) .delivered (start i) (moves i) ≤
      System.received P (identity i) (start i) (moves i)) ∧
    (∀ i, System.receipts P (identity i) .read (start i) (moves i) ≤
      System.acknowledged P (identity i) (start i) (moves i)) ∧
    (∀ i taken index input delivery thread, taken ++ [.step index input] <+: moves i →
      (System.run P (identity i) { shared := start i } taken).threads[index]? =
        some (.ingest delivery, thread) →
      Unanswered P (identity i) delivery.payload →
      (System.run P (identity i) { shared := start i }
          (taken ++ [.step index input])).shared.store.pendingOutbound.Sublist
        (System.run P (identity i) { shared := start i } taken).shared.store.pendingOutbound) ∧
    ((∀ i, (start i).Untouched) →
      ∑ i, (System.receipts P (identity i) .delivered (start i) (moves i) +
          System.receipts P (identity i) .read (start i) (moves i)) ≤
        Fintype.card ι * ∑ j, (sentIds (moves j)).length +
          ∑ i, System.evicted P (identity i) (start i) (moves i) +
          ∑ i, System.acknowledged P (identity i) (start i) (moves i)) := by
  refine ⟨fun i => ?_, fun i => ?_, ?_, fun fresh => ?_⟩
  · exact deliveries_le_received wrapperJson innerJson (identity i) (start i) (moves i)
  · exact reads_le_acknowledged wrapperJson innerJson (identity i) (start i) (moves i)
  · intro i taken index input delivery thread _ found unanswered
    exact unanswered.enqueues_nothing found
  · exact network.receipts_le wrapperJson innerJson fresh

/-- Alice's greeting is answered in a run. -/
theorem receipts_do_not_cascade_greeting :
    ∃ moves broker,
      Network (Reference.platform chatConfig) pair chatStart moves broker ∧
      (System.after (Reference.platform chatConfig) (pair true) (chatStart true)
        (moves true)).store.LoggedDelivered Reference.draw.id ∧
      ∑ i, (System.receipts (Reference.platform chatConfig) (pair i) .delivered (chatStart i)
            (moves i) +
          System.receipts (Reference.platform chatConfig) (pair i) .read (chatStart i)
            (moves i)) ≤
        Fintype.card Bool * ∑ j, (sentIds (moves j)).length +
          ∑ i, System.evicted (Reference.platform chatConfig) (pair i) (chatStart i) (moves i) +
          ∑ i, System.acknowledged (Reference.platform chatConfig) (pair i) (chatStart i)
            (moves i) := by
  obtain ⟨worlds, broker, ⟨moves, network, after⟩, delivered⟩ := greeting_confirmed
  rw [← after true] at delivered
  exact ⟨moves, broker, network, delivered,
    (receipts_do_not_cascade (Reference.platform chatConfig)
      (Reference.wrapperJson_lawful chatConfig) (Reference.innerJson_lawful chatConfig) pair
      chatStart moves broker network).2.2.2 chatStart_untouched⟩

/-! ## A hello that is encrypted -/

section Answered

variable {P : Platform} {identity : Identity} {world : World} {delivery : Delivery}
  {inner : Inner}

theorem enqueued_first
    {store : Store} (empty : store.outbox.rows = []) (entry : Outbound) :
    (store.enqueueOutbound entry).pendingOutbound ≠ [] := by
  have unqueued : store.outbox.holds entry.id = false := by
    refine RowTable.holds_eq_false_iff.mpr fun row member => ?_
    rw [empty] at member
    exact absurd member List.not_mem_nil
  rw [pendingOutbound_enqueue, if_pos unqueued]
  exact List.append_ne_nil_of_right_ne_nil _ (List.cons_ne_nil _ _)

theorem receipted_first
    {store : Store} {cfg : Config} (empty : store.outbox.rows = [])
    (wanted : wantsReceipt identity cfg inner = true) :
    (store.receipted P identity cfg delivery inner).pendingOutbound ≠ [] := by
  rw [Store.receipted, if_pos wanted, build_plain rfl]
  exact enqueued_first empty _

/-- The first message that is accepted for the agent gets a receipt. -/
theorem receipt_of_plain
    (log : world.store.messages.rows = []) (outbox : world.store.outbox.rows = [])
    (accepted : Accepted P identity (world.config P) (world.trust P) delivery inner)
    (plain : inner.Plain) (ungranted : inner.grant = none)
    (wanted : wantsReceipt identity (world.config P) inner = true) :
    ((onMsg P identity delivery).exec (fun _ => {}) world).1.store.pendingOutbound ≠ [] := by
  have claims : guardClaims P (world.trust P) delivery.clock.guardCheck inner = none := by
    rw [guardClaims, ungranted]
  have ingested := Prog.exec_of_meets (@onMsg_succeeds P identity delivery world)
    (@fun _ => rfl : ∀ index : Nat, Input.Succeeds ((fun _ => {}) index))
  generalize (onMsg P identity delivery).exec (fun _ => {}) world = result at ingested
  obtain ⟨final, outcome⟩ := result
  cases ingested with
  | aside unplain unstored change =>
      exact absurd plain (unplain inner accepted)
  | replayed found now later foundAccepted foundPlain used result =>
      rw [accepted.unique foundAccepted, claims] at used
      cases used
  | duplicate found now foundAccepted foundPlain unused taken result =>
      obtain ⟨row, member, _⟩ := RowTable.holds_eq_true_iff.mp taken
      rw [log] at member
      exact absurd member List.not_mem_nil
  | stored found now foundAccepted foundPlain unused fresh result =>
      have same := accepted.unique foundAccepted
      subst same
      rw [claims] at result
      rw [result]
      exact receipted_first outbox wanted

end Answered

/-- Bob's daemon takes unsigned messages. -/
def openConfig : Config :=
  { allowUnsigned := true }

def openWorld : World :=
  { configFile := .text "config" }

/-- A hello to Bob alone, encrypted to his key. -/
def sealedHello : BuildOpts :=
  { recipient := "bob", ctype := CTYPE_PAIR, body := "hello", unsigned := true
    encryptTo := some Reference.bob.kemEk }

/-- What Alice's wrapper carries. -/
def carriedHello (kemCt ss : Bytes) : Inner :=
  sealedDraft (Reference.platform openConfig) Reference.draw sealedHello Reference.bob.kemEk kemCt
    ss (draft Reference.alice Reference.draw sealedHello)

/-- What Bob reads. -/
def openedHello (kemCt ss : Bytes) : Inner :=
  { carriedHello kemCt ss with body := "hello", ctype := CTYPE_PAIR }

def helloDelivery (kemCt ss : Bytes) : Delivery :=
  { topic := "chat"
    payload := (Reference.platform openConfig).wrapperJson.encode
      (wrapped (Reference.platform openConfig) Reference.alice true
        ((Reference.platform openConfig).innerJson.encode (carriedHello kemCt ss)))
    clock := Reference.clock
    draw := Reference.draw }

theorem openedHello_plain (kemCt ss : Bytes) : (openedHello kemCt ss).Plain := by
  have other : CTYPE_PAIR ≠ CTYPE_PRESENCE ∧
      ¬ (MsgKind.message = .receipt ∨ CTYPE_PAIR = CTYPE_RECEIPT) := by decide
  exact other

theorem openedHello_wanted (kemCt ss : Bytes) :
    wantsReceipt Reference.bob openConfig (openedHello kemCt ss) = true := by
  have wanted : (true && "bob" == "bob" && !("bob" == BROADCAST)) = true := by decide
  exact wanted

section Accepted

variable {kemCt ss : Bytes}
  (encapsulated : (Reference.platform openConfig).kemEncapsulate Reference.bob.kemEk
    Reference.draw.kemRandomness = some (kemCt, ss))

include encapsulated

theorem helloDelivery_verified :
    verifyDelivery (Reference.platform openConfig) Reference.bob openConfig {}
      (helloDelivery kemCt ss) = .ok (openedHello kemCt ss) := by
  have direct : sealedHello.recipient ≠ BROADCAST := by decide
  have built := @build_sealed (Reference.platform openConfig) Reference.alice Reference.draw
    sealedHello _ _ _ rfl direct encapsulated
  refine verifyIncoming_build (Reference.signs openConfig "alice" 1)
    (Reference.decapsulates openConfig "bob" 2) (Reference.opensSealed openConfig)
    (Reference.wrapperJson_lawful openConfig) (Reference.innerJson_lawful openConfig)
    (Reference.tokenV2Json_lawful openConfig) (by decide) rfl ?_ ?_ ?_ built ?_
    (Reference.fresh_newYear openConfig)
  · exact fun ek key => (Option.some.inj key).symm
  · exact fun sg carried => by cases carried
  · exact (if_pos rfl).mpr ⟨rfl, rfl⟩
  · rw [utf8ByteSize_sealedDraft (Reference.appendsTag openConfig)]
    decide

theorem helloDelivery_accepted :
    Accepted (Reference.platform openConfig) Reference.bob openConfig {}
      (helloDelivery kemCt ss) (openedHello kemCt ss) := by
  refine ⟨?_, helloDelivery_verified encapsulated⟩
  have sealed : ALG_KEM_AEAD ≠ CTYPE_PAIR := by decide
  have parsed := Reference.wrapperJson_lawful openConfig
    (wrapped (Reference.platform openConfig) Reference.alice true
      ((Reference.platform openConfig).innerJson.encode (carriedHello kemCt ss)))
  have peeked := @peek_wrapped (Reference.platform openConfig) Reference.alice
    (Reference.innerJson_lawful openConfig) true (carriedHello kemCt ss)
  simp only [intercept, helloDelivery, parsed, peeked, claimedSender_wrapped_unsigned, reduceCtorEq,
    if_false]
  exact if_neg sealed

end Accepted

/-- A payload whose message is a hello, encrypted or not, enqueues nothing. -/
def HellosUnanswered : Prop :=
  ∀ (P : Platform) (identity : Identity) (delivery : Delivery) (carried opened : Inner)
    (world : World) (inputs : Nat → Input),
    Finds P identity delivery.payload carried opened → opened.ctype = CTYPE_PAIR →
    ((onMsg P identity delivery).exec inputs world).1.store.pendingOutbound.Sublist
      world.store.pendingOutbound

/-- An encrypted hello is stored and answered like any other message. -/
theorem not_hellosUnanswered : ¬ HellosUnanswered := by
  intro quiet
  obtain ⟨kemCt, ss, encapsulated⟩ : ∃ kemCt ss,
      (Reference.platform openConfig).kemEncapsulate Reference.bob.kemEk
        Reference.draw.kemRandomness = some (kemCt, ss) :=
    ⟨_, _, Reference.encapsulates openConfig "bob" 2 Reference.draw.kemRandomness⟩
  have finds := finds_of_verified
    (Reference.wrapperJson_lawful openConfig
      (wrapped (Reference.platform openConfig) Reference.alice true
        ((Reference.platform openConfig).innerJson.encode (carriedHello kemCt ss))))
    (peek_wrapped (Reference.innerJson_lawful openConfig) true (carriedHello kemCt ss))
    (helloDelivery_verified encapsulated)
  have nothing := quiet _ _ (helloDelivery kemCt ss) _ _ openWorld (fun _ => {}) finds rfl
  have empty : openWorld.store.pendingOutbound = [] := rfl
  rw [empty, List.sublist_nil] at nothing
  exact receipt_of_plain rfl rfl (helloDelivery_accepted encapsulated)
    (openedHello_plain kemCt ss) rfl (openedHello_wanted kemCt ss) nothing

/-! ## Receipts that wait in the outbox -/

section Waiting

variable {P : Platform} {identity : Identity} {status : ReceiptStatus}

open Classical in
/-- How many receipts wait in the outbox. -/
noncomputable def World.waiting (P : Platform) (status : ReceiptStatus) (world : World) : Nat :=
  world.store.pendingOutbound.countP fun entry => decide (IsReceipt P status entry.payload)

theorem waiting_of_sublist
    {before after : World}
    (fewer : after.store.pendingOutbound.Sublist before.store.pendingOutbound) :
    after.waiting P status ≤ before.waiting P status :=
  fewer.countP_le

theorem waiting_of_queued
    {before after : World} {entry : Outbound}
    (queued : after.store.pendingOutbound = before.store.pendingOutbound ++ [entry])
    (receipt : IsReceipt P status entry.payload) :
    after.waiting P status = before.waiting P status + 1 := by
  rw [World.waiting, queued, List.countP_append]
  simp [World.waiting, receipt]

/-- A deed that adds a receipt enqueues it. -/
theorem Deed.waiting_le
    {seen : World → Prop} {job : Job} {before after : World}
    (deed : Deed P identity seen job before after) :
    after.waiting P status ≤
      before.waiting P status + indicator (Enqueues P status before after) := by
  cases deed with
  | stores operation acks =>
      by_cases enqueues : ∃ entry, operation = .enqueueOutbound entry
      · obtain ⟨entry, rfl⟩ := enqueues
        have grown := pendingOutbound_enqueue before.store entry
        by_cases free : before.store.outbox.holds entry.id = false
        · rw [if_pos free] at grown
          by_cases receipt : IsReceipt P status entry.payload
          · rw [indicator_of ⟨entry, grown, receipt⟩]
            exact (waiting_of_queued grown receipt).le
          · refine (congrArg (List.countP _) grown).trans_le ?_
            rw [List.countP_append, List.countP_singleton, if_neg (by simp [receipt])]
            exact Nat.le_add_right _ _
        · rw [if_neg free, List.append_nil] at grown
          exact (congrArg (List.countP _) grown).trans_le (Nat.le_add_right _ _)
      · simp only [not_exists] at enqueues
        exact (waiting_of_sublist (before.store.apply_pendingOutbound enqueues)).trans
          (Nat.le_add_right _ _)
  | _ =>
      exact Nat.le_add_right _ _

/-- The receipts that wait at the end were there before, or were enqueued. -/
theorem waiting_le_receipts (start : World) (moves : List (Move Input Job)) :
    (System.after P identity start moves).waiting P status ≤
      start.waiting P status + System.receipts P identity status start moves := by
  induction moves using List.reverseRecOn with
  | nil =>
      exact Nat.le_add_right _ _
  | append_singleton moves choice inductionHypothesis =>
      have changed : (System.run P identity { shared := start } (moves ++ [choice])).shared =
            (System.run P identity { shared := start } moves).shared ∨
          ∃ job, .spawn job ∈ moves ∧
            Deed P identity (Pool.Visits (Job.thread P identity) { shared := start } moves) job
              (System.run P identity { shared := start } moves).shared
              (System.run P identity { shared := start } (moves ++ [choice])).shared :=
        Pool.run_change choice fun job _ => deeds_thread job
      rw [System.receipts, Pool.tally_append_singleton, ← Nat.add_assoc]
      rcases changed with same | ⟨job, _, deed⟩
      · rw [System.after, same]
        exact inductionHypothesis.trans (Nat.le_add_right _ _)
      · have stepped := @Deed.waiting_le P identity status _ _ _ _ deed
        rw [run_snoc] at stepped
        rw [System.after, run_snoc]
        exact stepped.trans (Nat.add_le_add_right inductionHypothesis _)

end Waiting

/-! ## The steps of an ingest -/

section Ingests

variable {P : Platform} {identity : Identity} {delivery : Delivery}

/-- No action of an ingest acknowledges. -/
theorem not_acknowledges_of_ingest
    {update : Input → World → World} {next : Input → World → Thread Unit}
    (deeds : Deeds P identity (fun _ => True) (.ingest delivery) (.act update next))
    (input : Input) (world : World) : ¬ Acknowledges update input world := by
  rintro ⟨consumer, seq, rfl⟩
  let behind : World := { store := ({} : Store).ack consumer (seq - 1) "" }
  have cursor : behind.store.cursor consumer = seq - 1 := by
    simp [behind, Store.ack, Store.cursor]
  have deed := (@Prog.Within.action _ _ _ _ _ _ _ _ deeds ({} : Input) behind trivial).1
  rcases deed.cursor consumer with kept | ⟨_, acks, _⟩
  · have moved : (behind.store.ack consumer seq "").cursor consumer =
        behind.store.cursor consumer := kept
    rcases behind.store.cursor_ack consumer seq "" with further | ⟨_, reached⟩ <;> omega
  · exact acks

/-- The steps of an ingest acknowledge nothing. -/
theorem acknowledged_steps
    {pool : System} {index : Nat} {thread : Thread Unit}
    (located : pool.threads[index]? = some (.ingest delivery, thread))
    (deeds : Deeds P identity (fun _ => True) (.ingest delivery) thread) (inputs : List Input) :
    Pool.tally (Job.thread P identity) (Pool.Earning Acknowledges) pool
      (inputs.map fun input => .step index input) = 0 := by
  induction inputs generalizing pool thread with
  | nil =>
      rfl
  | cons input inputs inductionHypothesis =>
      have quiet : ¬ Pool.Earning Acknowledges pool (.step index input)
          (pool.move (Job.thread P identity) (.step index input)) := by
        rintro ⟨_, _, job, update, next, chosen, found, acknowledges⟩
        cases chosen
        rw [located] at found
        cases found
        exact not_acknowledges_of_ingest deeds input pool.shared acknowledges
      obtain ⟨later, stays, remaining⟩ :=
        @Pool.within_run _ _ _ (Job.thread P identity) _ _ _ _ _ located deeds
          [.step index input]
      rw [List.map_cons, Pool.tally, Pool.total, indicator_of_not quiet, Nat.zero_add]
      exact inductionHypothesis stays remaining

variable (P identity) in
/-- The moves of an ingest that starts after the others and is not interrupted. -/
def withIngest (start : World) (earlier : List (Move Input Job)) (delivery : Delivery) :
    List (Move Input Job) :=
  earlier ++ [.spawn (.ingest delivery)] ++
    finishes P identity (System.run P identity { shared := start } earlier) (.ingest delivery)
      fun _ => {}

/-- An ingest neither sends for a client nor acknowledges. -/
theorem counts_withIngest
    (start : World) (earlier : List (Move Input Job)) (delivery : Delivery) :
    sentIds (withIngest P identity start earlier delivery) = sentIds earlier ∧
      System.acknowledged P identity start (withIngest P identity start earlier delivery) =
        System.acknowledged P identity start earlier := by
  constructor
  · rw [withIngest, sentIds, List.filterMap_append, List.filterMap_append, sentIds,
      List.append_assoc, List.append_right_eq_self]
    simp [started, Job.sends, finishes]
  · have acts : Deeds P identity (fun _ => True) (.ingest delivery)
        ((Job.ingest delivery).thread P identity) := deeds_thread _
    have located : (Pool.run (Job.thread P identity) { shared := start }
        (earlier ++ [.spawn (.ingest delivery)])).threads[
          (System.run P identity { shared := start } earlier).threads.length]? =
        some (.ingest delivery, (Job.ingest delivery).thread P identity) := by
      rw [Pool.run_append]
      simp [Pool.move, System.run]
    have none := acknowledged_steps located acts
      ((List.range (((Job.ingest delivery).thread P identity).actions (fun _ => {})
        (System.run P identity { shared := start } earlier).shared)).map fun _ => {})
    have spawned (before after : System) :
        ¬ Pool.Earning Acknowledges before (.spawn (.ingest delivery)) after := by
      rintro ⟨_, _, _, _, _, chosen, _⟩
      cases chosen
    rw [List.map_map] at none
    rw [withIngest, System.acknowledged, Pool.tally_append, Pool.tally_append_singleton,
      indicator_of_not (spawned _ _), Nat.add_zero]
    exact Nat.add_left_cancel_iff.mpr none

end Ingests

/-! ## A broker that delivers the greeting again and again -/

/-- The ids of Bob's receipts. -/
def floodId (index : Nat) : String :=
  String.ofList (List.replicate index 'r')

def floodDraw (index : Nat) : Draw :=
  { Reference.draw with id := floodId index }

/-- Bob's daemon keeps no message. -/
abbrev floodPlatform : Platform :=
  Reference.platform (chatKeeping 0)

/-- What Bob receives each time. -/
def floodDelivery (topic : String) (index : Nat) : Delivery :=
  ⟨topic, floodPlatform.wrapperJson.encode plainWrapper, Reference.clock, floodDraw index⟩

/-- Bob has answered the greeting a number of times, and has forgotten it each time. -/
structure Flooded (count : Nat) (world : World) : Prop where
  configFile : world.configFile = (chatStart false).configFile
  trustFile : world.trustFile = (chatStart false).trustFile
  log : ∀ row ∈ world.store.messages.rows, ∃ index < count, row.2.id = floodId index
  outbox : ∀ row ∈ world.store.outbox.rows, ∃ index < count, row.2.id = floodId index
  waiting : count ≤ world.waiting floodPlatform .delivered

theorem flooded_start : Flooded 0 (chatStart false) where
  configFile := rfl
  trustFile := rfl
  log _ member := absurd member List.not_mem_nil
  outbox _ member := absurd member List.not_mem_nil
  waiting := Nat.zero_le _

/-- The bounds leave no inbound row when no message may be kept. -/
theorem not_inbound_of_boundTable
    {table : MessageTable} {maxBytes : Nat} {row : Int × MsgRow}
    (kept : row ∈ (Store.boundTable table 0 maxBytes).1.rows) : row.2.direction ≠ .inbound := by
  obtain ⟨within, beyond⟩ := Store.length_evictableRows_boundTable table 0 maxBytes
  have rows := Store.length_rows_eq table
  have none : Store.evictableRows (Store.boundTable table 0 maxBytes).1 = [] := by
    refine List.eq_nil_of_length_eq_zero ?_
    rcases Nat.lt_or_ge maxBytes (Store.bodyBytes (Store.exemptRows table) + Store.bodyBytes
        ((Store.evictableRows table).drop (table.rows.length - 0))) with less | enough
    · have left := beyond less
      omega
    · have left := within enough
      omega
  intro inbound
  have evictable : row ∈ Store.evictableRows (Store.boundTable table 0 maxBytes).1 := by
    refine List.mem_filter.mpr ⟨kept, ?_⟩
    simp [Store.evictable, inbound]
  rw [none] at evictable
  exact absurd evictable List.not_mem_nil

/-- The row of a new message is dropped at once. -/
theorem forgotten
    {store : Store} {claims : Option GrantClaims} {now topic : String} {inner : Inner}
    {maxBytes : Nat} :
    (((store.recordGrant claims now).insertInbound inner topic).1.enforceBounds 0
      maxBytes).1.messages.rows ⊆ store.messages.rows := by
  intro row kept
  have bounded : row ∈ (Store.boundTable ((store.recordGrant claims now).insertInbound inner
      topic).1.messages 0 maxBytes).1.rows := kept
  have inserted : row ∈ ((store.recordGrant claims now).messages.insertOrIgnore
      (Store.inboundRow inner topic)).1.rows :=
    (Store.boundTable_sublist _ 0 maxBytes).1.subset bounded
  rcases RowTable.mem_insertOrIgnore.mp inserted with old | ⟨_, rfl⟩
  · rwa [Store.recordGrant_messages] at old
  · exact absurd rfl (not_inbound_of_boundTable bounded)

theorem plainInner_id_ne (index : Nat) : plainInner.id ≠ floodId index := by
  intro same
  have letter : '0' ∈ (floodId index).toList := by
    rw [← same]
    decide
  rw [floodId, String.toList_ofList] at letter
  exact absurd (List.eq_of_mem_replicate letter) (by decide)

theorem plainInner_plain : plainInner.Plain := by
  have other : CTYPE_TEXT ≠ CTYPE_PRESENCE ∧
      ¬ (MsgKind.message = .receipt ∨ CTYPE_TEXT = CTYPE_RECEIPT) := by decide
  exact other

theorem plainInner_wanted : wantsReceipt Reference.bob (chatKeeping 0) plainInner = true := by
  have wanted : (true && "bob" == "bob" && !("bob" == BROADCAST)) = true := by decide
  exact wanted

/-- The answer to the greeting is logged and queued. -/
theorem Flooded.answered
    {count : Nat} {world final : World} (flooded : Flooded count world) {kept : Store}
    {topic : String} {reply : Inner} {wrapper : Wrapper}
    (configFile : final.configFile = (chatStart false).configFile)
    (trustFile : final.trustFile = (chatStart false).trustFile)
    (log : kept.messages.rows ⊆ world.store.messages.rows)
    (outbox : kept.outbox = world.store.outbox)
    (built : build floodPlatform Reference.bob (floodDraw count)
      (receiptOpts plainInner.sender plainInner.id .delivered) = .ok (reply, wrapper))
    (result : final.store = (kept.insertOutboundLog reply topic).enqueueOutbound
      (outboxEntry floodPlatform topic reply wrapper)) :
    Flooded (count + 1) final where
  configFile := configFile
  trustFile := trustFile
  log row member := by
    rw [result] at member
    have logged : row ∈ (kept.insertOutboundLog reply topic).messages.rows := member
    rcases RowTable.mem_insertOrIgnore.mp logged with old | ⟨_, rfl⟩
    · obtain ⟨index, earlier, id⟩ := flooded.log row (log old)
      exact ⟨index, Nat.lt_succ_of_lt earlier, id⟩
    · exact ⟨count, Nat.lt_succ_self count, build_id built⟩
  outbox row member := by
    rw [result] at member
    have queued : row ∈ (kept.outbox.insertOrIgnore
        (outboxEntry floodPlatform topic reply wrapper)).1.rows := member
    rcases RowTable.mem_insertOrIgnore.mp queued with old | ⟨_, rfl⟩
    · rw [outbox] at old
      obtain ⟨index, earlier, id⟩ := flooded.outbox row old
      exact ⟨index, Nat.lt_succ_of_lt earlier, id⟩
    · exact ⟨count, Nat.lt_succ_self count, build_id built⟩
  waiting := by
    have free : kept.outbox.holds reply.id = false := by
      rw [outbox]
      refine RowTable.holds_eq_false_iff.mpr fun row member same => ?_
      obtain ⟨index, earlier, id⟩ := flooded.outbox row member
      have equal : index = count :=
        eq_of_replicate_letter (id.symm.trans (same.trans (build_id built)))
      omega
    have receipt : IsReceipt floodPlatform .delivered (floodPlatform.wrapperJson.encode wrapper) :=
      (isReceipt_built (Reference.wrapperJson_lawful _) (Reference.innerJson_lawful _) built).mpr
        ⟨_, rfl⟩
    have queued : final.store.pendingOutbound =
        world.store.pendingOutbound ++ [outboxEntry floodPlatform topic reply wrapper] := by
      have grown := pendingOutbound_enqueue (kept.insertOutboundLog reply topic)
        (outboxEntry floodPlatform topic reply wrapper)
      have freeQueue : (kept.insertOutboundLog reply topic).outbox.holds
          (outboxEntry floodPlatform topic reply wrapper).id = false := free
      rw [if_pos freeQueue] at grown
      have before : (kept.insertOutboundLog reply topic).pendingOutbound =
          world.store.pendingOutbound := congrArg (fun table => table.rows.map Prod.snd) outbox
      rw [result, grown, before]
    rw [waiting_of_queued queued receipt]
    exact Nat.add_le_add_right flooded.waiting 1

theorem Flooded.next
    {count : Nat} {world : World} (flooded : Flooded count world) (topic : String) :
    Flooded (count + 1)
      ((onMsg floodPlatform Reference.bob (floodDelivery topic count)).exec (fun _ => {})
        world).1 := by
  have config : world.config floodPlatform = chatKeeping 0 := by
    rw [World.config, flooded.configFile]
    rfl
  have accepted : Accepted floodPlatform Reference.bob (world.config floodPlatform)
      (world.trust floodPlatform) (floodDelivery topic count) plainInner := by
    rw [config, World.trust, flooded.trustFile]
    exact ⟨plainWrapper_passes 0, plainWrapper_verified 0 topic⟩
  have unseen : world.store.messages.holds plainInner.id = false := by
    refine RowTable.holds_eq_false_iff.mpr fun row member same => ?_
    obtain ⟨index, _, id⟩ := flooded.log row member
    exact plainInner_id_ne index (same.symm.trans id)
  have unqueued : world.store.outbox.holds (floodId count) = false := by
    refine RowTable.holds_eq_false_iff.mpr fun row member same => ?_
    obtain ⟨index, earlier, id⟩ := flooded.outbox row member
    have equal : index = count := eq_of_replicate_letter (id.symm.trans same)
    omega
  have ingested := Prog.exec_of_meets
    (@onMsg_succeeds floodPlatform Reference.bob (floodDelivery topic count) world)
    (@fun _ => rfl : ∀ index : Nat, Input.Succeeds ((fun _ => {}) index))
  have configKept := @onMsg_keeps floodPlatform Reference.bob world _ World.configFile
    (fun step => by cases step <;> rfl) (floodDelivery topic count) fun _ => {}
  have trustKept := @onMsg_keeps floodPlatform Reference.bob world _ World.trustFile
    (fun step => by cases step <;> rfl) (floodDelivery topic count) fun _ => {}
  generalize (onMsg floodPlatform Reference.bob (floodDelivery topic count)).exec (fun _ => {})
    world = ended at ingested configKept trustKept ⊢
  obtain ⟨final, outcome⟩ := ended
  cases ingested with
  | aside unplain _ _ =>
      exact absurd plainInner_plain (unplain plainInner accepted)
  | replayed inner _ _ found _ used _ =>
      cases found.unique accepted
      cases used
  | duplicate inner _ found _ _ taken _ =>
      cases found.unique accepted
      rw [unseen] at taken
      cases taken
  | stored inner now found _ _ _ result =>
      cases found.unique accepted
      have wanted : wantsReceipt Reference.bob (world.config floodPlatform) plainInner = true := by
        rw [config]
        exact plainInner_wanted
      let kept := (((world.store.recordGrant (guardClaims floodPlatform
        (world.trust floodPlatform) Reference.clock.guardCheck plainInner) now).insertInbound
          plainInner topic).1.enforceBounds (chatKeeping 0).maxMessages
            (chatKeeping 0).maxBytes).1
      rw [Store.receipted, if_pos wanted, build_plain rfl, config] at result
      refine @Flooded.answered count world final flooded kept _ _ _
        (configKept.trans flooded.configFile) (trustKept.trans flooded.trustFile) ?_ ?_
        (build_plain rfl) result
      · exact forgotten
      · exact outbox_recordGrant _ _ _

section Flood

variable {moves : Bool → List (Move Input Job)} {broker : List Publish} {topic : String}

/-- The broker delivers the greeting any number of times, and nothing is sent or acknowledged
meanwhile. -/
theorem flooded_reached
    (network : Network floodPlatform pair chatStart moves broker)
    (held : ⟨topic, floodPlatform.wrapperJson.encode plainWrapper, false⟩ ∈ broker)
    (idle : System.after floodPlatform (pair false) (chatStart false) (moves false) =
      chatStart false) (count : Nat) :
    ∃ later, Network floodPlatform pair chatStart later broker ∧
      (∀ i, sentIds (later i) = sentIds (moves i)) ∧
      (∀ i, System.acknowledged floodPlatform (pair i) (chatStart i) (later i) =
        System.acknowledged floodPlatform (pair i) (chatStart i) (moves i)) ∧
      Flooded count
        (System.after floodPlatform (pair false) (chatStart false) (later false)) := by
  induction count with
  | zero =>
      refine ⟨moves, network, fun _ => rfl, fun _ => rfl, ?_⟩
      rw [idle]
      exact flooded_start
  | succ count inductionHypothesis =>
      obtain ⟨later, reached, sends, acks, flooded⟩ := inductionHypothesis
      let more := withIngest floodPlatform (pair false) (chatStart false) (later false)
        (floodDelivery topic count)
      have redelivered : Network floodPlatform pair chatStart (Function.update later false more)
          broker :=
        (Network.deliver later broker false _ Reference.clock (floodDraw count) reached
          held).completes fun _ => {}
      obtain ⟨sendsNothing, acksNothing⟩ := @counts_withIngest floodPlatform (pair false)
        (chatStart false) (later false) (floodDelivery topic count)
      refine ⟨_, redelivered, fun i => ?_, fun i => ?_, ?_⟩
      · cases i with
        | false =>
            rw [Function.update_self]
            exact sendsNothing.trans (sends false)
        | true =>
            exact sends true
      · cases i with
        | false =>
            rw [Function.update_self]
            exact acksNothing.trans (acks false)
        | true =>
            exact acks true
      · have ended : System.after floodPlatform (pair false) (chatStart false) more =
            (((Job.ingest (floodDelivery topic count)).thread floodPlatform (pair false)).exec
              (fun _ => {}) (System.after floodPlatform (pair false) (chatStart false)
                (later false))).1 := after_finishes _ _ _ _ _
        rw [Function.update_self, ended, Job.thread, exec_ignore]
        exact flooded.next topic

end Flood

/-- The clients' sends and acknowledgements limit the receipts of two daemons. -/
def ReceiptsLimited : Prop :=
  ∀ (P : Platform) (identity : Bool → Identity) (start : Bool → World),
    P.wrapperJson.Lawful → P.innerJson.Lawful → (identity true).name ≠ (identity false).name →
    (∀ i, (start i).Untouched) →
    ∃ bound : Nat → Nat → Nat, ∀ moves broker, Network P identity start moves broker →
      ∑ i, System.receipts P (identity i) .delivered (start i) (moves i) ≤
        bound (∑ i, (sentIds (moves i)).length)
          (∑ i, System.acknowledged P (identity i) (start i) (moves i))

/-- One greeting that is delivered and dropped again and again gets any number of receipts. -/
theorem not_receiptsLimited : ¬ ReceiptsLimited := by
  intro limited
  obtain ⟨bound, within⟩ := limited floodPlatform pair chatStart
    (Reference.wrapperJson_lawful _) (Reference.innerJson_lawful _) (by decide)
    chatStart_untouched
  have answerable : Answerable floodPlatform (pair true) (pair false) (chatStart true)
      (chatStart false) plainGreeting Reference.draw Reference.draw plainInner plainInner
      plainWrapper Reference.clock Reference.clock :=
    greeting_answerable 0
  obtain ⟨_, topic, ⟨_, ⟨moves, network, after⟩, _, idle⟩, _⟩ :=
    answerable.published (by decide)
  let sent := ∑ i, (sentIds (moves i)).length
  let acknowledged := ∑ i, System.acknowledged floodPlatform (pair i) (chatStart i) (moves i)
  obtain ⟨later, reached, sends, acks, flooded⟩ := flooded_reached network List.mem_cons_self
    ((after false).trans idle) (bound sent acknowledged + 1)
  have limit := within later _ reached
  simp only [sends, acks] at limit
  have enqueued := @waiting_le_receipts floodPlatform (pair false) .delivered (chatStart false)
    (later false)
  have none : (chatStart false).waiting floodPlatform .delivered = 0 := rfl
  have most := flooded.waiting.trans enqueued
  rw [none, Nat.zero_add] at most
  have part := Finset.single_le_sum (fun i _ => Nat.zero_le (System.receipts floodPlatform (pair i)
    .delivered (chatStart i) (later i))) (Finset.mem_univ false)
  exact absurd (most.trans (part.trans limit)) (Nat.not_succ_le_self _)

/-- An encrypted hello is answered, and a message that is dropped and delivered again is
answered again. -/
theorem sealed_hello_answered : ¬ HellosUnanswered ∧ ¬ ReceiptsLimited :=
  ⟨not_hellosUnanswered, not_receiptsLimited⟩

end AgentMsg
