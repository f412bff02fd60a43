import AgentMsg.Network
import AgentMsg.SendAtomic
import AgentMsg.TrustEdits

/-!
# A message and its receipt

A network of daemons can always do its work.  A direct message that its receiver accepts can be
handed to the broker, delivered, stored and answered, and the receipt can come back and confirm
the sender's row.
-/

namespace AgentMsg

/-! ## States that a network can reach -/

section Reached

variable (P : Platform) {ι : Type} [DecidableEq ι] (identity : ι → Identity) (start : ι → World)

/-- A run of the network leads to these states of the daemons and these publishes. -/
def Attains (worlds : ι → World) (broker : List Publish) : Prop :=
  ∃ moves, Network P identity start moves broker ∧
    ∀ i, System.after P (identity i) (start i) (moves i) = worlds i

variable {P identity start} {moves : ι → List (Move Input Job)} {worlds : ι → World}
  {broker : List Publish}

theorem attains_start : Attains P identity start start [] :=
  ⟨fun _ => [], .start, fun _ => rfl⟩

/-- A daemon makes several moves of its own. -/
theorem Network.extend
    (network : Network P identity start moves broker) (i : ι) (more : List (Move Input Job))
    (own : ∀ choice ∈ more, ∀ delivery, choice ≠ .spawn (.ingest delivery)) :
    Network P identity start (Function.update moves i (moves i ++ more)) broker := by
  induction more using List.reverseRecOn with
  | nil =>
      rw [List.append_nil, Function.update_eq_self]
      exact network
  | append_singleton more choice inductionHypothesis =>
      have earlier := inductionHypothesis fun other member =>
        own other (List.mem_append_left _ member)
      have longer := Network.act _ _ i choice earlier
        (own choice (List.mem_append_right _ List.mem_cons_self))
      rw [Function.update_self, Function.update_idem, List.append_assoc] at longer
      exact longer

/-- The steps that run a thread to its end. -/
def finishes (P : Platform) (identity : Identity) (system : System) (job : Job)
    (inputs : Nat → Input) : List (Move Input Job) :=
  (List.range ((job.thread P identity).actions inputs system.shared)).map fun index =>
    .step system.threads.length (inputs index)

theorem after_finishes
    (identity : Identity) (start : World) (earlier : List (Move Input Job)) (job : Job)
    (inputs : Nat → Input) :
    System.after P identity start (earlier ++ [.spawn job] ++
        finishes P identity (System.run P identity { shared := start } earlier) job inputs) =
      ((job.thread P identity).exec inputs (System.after P identity start earlier)).1 := by
  have completed := System.complete_shared P identity
    (System.run P identity { shared := start } earlier) job inputs
  rw [List.append_assoc]
  exact (congrArg Pool.shared Pool.run_append).trans completed

/-- A thread that has just been started runs to its end. -/
theorem Network.completes
    {i : ι} {earlier : List (Move Input Job)} {job : Job} (inputs : Nat → Input)
    (network :
      Network P identity start (Function.update moves i (earlier ++ [.spawn job])) broker) :
    Network P identity start
      (Function.update moves i (earlier ++ [.spawn job] ++ finishes P (identity i)
        (System.run P (identity i) { shared := start i } earlier) job inputs)) broker := by
  have complete := network.extend i
    (finishes P (identity i) (System.run P (identity i) { shared := start i } earlier)
      job inputs)
    (by
      intro choice member delivery spawned
      obtain ⟨index, _, step⟩ := List.mem_map.mp member
      rw [← step] at spawned
      cases spawned)
  rw [Function.update_self, Function.update_idem] at complete
  exact complete

theorem Network.finish
    {i : ι} {earlier : List (Move Input Job)} {job : Job} (inputs : Nat → Input)
    (network : Network P identity start (Function.update moves i (earlier ++ [.spawn job])) broker)
    (same : ∀ j, j ≠ i → System.after P (identity j) (start j) (moves j) = worlds j)
    (before : System.after P (identity i) (start i) earlier = worlds i) :
    Attains P identity start
      (Function.update worlds i ((job.thread P (identity i)).exec inputs (worlds i)).1) broker := by
  refine ⟨_, network.completes inputs, fun j => ?_⟩
  by_cases other : j = i
  · subst other
    rw [Function.update_self, Function.update_self, ← before]
    exact after_finishes _ _ _ _ _
  · rw [Function.update_of_ne other, Function.update_of_ne other]
    exact same j other

/-- A daemon runs a job of its own. -/
theorem Attains.job
    (attains : Attains P identity start worlds broker) (i : ι) {job : Job}
    (own : ∀ delivery, job ≠ .ingest delivery) (inputs : Nat → Input) :
    Attains P identity start
      (Function.update worlds i ((job.thread P (identity i)).exec inputs (worlds i)).1) broker := by
  obtain ⟨moves, network, after⟩ := attains
  have spawned := Network.act _ _ i (.spawn job) network fun delivery same => by
    cases same
    exact own delivery rfl
  exact spawned.finish inputs (fun j _ => after j) (after i)

/-- The broker takes a publish. -/
theorem Attains.publish
    (attains : Attains P identity start worlds broker) {i : ι} {publish : Publish}
    (handed : publish ∈ (worlds i).requests) :
    Attains P identity start worlds (broker ++ [publish]) := by
  obtain ⟨moves, network, after⟩ := attains
  rw [← after i] at handed
  exact ⟨moves, .publish moves broker i publish network handed, after⟩

/-- The broker delivers a publish, and the daemon ingests it. -/
theorem Attains.ingest
    (attains : Attains P identity start worlds broker) (i : ι) {publish : Publish}
    (held : publish ∈ broker) (clock : Clock) (draw : Draw) (inputs : Nat → Input) :
    Attains P identity start
      (Function.update worlds i
        ((onMsg P (identity i) ⟨publish.topic, publish.payload, clock, draw⟩).exec inputs
          (worlds i)).1) broker := by
  obtain ⟨moves, network, after⟩ := attains
  have delivered := Network.deliver _ _ i publish clock draw network held
  have finished := delivered.finish inputs (fun j _ => after j) (after i)
  rw [Job.thread, exec_ignore] at finished
  exact finished

end Reached

/-! ## What the daemons do when nothing fails -/

section Steps

variable {P : Platform} {identity : Identity} {world : World} {session : Mqtt}

/-- A connected daemon publishes a message at once, and marks its row. -/
theorem exec_sendBuilt_online
    {topic : String} {inner : Inner} {wrapper : Wrapper} (online : world.mqtt = some session)
    (connected : session.connected = true) :
    ∃ now, ((sendBuilt P topic inner wrapper).exec (fun _ => {}) world).1 =
      { world with
        store := ((world.store.insertOutboundLog inner topic).enqueueOutbound
          (outboxEntry P topic inner wrapper)).markDelivered inner.id now
        mqtt := some { session with
          requests := session.requests ++ [⟨topic, P.wrapperJson.encode wrapper, false⟩] } } := by
  obtain ⟨isConnected, requests⟩ := session
  cases world
  subst online connected
  exact ⟨_, rfl⟩

/-- The state after the pump has handed over a message. -/
def World.pumped (world : World) (session : Mqtt) (ob : Outbound) : World :=
  { world with
    store := world.store.markDelivered ob.id ""
    mqtt := some { session with requests := session.requests ++ [ob.publish] } }

/-- A round of the pump hands over everything that is queued. -/
theorem exec_pumpAll
    (pending : List Outbound) (online : world.mqtt = some session) :
    ((pumpAll pending).exec (fun _ => {}) world).1.mqtt =
      some { session with requests := session.requests ++ pending.map Outbound.publish } := by
  induction pending generalizing world session with
  | nil =>
      rw [List.map_nil, List.append_nil]
      exact online
  | cons ob rest inductionHypothesis =>
      have handed : (pumpAll (ob :: rest)).exec (fun _ => {}) world =
          (pumpAll rest).exec (fun _ => {}) (world.pumped session ob) := by
        cases world
        subst online
        rfl
      have others := @inductionHypothesis (world.pumped session ob) _ rfl
      rw [handed, others, List.map_cons, List.append_assoc]
      rfl

theorem exec_pump
    {entry : Outbound} (online : world.mqtt = some session) (connected : session.connected = true)
    (queued : entry ∈ world.store.pendingOutbound) :
    entry.publish ∈ ((Job.pump.thread P identity).exec (fun _ => {}) world).1.requests := by
  have course : (Job.pump.thread P identity).exec (fun _ => {}) world =
      (pumpAll world.store.pendingOutbound).exec (fun _ => {}) world := by
    obtain ⟨isConnected, requests⟩ := session
    cases world
    subst online connected
    rfl
  rw [course, World.requests, exec_pumpAll world.store.pendingOutbound online]
  exact List.mem_append_right _ (List.mem_map_of_mem queued)

end Steps

/-! ## The sender, the receiver, and the sender again -/

section Exchange

variable {P : Platform} {sender receiver : Identity} {p : SendParams} {draw reply : Draw}
  {inner opened : Inner} {wrapper : Wrapper} {clock later : Clock} {world : World}

/-- The log has the message as sent. -/
def Store.LoggedSent (store : Store) (id : String) : Prop :=
  ∃ row ∈ store.messages.rows, row.2.id = id ∧ row.2.direction = .outbound ∧
    row.2.deliveryState = .sent

/-- The log has the message as delivered. -/
def Store.LoggedDelivered (store : Store) (id : String) : Prop :=
  ∃ row ∈ store.messages.rows, row.2.id = id ∧ row.2.direction = .outbound ∧
    row.2.deliveryState = .delivered

theorem mem_updateOutbound
    {store : Store} {id : String} {guard : DeliveryState → Bool} {change : MsgRow → MsgRow}
    {keeps : ∀ row, (change row).id = row.id} {row : Int × MsgRow}
    (member : row ∈ store.messages.rows) (same : row.2.id = id)
    (outbound : row.2.direction = .outbound) (guarded : guard row.2.deliveryState = true) :
    (row.1, change row.2) ∈ (store.updateOutbound id guard change keeps).messages.rows := by
  refine RowTable.mem_updateWhere.mpr ⟨row, member, ?_⟩
  rw [if_pos]
  rw [same, outbound, guarded, beq_self_eq_true]
  rfl

theorem loggedSent_of_new
    {store : Store} {topic now : String} {entry : Outbound}
    (new : store.messages.holds inner.id = false) :
    (((store.insertOutboundLog inner topic).enqueueOutbound entry).markDelivered inner.id
      now).LoggedSent inner.id := by
  have free : store.messages.holds (Store.outboundRow inner topic).id = false := new
  have inserted : (store.messages.last + 1, Store.outboundRow inner topic) ∈
      ((store.insertOutboundLog inner topic).enqueueOutbound entry).messages.rows := by
    have rows := (RowTable.insertOrIgnore_fresh free).1
    refine (congrArg (fun rows => _ ∈ rows) rows).mpr ?_
    exact List.mem_append_right _ List.mem_cons_self
  have marked : ((store.messages.last + 1,
        { Store.outboundRow inner topic with
          deliveryState := .sent, brokerAckTs := some now }) : Int × MsgRow) ∈
      (((store.insertOutboundLog inner topic).enqueueOutbound entry).markSent inner.id
        now).messages.rows :=
    mem_updateOutbound inserted rfl rfl rfl
  exact ⟨_, marked, rfl, rfl, rfl⟩

/-- A receipt makes a sent message a delivered one. -/
theorem loggedDelivered_of_sent
    {store : Store} {id ts : String} (sent : store.LoggedSent id) :
    (store.applyDeliveryReceipt id ts).LoggedDelivered id := by
  obtain ⟨row, member, same, outbound, state⟩ := sent
  have marked : (row.1, { row.2 with deliveryState := .delivered, deliveredTs := some ts }) ∈
      (store.applyDeliveryReceipt id ts).messages.rows := by
    refine mem_updateOutbound member same outbound ?_
    rw [state]
    rfl
  exact ⟨_, marked, same, outbound, rfl⟩

/-- The callback keeps what none of its steps changes. -/
theorem onMsg_keeps
    {α : Type} (view : World → α)
    (keeps : ∀ {permitted : Store.Op → Prop} {before after : World},
      IngestStep permitted before after → view after = view before)
    (delivery : Delivery) (inputs : Nat → Input) :
    view ((onMsg P receiver delivery).exec inputs world).1 = view world := by
  have within : Prog.Within (fun _ => True) (fun before after => view after = view before)
      (fun _ => True) (onMsg P receiver delivery) :=
    Prog.Within.weaken steps_onMsg (fun _ _ _ step => keeps step) fun _ _ => trivial
  rw [← Prog.execUpTo_actions]
  exact @Prog.Within.execUpTo _ _ _ _ _ (fun before after => view after = view before)
    (fun _ => rfl) (fun earlier later => later.trans earlier) within _ _ _

theorem outbox_recordGrant (store : Store) (claims : Option GrantClaims) (now : String) :
    (store.recordGrant claims now).outbox = store.outbox := by
  cases claims with
  | none =>
      rfl
  | some found =>
      simp only [Store.recordGrant, Store.seenGrant]
      split <;> rfl

/-- A message that is stored is answered. -/
theorem queues_receipt
    {delivery : Delivery}
    (accepted : Accepted P receiver (world.config P) (world.trust P) delivery opened)
    (plain : opened.Plain) (wanted : wantsReceipt receiver (world.config P) opened = true)
    (unseen : world.store.messages.holds opened.id = false)
    (unused : world.store.grantUsed
      (guardClaims P (world.trust P) delivery.clock.guardCheck opened) = false)
    (unqueued : world.store.outbox.holds delivery.draw.id = false) :
    outboxEntry P delivery.topic
        (draft receiver delivery.draw (receiptOpts opened.sender opened.id .delivered))
        (wrapped P receiver false (P.innerJson.encode
          (draft receiver delivery.draw (receiptOpts opened.sender opened.id .delivered)))) ∈
      ((onMsg P receiver delivery).exec (fun _ => {}) world).1.store.pendingOutbound := by
  have ingested := Prog.exec_of_meets (@onMsg_succeeds P receiver delivery world)
    (@fun _ => rfl : ∀ index : Nat, Input.Succeeds ((fun _ => {}) index))
  generalize (onMsg P receiver delivery).exec (fun _ => {}) world = result at ingested
  obtain ⟨final, outcome⟩ := result
  cases ingested with
  | aside unplain unstored change =>
      exact absurd plain (unplain opened accepted)
  | replayed found now later foundAccepted foundPlain used result =>
      rw [accepted.unique foundAccepted, unused] at used
      cases used
  | duplicate found now foundAccepted foundPlain unusedToo taken result =>
      rw [accepted.unique foundAccepted, unseen] at taken
      cases taken
  | stored found now foundAccepted foundPlain unusedToo fresh result =>
      have same := accepted.unique foundAccepted
      subst same
      dsimp only
      rw [result, Store.receipted, if_pos wanted, build_plain rfl]
      refine (pendingOutbound_enqueue _ _).symm ▸ List.mem_append_right _ ?_
      rw [if_pos]
      · exact List.mem_cons_self
      · rw [← unqueued, ← outbox_recordGrant world.store
          (guardClaims P (world.trust P) delivery.clock.guardCheck found) now]
        rfl

/-- A message of another agent that is no hello is left to verification. -/
theorem intercept_other
    {name : String} {carried : Inner} (wrapperJson : P.wrapperJson.Lawful)
    (claimed : wrapper.claimedSender = some name) (other : name ≠ receiver.name)
    (peeked : wrapper.peek P = .ok carried) (ctype : carried.ctype ≠ CTYPE_PAIR) :
    intercept P receiver (P.wrapperJson.encode wrapper) = .pass := by
  have notOwn : (some name : Option String) ≠ some receiver.name :=
    fun same => other (Option.some.inj same)
  simp only [intercept, wrapperJson _, claimed, if_neg notOwn, peeked]
  exact if_neg ctype

variable (P receiver) in
/-- The receipt for a message. -/
def receiptFor (reply : Draw) (opened : Inner) : Inner :=
  draft receiver reply (receiptOpts opened.sender opened.id .delivered)

/-- A receipt of a trusted agent that arrives in time is accepted. -/
theorem receipt_accepted
    {cfg : Config} {trust : TrustStore} (wrapperJson : P.wrapperJson.Lawful)
    (innerJson : P.innerJson.Lawful) (signs : receiver.Signs P)
    (named : '#' ∉ receiver.name.toList) (other : receiver.name ≠ sender.name)
    (trusted : trust.publicKey receiver.name = .ok receiver.publicKey)
    (fresh : freshEnough P later.freshness reply.ts cfg.freshnessSecs = true)
    (topic : String) (again : Draw) :
    Accepted P sender cfg trust
      ⟨topic, P.wrapperJson.encode (wrapped P receiver false
        (P.innerJson.encode (receiptFor receiver reply opened))), later, again⟩
      (receiptFor receiver reply opened) := by
  have unlike : CTYPE_RECEIPT ≠ CTYPE_PAIR := by decide
  have claimed : (wrapped P receiver false
      (P.innerJson.encode (receiptFor receiver reply opened))).claimedSender =
        some receiver.name := claimedSender_wrapped_signed _ |>.mpr named
  constructor
  · exact intercept_other wrapperJson claimed other (peek_wrapped innerJson _ _) unlike
  · rw [verifyDelivery, verifyIncoming_wrapped wrapperJson
      (gate_accepts_signed signs innerJson named rfl trusted cfg.allowUnsigned)]
    exact finalize_accepts (Nat.zero_le _) fresh rfl fun sg given => by cases given

/-- The callback of an accepted receipt records the delivery. -/
theorem exec_receipt
    {delivery : Delivery}
    (accepted : Accepted P sender (world.config P) (world.trust P) delivery
      (receiptFor receiver reply opened)) :
    ((onMsg P sender delivery).exec (fun _ => {}) world).1.store =
      world.store.applyDeliveryReceipt opened.id reply.ts := by
  have unlike : CTYPE_RECEIPT ≠ CTYPE_PRESENCE := by decide
  have isReceipt : (receiptFor receiver reply opened).kind = .receipt ∨
      (receiptFor receiver reply opened).ctype = CTYPE_RECEIPT := Or.inl rfl
  have other : (receiptFor receiver reply opened).ctype ≠ CTYPE_PRESENCE := unlike
  rw [accepted.exec_eq, acceptMessage, if_neg other, if_pos isReceipt]
  rfl

/-- A message is accepted under its own id. -/
theorem id_of_accepted
    {cfg : Config} {trust : TrustStore} {delivery : Delivery} {opts : BuildOpts}
    (wrapperJson : P.wrapperJson.Lawful) (innerJson : P.innerJson.Lawful)
    (built : build P sender draw opts = .ok (inner, wrapper))
    (payload : delivery.payload = P.wrapperJson.encode wrapper)
    (accepted : Accepted P receiver cfg trust delivery opened) : opened.id = draw.id := by
  have verified := accepted.verified
  rw [verifyDelivery, payload] at verified
  obtain ⟨_, _, finalized⟩ := verifyIncoming_course (wrapperJson wrapper)
    (mirrors_of_build innerJson built).peeked verified
  rw [(finalize_ok finalized).same, ← build_id built]

end Exchange

/-! ## Two of the daemons -/

section Two

variable {P : Platform} {ι : Type} [DecidableEq ι] {identity : ι → Identity} {start : ι → World}
  {i j : ι} {first second : World} {broker : List Publish}

variable (P identity start) in
/-- The network can come to a state in which two of the daemons are in these states. -/
def Meets (i j : ι) (first second : World) (broker : List Publish) : Prop :=
  ∃ worlds, Attains P identity start worlds broker ∧ worlds i = first ∧ worlds j = second

theorem Meets.symm (meets : Meets P identity start i j first second broker) :
    Meets P identity start j i second first broker := by
  obtain ⟨worlds, attains, same, sameOther⟩ := meets
  exact ⟨worlds, attains, sameOther, same⟩

theorem Meets.job
    (meets : Meets P identity start i j first second broker) (different : i ≠ j) (job : Job)
    (own : ∀ delivery, job ≠ .ingest delivery) :
    Meets P identity start i j ((job.thread P (identity i)).exec (fun _ => {}) first).1 second
      broker := by
  obtain ⟨worlds, attains, rfl, rfl⟩ := meets
  refine ⟨_, attains.job i own fun _ => {}, Function.update_self _ _ _, ?_⟩
  exact Function.update_of_ne (Ne.symm different) _ _

theorem Meets.publish
    (meets : Meets P identity start i j first second broker) {publish : Publish}
    (handed : publish ∈ first.requests) :
    Meets P identity start i j first second (broker ++ [publish]) := by
  obtain ⟨worlds, attains, rfl, rfl⟩ := meets
  exact ⟨worlds, attains.publish handed, rfl, rfl⟩

theorem Meets.ingest
    (meets : Meets P identity start i j first second broker) (different : i ≠ j)
    {publish : Publish} (held : publish ∈ broker) (clock : Clock) (draw : Draw) :
    Meets P identity start i j
      ((onMsg P (identity i) ⟨publish.topic, publish.payload, clock, draw⟩).exec (fun _ => {})
        first).1 second broker := by
  obtain ⟨worlds, attains, rfl, rfl⟩ := meets
  refine ⟨_, attains.ingest i held clock draw fun _ => {}, Function.update_self _ _ _, ?_⟩
  exact Function.update_of_ne (Ne.symm different) _ _

end Two

/-! ## The exchange -/

/-- A direct message that the sender can send, that the receiver stores and answers when it
receives it, and whose receipt the sender accepts. -/
structure Answerable (P : Platform) (sender receiver : Identity) (atSender atReceiver : World)
    (p : SendParams) (draw reply : Draw) (inner opened : Inner) (wrapper : Wrapper)
    (clock later : Clock) : Prop where
  sends : Sends P sender (atSender.config P) (atSender.trust P) p draw inner wrapper
  new : atSender.store.messages.holds draw.id = false
  accepted : ∀ topic, Accepted P receiver (atReceiver.config P) (atReceiver.trust P)
    ⟨topic, P.wrapperJson.encode wrapper, clock, reply⟩ opened
  plain : opened.Plain
  wanted : wantsReceipt receiver (atReceiver.config P) opened = true
  unseen : atReceiver.store.messages.holds draw.id = false
  unused : atReceiver.store.grantUsed
    (guardClaims P (atReceiver.trust P) clock.guardCheck opened) = false
  unqueued : atReceiver.store.outbox.holds reply.id = false
  online : atSender.mqtt.isSome ∧ atReceiver.mqtt.isSome
  signs : receiver.Signs P
  named : '#' ∉ receiver.name.toList
  other : receiver.name ≠ sender.name
  trusted : (atSender.trust P).publicKey receiver.name = .ok receiver.publicKey
  fresh : freshEnough P later.freshness reply.ts (atSender.config P).freshnessSecs = true

section Phases

variable {P : Platform} {sender receiver : Identity} {p : SendParams} {draw reply : Draw}
  {inner opened : Inner} {wrapper : Wrapper} {clock : Clock} {world : World}

theorem exec_connection
    {session : Mqtt} (identity : Identity) (online : world.mqtt = some session) :
    (((Job.connection true).thread P identity).exec (fun _ => {}) world).1 =
      { world with mqtt := some { session with connected := true } } := by
  cases world
  subst online
  rfl

/-- Once it is connected, the sender logs the message as sent and hands it over. -/
theorem sender_sends
    (sends : Sends P sender (world.config P) (world.trust P) p draw inner wrapper)
    (online : world.mqtt.isSome) (new : world.store.messages.holds draw.id = false) :
    ∃ final topic, (((Job.request (.send p) draw 0).thread P sender).exec (fun _ => {})
        (((Job.connection true).thread P sender).exec (fun _ => {}) world).1).1 = final ∧
      ⟨topic, P.wrapperJson.encode wrapper, false⟩ ∈ final.requests ∧
      final.store.LoggedSent draw.id ∧ final.configFile = world.configFile ∧
      final.trustFile = world.trustFile := by
  obtain ⟨session, live⟩ := Option.isSome_iff_exists.mp online
  obtain ⟨grant, encryptTo, _, _, built⟩ := sends.built
  have connected : Sends P sender
      (({ world with mqtt := some { session with connected := true } } : World).config P)
      (({ world with mqtt := some { session with connected := true } } : World).trust P) p draw
      inner wrapper := sends
  obtain ⟨topic, count, course⟩ := @exec_send_of_sends _ _ _ _ (fun _ => {}) _ _ _ connected
  obtain ⟨now, result⟩ := @exec_sendBuilt_online P
    { world with mqtt := some { session with connected := true } } _ topic inner wrapper rfl rfl
  refine ⟨_, topic, rfl, ?_⟩
  rw [exec_connection sender live, Job.thread, exec_ignore]
  have sent : (handle P sender draw 0 (.send p)).exec (fun _ => {})
      { world with mqtt := some { session with connected := true } } =
        (sendBuilt P topic inner wrapper).exec (fun _ => {})
          { world with mqtt := some { session with connected := true } } := course
  rw [sent, result]
  refine ⟨List.mem_append_right _ List.mem_cons_self, ?_, rfl, rfl⟩
  rw [← build_id built] at new ⊢
  exact loggedSent_of_new new

/-- The receiver stores the message and hands over its receipt. -/
theorem receiver_answers
    {topic : String}
    (accepted : Accepted P receiver (world.config P) (world.trust P)
      ⟨topic, P.wrapperJson.encode wrapper, clock, reply⟩ opened)
    (plain : opened.Plain) (wanted : wantsReceipt receiver (world.config P) opened = true)
    (unseen : world.store.messages.holds opened.id = false)
    (unused : world.store.grantUsed
      (guardClaims P (world.trust P) clock.guardCheck opened) = false)
    (unqueued : world.store.outbox.holds reply.id = false) (online : world.mqtt.isSome) :
    ⟨topic, P.wrapperJson.encode (wrapped P receiver false
        (P.innerJson.encode (receiptFor receiver reply opened))), false⟩ ∈
      ((Job.pump.thread P receiver).exec (fun _ => {})
        (((Job.connection true).thread P receiver).exec (fun _ => {})
          ((onMsg P receiver ⟨topic, P.wrapperJson.encode wrapper, clock, reply⟩).exec
            (fun _ => {}) world).1).1).1.requests := by
  obtain ⟨session, live⟩ := Option.isSome_iff_exists.mp online
  have kept := @onMsg_keeps P receiver world _ World.mqtt (fun step => by cases step <;> rfl)
    ⟨topic, P.wrapperJson.encode wrapper, clock, reply⟩ fun _ => {}
  have queued := queues_receipt accepted plain wanted unseen unused unqueued
  rw [exec_connection receiver (kept.trans live)]
  have handed := @exec_pump P receiver
    { ((onMsg P receiver ⟨topic, P.wrapperJson.encode wrapper, clock, reply⟩).exec
      (fun _ => {}) world).1 with mqtt := some { session with connected := true } } _ _ rfl rfl
    queued
  exact handed

end Phases

section Answers

variable {P : Platform} {ι : Type} [DecidableEq ι] {identity : ι → Identity} {start : ι → World}
  {i j : ι} {p : SendParams} {draw reply : Draw} {inner opened : Inner} {wrapper : Wrapper}
  {clock later : Clock}
  (answerable : Answerable P (identity i) (identity j) (start i) (start j) p draw reply inner
    opened wrapper clock later)

include answerable

/-- The sender has logged the message as sent, and the broker has it. -/
theorem Answerable.published (different : i ≠ j) :
    ∃ afterSend topic,
      Meets P identity start i j afterSend (start j)
        [⟨topic, P.wrapperJson.encode wrapper, false⟩] ∧
      afterSend.store.LoggedSent draw.id ∧ afterSend.configFile = (start i).configFile ∧
      afterSend.trustFile = (start i).trustFile := by
  have initial : Meets P identity start i j (start i) (start j) [] :=
    ⟨start, attains_start, rfl, rfl⟩
  have sent := (initial.job different (.connection true) nofun).job different
    (.request (.send p) draw 0) nofun
  obtain ⟨afterSend, topic, result, handed, logged, configFile, trustFile⟩ :=
    sender_sends answerable.sends answerable.online.1 answerable.new
  rw [result] at sent
  exact ⟨afterSend, topic, sent.publish handed, logged, configFile, trustFile⟩

/-- The row of the message becomes `delivered` in a state that the network can come to. -/
theorem Answerable.confirmed
    (wrapperJson : P.wrapperJson.Lawful) (innerJson : P.innerJson.Lawful) (different : i ≠ j) :
    ∃ worlds broker, Attains P identity start worlds broker ∧
      (worlds i).store.LoggedDelivered draw.id := by
  obtain ⟨grant, encryptTo, _, _, built⟩ := answerable.sends.built
  have id : opened.id = draw.id :=
    id_of_accepted wrapperJson innerJson built rfl (answerable.accepted "")
  obtain ⟨afterSend, topic, published, logged, configFile, trustFile⟩ :=
    answerable.published different
  have received := published.symm.ingest (Ne.symm different) List.mem_cons_self clock reply
  have answered := (received.job (Ne.symm different) (.connection true) nofun).job
    (Ne.symm different) .pump nofun
  have receipt := receiver_answers (answerable.accepted topic) answerable.plain answerable.wanted
    (by rw [id]; exact answerable.unseen) answerable.unused answerable.unqueued
    answerable.online.2
  have returned := (answered.publish receipt).symm.ingest different
    (List.mem_append_right _ List.mem_cons_self) later draw
  have config : afterSend.config P = (start i).config P := by
    rw [World.config, World.config, configFile]
  have trust : afterSend.trust P = (start i).trust P := by
    rw [World.trust, World.trust, trustFile]
  have confirmable : Accepted P (identity i) (afterSend.config P) (afterSend.trust P)
      ⟨topic, P.wrapperJson.encode (wrapped P (identity j) false
        (P.innerJson.encode (receiptFor (identity j) reply opened))), later, draw⟩
      (receiptFor (identity j) reply opened) := by
    rw [config, trust]
    exact receipt_accepted wrapperJson innerJson answerable.signs answerable.named
      answerable.other answerable.trusted answerable.fresh topic draw
  obtain ⟨worlds, attains, first, _⟩ := returned
  refine ⟨worlds, _, attains, ?_⟩
  rw [first, exec_receipt confirmable, id]
  exact loggedDelivered_of_sent logged

end Answers

/-- From any states of the daemons, a message that can be answered can be delivered, stored and
answered, and its row then becomes `delivered`. -/
theorem exchange_completes
    (P : Platform) (wrapperJson : P.wrapperJson.Lawful) (innerJson : P.innerJson.Lawful)
    {ι : Type} [DecidableEq ι] (identity : ι → Identity) (start : ι → World) (i j : ι)
    (different : i ≠ j) (p : SendParams) (draw reply : Draw) (inner opened : Inner)
    (wrapper : Wrapper) (clock later : Clock)
    (answerable : Answerable P (identity i) (identity j) (start i) (start j) p draw reply inner
      opened wrapper clock later) :
    ∃ moves broker, Network P identity start moves broker ∧
      ∃ row ∈ (System.after P (identity i) (start i) (moves i)).store.messages.rows,
        row.2.id = draw.id ∧ row.2.direction = .outbound ∧ row.2.deliveryState = .delivered := by
  obtain ⟨worlds, broker, ⟨moves, network, after⟩, delivered⟩ :=
    answerable.confirmed wrapperJson innerJson different
  refine ⟨moves, broker, network, ?_⟩
  rw [after i]
  exact delivered

/-! ## Alice greets Bob -/

def chatConfig : Config :=
  { topics := ["chat"] }

/-- The same with room for a number of messages. -/
def chatKeeping (kept : Nat) : Config :=
  { chatConfig with maxMessages := kept }

/-- A daemon with a session that has imported the token of an agent. -/
def chatWorld (known : Identity) : World :=
  { configFile := .text "config"
    trustFile := .text ((Reference.platform chatConfig).trustJson.encode
      (TrustStore.addFromToken {} known.token))
    mqtt := some { connected := false } }

/-- A greeting in the clear. -/
def plainGreeting : SendParams :=
  { recipient := "bob", ctype := CTYPE_TEXT, body := "hello bob" }

def plainInner : Inner :=
  draft Reference.alice Reference.draw (sendOpts plainGreeting none none)

/-- What alice puts on the wire. -/
def plainWrapper : Wrapper :=
  wrapped (Reference.platform chatConfig) Reference.alice false
    ((Reference.platform chatConfig).innerJson.encode plainInner)

section Chats

variable (kept : Nat)

theorem chatWorld_trusts (known : Identity) :
    ((chatWorld known).trust (Reference.platform (chatKeeping kept))).publicKey known.name =
      .ok known.publicKey := by
  obtain ⟨saved, read, agents, _⟩ :=
    TrustStore.decode_codec (TrustStore.addFromToken {} known.token)
  have decoded : (Reference.platform (chatKeeping kept)).trustJson.decode
      ((Reference.platform (chatKeeping kept)).trustJson.encode
        (TrustStore.addFromToken {} known.token)) = some saved := read
  have loaded : (chatWorld known).trust (Reference.platform (chatKeeping kept)) = saved := by
    have loads :
        TrustStore.load (Reference.platform (chatKeeping kept)) (chatWorld known).trustFile =
        .ok saved := TrustStore.load_text_eq_ok.mpr decoded
    rw [World.trust, loads]
    rfl
  have added := TrustStore.currentKey_addWithKem {} known.name known.name known.publicKey
    known.token.kemPublicKey
  rw [if_pos rfl, currentKey_eq_entry] at added
  rw [loaded, TrustStore.publicKey_eq_ok_iff, currentKey_eq_entry, ← added]
  exact congrArg (fun found : Option KnownAgentRecord => found.bind fun record => unb64 record.pk)
    (agents known.name)

theorem plainWrapper_passes :
    intercept (Reference.platform (chatKeeping kept)) Reference.bob
      ((Reference.platform (chatKeeping kept)).wrapperJson.encode plainWrapper) = .pass :=
  intercept_other (Reference.wrapperJson_lawful (chatKeeping kept))
    ((claimedSender_wrapped_signed _).mpr (by decide))
    (by decide : Reference.alice.name ≠ Reference.bob.name)
    (peek_wrapped (Reference.innerJson_lawful (chatKeeping kept)) false plainInner) (by decide)

theorem plainWrapper_verified (topic : String) :
    verifyDelivery (Reference.platform (chatKeeping kept)) Reference.bob (chatKeeping kept)
      ((chatWorld Reference.alice).trust (Reference.platform (chatKeeping kept)))
      ⟨topic, (Reference.platform (chatKeeping kept)).wrapperJson.encode plainWrapper,
        Reference.clock, Reference.draw⟩ = .ok plainInner := by
  have signs : Reference.alice.Signs (Reference.platform (chatKeeping kept)) :=
    Reference.signs (chatKeeping kept) "alice" 1
  have sender : plainInner.sender = Reference.alice.name := rfl
  have small : plainInner.body.utf8ByteSize ≤ chatConfig.maxPayload := by decide
  have sent : plainWrapper = wrapped (Reference.platform (chatKeeping kept)) Reference.alice false
      ((Reference.platform (chatKeeping kept)).innerJson.encode plainInner) := rfl
  rw [verifyDelivery, sent, verifyIncoming_wrapped (Reference.wrapperJson_lawful (chatKeeping kept))
    (gate_accepts_signed signs (Reference.innerJson_lawful (chatKeeping kept)) (by decide) sender
      (chatWorld_trusts kept Reference.alice) _)]
  exact finalize_accepts small (Reference.fresh_newYear (chatKeeping kept)) rfl fun sg given => by
    cases given

theorem greeting_sends :
    Sends (Reference.platform (chatKeeping kept)) Reference.alice (chatKeeping kept)
      ((chatWorld Reference.bob).trust (Reference.platform (chatKeeping kept))) plainGreeting
      Reference.draw plainInner plainWrapper :=
  ⟨⟨"chat", rfl⟩, (by decide : plainGreeting.body.utf8ByteSize ≤ chatConfig.maxPayload), none,
    none, rfl, rfl, build_plain rfl⟩

theorem greeting_answerable :
    Answerable (Reference.platform (chatKeeping kept)) Reference.alice Reference.bob
      (chatWorld Reference.bob) (chatWorld Reference.alice) plainGreeting Reference.draw
      Reference.draw plainInner plainInner plainWrapper Reference.clock Reference.clock where
  sends := greeting_sends kept
  new := rfl
  accepted topic := ⟨plainWrapper_passes kept, plainWrapper_verified kept topic⟩
  plain := by
    have other : CTYPE_TEXT ≠ CTYPE_PRESENCE ∧
        ¬ (MsgKind.message = .receipt ∨ CTYPE_TEXT = CTYPE_RECEIPT) := by decide
    exact other
  wanted := by
    have wanted : (true && "bob" == "bob" && !("bob" == BROADCAST)) = true := by decide
    exact wanted
  unseen := rfl
  unused := rfl
  unqueued := rfl
  online := ⟨rfl, rfl⟩
  signs := Reference.signs (chatKeeping kept) "bob" 2
  named := by decide
  other := by decide
  trusted := chatWorld_trusts kept Reference.bob
  fresh := Reference.fresh_newYear (chatKeeping kept)

end Chats

theorem exchange_completes_greeting :
    ∃ moves broker,
      Network (Reference.platform chatConfig) pair
        (fun daemon => chatWorld (pair !daemon)) moves broker ∧
      ∃ row ∈ (System.after (Reference.platform chatConfig) Reference.alice
          (chatWorld Reference.bob) (moves true)).store.messages.rows,
        row.2.id = Reference.draw.id ∧ row.2.direction = .outbound ∧
          row.2.deliveryState = .delivered :=
  exchange_completes (Reference.platform chatConfig) (Reference.wrapperJson_lawful chatConfig)
    (Reference.innerJson_lawful chatConfig) pair (fun daemon => chatWorld (pair !daemon)) true
    false (by decide) plainGreeting Reference.draw Reference.draw plainInner plainInner plainWrapper
    Reference.clock Reference.clock (greeting_answerable chatConfig.maxMessages)

/-- Each of the two has imported the other's token. -/
def chatStart (daemon : Bool) : World :=
  chatWorld (pair !daemon)

theorem chatStart_untouched (daemon : Bool) : (chatStart daemon).Untouched :=
  ⟨rfl, rfl, rfl⟩

/-- The greeting can come to be delivered, and known to be. -/
theorem greeting_confirmed :
    ∃ worlds broker,
      Attains (Reference.platform chatConfig) pair chatStart worlds broker ∧
        (worlds true).store.LoggedDelivered Reference.draw.id := by
  have answerable : Answerable (Reference.platform chatConfig) (pair true) (pair false)
      (chatStart true) (chatStart false) plainGreeting Reference.draw Reference.draw plainInner
      plainInner plainWrapper Reference.clock Reference.clock :=
    greeting_answerable chatConfig.maxMessages
  exact answerable.confirmed (Reference.wrapperJson_lawful chatConfig)
    (Reference.innerJson_lawful chatConfig) (by decide)

end AgentMsg
