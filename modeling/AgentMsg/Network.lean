import AgentMsg.Cascade

/-!
# A network of daemons

The daemons hand payloads to a broker, and the broker hands them on, late, in any order and
any number of times.  What the daemons build of their own accord is never stored and never
answered, so the receipts of a network are limited by what its clients do.
-/

namespace AgentMsg

open Checked

section Payloads

variable {P : Platform} {identity : Identity} {payload : Bytes}

/-! ## Payloads that are not answered -/

variable (P identity) in
/-- The agent finds a message in the payload, and decrypts it when it is encrypted. -/
def Finds (payload : Bytes) (carried opened : Inner) : Prop :=
  ∃ wrapper, P.wrapperJson.decode payload = some wrapper ∧ wrapper.peek P = .ok carried ∧
    decryptBody P identity carried wrapper.rejectInfo = .ok opened

variable (P identity) in
/-- A receipt or a presence beacon, encrypted or not, or a hello by the content type that it
is transmitted with. -/
inductive Unanswered (payload : Bytes) : Prop
  | receipt (carried opened : Inner) (finds : Finds P identity payload carried opened)
      (kind : opened.kind = .receipt ∨ opened.ctype = CTYPE_RECEIPT) : Unanswered payload
  | presence (carried opened : Inner) (finds : Finds P identity payload carried opened)
      (ctype : opened.ctype = CTYPE_PRESENCE) : Unanswered payload
  | hello (wrapper : Wrapper) (carried : Inner)
      (parsed : P.wrapperJson.decode payload = some wrapper)
      (peeked : wrapper.peek P = .ok carried) (ctype : carried.ctype = CTYPE_PAIR) :
      Unanswered payload

/-- What verification accepts is what the agent finds. -/
theorem Finds.same
    {cfg : Config} {trust : TrustStore} {delivery : Delivery} {carried opened inner : Inner}
    (finds : Finds P identity delivery.payload carried opened)
    (verified : verifyDelivery P identity cfg trust delivery = .ok inner) : inner = opened := by
  obtain ⟨wrapper, parsed, peeked, decrypted⟩ := finds
  obtain ⟨_, _, finalized⟩ := verifyIncoming_course parsed peeked verified
  simp only [finalize, bind_eq_ok, ensure_eq_ok, pure_eq_ok] at finalized
  obtain ⟨_, _, _, _, found, foundDecrypted, _, _, rfl⟩ := finalized
  rw [decrypted] at foundDecrypted
  cases foundDecrypted
  rfl

theorem finds_of_verified
    {cfg : Config} {trust : TrustStore} {delivery : Delivery} {wrapper : Wrapper}
    {carried inner : Inner} (parsed : P.wrapperJson.decode delivery.payload = some wrapper)
    (peeked : wrapper.peek P = .ok carried)
    (verified : verifyDelivery P identity cfg trust delivery = .ok inner) :
    Finds P identity delivery.payload carried inner := by
  obtain ⟨_, _, finalized⟩ := verifyIncoming_course parsed peeked verified
  simp only [finalize, bind_eq_ok, ensure_eq_ok, pure_eq_ok] at finalized
  obtain ⟨_, _, _, _, _, decrypted, _, _, rfl⟩ := finalized
  exact ⟨wrapper, parsed, peeked, decrypted⟩

theorem intercept_hello
    {wrapper : Wrapper} {carried : Inner} (parsed : P.wrapperJson.decode payload = some wrapper)
    (peeked : wrapper.peek P = .ok carried) (ctype : carried.ctype = CTYPE_PAIR) :
    intercept P identity payload ≠ .pass := by
  intro passed
  simp only [intercept, parsed, peeked, ctype, if_true] at passed
  split at passed
  · cases passed
  · split at passed <;> cases passed

theorem Unanswered.not_plain
    {cfg : Config} {trust : TrustStore} {delivery : Delivery} {inner : Inner}
    (unanswered : Unanswered P identity delivery.payload)
    (accepted : Accepted P identity cfg trust delivery inner) : ¬ inner.Plain := by
  cases unanswered with
  | receipt carried opened finds kind =>
      rw [finds.same accepted.verified]
      exact fun plain => plain.2 kind
  | presence carried opened finds ctype =>
      rw [finds.same accepted.verified]
      exact fun plain => plain.1 ctype
  | hello wrapper carried parsed peeked ctype =>
      exact absurd accepted.passed (intercept_hello parsed peeked ctype)

/-- The callback of such a payload enqueues nothing. -/
theorem stills_onMsg
    {delivery : Delivery} (unanswered : Unanswered P identity delivery.payload) :
    Stills (onMsg P identity delivery) := by
  refine steps_onMsg.stills fun operation entry permitted queues => ?_
  rw [queues] at permitted
  cases permitted with
  | accepted atConfig atTrust inner operation configSeen trustSeen accepted permitted =>
      cases permitted with
      | receiptQueue reply wrapper plain wanted built =>
          exact unanswered.not_plain accepted plain

variable (P identity) in
/-- A step of a callback for such a payload leaves the outbox and the session alone. -/
def IngestChange (job : Job) (before after : World) : Prop :=
  ∀ delivery, job = .ingest delivery → Unanswered P identity delivery.payload → Still before after

/-- In every run, a step of a callback for such a payload enqueues nothing. -/
theorem Unanswered.enqueues_nothing
    {start : World} {taken : List (Move Input Job)} {index : Nat} {input : Input}
    {delivery : Delivery} {thread : Thread Unit}
    (unanswered : Unanswered P identity delivery.payload)
    (found : (System.run P identity { shared := start } taken).threads[index]? =
      some (.ingest delivery, thread)) :
    (System.run P identity { shared := start }
        (taken ++ [.step index input])).shared.store.pendingOutbound.Sublist
      (System.run P identity { shared := start } taken).shared.store.pendingOutbound := by
  have confined : Pool.Confined (fun _ => True) (IngestChange P identity)
      (System.run P identity { shared := start } taken) := by
    refine Pool.Confined.run (fun _ member => absurd member List.not_mem_nil)
      (fun _ _ => trivial) fun job _ => ?_
    by_cases quiet : ∃ other, job = .ingest other ∧ Unanswered P identity other.payload
    · obtain ⟨other, rfl, otherQuiet⟩ := quiet
      exact ((stills_onMsg otherQuiet).andThen fun _ => .done).weaken
        (fun _ _ _ still _ _ _ => still) fun _ _ => trivial
    · exact (confined_thread job).weaken
        (fun _ _ _ _ other same otherQuiet => absurd ⟨other, same, otherQuiet⟩ quiet)
        fun _ _ => trivial
  rw [run_snoc]
  rcases confined.step_change trivial found input with same | changed
  · rw [same]
  · exact (changed delivery rfl unanswered).outbox

/-! ## What a daemon builds of its own accord -/

/-- What is built in the clear is found as it was built. -/
theorem finds_of_build
    {sender : Identity} {draw : Draw} {opts : BuildOpts} {inner : Inner} {wrapper : Wrapper}
    (wrapperJson : P.wrapperJson.Lawful) (innerJson : P.innerJson.Lawful)
    (clear : opts.encryptTo = none) (built : build P sender draw opts = .ok (inner, wrapper)) :
    Finds P identity (P.wrapperJson.encode wrapper) (draft sender draw opts)
      (draft sender draw opts) := by
  rw [build_plain clear] at built
  cases built
  exact ⟨_, wrapperJson _, peek_wrapped innerJson _ _, rfl⟩

theorem Automatic.unanswered
    {sender : Identity} {draw : Draw} {inner : Inner} {wrapper : Wrapper}
    (wrapperJson : P.wrapperJson.Lawful) (innerJson : P.innerJson.Lawful)
    (automatic : Automatic P sender draw inner wrapper) :
    Unanswered P identity (P.wrapperJson.encode wrapper) := by
  cases automatic with
  | receipt recipient refId status inner wrapper built =>
      exact .receipt _ _ (finds_of_build wrapperJson innerJson rfl built) (Or.inl rfl)
  | presence beacon inner wrapper built =>
      exact .presence _ _ (finds_of_build wrapperJson innerJson rfl built) rfl
  | hello inner wrapper built =>
      obtain ⟨found, parsed, peeked, _⟩ :=
        @finds_of_build P identity _ _ _ _ _ wrapperJson innerJson rfl built
      exact .hello found _ parsed peeked rfl

end Payloads

/-! ## What clients send -/

/-- The id of the message that a job sends for a client. -/
def Job.sends : Job → Option String
  | .request (.send _) draw _ => some draw.id
  | .request (.reply _ _ _) draw _ => some draw.id
  | _ => none

/-- The job that a move starts. -/
def started : Move Input Job → Option Job
  | .spawn job => some job
  | .step _ _ => none

/-- The ids of the messages that clients send in a run. -/
def sentIds (moves : List (Move Input Job)) : List String :=
  moves.filterMap fun choice => (started choice).bind Job.sends

theorem mem_sentIds
    {moves : List (Move Input Job)} {job : Job} {id : String} (spawned : .spawn job ∈ moves)
    (sends : job.sends = some id) : id ∈ sentIds moves :=
  List.mem_filterMap.mpr ⟨.spawn job, spawned, sends⟩

section Made

variable {P : Platform} {identity sender : Identity}

/-- A plain message that is accepted was sent for a client. -/
theorem Makes.sends
    {job : Job} {cfg : Config} {trust : TrustStore} {delivery : Delivery} {inner : Inner}
    (wrapperJson : P.wrapperJson.Lawful) (innerJson : P.innerJson.Lawful)
    (makes : Makes P sender job delivery.payload)
    (accepted : Accepted P identity cfg trust delivery inner) (plain : inner.Plain) :
    job.sends = some inner.id := by
  generalize same : delivery.payload = payload at makes
  cases makes with
  | automatic job draw built wrapper automatic =>
      have unanswered := @Automatic.unanswered P identity _ _ _ _ wrapperJson innerJson automatic
      rw [← same] at unanswered
      exact absurd plain (unanswered.not_plain accepted)
  | sent asked draw nowSeq p grant encryptTo built wrapper isSender built_ =>
      have verified := accepted.verified
      have peeked := (mirrors_of_build innerJson built_).peeked
      rw [verifyDelivery, same] at verified
      obtain ⟨_, _, finalized⟩ := verifyIncoming_course (wrapperJson wrapper) peeked verified
      have carried : inner.id = built.id := by
        rw [(finalize_ok finalized).same]
      rw [carried, build_id built_]
      cases isSender <;> rfl

end Made

/-! ## Daemons around a broker -/

section Network

variable (P : Platform) {ι : Type} [DecidableEq ι] (identity : ι → Identity) (start : ι → World)

/-- The moves that the daemons have made, and the publishes that the broker has taken.  A
daemon moves by itself, the broker takes what is in a session, and delivers whatever it has
taken to any daemon. -/
inductive Network : (ι → List (Move Input Job)) → List Publish → Prop
  | start : Network (fun _ => []) []
  | act (moves : ι → List (Move Input Job)) (broker : List Publish) (i : ι)
      (choice : Move Input Job) (earlier : Network moves broker)
      (own : ∀ delivery, choice ≠ .spawn (.ingest delivery)) :
      Network (Function.update moves i (moves i ++ [choice])) broker
  | publish (moves : ι → List (Move Input Job)) (broker : List Publish) (i : ι)
      (publish : Publish) (earlier : Network moves broker)
      (handed : publish ∈
        (System.run P (identity i) { shared := start i } (moves i)).shared.requests) :
      Network moves (broker ++ [publish])
  | deliver (moves : ι → List (Move Input Job)) (broker : List Publish) (i : ι)
      (publish : Publish) (clock : Clock) (draw : Draw) (earlier : Network moves broker)
      (held : publish ∈ broker) :
      Network (Function.update moves i
        (moves i ++ [.spawn (.ingest ⟨publish.topic, publish.payload, clock, draw⟩)])) broker

/-- A daemon that has neither stored nor queued anything. -/
structure World.Untouched (world : World) : Prop where
  log : world.store.messages.rows = []
  outbox : world.store.pendingOutbound = []
  session : world.requests = []

/-- The payload was built by a thread of one of the daemons. -/
def BuiltIn (moves : ι → List (Move Input Job)) (payload : Bytes) : Prop :=
  ∃ i job, .spawn job ∈ moves i ∧ Makes P (identity i) job payload

variable {P identity start} {moves : ι → List (Move Input Job)} {broker : List Publish}

omit [DecidableEq ι] in
theorem BuiltIn.mono
    {later : ι → List (Move Input Job)} {payload : Bytes} (built : BuiltIn P identity moves payload)
    (longer : ∀ i, moves i ⊆ later i) : BuiltIn P identity later payload := by
  obtain ⟨i, job, spawned, makes⟩ := built
  exact ⟨i, job, longer i spawned, makes⟩

theorem subset_update (moves : ι → List (Move Input Job)) (i : ι) (choice : Move Input Job)
    (j : ι) : moves j ⊆ Function.update moves i (moves i ++ [choice]) j := by
  by_cases same : j = i
  · subst same
    rw [Function.update_self]
    exact List.subset_append_left _ _
  · rw [Function.update_of_ne same]
    exact List.Subset.refl _

theorem mem_update
    {i j : ι} {choice other : Move Input Job}
    (member : other ∈ Function.update moves i (moves i ++ [choice]) j) :
    other ∈ moves j ∨ other = choice := by
  by_cases same : j = i
  · subst same
    rw [Function.update_self] at member
    exact (List.mem_append.mp member).imp_right List.mem_singleton.mp
  · rw [Function.update_of_ne same] at member
    exact Or.inl member

/-- What the broker holds, and what it delivers, was built by one of the daemons. -/
theorem Network.built
    (wrapperJson : P.wrapperJson.Lawful) (innerJson : P.innerJson.Lawful)
    (fresh : ∀ i, (start i).Untouched) (network : Network P identity start moves broker) :
    (∀ publish ∈ broker, BuiltIn P identity moves publish.payload) ∧
      ∀ i delivery, .spawn (.ingest delivery) ∈ moves i →
        BuiltIn P identity moves delivery.payload := by
  induction network with
  | start =>
      exact ⟨fun publish member => absurd member List.not_mem_nil,
        fun i delivery member => absurd member List.not_mem_nil⟩
  | act moves broker i choice earlier own inductionHypothesis =>
      have longer := subset_update moves i choice
      refine ⟨fun publish member => (inductionHypothesis.1 publish member).mono longer, ?_⟩
      intro j delivery member
      rcases mem_update member with old | same
      · exact (inductionHypothesis.2 j delivery old).mono longer
      · exact absurd same.symm (own delivery)
  | publish moves broker i publish earlier handed inductionHypothesis =>
      refine ⟨?_, inductionHypothesis.2⟩
      intro other member
      rcases List.mem_append.mp member with old | new
      · exact inductionHypothesis.1 other old
      · rw [List.mem_singleton.mp new]
        obtain ⟨_, supplied⟩ :=
          @supplied_run P (identity i) (start i) wrapperJson innerJson (moves i)
        cases supplied.requests publish handed with
        | queued entry queued same =>
            rw [(fresh i).outbox] at queued
            exact absurd queued List.not_mem_nil
        | handed before taken same =>
            rw [(fresh i).session] at taken
            exact absurd taken List.not_mem_nil
        | made job spawned makes =>
            exact ⟨i, job, spawned, makes⟩
  | deliver moves broker i publish clock draw earlier held inductionHypothesis =>
      have longer := subset_update moves i
        (.spawn (.ingest ⟨publish.topic, publish.payload, clock, draw⟩))
      refine ⟨fun publish member => (inductionHypothesis.1 publish member).mono longer, ?_⟩
      intro j delivery member
      rcases mem_update member with old | same
      · exact (inductionHypothesis.2 j delivery old).mono longer
      · cases same
        exact (inductionHypothesis.1 publish held).mono longer

/-! ## Inserted rows -/

/-- Every inbound row is that of a message that a client sent. -/
theorem Network.sent
    (wrapperJson : P.wrapperJson.Lawful) (innerJson : P.innerJson.Lawful)
    (fresh : ∀ i, (start i).Untouched) (network : Network P identity start moves broker) {i : ι}
    {row : Int × MsgRow}
    (member : row ∈ (System.run P (identity i) { shared := start i }
      (moves i)).shared.store.messages.rows)
    (inbound : row.2.direction = .inbound) : ∃ j, row.2.id ∈ sentIds (moves j) := by
  obtain ⟨taken, choice, rest, split, absent, present⟩ :=
    exists_adding_move (fresh i).log (moves i) member
  obtain ⟨delivery, atConfig, atTrust, inner, spawned, _, _, accepted, plain, stored⟩ :=
    added_inbound_row present absent inbound
  have delivered : .spawn (.ingest delivery) ∈ moves i := by
    rw [split]
    exact List.mem_append_left _ spawned
  obtain ⟨j, job, started, makes⟩ :=
    (network.built wrapperJson innerJson fresh).2 i delivery delivered
  have sends := makes.sends wrapperJson innerJson accepted plain
  rw [stored]
  exact ⟨j, mem_sentIds started sends⟩

end Network

/-! ## Alice and Bob -/

def pair : Bool → Identity
  | true => Reference.alice
  | false => Reference.bob

end AgentMsg
