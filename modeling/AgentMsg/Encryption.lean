import AgentMsg.Authenticity
import AgentMsg.ReadReceipts
import AgentMsg.SendLimits

/-!
# Encryption that is required

The configuration can require that payloads are encrypted, and nothing reads the setting
but the status report.  Whether a run keeps to it is up to the clients and the peers: no
row and no outgoing payload is in the clear as long as nobody sends in the clear.
-/

namespace AgentMsg

open Checked

/-! ## Sealed payloads -/

/-- The entry carries a message with an encrypted body. -/
def Sealed (P : Platform) (identity : Identity) (entry : Outbound) : Prop :=
  ∃ unsigned inner,
    entry.payload = P.wrapperJson.encode (wrapped P identity unsigned (P.innerJson.encode inner)) ∧
      inner.enc.isSome = true

/-- The operations of a send that encrypts. -/
inductive SealedOp (P : Platform) (identity : Identity) : Store.Op → Prop
  | log (inner : Inner) (topic : String) : SealedOp P identity (.insertOutboundLog inner topic)
  | queue (entry : Outbound) (carries : Sealed P identity entry) :
      SealedOp P identity (.enqueueOutbound entry)
  | sent (id now : String) : SealedOp P identity (.markSent id now)
  | handedOff (id now : String) : SealedOp P identity (.markDelivered id now)

/-- A thread that sends for a client. -/
inductive Job.Sender : Job → Prop
  | send (p : SendParams) (draw : Draw) (nowSeq : Int) : Job.Sender (.request (.send p) draw nowSeq)
  | reply (msgId ctype body : String) (draw : Draw) (nowSeq : Int) :
      Job.Sender (.request (.reply msgId ctype body) draw nowSeq)

/-- What a thread asks to send: for a reply, to the sender of a message that was stored in
a state that was seen. -/
inductive Job.Asks (seen : World → Prop) : Job → SendParams → Draw → Prop
  | send (p : SendParams) (draw : Draw) (nowSeq : Int) :
      Job.Asks seen (.request (.send p) draw nowSeq) p draw
  | reply (msgId ctype body : String) (draw : Draw) (nowSeq : Int) (atStore : World)
      (original : StoredMsg) (stateSeen : seen atStore)
      (found : atStore.store.getMessage msgId = some original) :
      Job.Asks seen (.request (.reply msgId ctype body) draw nowSeq)
        { recipient := original.sender, ctype, body, inReplyTo := some msgId } draw

/-- In the run, whatever passes the checks of a send asks for encryption, and whatever
message passes verification is encrypted. -/
structure Encrypting (P : Platform) (identity : Identity) (start : World)
    (moves : List (Move Input Job)) : Prop where
  sends : ∀ job p draw atConfig atTrust inner wrapper, .spawn job ∈ moves →
    job.Asks (SeenBy P identity start moves) p draw →
    SeenBy P identity start moves atConfig → SeenBy P identity start moves atTrust →
    Sends P identity (atConfig.config P) (atTrust.trust P) p draw inner wrapper →
    p.encrypt = true
  accepts : ∀ delivery atConfig atTrust inner, .spawn (.ingest delivery) ∈ moves →
    SeenBy P identity start moves atConfig → SeenBy P identity start moves atTrust →
    Accepted P identity (atConfig.config P) (atTrust.trust P) delivery inner → inner.Plain →
    inner.enc.isSome = true

section Steps

variable {P : Platform} {identity : Identity}

/-! ## What a send enqueues -/

theorem Sends.sealed
    {cfg : Config} {trust : TrustStore} {p : SendParams} {draw : Draw} {inner : Inner}
    {wrapper : Wrapper} (sends : Sends P identity cfg trust p draw inner wrapper)
    (encrypt : p.encrypt = true) (topic : String) :
    Sealed P identity (outboxEntry P topic inner wrapper) := by
  obtain ⟨grant, encryptTo, _, encrypts, built⟩ := sends.built
  rw [SendParams.EncryptsTo, if_pos encrypt] at encrypts
  obtain ⟨shape, content⟩ := build_ok built
  refine ⟨_, inner, congrArg P.wrapperJson.encode shape, ?_⟩
  rcases content with ⟨clear, _⟩ | ⟨_, _, _, _, _, _, sealed⟩
  · have absent : encryptTo = none := clear
    rw [absent] at encrypts
    cases encrypts.1
  · rw [sealed]
    rfl

theorem Store.mem_pendingOutbound_apply
    {store : Store} {operation : Store.Op} (permitted : SealedOp P identity operation)
    {entry : Outbound} (member : entry ∈ (store.apply operation).pendingOutbound) :
    entry ∈ store.pendingOutbound ∨ Sealed P identity entry := by
  cases permitted with
  | log inner topic =>
      exact Or.inl member
  | queue queued carries =>
      rw [Store.apply, pendingOutbound_enqueue] at member
      rcases List.mem_append.mp member with old | new
      · exact Or.inl old
      · split at new
        · rw [List.mem_singleton.mp new]
          exact Or.inr carries
        · exact absurd new List.not_mem_nil
  | sent id now =>
      exact Or.inl member
  | handedOff id now =>
      obtain ⟨row, remaining, rfl⟩ := List.mem_map.mp member
      have kept := (RowTable.mem_deleteWhere.mp remaining).1
      exact Or.inl (List.mem_map_of_mem kept)

/-! ## Threads that send -/

section Threads

variable {assumed : World → Prop} {p : SendParams} {draw : Draw}

/-- A thread that encrypts what it enqueues. -/
abbrev Seals {α : Type} (P : Platform) (identity : Identity) (assumed : World → Prop)
    (thread : Thread α) : Prop :=
  Prog.Within assumed (StoreChange (SealedOp P identity)) (fun _ => True) thread

private theorem seals_markDelivered (id : String) :
    Seals P identity assumed (Calls.markDelivered id) := by
  refine within_storeCall (fun now => .handedOff id now) ?_
  intro now writes left remaining
  simp only [Store.Op.upTo] at remaining
  split at remaining
  · cases remaining
  · simp only [Option.some.injEq] at remaining
    subst remaining
    exact .sent id now

private theorem seals_sendBuilt
    {topic : String} {inner : Inner} {wrapper : Wrapper}
    (carries : Sealed P identity (outboxEntry P topic inner wrapper)) :
    Seals P identity assumed (sendBuilt P topic inner wrapper) := by
  refine Prog.Within.andThen
    (within_storeCall (fun _ => .log inner topic) (by simp [Store.Op.upTo])) fun _ => ?_
  refine Prog.Within.andThen
    (within_storeCall (fun _ => .queue _ carries) (by simp [Store.Op.upTo])) fun queued => ?_
  split
  · exact .done
  · exact (quiet_publishNow (seals_markDelivered _) _ _).andThen fun _ => .done

/-- The key that a send resolves comes from the trust store of a state that was seen. -/
private theorem within_resolveKemKey (visited : ∃ state, assumed state) :
    Prog.Within assumed (StoreChange (SealedOp P identity))
      (fun resolved => ∀ encryptTo, resolved = .ok encryptTo →
        ∃ atTrust, assumed atTrust ∧ p.EncryptsTo (atTrust.trust P) encryptTo)
      (resolveKemKey P p) := by
  unfold resolveKemKey
  by_cases encrypt : p.encrypt = true
  · rw [if_pos encrypt]
    refine Prog.Within.bind within_observe fun trust loaded => ?_
    obtain ⟨atTrust, trustSeen, rfl⟩ := loaded
    split
    · rename_i ek keyed
      refine .pure fun encryptTo resolved => ⟨atTrust, trustSeen, ?_⟩
      cases resolved
      rw [SendParams.EncryptsTo, if_pos encrypt]
      exact ⟨rfl, keyed.symm⟩
    · refine .pure fun encryptTo resolved => ?_
      cases resolved
  · rw [if_neg encrypt]
    obtain ⟨state, stateSeen⟩ := visited
    refine .pure fun encryptTo resolved => ⟨state, stateSeen, ?_⟩
    cases resolved
    rw [SendParams.EncryptsTo, if_neg encrypt]

/-- A send that encrypts whatever passes its checks. -/
theorem seals_send
    (asks : ∀ atConfig atTrust inner wrapper, assumed atConfig → assumed atTrust →
      Sends P identity (atConfig.config P) (atTrust.trust P) p draw inner wrapper →
      p.encrypt = true) :
    Seals P identity assumed (send P identity p draw) := by
  refine Prog.Within.bind within_observe fun cfg configured => ?_
  obtain ⟨atConfig, configSeen, rfl⟩ := configured
  cases chosen : chooseTopic (atConfig.config P) p.topic with
  | error message =>
      exact .done
  | ok topic =>
      by_cases large : p.body.utf8ByteSize > (atConfig.config P).maxPayload
      · dsimp only
        rw [if_pos large]
        exact .done
      · dsimp only
        rw [if_neg large]
        cases granted : resolveGrant P p.grant with
        | error reason =>
            exact .done
        | ok grant =>
            refine Prog.Within.bind (within_resolveKemKey ⟨atConfig, configSeen⟩)
              fun resolved keyed => ?_
            split
            · exact .done
            · rename_i encryptTo
              obtain ⟨atTrust, trustSeen, encrypts⟩ := keyed encryptTo rfl
              cases built : build P identity draw (sendOpts p grant encryptTo) with
              | error reason =>
                  exact .done
              | ok found =>
                  have sends : Sends P identity (atConfig.config P) (atTrust.trust P) p draw
                      found.1 found.2 :=
                    ⟨⟨topic, chosen⟩, Nat.le_of_not_gt large, grant, encryptTo, granted, encrypts,
                      built⟩
                  have encrypt := asks atConfig atTrust found.1 found.2 configSeen trustSeen sends
                  exact seals_sendBuilt (sends.sealed encrypt topic)

/-- What a query answers was in the store of a state that was seen. -/
private theorem within_queried {α : Type} {permitted : Store.Op → Prop} {view : Store → α} :
    Prog.Within assumed (StoreChange permitted)
      (fun found => ∀ value, found = .ok value →
        ∃ state, assumed state ∧ view state.store = value)
      (storeQuery view) := by
  refine .call (fun _ _ _ => Or.inl rfl) fun input state stateSeen value answered => ?_
  dsimp only at answered
  split at answered
  · cases answered
    exact ⟨state, stateSeen, rfl⟩
  · cases answered

/-- A job that sends for a client encrypts, if what it asks for does. -/
theorem seals_sender
    {job : Job} (sender : job.Sender)
    (asks : ∀ p draw atConfig atTrust inner wrapper, job.Asks assumed p draw →
      assumed atConfig → assumed atTrust →
      Sends P identity (atConfig.config P) (atTrust.trust P) p draw inner wrapper →
      p.encrypt = true) :
    Seals P identity assumed (job.thread P identity) := by
  cases sender with
  | send p draw nowSeq =>
      exact within_ignore (seals_send fun atConfig atTrust inner wrapper =>
        asks p draw atConfig atTrust inner wrapper (.send p draw nowSeq))
  | reply msgId ctype body draw nowSeq =>
      refine within_ignore (Prog.Within.bind within_queried fun answer queried => ?_)
      split
      · exact .done
      · exact .done
      · rename_i original
        obtain ⟨atStore, stateSeen, found⟩ := queried (some original) rfl
        exact seals_send fun atConfig atTrust inner wrapper =>
          asks _ draw atConfig atTrust inner wrapper
            (.reply msgId ctype body draw nowSeq atStore original stateSeen found)

end Threads

/-! ## Runs -/

variable (P identity) in
/-- A step of a thread that sends for a client encrypts what it enqueues. -/
def SenderChange (job : Job) (before after : World) : Prop :=
  job.Sender → StoreChange (SealedOp P identity) before after

variable {start : World} {moves : List (Move Input Job)}

/-- A row that an ingest inserts is that of an encrypted message. -/
theorem Encrypting.inserted
    (encrypting : Encrypting P identity start moves) {taken rest : List (Move Input Job)}
    {choice : Move Input Job} (split : moves = taken ++ choice :: rest) {row : Int × MsgRow}
    (member : row ∈
      (System.run P identity { shared := start } (taken ++ [choice])).shared.store.messages.rows)
    (absent : row ∉
      (System.run P identity { shared := start } taken).shared.store.messages.rows)
    (inbound : row.2.direction = .inbound) : row.2.encrypted = true := by
  have earlier (state : World) (seen : SeenBy P identity start taken state) :
      SeenBy P identity start moves state := by
    obtain ⟨initial, isPrefix, reached⟩ := seen
    exact ⟨initial, isPrefix.trans (split ▸ List.prefix_append _ _), reached⟩
  obtain ⟨delivery, atConfig, atTrust, inner, spawned, configSeen, trustSeen, accepted, plain,
    stored⟩ := added_inbound_row member absent inbound
  rw [stored]
  exact encrypting.accepts delivery atConfig atTrust inner
    (split ▸ List.mem_append_left _ spawned) (earlier _ configSeen) (earlier _ trustSeen)
    accepted plain

/-- An entry that a sending thread puts into the outbox carries an encrypted message. -/
theorem Encrypting.enqueued
    (encrypting : Encrypting P identity start moves) {taken rest : List (Move Input Job)}
    {index : Nat} {input : Input} (split : moves = taken ++ .step index input :: rest)
    {job : Job} {thread : Thread Unit} (sender : job.Sender)
    (found : (System.run P identity { shared := start } taken).threads[index]? =
      some (job, thread))
    {entry : Outbound}
    (member : entry ∈ (System.run P identity { shared := start }
      (taken ++ [.step index input])).shared.store.pendingOutbound)
    (absent : entry ∉
      (System.run P identity { shared := start } taken).shared.store.pendingOutbound) :
    Sealed P identity entry := by
  have visits (initial : List (Move Input Job)) (isPrefix : initial <+: taken) :
      SeenBy P identity start moves
        (System.run P identity { shared := start } initial).shared :=
    ⟨initial, isPrefix.trans (split ▸ List.prefix_append _ _), rfl⟩
  have confined : Pool.Confined (SeenBy P identity start moves) (SenderChange P identity)
      (System.run P identity { shared := start } taken) := by
    refine Pool.Confined.run (fun _ member => absurd member List.not_mem_nil) visits
      fun job spawned => ?_
    by_cases isSender : job.Sender
    · refine (seals_sender isSender fun p draw atConfig atTrust inner wrapper => ?_).weaken
        (fun _ _ _ changes _ => changes) fun _ _ => trivial
      exact encrypting.sends job p draw atConfig atTrust inner wrapper
        (split ▸ List.mem_append_left _ spawned)
    · exact (confined_thread job).weaken (fun _ _ _ _ sends => absurd sends isSender)
        fun _ _ => trivial
  have final : System.run P identity { shared := start } (taken ++ [.step index input]) =
      Pool.move (Job.thread P identity) (System.run P identity { shared := start } taken)
        (.step index input) :=
    Pool.run_append
  rw [final] at member
  rcases confined.step_change (visits taken List.prefix_rfl) found input with same | changed
  · rw [same] at member
    exact absurd member absent
  · rcases changed sender with same | ⟨operation, permitted, applied⟩
    · rw [same] at member
      exact absurd member absent
    · rw [applied] at member
      exact (Store.mem_pendingOutbound_apply permitted member).resolve_left absent

end Steps

end AgentMsg
