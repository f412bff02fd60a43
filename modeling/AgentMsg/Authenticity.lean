import Mathlib.Data.List.Induction
import AgentMsg.Log
import AgentMsg.Readings

/-!
# Authenticity of stored messages

The broker is not trusted: payloads may be forged, altered, replayed and reordered,
and the files may change under the daemon.  A row that enters the log as inbound
still comes from a wrapper whose inner bytes were signed under the key the trust
store has for the row's sender, unless unsigned messages are allowed and the sender
has no usable key.
-/

namespace AgentMsg

/-- The row carries the fields of an inner message that the holder of the key
signed, in the wrapper that was delivered. -/
def SignedOrigin (P : Platform) (signedBy : Bytes → Bytes → Prop) (payload publicKey : Bytes)
    (row : MsgRow) : Prop :=
  ∃ wrapper innerBytes inner,
    P.wrapperJson.decode payload = some wrapper ∧
    unb64 wrapper.msg = some innerBytes ∧
    signedBy publicKey innerBytes ∧
    P.innerJson.decode innerBytes = some inner ∧
    wrapper.claimedSender = some row.sender ∧ inner.sender = row.sender ∧
    row.id = inner.id ∧ row.recipient = inner.recipient ∧ row.ts = inner.ts ∧
    row.inReplyTo = inner.inReplyTo ∧ row.kind = kindStr inner.kind ∧
    row.correlationId = inner.correlationId ∧ row.supersedes = inner.supersedes ∧
    (inner.enc = none → row.body = inner.body ∧ row.ctype = inner.ctype)

section Verification

variable {P : Platform} {signedBy : Bytes → Bytes → Prop}
  {identity : Identity} {cfg : Config} {trust : TrustStore} {delivery : Delivery}
  {out : Inner} {publicKey : Bytes}

private theorem signedOrigin_of_signed
    (unforgeable : ∀ publicKey message sig,
      cryptoVerify P publicKey message sig = true → signedBy publicKey message)
    {wrapper : Wrapper} {innerBytes : Bytes} {inner : Inner} {clock : Clock}
    {freshness : Int} {topic : String}
    (parsed : P.wrapperJson.decode delivery.payload = some wrapper)
    (signed : SignedBy P trust wrapper innerBytes inner publicKey)
    (finalized : Finalized P trust clock freshness inner out) :
    SignedOrigin P signedBy delivery.payload publicKey (Store.inboundRow out topic) := by
  obtain ⟨sig, verified⟩ := signed.verified
  have same := finalized.same
  refine ⟨wrapper, innerBytes, inner, parsed, signed.decoded,
    unforgeable _ _ _ verified, signed.parsed, ?_, ?_⟩
  · rw [same]
    exact signed.kid
  · rw [same]
    refine ⟨rfl, rfl, rfl, rfl, rfl, rfl, rfl, rfl, fun clear => ?_⟩
    have opened := finalized.clear clear
    exact ⟨congrArg Inner.body opened, congrArg Inner.ctype opened⟩

/-- The row of an accepted message of a sender with a usable key is signed under
that key. -/
theorem signedOrigin_of_accepted
    (unforgeable : ∀ publicKey message sig,
      cryptoVerify P publicKey message sig = true → signedBy publicKey message)
    (accepted : Accepted P identity cfg trust delivery out)
    (trusted : trust.publicKey out.sender = .ok publicKey) :
    SignedOrigin P signedBy delivery.payload publicKey
      (Store.inboundRow out delivery.topic) := by
  obtain ⟨wrapper, inner, parsed, finalized, path⟩ := verifyIncoming_ok accepted.verified
  have sender : out.sender = inner.sender := by
    rw [finalized.same]
  rcases path with ⟨innerBytes, used, signed⟩ | ⟨_, _, _, unknown⟩
  · have usedTrusted := signed.trusted
    rw [← sender, trusted] at usedTrusted
    cases usedTrusted
    exact signedOrigin_of_signed unforgeable parsed signed finalized
  · rw [← sender, trusted] at unknown
    exact nomatch unknown

/-- Without unsigned messages, every accepted message has a sender with a usable
key. -/
theorem trusted_of_accepted
    (accepted : Accepted P identity cfg trust delivery out)
    (signedOnly : cfg.allowUnsigned = false) :
    ∃ publicKey, trust.publicKey out.sender = .ok publicKey := by
  obtain ⟨wrapper, inner, _, finalized, path⟩ := verifyIncoming_ok accepted.verified
  have sender : out.sender = inner.sender := by
    rw [finalized.same]
  rcases path with ⟨innerBytes, used, signed⟩ | ⟨_, allowed, _, _⟩
  · exact ⟨used, sender ▸ signed.trusted⟩
  · rw [signedOnly] at allowed
    exact nomatch allowed

end Verification

/-! ## Runs -/

section Runs

variable {P : Platform} {identity : Identity} {start : World}

/-- The states of the system before a move. -/
abbrev SeenBy (P : Platform) (identity : Identity) (start : World)
    (taken : List (Move Input Job)) : World → Prop :=
  Pool.Visits (Job.thread P identity) { shared := start } taken

theorem ReadsFiles.seen
    {taken : List (Move Input Job)} {index : Nat} {delivery : Delivery} {atConfig atTrust : World}
    (read : ReadsFiles P identity start taken index delivery atConfig atTrust) :
    SeenBy P identity start taken atConfig ∧ SeenBy P identity start taken atTrust := by
  obtain ⟨earlier, input, within, ⟨before, first, between, split, _, _, configured⟩, trusted⟩ :=
    read
  have shorter : earlier <+: taken := (List.prefix_append _ _).trans within
  refine ⟨⟨before, List.IsPrefix.trans ?_ shorter, configured⟩, ⟨earlier, shorter, trusted⟩⟩
  rw [split]
  exact List.prefix_append _ _

/-- The thread at a position was spawned for its job. -/
theorem spawned_of_label
    {taken : List (Move Input Job)} {index : Nat} {job : Job}
    (labelled : (System.run P identity { shared := start } taken).labels[index]? = some job) :
    .spawn job ∈ taken := by
  obtain ⟨thread, member, rfl⟩ := List.mem_map.mp (List.mem_of_getElem? labelled)
  exact (Pool.label_of_run member).resolve_left (by simp)

/-- An inbound row that a move adds is that of a message which the ingest that moves has
accepted under the files it has read. -/
theorem added_by_ingest
    {taken : List (Move Input Job)} {choice : Move Input Job} {row : Int × MsgRow}
    (member : row ∈
      (System.run P identity { shared := start } (taken ++ [choice])).shared.store.messages.rows)
    (absent : row ∉
      (System.run P identity { shared := start } taken).shared.store.messages.rows)
    (inbound : row.2.direction = .inbound) :
    ∃ index input delivery atConfig atTrust inner, choice = .step index input ∧
      (System.run P identity { shared := start } taken).labels[index]? =
        some (.ingest delivery) ∧
      ReadsFiles P identity start taken index delivery atConfig atTrust ∧
      Accepted P identity (atConfig.config P) (atTrust.trust P) delivery inner ∧
      inner.Plain ∧ row.2 = Store.inboundRow inner delivery.topic := by
  rcases run_store taken choice with
    same | ⟨operation, index, input, job, rfl, labelled, changed, permitted⟩
  · rw [System.after, System.after] at same
    rw [same] at member
    exact absurd member absent
  · rw [System.after, System.after] at changed
    rw [changed] at member
    rcases (Store.apply_log _ operation).inbound_mem member inbound with
      old | ⟨inner, topic, rfl, _, new⟩
    · exact absurd old absent
    · rcases permitted with outbound | ⟨delivery, rfl, rejects | ⟨atConfig, atTrust, read, settled⟩⟩
      · cases outbound
      · cases rejects
      · cases settled with
        | accepted inner operation accepted permitted =>
            cases permitted with
            | insert plain =>
                exact ⟨index, input, delivery, atConfig, atTrust, inner, rfl, labelled, read,
                  accepted, plain, congrArg Prod.snd new⟩

/-- An inbound row that a move adds is that of a message accepted by an ingest
spawned before. -/
theorem added_inbound_row
    {taken : List (Move Input Job)} {choice : Move Input Job} {row : Int × MsgRow}
    (member : row ∈
      (System.run P identity { shared := start } (taken ++ [choice])).shared.store.messages.rows)
    (absent : row ∉
      (System.run P identity { shared := start } taken).shared.store.messages.rows)
    (inbound : row.2.direction = .inbound) :
    ∃ delivery atConfig atTrust inner, .spawn (.ingest delivery) ∈ taken ∧
      SeenBy P identity start taken atConfig ∧ SeenBy P identity start taken atTrust ∧
      Accepted P identity (atConfig.config P) (atTrust.trust P) delivery inner ∧
      inner.Plain ∧ row.2 = Store.inboundRow inner delivery.topic := by
  obtain ⟨_, _, delivery, atConfig, atTrust, inner, _, labelled, read, accepted, plain, stored⟩ :=
    added_by_ingest member absent inbound
  exact ⟨delivery, atConfig, atTrust, inner, spawned_of_label labelled, read.seen.1, read.seen.2,
    accepted, plain, stored⟩

/-- In a run from an empty log, every row was added by some move. -/
theorem exists_adding_move
    (empty : start.store.messages.rows = []) (moves : List (Move Input Job))
    {row : Int × MsgRow}
    (member : row ∈
      (System.run P identity { shared := start } moves).shared.store.messages.rows) :
    ∃ taken choice rest, moves = taken ++ choice :: rest ∧
      row ∉ (System.run P identity { shared := start } taken).shared.store.messages.rows ∧
      row ∈ (System.run P identity { shared := start }
        (taken ++ [choice])).shared.store.messages.rows := by
  induction moves using List.reverseRecOn with
  | nil =>
      rw [System.run, Pool.run_nil, empty] at member
      exact absurd member List.not_mem_nil
  | append_singleton initial choice inductionHypothesis =>
      by_cases earlier : row ∈
          (System.run P identity { shared := start } initial).shared.store.messages.rows
      · obtain ⟨taken, earlierChoice, rest, rfl, absent, present⟩ :=
          inductionHypothesis earlier
        exact ⟨taken, earlierChoice, rest ++ [choice], by simp, absent, present⟩
      · exact ⟨initial, choice, [], rfl, earlier, member⟩

end Runs

/-- Every inbound row of every run was added by a step of an ingest whose payload its sender
signed, when the trust store that this ingest read had a usable key for the sender; and it had
one, unless the configuration that this ingest read allowed unsigned messages. -/
theorem inbound_rows_are_signed
    (P : Platform) (identity : Identity) (signedBy : Bytes → Bytes → Prop)
    (unforgeable : ∀ publicKey message sig,
      cryptoVerify P publicKey message sig = true → signedBy publicKey message)
    (start : World) (empty : start.store.messages.rows = [])
    (moves : List (Move Input Job)) (row : Int × MsgRow)
    (member : row ∈
      (System.run P identity { shared := start } moves).shared.store.messages.rows)
    (inbound : row.2.direction = .inbound) :
    ∃ taken index input rest delivery atConfig atTrust,
      moves = taken ++ .step index input :: rest ∧
      row ∉ (System.run P identity { shared := start } taken).shared.store.messages.rows ∧
      row ∈ (System.run P identity { shared := start }
        (taken ++ [.step index input])).shared.store.messages.rows ∧
      (System.run P identity { shared := start } taken).labels[index]? =
        some (.ingest delivery) ∧
      ReadsFiles P identity start taken index delivery atConfig atTrust ∧
      (∀ publicKey, (atTrust.trust P).publicKey row.2.sender = .ok publicKey →
        SignedOrigin P signedBy delivery.payload publicKey row.2) ∧
      ((atConfig.config P).allowUnsigned = false →
        ∃ publicKey, (atTrust.trust P).publicKey row.2.sender = .ok publicKey) := by
  obtain ⟨taken, choice, rest, split, absent, present⟩ := exists_adding_move empty moves member
  obtain ⟨index, input, delivery, atConfig, atTrust, inner, rfl, labelled, read, accepted, _,
    stored⟩ := added_by_ingest present absent inbound
  refine ⟨taken, index, input, rest, delivery, atConfig, atTrust, split, absent, present,
    labelled, read, ?_, ?_⟩
  · intro publicKey trusted
    rw [stored] at trusted ⊢
    exact signedOrigin_of_accepted unforgeable accepted trusted
  · intro signedOnly
    rw [stored]
    exact trusted_of_accepted accepted signedOnly

/-! ## A run that stores a signed message -/

/-- The bench of one message from a trusted sender. -/
def helloBench : Bench :=
  { inners := [Bench.textTo "me" "m1" "alice" "t0" "hello"], instants := [("t0", 0)]
    trust := Bench.trusting ["alice"] }

theorem hello_accepted :
    Accepted helloBench.platform Bench.me (Bench.world.config helloBench.platform)
      (Bench.world.trust helloBench.platform) (Bench.delivery 0 0 "r1")
      (Bench.textTo "me" "m1" "alice" "t0" "hello") :=
  Bench.accepted rfl rfl (by decide) (by decide) (Bench.trusting_publicKey List.mem_cons_self)
    (by decide) (by decide) (by decide) rfl nofun

theorem hello_stored :
    (1, Store.inboundRow (Bench.textTo "me" "m1" "alice" "t0" "hello") "chat") ∈
      (System.run helloBench.platform Bench.me { shared := Bench.world }
        (Job.alone helloBench.platform Bench.me (.ingest (Bench.delivery 0 0 "r1"))
          (fun _ => {}) Bench.world)).shared.store.messages.rows := by
  rw [Job.run_alone, Job.thread, exec_ignore, hello_accepted.exec_eq]
  decide

theorem inbound_rows_are_signed_hello :
    ∃ payload publicKey,
      SignedOrigin helloBench.platform
        (fun publicKey message =>
          ∃ name, helloBench.signer message = some name ∧ publicKey = Bench.key name)
        payload publicKey
        (Store.inboundRow (Bench.textTo "me" "m1" "alice" "t0" "hello") "chat") := by
  obtain ⟨_, _, _, _, delivery, atConfig, atTrust, _, _, _, _, _, signed, trusted⟩ :=
    inbound_rows_are_signed helloBench.platform Bench.me _
      (fun _ _ _ verified => Bench.signed_of_verify verified) Bench.world rfl _ _
      hello_stored rfl
  have signedOnly : (atConfig.config helloBench.platform).allowUnsigned = false := by
    unfold World.config Config.load loadDocument
    split <;> rfl
  obtain ⟨publicKey, known⟩ := trusted signedOnly
  exact ⟨delivery.payload, publicKey, signed publicKey known⟩

end AgentMsg
