import AgentMsg.Requests
import AgentMsg.RoundTrip

/-!
# The size limit on both sides

The sender compares the body of a request with the limit, the receiver the body that
was transmitted.  For an encrypted message these are different texts: the transmitted
body is the ciphertext in base64, which is longer.
-/

namespace AgentMsg

open Checked

/-! ## Requests that are accepted -/

/-- The encapsulation key a request is encrypted to. -/
def SendParams.EncryptsTo (p : SendParams) (trust : TrustStore) (encryptTo : Option Bytes) :
    Prop :=
  if p.encrypt then encryptTo.isSome ∧ encryptTo = trust.kemPublicKey p.recipient
  else encryptTo = none

/-- A Send request that the daemon accepts under a configuration and a trust store, and
the message it builds. -/
structure Sends (P : Platform) (identity : Identity) (cfg : Config) (trust : TrustStore)
    (p : SendParams) (draw : Draw) (inner : Inner) (wrapper : Wrapper) : Prop where
  topic : ∃ topic, chooseTopic cfg p.topic = .ok topic
  small : p.body.utf8ByteSize ≤ cfg.maxPayload
  built : ∃ grant encryptTo, resolveGrant P p.grant = .ok grant ∧
    p.EncryptsTo trust encryptTo ∧
    build P identity draw (sendOpts p grant encryptTo) = .ok (inner, wrapper)

/-- How many actions the checks of a request take. -/
def SendParams.checks (p : SendParams) : Nat :=
  if p.encrypt then 2 else 1

/-- A request that passes the checks comes to the message built for it. -/
theorem advance_send_of_sends
    {P : Platform} {identity : Identity} {p : SendParams} {draw : Draw} {world : World}
    {inner : Inner} {wrapper : Wrapper}
    (sends : Sends P identity (world.config P) (world.trust P) p draw inner wrapper)
    (inputs : Nat → Input) :
    ∃ topic, (send P identity p draw).advance p.checks inputs world =
      (sendBuilt P topic inner wrapper, world) := by
  have observed : loadConfig P = Prog.observe (World.config P) := rfl
  have trusted : loadTrustOrDefault P = Prog.observe (World.trust P) := rfl
  obtain ⟨topic, chosen⟩ := sends.topic
  obtain ⟨grant, encryptTo, granted, encrypts, built⟩ := sends.built
  refine ⟨topic, ?_⟩
  unfold SendParams.checks
  by_cases encrypt : p.encrypt = true
  · rw [SendParams.EncryptsTo, if_pos encrypt] at encrypts
    obtain ⟨present, keyed⟩ := encrypts
    obtain ⟨ek, rfl⟩ := Option.isSome_iff_exists.mp present
    simp only [send, observed, if_pos encrypt, Prog.advance_observe_bind, chosen,
      if_neg (Nat.not_lt.mpr sends.small), granted, resolveKemKey, trusted,
      Prog.advance_observe_bind_bind, ← keyed, Prog.advance_pure_bind, built]
    rfl
  · rw [SendParams.EncryptsTo, if_neg encrypt] at encrypts
    subst encrypts
    simp only [send, observed, if_neg encrypt, Prog.advance_observe_bind, chosen,
      if_neg (Nat.not_lt.mpr sends.small), granted, resolveKemKey, Prog.advance_pure_bind, built]
    rfl

/-- A request that passes the checks is logged, queued and published. -/
theorem exec_send_of_sends
    {P : Platform} {identity : Identity} {p : SendParams} {draw : Draw} {inputs : Nat → Input}
    {world : World} {inner : Inner} {wrapper : Wrapper}
    (sends : Sends P identity (world.config P) (world.trust P) p draw inner wrapper) :
    ∃ topic count, (send P identity p draw).exec inputs world =
      (sendBuilt P topic inner wrapper).exec (fun index => inputs (index + count)) world := by
  obtain ⟨topic, advances⟩ := advance_send_of_sends sends inputs
  exact ⟨topic, p.checks, Prog.exec_of_advance advances⟩

/-- A request is refused, which changes nothing, or it passes the checks. -/
theorem send_cases
    (P : Platform) (identity : Identity) (p : SendParams) (draw : Draw) (inputs : Nat → Input)
    (world : World) :
    (∃ message, (send P identity p draw).exec inputs world = (world, .error message)) ∨
      ∃ inner wrapper,
        Sends P identity (world.config P) (world.trust P) p draw inner wrapper := by
  have observed : loadConfig P = Prog.observe (World.config P) := rfl
  have trusted : loadTrustOrDefault P = Prog.observe (World.trust P) := rfl
  simp only [send, observed, Prog.exec_observe_bind]
  cases chosen : chooseTopic (world.config P) p.topic with
  | error message =>
      exact Or.inl ⟨message, rfl⟩
  | ok topic =>
      by_cases large : p.body.utf8ByteSize > (world.config P).maxPayload
      · simp only [if_pos large]
        exact Or.inl ⟨_, rfl⟩
      · simp only [if_neg large]
        cases granted : resolveGrant P p.grant with
        | error reason =>
            exact Or.inl ⟨reason.text, rfl⟩
        | ok grant =>
            have sends {encryptTo : Option Bytes} {found : Inner × Wrapper}
                (encrypts : p.EncryptsTo (world.trust P) encryptTo)
                (built : build P identity draw (sendOpts p grant encryptTo) = .ok found) :
                ∃ inner wrapper,
                  Sends P identity (world.config P) (world.trust P) p draw inner wrapper :=
              ⟨found.1, found.2, ⟨topic, chosen⟩, Nat.le_of_not_gt large, grant, encryptTo, granted,
                encrypts, built⟩
            simp only [resolveKemKey]
            by_cases encrypt : p.encrypt = true
            · simp only [if_pos encrypt, trusted, Prog.exec_observe_bind_bind]
              cases keyed : (world.trust P).kemPublicKey p.recipient with
              | none =>
                  exact Or.inl ⟨_, rfl⟩
              | some ek =>
                  simp only [Prog.exec_pure_bind]
                  cases built : build P identity draw (sendOpts p grant (some ek)) with
                  | error reason =>
                      exact Or.inl ⟨reason.text, rfl⟩
                  | ok found =>
                      refine Or.inr (sends ?_ built)
                      rw [SendParams.EncryptsTo, if_pos encrypt]
                      exact ⟨rfl, keyed.symm⟩
            · simp only [if_neg encrypt, Prog.exec_pure_bind]
              cases built : build P identity draw (sendOpts p grant none) with
              | error reason =>
                  exact Or.inl ⟨reason.text, rfl⟩
              | ok found =>
                  refine Or.inr (sends ?_ built)
                  rw [SendParams.EncryptsTo, if_neg encrypt]

/-- Without a session the message is only logged and queued. -/
theorem exec_sendBuilt_offline
    {P : Platform} {topic : String} {inner : Inner} {wrapper : Wrapper} {world : World}
    (offline : world.mqtt = none) :
    ((sendBuilt P topic inner wrapper).exec (fun _ => {}) world).1 =
      { world with
        store := (world.store.insertOutboundLog inner topic).enqueueOutbound
          (outboxEntry P topic inner wrapper) } := by
  cases world
  subst offline
  rfl

/-- Without a session the request adds one row, unless its id is taken, and keeps the
files. -/
theorem exec_send_offline
    {P : Platform} {identity : Identity} {p : SendParams} {draw : Draw} {world final : World}
    {inner : Inner} {wrapper : Wrapper}
    (sends : Sends P identity (world.config P) (world.trust P) p draw inner wrapper)
    (offline : world.mqtt = none) (fresh : world.store.messages.holds inner.id = false)
    (result : final = ((send P identity p draw).exec (fun _ => {}) world).1) :
    final.mqtt = none ∧ final.configFile = world.configFile ∧
      final.trustFile = world.trustFile ∧
      ∃ topic, final.store.messages.rows = world.store.messages.rows ++
        [(world.store.messages.last + 1, Store.outboundRow inner topic)] := by
  obtain ⟨topic, shift, executed⟩ := @exec_send_of_sends _ _ _ _ (fun _ => {}) _ _ _ sends
  rw [executed, exec_sendBuilt_offline offline] at result
  subst result
  have free : world.store.messages.holds (Store.outboundRow inner topic).id = false := fresh
  exact ⟨offline, rfl, rfl, topic, (RowTable.insertOrIgnore_fresh free).1⟩

/-! ## Where a size error comes from -/

/-- Not the error of a body that is too large. -/
def NotSize (info : RejectInfo) : Prop :=
  info.reason ≠ .tooLarge

section Errors

variable {P : Platform} {wrapper : Wrapper} {trust : TrustStore}

theorem fails_innerBytes : Fails (· ≠ .tooLarge) wrapper.innerBytes :=
  .okOr nofun

theorem fails_parseInner (bytes : Bytes) : Fails (· ≠ .tooLarge) (Wrapper.parseInner P bytes) :=
  .okOr nofun

theorem fails_sigBytes : Fails (· ≠ .tooLarge) wrapper.sigBytes :=
  .bind (.okOr nofun) fun _ _ => .okOr nofun

theorem fails_versionGate (acceptV1 : Bool) : Fails NotSize (versionGate wrapper acceptV1) := by
  unfold versionGate
  split
  all_goals
    apply Fails.ensure
    rintro _ ⟨⟩

theorem fails_unsignedPath (allowUnsigned : Bool) :
    Fails NotSize (unsignedPath P wrapper trust allowUnsigned) := by
  refine .bind (.ensure fun _ => nofun) fun _ _ => ?_
  refine .bind (.mapErr fails_innerBytes fun _ other => other) fun innerBytes _ => ?_
  refine .bind (.mapErr (fails_parseInner innerBytes) fun _ other => other) fun _ _ => ?_
  exact .bind (.ensure fun _ => nofun) fun _ _ => .pure

theorem fails_signedPath : Fails NotSize (signedPath P wrapper trust) := by
  refine .bind (.okOr nofun) fun kid _ => ?_
  refine .bind (.okOr nofun) fun ⟨kidName, kidFp⟩ _ => ?_
  refine .bind (.mapErr (fun _ _ => trivial) fun _ _ => nofun) fun publicKey _ => ?_
  refine .bind (.ensure fun _ => nofun) fun _ _ => ?_
  refine .bind (.mapErr fails_innerBytes fun _ other => other) fun innerBytes _ => ?_
  refine .bind (.mapErr fails_sigBytes fun _ other => other) fun _ _ => ?_
  refine .bind (.ensure fun _ => nofun) fun _ _ => ?_
  refine .bind (.mapErr (fails_parseInner innerBytes) fun _ other => other) fun _ _ => ?_
  exact .bind (.ensure fun _ => nofun) fun _ _ => .pure

theorem fails_algorithmGate (allowUnsigned : Bool) :
    Fails NotSize (algorithmGate P wrapper trust allowUnsigned) := by
  unfold algorithmGate
  split
  · exact fails_unsignedPath allowUnsigned
  · split
    · exact fails_signedPath
    · rintro info ⟨⟩
      exact nofun

theorem fails_decryptBody (me : Identity) (inner : Inner) :
    Fails NotSize (decryptBody P me inner wrapper.rejectInfo) := by
  unfold decryptBody
  split
  · exact .pure
  · refine .bind (.ensure fun _ => nofun) fun _ _ => ?_
    refine .bind (.okOr nofun) fun _ _ => .bind (.okOr nofun) fun _ _ => ?_
    refine .bind (.okOr nofun) fun _ _ => .bind (.ensure fun _ => nofun) fun _ _ => ?_
    refine .bind (.okOr nofun) fun _ _ => .bind (.okOr nofun) fun _ _ => ?_
    exact .bind (.okOr nofun) fun _ _ => .pure

theorem fails_verify (now : Int) (sg : SignedGrant) :
    Fails (· ≠ .tooLarge) (Grant.verify P now sg trust) := by
  refine .bind (.okOr nofun) fun ⟨name, fp⟩ _ => ?_
  refine .bind (.mapErr (fun _ _ => trivial) fun _ _ => nofun) fun publicKey _ => ?_
  refine .bind (.ensure fun _ => nofun) fun _ _ => .bind (.okOr nofun) fun _ _ => ?_
  refine .bind (.okOr nofun) fun _ _ => .bind (.ensure fun _ => nofun) fun _ _ => ?_
  refine .bind (.okOr nofun) fun _ _ => .bind (.ensure fun _ => nofun) fun _ _ => ?_
  exact .pure

theorem fails_checkGrant (now : Int) (inner : Inner) :
    Fails NotSize (checkGrant P now trust inner wrapper.rejectInfo) := by
  unfold checkGrant
  split
  · exact .pure
  · exact .bind (.mapErr (fails_verify now _) fun _ other => other) fun _ _ =>
      .ensure fun _ => nofun

/-- After the gates, only the comparison with the limit fails for the size. -/
theorem fails_finalize
    {inner : Inner} {me : Identity} {clock : Clock} {freshnessSecs : Int} {maxPayload : Nat}
    (small : inner.body.utf8ByteSize ≤ maxPayload) :
    Fails NotSize
      (finalize P inner me trust clock freshnessSecs maxPayload wrapper.rejectInfo) := by
  refine .bind (.ensure fun large => absurd small large) fun _ _ => ?_
  refine .bind (.ensure fun _ => nofun) fun _ _ => ?_
  refine .bind (fails_decryptBody me inner) fun opened _ => ?_
  exact .bind (fails_checkGrant clock.grantCheck opened) fun _ _ => .pure

end Errors

/-! ## Agreement on the limit -/

section Agreement

variable {P : Platform} {identity : Identity} {cfg : Config} {trust : TrustStore}
  {p : SendParams} {draw : Draw} {inner : Inner} {wrapper : Wrapper}

/-- No receiver with the limit refuses the payload for its size. -/
def NeverTooLarge (P : Platform) (payload : Bytes) (maxPayload : Nat) : Prop :=
  ∀ me trust clock freshnessSecs allowUnsigned acceptV1 info,
    verifyIncoming P payload me trust clock freshnessSecs maxPayload allowUnsigned acceptV1 =
      .error info → info.reason ≠ .tooLarge

/-- The gates hand on the message that was wrapped. -/
theorem gate_inner
    {unsigned allowUnsigned : Bool} {found : Inner} (lawful : P.innerJson.Lawful)
    (passes : algorithmGate P (wrapped P identity unsigned (P.innerJson.encode inner)) trust
      allowUnsigned = .ok found) :
    found = inner := by
  have message : unb64 (wrapped P identity unsigned (P.innerJson.encode inner)).msg =
      some (P.innerJson.encode inner) := by
    unfold wrapped
    split <;> exact unb64_b64 _
  unfold algorithmGate at passes
  split at passes
  · obtain ⟨_, peeked, _⟩ := unsignedPath_ok passes
    simp only [Wrapper.peek, Wrapper.innerBytes, Wrapper.parseInner, bind_eq_ok, okOr_eq_ok,
      message] at peeked
    obtain ⟨_, ⟨⟩, parsed⟩ := peeked
    rw [lawful] at parsed
    exact (Option.some.inj parsed).symm
  · split at passes
    · rename_i signed
      obtain ⟨_, _, by_⟩ := signedPath_ok signed passes
      have bytes := by_.decoded
      rw [message] at bytes
      cases bytes
      have parsed := by_.parsed
      rw [lawful] at parsed
      exact (Option.some.inj parsed).symm
    · cases passes

/-- A transmitted body within the limit is not refused for its size. -/
theorem neverTooLarge_of_small
    {unsigned : Bool} {maxPayload : Nat} (wrapperJson : P.wrapperJson.Lawful)
    (innerJson : P.innerJson.Lawful) (small : inner.body.utf8ByteSize ≤ maxPayload) :
    NeverTooLarge P
      (P.wrapperJson.encode (wrapped P identity unsigned (P.innerJson.encode inner)))
      maxPayload := by
  intro me trust clock freshnessSecs allowUnsigned acceptV1 info refused
  have fails : Fails NotSize (verifyIncoming P
      (P.wrapperJson.encode (wrapped P identity unsigned (P.innerJson.encode inner))) me trust
      clock freshnessSecs maxPayload allowUnsigned acceptV1) := by
    refine .bind (.mapErr (.okOr (nofun : RejectReason.malformedWrapper ≠ .tooLarge))
      fun _ other => other) fun found parsed => ?_
    rw [mapErr_eq_ok, Wrapper.fromBytes, okOr_eq_ok, wrapperJson] at parsed
    cases parsed
    refine .bind (fails_versionGate acceptV1) fun _ _ => ?_
    refine .bind (fails_algorithmGate allowUnsigned) fun carried passes => ?_
    rw [gate_inner innerJson passes]
    exact fails_finalize small
  exact fails info refused

/-- A transmitted body over the limit is refused for its size by some receiver. -/
theorem small_of_neverTooLarge
    {unsigned : Bool} {maxPayload : Nat} (wrapperJson : P.wrapperJson.Lawful)
    (innerJson : P.innerJson.Lawful) (signs : identity.Signs P)
    (name : '#' ∉ identity.name.toList) (sender : inner.sender = identity.name)
    (never : NeverTooLarge P
      (P.wrapperJson.encode (wrapped P identity unsigned (P.innerJson.encode inner)))
      maxPayload) :
    inner.body.utf8ByteSize ≤ maxPayload := by
  have gate : ∃ trust, algorithmGate P
      (wrapped P identity unsigned (P.innerJson.encode inner)) trust true = .ok inner := by
    cases unsigned with
    | true =>
        exact ⟨{}, gate_accepts_unsigned innerJson rfl⟩
    | false =>
        refine ⟨TrustStore.addWithKem {} identity.name identity.publicKey none, ?_⟩
        apply gate_accepts_signed signs innerJson name sender
        rw [TrustStore.publicKey_eq_ok_iff, TrustStore.currentKey_addWithKem]
        exact if_pos rfl
  obtain ⟨receiving, passes⟩ := gate
  by_contra large
  have refused : verifyIncoming P
      (P.wrapperJson.encode (wrapped P identity unsigned (P.innerJson.encode inner))) identity
      receiving ⟨0, 0, 0⟩ 0 maxPayload true true =
        .error ((wrapped P identity unsigned (P.innerJson.encode inner)).rejectInfo
          .tooLarge) := by
    rw [verifyIncoming_wrapped wrapperJson passes, finalize, ensure, if_neg large]
    rfl
  exact never _ _ _ _ _ _ _ refused rfl

/-- The transmitted body of an accepted request. -/
theorem Sends.utf8ByteSize_body
    (appends : P.AppendsTag) (sends : Sends P identity cfg trust p draw inner wrapper) :
    inner.body.utf8ByteSize =
      if p.encrypt then (4 * (p.body.utf8ByteSize + 16) + 2) / 3 else p.body.utf8ByteSize := by
  obtain ⟨grant, encryptTo, _, encrypts, built⟩ := sends.built
  obtain ⟨_, ⟨plain, rfl⟩ | ⟨ek, kemCt, ss, sealed, _, _, rfl⟩⟩ := build_ok built
  · have clear : encryptTo = none := plain
    by_cases encrypted : p.encrypt = true
    · rw [SendParams.EncryptsTo, if_pos encrypted, clear] at encrypts
      exact absurd encrypts.1 Bool.false_ne_true
    · rw [if_neg encrypted]
      rfl
  · have key : encryptTo = some ek := sealed
    by_cases encrypted : p.encrypt = true
    · rw [if_pos encrypted]
      exact utf8ByteSize_sealedDraft appends
    · rw [SendParams.EncryptsTo, if_neg encrypted, key] at encrypts
      exact nomatch encrypts

/-- If no receiver refuses an accepted request for its size, its transmitted body is
within the limit. -/
theorem Sends.small_of_neverTooLarge
    (wrapperJson : P.wrapperJson.Lawful) (innerJson : P.innerJson.Lawful)
    (signs : identity.Signs P) (valid : validateName identity.name = .ok ())
    (sends : Sends P identity cfg trust p draw inner wrapper)
    (never : NeverTooLarge P (P.wrapperJson.encode wrapper) cfg.maxPayload) :
    inner.body.utf8ByteSize ≤ cfg.maxPayload := by
  obtain ⟨grant, encryptTo, _, _, built⟩ := sends.built
  obtain ⟨rfl, form⟩ := build_ok built
  refine AgentMsg.small_of_neverTooLarge wrapperJson innerJson signs (validateName_ok valid).2
    ?_ never
  rcases form with ⟨_, rfl⟩ | ⟨_, _, _, _, _, _, rfl⟩ <;> rfl

/-- Receivers with the sender's limit never refuse an accepted request for its size
exactly when it is not encrypted or its ciphertext in base64 is within the limit too. -/
theorem neverTooLarge_iff
    (wrapperJson : P.wrapperJson.Lawful) (innerJson : P.innerJson.Lawful)
    (appends : P.AppendsTag) (signs : identity.Signs P)
    (valid : validateName identity.name = .ok ())
    (sends : Sends P identity cfg trust p draw inner wrapper) :
    NeverTooLarge P (P.wrapperJson.encode wrapper) cfg.maxPayload ↔
      (p.encrypt = true → (4 * (p.body.utf8ByteSize + 16) + 2) / 3 ≤ cfg.maxPayload) := by
  have size := sends.utf8ByteSize_body appends
  constructor
  · intro never encrypted
    have small := sends.small_of_neverTooLarge wrapperJson innerJson signs valid never
    rw [size, if_pos encrypted] at small
    exact small
  · intro within
    obtain ⟨grant, encryptTo, _, _, built⟩ := sends.built
    rw [(build_ok built).1]
    apply neverTooLarge_of_small wrapperJson innerJson
    rw [size]
    split
    · rename_i encrypted
      exact within encrypted
    · exact sends.small

end Agreement

/-! ## A memo that is sealed -/

/-- A request of sixteen bytes, encrypted to bob. -/
def memo : SendParams :=
  { recipient := "bob", ctype := CTYPE_TEXT, body := "meet at nine, ok", encrypt := true }

def limited (maxPayload : Nat) : Config :=
  { topics := ["chat"], maxPayload }

theorem sends_memo
    {maxPayload : Nat} (small : 16 ≤ maxPayload) :
    ∃ inner wrapper, Sends (Reference.platform {}) Reference.alice (limited maxPayload)
      (TrustStore.addFromToken {} Reference.bob.token) memo Reference.draw inner wrapper := by
  have keyed : (TrustStore.addFromToken {} Reference.bob.token).kemPublicKey "bob" =
      some Reference.bob.kemEk :=
    TrustStore.kemPublicKey_addWithKem _ _ _ _
  have direct : memo.recipient ≠ BROADCAST := by decide
  have built : build (Reference.platform {}) Reference.alice Reference.draw
      (sendOpts memo none (some Reference.bob.kemEk)) = _ :=
    build_sealed rfl direct
      (Reference.encapsulates {} "bob" 2 Reference.draw.kemRandomness)
  refine ⟨_, _, ⟨"chat", rfl⟩, small, none, some Reference.bob.kemEk, rfl, ?_, built⟩
  exact (if_pos rfl).mpr ⟨rfl, keyed.symm⟩

theorem neverTooLarge_iff_memo :
    ∃ inner wrapper, Sends (Reference.platform {}) Reference.alice (limited 64)
      (TrustStore.addFromToken {} Reference.bob.token) memo Reference.draw inner wrapper ∧
        NeverTooLarge (Reference.platform {})
          ((Reference.platform {}).wrapperJson.encode wrapper) 64 := by
  obtain ⟨inner, wrapper, sends⟩ := @sends_memo 64 (by decide)
  refine ⟨inner, wrapper, sends, ?_⟩
  apply (neverTooLarge_iff (Reference.wrapperJson_lawful {})
    (Reference.innerJson_lawful {}) (Reference.appendsTag {})
    (Reference.signs {} "alice" 1) (by decide) sends).mpr
  intro _
  decide

/-- With a limit of sixteen bytes the sender accepts the memo and a receiver refuses it. -/
theorem memo_tooLarge :
    ¬ ∀ p inner wrapper, Sends (Reference.platform {}) Reference.alice (limited 16)
      (TrustStore.addFromToken {} Reference.bob.token) p Reference.draw inner wrapper →
        NeverTooLarge (Reference.platform {})
          ((Reference.platform {}).wrapperJson.encode wrapper) 16 := by
  intro agree
  obtain ⟨inner, wrapper, sends⟩ := @sends_memo 16 (Nat.le_refl 16)
  have small : inner.body.utf8ByteSize ≤ 16 :=
    sends.small_of_neverTooLarge (Reference.wrapperJson_lawful {})
      (Reference.innerJson_lawful {}) (Reference.signs {} "alice" 1) (by decide)
      (agree memo inner wrapper sends)
  rw [sends.utf8ByteSize_body (Reference.appendsTag {})] at small
  exact absurd small (by decide)

end AgentMsg
