import AgentMsg.Grants

/-!
# Whom a grant authorizes

A grant travels in clear, so anyone may copy it into a message of their own.  What
ties it to its subject is the comparison of the subject with the sender of the
message, and the sender is authenticated only on the path of signed wrappers.
-/

namespace AgentMsg

open Checked

/-- The signature that the wrapper carries verifies under the key that the trust
store has for the name. -/
structure SignedUnder (P : Platform) (trust : TrustStore) (wrapper : Wrapper)
    (name : String) : Prop where
  alg : wrapper.alg = ALG_ML_DSA_65
  verified : ∃ publicKey innerBytes sig,
    trust.publicKey name = .ok publicKey ∧ unb64 wrapper.msg = some innerBytes ∧
      wrapper.sig.bind unb64 = some sig ∧ cryptoVerify P publicKey innerBytes sig = true

/-- The wrapper is unsigned, and nothing in the trust store authenticates the name. -/
structure Unauthenticated (cfg : Config) (trust : TrustStore) (wrapper : Wrapper)
    (name : String) : Prop where
  alg : wrapper.alg = ALG_NONE
  allowed : cfg.allowUnsigned = true
  unknown : (trust.publicKey name).isOk = false

/-- The grant carries the claims, an authority of the trust store signed them, and
they have not expired. -/
structure Grant.Issued (P : Platform) (trust : TrustStore) (now : Int) (sg : SignedGrant)
    (claims : GrantClaims) : Prop where
  signed : ∃ authority publicKey grantBytes sig,
    authority ∈ trust.authorities ∧ trust.authorityPublicKey authority = .ok publicKey ∧
      unb64 sg.grant = some grantBytes ∧ unb64 sg.sig = some sig ∧
      cryptoVerify P publicKey grantBytes sig = true ∧
      P.claimsJson.decode grantBytes = some claims
  valid : ∃ instant, P.parseRfc3339 claims.expiry = some instant ∧ now ≤ instant

/-! ## What verification establishes -/

theorem TrustStore.mem_authorities
    {trust : TrustStore} {name : String} {publicKey : Bytes}
    (found : trust.authorityPublicKey name = .ok publicKey) : name ∈ trust.authorities := by
  simp only [authorityPublicKey, bind_eq_ok, okOr_eq_ok] at found
  obtain ⟨record, listed, _⟩ := found
  exact Std.TreeMap.mem_iff_isSome_getElem?.mpr (by rw [listed]; rfl)

theorem Grant.not_expired_iff
    {P : Platform} {now : Int} {expiry : String} :
    isExpired P now expiry = false ↔
      ∃ instant, P.parseRfc3339 expiry = some instant ∧ now ≤ instant := by
  unfold isExpired
  cases P.parseRfc3339 expiry with
  | none =>
      simp
  | some instant =>
      simp

theorem Grant.issued_of_verify
    {P : Platform} {now : Int} {sg : SignedGrant} {trust : TrustStore} {claims : GrantClaims}
    (verified : verify P now sg trust = .ok claims) : Issued P trust now sg claims := by
  simp only [verify, bind_eq_ok, okOr_eq_ok, mapErr_eq_ok, ensure_eq_ok, pure_eq_ok]
    at verified
  obtain ⟨⟨authority, _⟩, _, publicKey, resolved, _, _, grantBytes, decoded, sig, carried, _,
    signed, found, parsed, _, valid, rfl⟩ := verified
  exact ⟨⟨authority, publicKey, grantBytes, sig, TrustStore.mem_authorities resolved, resolved,
    decoded, carried, signed, parsed⟩, not_expired_iff.mp valid⟩

theorem signedUnder_of_signedPath
    {P : Platform} {wrapper : Wrapper} {trust : TrustStore} {inner : Inner}
    (alg : wrapper.alg = ALG_ML_DSA_65)
    (accepted : signedPath P wrapper trust = .ok inner) :
    SignedUnder P trust wrapper inner.sender := by
  simp only [signedPath, bind_eq_ok, okOr_eq_ok, mapErr_eq_ok, ensure_eq_ok, pure_eq_ok,
    Wrapper.innerBytes, Wrapper.sigBytes] at accepted
  obtain ⟨_, _, ⟨name, _⟩, _, publicKey, trusted, _, _, innerBytes, decoded, sig,
    ⟨text, carried, signature⟩, _, verified, parsed, _, _, sender, rfl⟩ := accepted
  refine ⟨alg, publicKey, innerBytes, sig, ?_, decoded, ?_, verified⟩
  · rw [sender]
    exact trusted
  · rw [carried]
    exact signature

/-- The sender of an accepted message has signed it, unless unsigned messages are
allowed and the trust store has no key for the sender. -/
theorem authenticated_of_accepted
    {P : Platform} {identity : Identity} {cfg : Config} {trust : TrustStore}
    {delivery : Delivery} {out : Inner}
    (accepted : Accepted P identity cfg trust delivery out) :
    ∃ wrapper, P.wrapperJson.decode delivery.payload = some wrapper ∧
      (SignedUnder P trust wrapper out.sender ∨
        Unauthenticated cfg trust wrapper out.sender) := by
  have verified := accepted.verified
  simp only [verifyDelivery, verifyIncoming, bind_eq_ok, mapErr_eq_ok, Wrapper.fromBytes,
    okOr_eq_ok] at verified
  obtain ⟨wrapper, parsed, _, _, inner, path, rest⟩ := verified
  have sender : out.sender = inner.sender := by
    rw [(finalize_ok rest).same]
  refine ⟨wrapper, parsed, ?_⟩
  rw [sender]
  unfold algorithmGate at path
  by_cases unsigned : wrapper.alg = ALG_NONE
  · rw [if_pos unsigned] at path
    obtain ⟨allowed, _, unknown⟩ := unsignedPath_ok path
    exact Or.inr ⟨unsigned, allowed, unknown⟩
  · rw [if_neg unsigned] at path
    by_cases signed : wrapper.alg = ALG_ML_DSA_65
    · rw [if_pos signed] at path
      exact Or.inl (signedUnder_of_signedPath signed path)
    · rw [if_neg signed] at path
      exact nomatch path

/-- The grant of an accepted message is issued to its sender. -/
theorem issued_of_accepted
    {P : Platform} {identity : Identity} {cfg : Config} {trust : TrustStore}
    {delivery : Delivery} {out : Inner} {sg : SignedGrant}
    (accepted : Accepted P identity cfg trust delivery out) (carried : out.grant = some sg) :
    ∃ claims, Grant.Issued P trust delivery.clock.grantCheck sg claims ∧
      claims.subject = out.sender := by
  obtain ⟨_, _, _, finalized, _⟩ := verifyIncoming_ok accepted.verified
  obtain ⟨claims, verified, subject⟩ := finalized.granted sg carried
  exact ⟨claims, Grant.issued_of_verify verified, subject⟩

/-! ## Runs -/

/-- The arrival after the earlier ones is the one that stores the message. -/
structure StoredBy (P : Platform) (identity : Identity) (start : World)
    (arrivals : List Arrival) (inner : Inner) (earlier : List Arrival) (arrival : Arrival) :
    Prop where
  arrives : earlier ++ [arrival] <+: arrivals
  stores : ∃ seq, (arrive P identity (ingestAll P identity start earlier).1 arrival).2 =
    .stored seq inner
  accepted : arrival.Accepts P identity inner

theorem storedBy_of_mem_storedInners
    {P : Platform} {identity : Identity} {inner : Inner} (arrivals : List Arrival) :
    ∀ {world : World}, inner ∈ storedInners P identity world arrivals →
      ∃ earlier arrival, StoredBy P identity world arrivals inner earlier arrival := by
  induction arrivals with
  | nil =>
      intro world member
      exact absurd member List.not_mem_nil
  | cons arrival rest inductionHypothesis =>
      intro world member
      rw [storedInners_cons, List.mem_append] at member
      rcases member with first | later
      · obtain ⟨seq, stored⟩ :=
          Outcome.eq_stored_of_storedInner (Option.mem_toList.mp first)
        have result := arrive_result P identity world arrival
        rw [stored] at result
        cases result with
        | quiet unstored _ =>
            exact nomatch unstored
        | stored _ accepted _ _ _ _ =>
            exact ⟨[], arrival, List.prefix_append [arrival] rest, ⟨_, stored⟩, accepted⟩
      · obtain ⟨earlier, found, arrives, stores, accepted⟩ := inductionHypothesis later
        exact ⟨arrival :: earlier, found, List.cons_prefix_cons.mpr ⟨rfl, arrives⟩, stores,
          accepted⟩

/-- In every run of ingests, a message that is stored with a grant was stored by an arrival
whose wrapper is signed under the key of the subject of the claims, which an authority of the
trust store in force signed and which had not expired; or whose wrapper is unsigned, while
unsigned messages were allowed and the trust store had no key for the subject. -/
theorem stored_grants_issued_to_sender
    (P : Platform) (identity : Identity) (start : World) (arrivals : List Arrival)
    (inner : Inner) (stored : inner ∈ storedInners P identity start arrivals)
    (sg : SignedGrant) (carried : inner.grant = some sg) :
    ∃ earlier arrival, StoredBy P identity start arrivals inner earlier arrival ∧
      ∃ wrapper claims,
        P.wrapperJson.decode arrival.delivery.payload = some wrapper ∧
        claims.subject = inner.sender ∧
        Grant.Issued P (arrival.trust P) arrival.delivery.clock.grantCheck sg claims ∧
        (SignedUnder P (arrival.trust P) wrapper claims.subject ∨
          Unauthenticated (arrival.config P) (arrival.trust P) wrapper claims.subject) := by
  obtain ⟨earlier, arrival, storedBy⟩ := storedBy_of_mem_storedInners arrivals stored
  obtain ⟨wrapper, parsed, path⟩ := authenticated_of_accepted storedBy.accepted
  obtain ⟨claims, issued, subject⟩ := issued_of_accepted storedBy.accepted carried
  refine ⟨earlier, arrival, storedBy, wrapper, claims, parsed, subject, issued, ?_⟩
  rw [subject]
  exact path

/-- The second message with Alice's grant was signed by Alice. -/
theorem stored_grants_issued_to_alice :
    ∃ earlier arrival,
      StoredBy grantBench.platform Bench.me Bench.world
        [grantArrival 0 0 0, grantArrival 1 5 6] (grantedText "m2") earlier arrival ∧
      ∃ wrapper claims,
        grantBench.platform.wrapperJson.decode arrival.delivery.payload = some wrapper ∧
        claims.subject = (grantedText "m2").sender ∧
        Grant.Issued grantBench.platform (arrival.trust grantBench.platform)
          arrival.delivery.clock.grantCheck (Bench.grant 0) claims ∧
        SignedUnder grantBench.platform (arrival.trust grantBench.platform) wrapper
          claims.subject := by
  have stored : grantedText "m2" ∈ storedInners grantBench.platform Bench.me Bench.world
      [grantArrival 0 0 0, grantArrival 1 5 6] := by
    rw [expiring_grant_stored]
    exact List.mem_cons_of_mem _ List.mem_cons_self
  obtain ⟨earlier, arrival, storedBy, wrapper, claims, parsed, subject, issued, path⟩ :=
    stored_grants_issued_to_sender grantBench.platform Bench.me Bench.world _ _ stored _ rfl
  refine ⟨earlier, arrival, storedBy, wrapper, claims, parsed, subject, issued, ?_⟩
  rcases path with signed | unsigned
  · exact signed
  · have listed := storedBy.arrives.subset (List.mem_append_right _ List.mem_cons_self)
    simp only [List.mem_cons, List.not_mem_nil, or_false] at listed
    rcases listed with rfl | rfl
    · exact nomatch unsigned.allowed
    · exact nomatch unsigned.allowed

/-! ## A grant copied into an unsigned message -/

/-- A host that allows unsigned messages and knows the authority, but not Alice. -/
def openBench : Bench :=
  { inners := [grantedText "m1"], signed := false, instants := [("t0", 0), ("t5", 5)]
    claims := [deployClaims]
    config := { allowUnsigned := true }
    trust := ({} : TrustStore).addAuthorityFromToken
      ⟨Bench.authority, Bench.key Bench.authority⟩ }

private theorem openBench_verifies :
    Grant.verify openBench.platform 0 (Bench.grant 0) openBench.trust = .ok deployClaims := by
  have authority :
      openBench.trust.authorityPublicKey Bench.authority = .ok (Bench.key Bench.authority) := by
    simp [openBench, TrustStore.authorityPublicKey, TrustStore.addAuthorityFromToken]
  exact Bench.grant_verifies rfl authority (by decide)

/-- Whoever has seen the grant can send it as Alice. -/
theorem copied_grant_accepted :
    (grantArrival 0 0 0).Accepts openBench.platform Bench.me (grantedText "m1") := by
  have small : "go".utf8ByteSize ≤ 256 * 1024 := by decide
  have unknown : (openBench.trust.publicKey "alice").isOk = false := by decide
  have unsigned : (openBench.wrapper 0 (grantedText "m1")).alg = ALG_NONE := rfl
  constructor
  · rfl
  · simp only [verifyDelivery, verifyIncoming, bind_eq_ok, mapErr_eq_ok, Wrapper.fromBytes,
      okOr_eq_ok]
    refine ⟨_, rfl, (), rfl, grantedText "m1", ?_, ?_⟩
    · rw [algorithmGate, if_pos unsigned, unsignedPath]
      simp only [bind_eq_ok, mapErr_eq_ok, ensure_eq_ok, pure_eq_ok]
      exact ⟨(), rfl, [0], rfl, grantedText "m1", rfl, (), unknown, rfl⟩
    · refine finalize_accepts small (by decide) rfl ?_
      intro sg carried
      cases carried
      exact ⟨deployClaims, openBench_verifies, rfl⟩

theorem copied_grant_stored :
    storedInners openBench.platform Bench.me Bench.world [grantArrival 0 0 0] =
      [grantedText "m1"] := by
  have plain : (grantedText "m1").Plain := Bench.textTo_plain "*" "m1" "alice" "t0" "go"
  have recorded : guardClaims openBench.platform
      ((grantArrival 0 0 0).trust openBench.platform)
      (grantArrival 0 0 0).delivery.clock.guardCheck (grantedText "m1") = some deployClaims := by
    have verified : Grant.verify openBench.platform 0 (Bench.grant 0)
        ((grantArrival 0 0 0).trust openBench.platform) = .ok deployClaims := openBench_verifies
    rw [guardClaims_eq rfl]
    exact congrArg Except.toOption verified
  rw [storedInners_cons, storedInners_nil, arrive_of_accepts copied_grant_accepted,
    acceptMessage_of_plain plain, grantReplayed, recorded]
  rfl

/-- The subject of a stored grant need not have signed the message. -/
theorem unsigned_grant_stored :
    ¬ ∀ (P : Platform) (identity : Identity) (start : World) (arrivals : List Arrival),
        ∀ inner ∈ storedInners P identity start arrivals, ∀ sg, inner.grant = some sg →
          ∃ earlier arrival, StoredBy P identity start arrivals inner earlier arrival ∧
            ∃ wrapper claims,
              P.wrapperJson.decode arrival.delivery.payload = some wrapper ∧
              Grant.Issued P (arrival.trust P) arrival.delivery.clock.grantCheck sg claims ∧
              SignedUnder P (arrival.trust P) wrapper claims.subject := by
  intro authorized
  have member : grantedText "m1" ∈ storedInners openBench.platform Bench.me Bench.world
      [grantArrival 0 0 0] := by
    rw [copied_grant_stored]
    exact List.mem_cons_self
  obtain ⟨earlier, arrival, storedBy, wrapper, claims, parsed, _, signed⟩ :=
    authorized openBench.platform Bench.me Bench.world [grantArrival 0 0 0] _ member _ rfl
  have listed := storedBy.arrives.subset (List.mem_append_right _ List.mem_cons_self)
  rw [List.mem_singleton.mp listed] at parsed
  have isWrapper : openBench.wrapper 0 (grantedText "m1") = wrapper :=
    Option.some.inj parsed
  have alg : (openBench.wrapper 0 (grantedText "m1")).alg = ALG_ML_DSA_65 := by
    rw [isWrapper]
    exact signed.alg
  exact absurd alg (by decide)

end AgentMsg
