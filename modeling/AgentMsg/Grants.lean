import AgentMsg.Acceptance

/-!
# Single use of grants

The replay guard records the id of a grant and refuses the next message that carries
it, but only when the grant verifies a second time.  A grant that expires between
the two clock readings passes the guard unrecorded.
-/

namespace AgentMsg

/-- The id in the claims of the grant a message carries. -/
def grantId (P : Platform) (inner : Inner) : Option String :=
  (inner.grant.bind (Grant.claims P)).map GrantClaims.id

/-- Is the grant id among those recorded as used? -/
def Store.used (store : Store) (id : String) : Bool :=
  (store.seenGrants[id]?).isSome

/-- The grant of the arriving message has not expired when the replay guard verifies it
for the second time. -/
def GrantOutlivesGuard (P : Platform) (identity : Identity) (arrival : Arrival) : Prop :=
  ∀ inner, arrival.Accepts P identity inner → ∀ sg, inner.grant = some sg →
    ∀ claims, Grant.claims P sg = some claims →
      Grant.isExpired P arrival.delivery.clock.guardCheck claims.expiry = false

/-! ## The table of used grants -/

theorem Store.used_recordGrant
    (store : Store) (claims : Option GrantClaims) (now id : String) :
    (store.recordGrant claims now).used id =
      (store.used id || claims.any fun found => found.id == id) := by
  cases claims with
  | none =>
      simp [recordGrant]
  | some found =>
      simp only [recordGrant, seenGrant, Option.any_some]
      by_cases seen : (store.seenGrants[found.id]?).isSome
      · rw [if_pos seen]
        by_cases same : found.id = id
        · subst same
          simp [used, seen]
        · simp [same]
      · rw [if_neg seen]
        by_cases same : found.id = id
        · subst same
          simp [used]
        · simp [used, Std.TreeMap.getElem?_insert, same]

theorem Store.grantUsed_eq (store : Store) (claims : Option GrantClaims) :
    store.grantUsed claims = claims.any fun found => store.used found.id := by
  cases claims <;> rfl

theorem Store.used_receipted
    (P : Platform) (identity : Identity) (cfg : Config) (delivery : Delivery) (inner : Inner)
    (store : Store) (id : String) :
    (store.receipted P identity cfg delivery inner).used id = store.used id := by
  unfold receipted
  split
  · split <;> rfl
  · rfl

theorem AsideOp.used
    {operation : Store.Op} (aside : AsideOp operation) (store : Store) (id : String) :
    (store.apply operation).used id = store.used id := by
  cases aside with
  | presence agent beacon lastSeen now =>
      simp only [Store.apply, Store.upsertPresence]
      split
      · rfl
      · split <;> rfl
  | _ =>
      rfl

section Steps

variable {P : Platform} {identity : Identity} {world final : World} {delivery : Delivery}
  {outcome : Outcome}

/-- A used grant stays used. -/
theorem Ingested.used_of_used
    (ingested : Ingested P identity world delivery final outcome) {id : String}
    (used : world.store.used id = true) : final.store.used id = true := by
  cases ingested with
  | aside _ _ change =>
      rcases change with same | ⟨operation, aside, applied⟩
      · rw [same]
        exact used
      · rw [applied, aside.used]
        exact used
  | replayed inner now later accepted plain _ result =>
      have recorded := world.store.used_recordGrant
        (guardClaims P (world.trust P) delivery.clock.guardCheck inner) now id
      rw [result]
      exact recorded.trans (by rw [used, Bool.true_or])
  | duplicate inner now accepted plain unused taken result =>
      have recorded := world.store.used_recordGrant
        (guardClaims P (world.trust P) delivery.clock.guardCheck inner) now id
      rw [result]
      exact recorded.trans (by rw [used, Bool.true_or])
  | stored inner now accepted plain unused fresh result =>
      have recorded := world.store.used_recordGrant
        (guardClaims P (world.trust P) delivery.clock.guardCheck inner) now id
      rw [result, Store.used_receipted]
      exact recorded.trans (by rw [used, Bool.true_or])

/-- A stored message's looked-up grant was unused before, and is used afterwards. -/
theorem Ingested.grant_of_stored
    {seq : Int} {inner : Inner}
    (ingested : Ingested P identity world delivery final (.stored seq inner)) :
    Accepted P identity (world.config P) (world.trust P) delivery inner ∧
      ∀ claims, guardClaims P (world.trust P) delivery.clock.guardCheck inner = some claims →
        world.store.used claims.id = false ∧ final.store.used claims.id = true := by
  cases ingested with
  | aside _ unstored _ =>
      exact nomatch unstored
  | stored _ now accepted plain unused fresh result =>
      refine ⟨accepted, fun claims looked => ?_⟩
      rw [Store.grantUsed_eq, looked] at unused
      refine ⟨unused, ?_⟩
      have recorded := world.store.used_recordGrant
        (guardClaims P (world.trust P) delivery.clock.guardCheck inner) now claims.id
      rw [result, Store.used_receipted]
      refine recorded.trans ?_
      rw [looked]
      simp

theorem guardClaims_eq
    {trust : TrustStore} {now : Int} {inner : Inner} {sg : SignedGrant}
    (carried : inner.grant = some sg) :
    guardClaims P trust now inner = (Grant.verify P now sg trust).toOption := by
  simp only [guardClaims, carried]
  cases Grant.verify P now sg trust <;> rfl

theorem grantId_of_guardClaims
    {trust : TrustStore} {now : Int} {inner : Inner} {claims : GrantClaims}
    (looked : guardClaims P trust now inner = some claims) : grantId P inner = some claims.id := by
  cases carried : inner.grant with
  | none =>
      rw [guardClaims, carried] at looked
      cases looked
  | some sg =>
      rw [guardClaims_eq carried] at looked
      cases verified : Grant.verify P now sg trust with
      | error reason =>
          rw [verified] at looked
          cases looked
      | ok found =>
          rw [verified] at looked
          cases looked
          rw [grantId, carried, Option.bind_some, (Grant.verify_ok verified).1]
          rfl

/-- The guard looks up the grant of an accepted message, if it has not expired by
then. -/
theorem guardClaims_of_accepted
    {cfg : Config} {trust : TrustStore} {inner : Inner}
    (accepted : Accepted P identity cfg trust delivery inner)
    (outlives : ∀ sg, inner.grant = some sg → ∀ claims, Grant.claims P sg = some claims →
      Grant.isExpired P delivery.clock.guardCheck claims.expiry = false) :
    (guardClaims P trust delivery.clock.guardCheck inner).map GrantClaims.id =
      grantId P inner := by
  cases carried : inner.grant with
  | none =>
      simp [guardClaims, grantId, carried]
  | some sg =>
      obtain ⟨_, _, _, finalized, _⟩ := verifyIncoming_ok accepted.verified
      obtain ⟨claims, verified, _⟩ := finalized.granted sg carried
      obtain ⟨found, _⟩ := Grant.verify_ok verified
      have again := Grant.verify_ok_of_not_expired verified (outlives sg carried claims found)
      rw [guardClaims_eq carried, again]
      simp [grantId, carried, found, Except.toOption]

end Steps

/-! ## Whole runs -/

/-- What is assumed of the rest of a run. -/
def GrantsGuarded (P : Platform) (identity : Identity) (_ : World) (arrivals : List Arrival) :
    Prop :=
  ∀ arrival ∈ arrivals, (∀ index, (arrival.inputs index).Succeeds) ∧
    GrantOutlivesGuard P identity arrival

theorem grants_block (P : Platform) (identity : Identity) :
    Blocks P identity (grantId P) (GrantsGuarded P identity)
      (fun world _ id => world.store.used id = true) := by
  have looked {world : World} {arrival : Arrival} {rest : List Arrival} {seq : Int}
      {inner : Inner} {id : String}
      (guarded : GrantsGuarded P identity world (arrival :: rest))
      (stored : (arrive P identity world arrival).2 = .stored seq inner)
      (found : grantId P inner = some id) :
      world.store.used id = false ∧
        (arrive P identity world arrival).1.store.used id = true := by
    obtain ⟨succeeds, outlives⟩ := guarded arrival List.mem_cons_self
    have ingested := arrive_succeeds P identity world succeeds
    rw [stored] at ingested
    obtain ⟨accepted, guards⟩ := ingested.grant_of_stored
    have same := guardClaims_of_accepted accepted (outlives inner accepted)
    rw [found, Option.map_eq_some_iff] at same
    obtain ⟨claims, verified, rfl⟩ := same
    exact guards claims verified
  constructor
  · intro world arrival rest guarded other member
    exact guarded other (List.mem_cons_of_mem _ member)
  · intro world arrival rest id guarded used
    exact (arrive_succeeds P identity world
      (guarded arrival List.mem_cons_self).1).used_of_used used
  · intro world arrival rest seq inner id guarded stored found
    exact (looked guarded stored found).2
  · intro world arrival rest seq inner id guarded used stored found
    rw [(looked guarded stored found).1] at used
    exact nomatch used

/-- In every run in which no accepted grant expires before the replay guard looks at
it, each grant id is used by at most one stored message. -/
theorem grants_single_use
    (P : Platform) (identity : Identity) (start : World) (arrivals : List Arrival)
    (succeeds : ∀ arrival ∈ arrivals, ∀ index, (arrival.inputs index).Succeeds)
    (outlives : ∀ arrival ∈ arrivals, GrantOutlivesGuard P identity arrival) :
    ((storedInners P identity start arrivals).filterMap (grantId P)).Nodup :=
  ((grants_block P identity).nodup arrivals start
    fun arrival member => ⟨succeeds arrival member, outlives arrival member⟩).1

/-! ## A grant that expires between the readings -/

/-- A message that carries the grant of the bench. -/
def grantedText (id : String) : Inner :=
  { Bench.textTo "*" id "alice" "t0" "go" with grant := some (Bench.grant 0) }

/-- A grant for Alice that expires at time 5. -/
def deployClaims : GrantClaims :=
  { id := "g1", action := "deploy", scope := "*", subject := "alice", expiry := "t5"
    nonce := "" }

def grantBench : Bench :=
  { inners := [grantedText "m1", grantedText "m2"], instants := [("t0", 0), ("t5", 5)]
    claims := [deployClaims]
    trust := (Bench.trusting ["alice"]).addAuthorityFromToken
      ⟨Bench.authority, Bench.key Bench.authority⟩ }

/-- An arrival of a message of the bench, with its two readings for the grant. -/
def grantArrival (tag : UInt8) (grantCheck guardCheck : Int) : Arrival :=
  Bench.arrival
    { topic := "chat", payload := [tag], clock := ⟨grantCheck, grantCheck, guardCheck⟩
      draw := ⟨"", "", [], [], []⟩ }

private theorem grantBench_authority :
    grantBench.trust.authorityPublicKey Bench.authority = .ok (Bench.key Bench.authority) := by
  simp [grantBench, TrustStore.authorityPublicKey, TrustStore.addAuthorityFromToken]

private theorem grantBench_verifies
    (now : Int) (valid : Grant.isExpired grantBench.platform now "t5" = false) :
    Grant.verify grantBench.platform now (Bench.grant 0) grantBench.trust = .ok deployClaims :=
  Bench.grant_verifies rfl grantBench_authority valid

theorem grant_accepted
    {tag : UInt8} {id : String} {grantCheck guardCheck : Int}
    (listed : grantBench.inners[tag.toNat]? = some (grantedText id))
    (fresh : freshEnough grantBench.platform grantCheck "t0" 300 = true)
    (valid : Grant.isExpired grantBench.platform grantCheck "t5" = false) :
    (grantArrival tag grantCheck guardCheck).Accepts grantBench.platform Bench.me
      (grantedText id) := by
  have sender : (grantedText id).sender = "alice" := rfl
  have notPair : CTYPE_TEXT ≠ CTYPE_PAIR := by decide
  refine Bench.accepted rfl listed (by rw [sender]; decide) (by rw [sender]; decide)
    (Bench.trusting_publicKey (List.mem_singleton.mpr rfl)) notPair ?_ fresh rfl ?_
  · have small : "go".utf8ByteSize ≤ 256 * 1024 := by decide
    exact small
  · intro sg carried
    cases carried
    exact ⟨deployClaims, grantBench_verifies _ valid, rfl⟩

theorem grantBench_guard
    {now : Int} {id : String}
    (valid : Grant.isExpired grantBench.platform now "t5" = false) :
    guardClaims grantBench.platform grantBench.trust now (grantedText id) =
      some deployClaims := by
  rw [guardClaims_eq rfl, grantBench_verifies _ valid]
  rfl

private theorem grantBench_claims :
    Grant.claims grantBench.platform (Bench.grant 0) = some deployClaims :=
  (Grant.verify_ok (grantBench_verifies 0 (by decide))).1

private theorem grantBench_unguarded
    {now : Int} {id : String}
    (expired : Grant.isExpired grantBench.platform now "t5" = true) :
    guardClaims grantBench.platform grantBench.trust now (grantedText id) = none := by
  rw [guardClaims_eq rfl]
  cases verified : Grant.verify grantBench.platform now (Bench.grant 0) grantBench.trust with
  | error reason =>
      rfl
  | ok claims =>
      obtain ⟨found, valid⟩ := Grant.verify_ok verified
      rw [grantBench_claims] at found
      cases found
      rw [deployClaims, expired] at valid
      exact nomatch valid

theorem grantId_granted (id : String) :
    grantId grantBench.platform (grantedText id) = some "g1" := by
  have carried : (grantedText id).grant = some (Bench.grant 0) := rfl
  rw [grantId, carried, Option.bind_some, grantBench_claims]
  rfl

/-- The first message arrives while the grant is valid. -/
theorem grant_accepted_first :
    (grantArrival 0 0 0).Accepts grantBench.platform Bench.me (grantedText "m1") :=
  grant_accepted rfl (by decide) (by decide)

theorem grant_accepted_second
    {grantCheck guardCheck : Int}
    (fresh : freshEnough grantBench.platform grantCheck "t0" 300 = true)
    (valid : Grant.isExpired grantBench.platform grantCheck "t5" = false) :
    (grantArrival 1 grantCheck guardCheck).Accepts grantBench.platform Bench.me
      (grantedText "m2") :=
  grant_accepted rfl fresh valid

/-- Both messages arrive while the grant is valid. -/
theorem grants_single_use_valid :
    ((storedInners grantBench.platform Bench.me Bench.world
      [grantArrival 0 0 0, grantArrival 1 5 5]).filterMap (grantId grantBench.platform)).Nodup := by
  have outlives {arrival : Arrival} {id : String}
      (accepts : arrival.Accepts grantBench.platform Bench.me (grantedText id))
      (valid : Grant.isExpired grantBench.platform arrival.delivery.clock.guardCheck "t5" =
        false) : GrantOutlivesGuard grantBench.platform Bench.me arrival := by
    intro inner accepted sg carried claims found
    rw [accepts.unique accepted] at carried
    cases carried
    rw [grantBench_claims] at found
    cases found
    exact valid
  refine grants_single_use grantBench.platform Bench.me Bench.world _ ?_ ?_
  · simp only [List.forall_mem_cons]
    exact ⟨fun _ => rfl, fun _ => rfl, nofun⟩
  · simp only [List.forall_mem_cons]
    exact ⟨outlives grant_accepted_first (by decide),
      outlives (grant_accepted_second (by decide) (by decide)) (by decide), nofun⟩

/-- The readings of the clock during an ingest, in order. -/
def Arrival.readings (arrival : Arrival) : List Int :=
  [arrival.delivery.clock.freshness, arrival.delivery.clock.grantCheck,
    arrival.delivery.clock.guardCheck]

theorem expiring_grant_stored :
    storedInners grantBench.platform Bench.me Bench.world
      [grantArrival 0 0 0, grantArrival 1 5 6] = [grantedText "m1", grantedText "m2"] := by
  have recorded : guardClaims grantBench.platform
      ((grantArrival 0 0 0).trust grantBench.platform)
      (grantArrival 0 0 0).delivery.clock.guardCheck (grantedText "m1") = some deployClaims :=
    grantBench_guard (by decide)
  have skipped : guardClaims grantBench.platform
      ((grantArrival 1 5 6).trust grantBench.platform)
      (grantArrival 1 5 6).delivery.clock.guardCheck (grantedText "m2") = none :=
    grantBench_unguarded (by decide)
  have plain (id : String) : (grantedText id).Plain :=
    Bench.textTo_plain "*" id "alice" "t0" "go"
  rw [storedInners_cons, storedInners_cons, storedInners_nil,
    arrive_of_accepts grant_accepted_first,
    arrive_of_accepts (grant_accepted_second (by decide) (by decide)),
    acceptMessage_of_plain (plain "m1"), acceptMessage_of_plain (plain "m2"), grantReplayed,
    recorded, grantReplayed, skipped]
  rfl

/-- A grant that expires between the two readings is used a second time. -/
theorem grant_used_twice :
    ¬ ∀ (P : Platform) (identity : Identity) (start : World) (arrivals : List Arrival),
        start.store.messages.rows = [] →
        (arrivals.flatMap Arrival.readings).Pairwise (· ≤ ·) →
        (∀ arrival ∈ arrivals, ∀ index, (arrival.inputs index).Succeeds) →
        ∀ first ∈ storedInners P identity start arrivals,
          ∀ second ∈ storedInners P identity start arrivals, first.id ≠ second.id →
            ∀ id, grantId P first = some id → grantId P second ≠ some id := by
  intro singleUse
  have apart := singleUse grantBench.platform Bench.me Bench.world
    [grantArrival 0 0 0, grantArrival 1 5 6] rfl (by decide)
    (by simp only [List.forall_mem_cons]; exact ⟨fun _ => rfl, fun _ => rfl, nofun⟩)
  rw [expiring_grant_stored] at apart
  exact apart (grantedText "m1") List.mem_cons_self (grantedText "m2")
    (List.mem_cons_of_mem _ List.mem_cons_self) (by decide) "g1" (grantId_granted _)
    (grantId_granted _)

end AgentMsg
