import AgentMsg.Grants

/-!
# Grants recorded as used

The replay guard records the id of a grant in one store call, and the message is
inserted in the next.  When the insertion does not follow, because the process ends,
the call fails or the message id is taken, the grant is used up although no message that
carries it was stored.
-/

namespace AgentMsg

/-- One run of the callback; the process may end after some of its actions. -/
structure Attempt extends Arrival where
  crash : Option Nat := none

/-- The actions of the callback that record the grant and insert the message, after the
two that read the files. -/
def GUARD_ACTION : Nat := 2

def INSERT_ACTION : Nat := 3

section Definitions

variable (P : Platform) (identity : Identity)

namespace Attempt

/-- The action is taken before the process ends. -/
def Performs (attempt : Attempt) (action : Nat) : Prop :=
  ∀ ended, attempt.crash = some ended → action < ended

/-- The state after the given number of actions. -/
def after (world : World) (attempt : Attempt) (count : Nat) : World :=
  (onMsg P identity attempt.delivery).execUpTo count attempt.inputs
    (world.withFiles attempt.toArrival)

/-- The state in which the next payload finds the daemon. -/
def final (world : World) (attempt : Attempt) : World :=
  match attempt.crash with
  | none => (arrive P identity world attempt.toArrival).1
  | some ended => (attempt.after P identity world ended).afterExit

/-- The row of the message is inserted by one of the actions. -/
def Inserts (world : World) (attempt : Attempt) (inner : Inner) : Prop :=
  attempt.Accepts P identity inner ∧ ∃ count, attempt.Performs count ∧
    (attempt.after P identity world count).store.containsId inner.id = false ∧
    (attempt.after P identity world (count + 1)).store =
      ((attempt.after P identity world count).store.insertInbound inner
        attempt.delivery.topic).1

/-- The replay guard is about to record the grant for the message. -/
structure Records (world : World) (attempt : Attempt) (inner : Inner) (claims : GrantClaims) :
    Prop where
  accepts : attempt.Accepts P identity inner
  plain : inner.Plain
  looked : guardClaims P (attempt.trust P) attempt.delivery.clock.guardCheck inner = some claims
  unused : world.store.used claims.id = false
  performed : attempt.Performs GUARD_ACTION
  succeeds : (attempt.inputs GUARD_ACTION).Succeeds

/-- When the guard records a grant, the id of the message is free and the insertion
follows and succeeds. -/
def StoresRecorded (world : World) (attempt : Attempt) : Prop :=
  ∀ inner claims, attempt.Records P identity world inner claims →
    world.store.containsId inner.id = false ∧ attempt.Performs INSERT_ACTION ∧
      (attempt.inputs INSERT_ACTION).Succeeds

end Attempt

/-- The state after the attempts in order. -/
def attemptAll (world : World) (attempts : List Attempt) : World :=
  Machine.run (fun current attempt => attempt.final P identity current) world attempts

/-- A message that carries the grant with the id was inserted. -/
def StoredWithGrant (start : World) (attempts : List Attempt) (id : String) : Prop :=
  ∃ earlier attempt later inner, attempts = earlier ++ attempt :: later ∧
    attempt.Inserts P identity (attemptAll P identity start earlier) inner ∧
    grantId P inner = some id

/-- Every attempt meets the condition in the state it finds. -/
def EveryAttempt (condition : World → Attempt → Prop) : World → List Attempt → Prop :=
  Machine.EveryStep (fun world attempt => attempt.final P identity world) condition

end Definitions

/-! ## What the actions record -/

/-- The operation records the grant id. -/
def Store.Op.RecordsGrant (id : String) : Store.Op → Prop
  | .seenGrant grantId _ => grantId = id
  | _ => False

theorem Store.used_apply
    {operation : Store.Op} {id : String} (other : ¬ operation.RecordsGrant id)
    (store : Store) : (store.apply operation).used id = store.used id := by
  cases operation with
  | seenGrant grantId now =>
      have different : grantId ≠ id := other
      simp only [Store.apply, Store.seenGrant]
      split
      · rfl
      · simp [used, Std.TreeMap.getElem?_insert, different]
  | ack consumer seq now =>
      simp only [Store.apply, Store.ack]
      split
      · rfl
      · split <;> rfl
  | upsertPresence agent beacon lastSeen now =>
      exact (AsideOp.presence agent beacon lastSeen now).used store id
  | _ =>
      rfl

/-- The two states agree on whether the grant id is used. -/
def SameUse (id : String) (before after : World) : Prop :=
  after.store.used id = before.store.used id

theorem StoreChange.sameUse
    {permitted : Store.Op → Prop} {before after : World} {id : String}
    (change : StoreChange permitted before after)
    (others : ∀ operation, permitted operation → ¬ operation.RecordsGrant id) :
    SameUse id before after := by
  rcases change with same | ⟨operation, permits, changed⟩
  · rw [SameUse, same]
  · rw [SameUse, changed, Store.used_apply (others operation permits)]

section Spared

variable {P : Platform} {identity : Identity} {id : String}

/-- A thread that does not record the grant id. -/
abbrev SparesGrant {α : Type} (id : String) (thread : Thread α) : Prop :=
  Prog.Within (fun _ => True) (SameUse id) (fun _ => True) thread

theorem SparesGrant.of_confined
    {α : Type} {permitted : Store.Op → Prop} {thread : Thread α}
    (confined : Prog.Within (fun _ => True) (StoreChange permitted) (fun _ => True) thread)
    (others : ∀ operation, permitted operation → ¬ operation.RecordsGrant id) :
    SparesGrant id thread :=
  Prog.Within.weaken confined (fun _ _ _ change => change.sameUse others) fun _ _ => trivial

theorem SparesGrant.execUpTo
    {α : Type} {thread : Thread α} (spares : SparesGrant id thread) (count : Nat)
    (inputs : Nat → Input) (world : World) :
    (thread.execUpTo count inputs world).store.used id = world.store.used id := by
  exact @Prog.Within.execUpTo _ _ _ _ _ (SameUse id) (fun _ => rfl)
    (fun earlier later => Eq.trans later earlier) spares count inputs world

theorem SparesGrant.storeCall
    {α : Type} {operation : String → Store.Op} {result : Store → α}
    (others : ∀ now, ¬ (operation now).RecordsGrant id)
    (parts : ∀ now writes left, (operation now).upTo writes = some left →
      ¬ left.RecordsGrant id) :
    SparesGrant id (AgentMsg.storeCall operation result) :=
  have confined : Prog.Within (fun _ => True)
      (StoreChange fun operation => ¬ operation.RecordsGrant id) (fun _ => True)
      (AgentMsg.storeCall operation result) :=
    within_storeCall others parts
  SparesGrant.of_confined confined fun _ other => other

private theorem spares_recordRejection
    (reason : RejectReason) (claimed : Option String) (topic detail : String) :
    SparesGrant id (Calls.recordRejection reason claimed topic detail) :=
  .storeCall (fun _ => not_false) (by simp [Store.Op.upTo])

private theorem sparesGrant_storeMessage
    (cfg : Config) (delivery : Delivery) (inner : Inner) :
    SparesGrant id (storeMessage P identity cfg delivery inner) := by
  have replies : SparesGrant id
      (enqueueReceipt P identity delivery.draw inner.sender inner.id .delivered
        delivery.topic) := by
    refine .of_confined (outward_enqueueReceipt _ _ _ _ _) fun operation outbound => ?_
    cases outbound <;> exact not_false
  have pushes (seq : Int) : SparesGrant id (pushStored seq) := by
    have confined : Prog.Within (fun _ => True) (StoreChange fun _ => False) (fun _ => True)
        (pushStored seq) := confined_pushStored seq
    exact .of_confined confined fun _ => False.elim
  have bounds (maxMessages maxBytes : Nat) :
      SparesGrant id (Calls.enforceBounds maxMessages maxBytes) := by
    refine .storeCall (fun _ => not_false) fun _ writes left remaining => ?_
    simp only [Store.Op.upTo, Option.some.injEq] at remaining
    rw [← remaining]
    exact not_false
  have inserts : SparesGrant id (Calls.insertInbound inner delivery.topic) :=
    .storeCall (fun _ => not_false) (by simp [Store.Op.upTo])
  refine inserts.andThen fun inserted => ?_
  split
  · refine (bounds _ _).andThen fun _ => (pushes _).andThen fun _ => ?_
    split
    · exact replies.andThen fun _ => .done
    · exact .done
  · exact .done
  · exact .done

/-- Only a plain message whose grant is looked up has a grant recorded. -/
private theorem sparesGrant_acceptMessage
    {cfg : Config} {trust : TrustStore} {delivery : Delivery} {inner : Inner}
    (others : ∀ claims, inner.Plain →
      guardClaims P trust delivery.clock.guardCheck inner = some claims → claims.id ≠ id) :
    SparesGrant id (acceptMessage P identity cfg trust delivery inner) := by
  refine .of_confined confined_acceptMessage fun operation permitted => ?_
  cases permitted with
  | grantSeen claims now plain looked =>
      exact others claims plain looked
  | _ =>
      exact not_false

end Spared

/-! ## One attempt -/

section Steps

variable {P : Platform} {identity : Identity} {world : World} {attempt : Attempt}
  {inner : Inner} {claims : GrantClaims} {id : String}

/-- An attempt that does not look the grant up does not record it. -/
theorem Attempt.used_after_spared
    (others : ∀ inner claims, attempt.Accepts P identity inner → inner.Plain →
      guardClaims P (attempt.trust P) attempt.delivery.clock.guardCheck inner = some claims →
      claims.id ≠ id) (count : Nat) :
    (attempt.after P identity world count).store.used id = world.store.used id := by
  unfold Attempt.after onMsg
  split
  · exact SparesGrant.execUpTo .done count _ _
  · have offers (entry : PendingPair) : SparesGrant id (offerPending entry) :=
      .call (fun _ _ _ => rfl) fun _ _ _ => trivial
    exact SparesGrant.execUpTo ((offers _).andThen fun _ => .done) count _ _
  · exact SparesGrant.execUpTo ((spares_recordRejection _ _ _ _).andThen fun _ => .done) count _ _
  · rename_i passed
    match count with
    | 0 => rfl
    | 1 => rfl
    | count + 2 =>
        have settles : SparesGrant id (settle P identity (attempt.config P) (attempt.trust P)
            attempt.delivery) := by
          unfold settle
          split
          · rename_i inner verified
            exact sparesGrant_acceptMessage fun claims =>
              others inner claims ⟨passed, verified⟩
          · exact (spares_recordRejection _ _ _ _).andThen fun _ => .done
        exact settles.execUpTo count _ (world.withFiles attempt.toArrival)

/-- The actions after the files have been read are those of the accepted message. -/
theorem Attempt.after_of_accepts
    (accepts : attempt.Accepts P identity inner) (count : Nat) :
    attempt.after P identity world (count + 2) =
      (acceptMessage P identity (attempt.config P) (attempt.trust P) attempt.delivery
        inner).execUpTo count (fun index => attempt.inputs (index + 2))
          (world.withFiles attempt.toArrival) := by
  rw [after, accepts.onMsg_eq, ← accepts.settle_eq]
  rfl

theorem Attempt.after_early
    (accepts : attempt.Accepts P identity inner) {count : Nat} (early : count ≤ 2) :
    (attempt.after P identity world count).store = world.store := by
  match count with
  | 0 => rfl
  | 1 =>
      rw [after, accepts.onMsg_eq]
      rfl
  | 2 =>
      rw [after_of_accepts accepts 0]
      rfl

/-- What follows the guard. -/
def afterGuard (P : Platform) (identity : Identity) (cfg : Config) (delivery : Delivery)
    (inner : Inner) (replayed : Bool) : Thread Outcome :=
  if replayed then do
    let _ ← Calls.recordRejection .replayedGrant (some inner.sender) delivery.topic ""
    return .replayed
  else storeMessage P identity cfg delivery inner

theorem Attempt.after_guard
    (accepts : attempt.Accepts P identity inner) (plain : inner.Plain)
    (looked : guardClaims P (attempt.trust P) attempt.delivery.clock.guardCheck inner =
      some claims) (count : Nat) :
    attempt.after P identity world (count + 3) =
      (afterGuard P identity (attempt.config P) attempt.delivery inner
        (Checked.unwrapOr false
          (match (attempt.inputs GUARD_ACTION).fault with
            | none => .ok (world.store.seenGrant claims.id "").2
            | some _ => .error (Error.store "")))).execUpTo count
        (fun index => attempt.inputs (index + 3))
        { world.withFiles attempt.toArrival with
          store := world.store.attempt
            (.seenGrant claims.id (attempt.inputs GUARD_ACTION).now)
            (attempt.inputs GUARD_ACTION).fault } := by
  rw [after_of_accepts accepts (count + 1), acceptMessage_of_plain plain, grantReplayed, looked]
  rfl

/-- A grant id that was not used before is recorded by the guard. -/
theorem Attempt.records_of_used
    {count : Nat} (performed : ∀ action, action < count → attempt.Performs action)
    (used : (attempt.after P identity world count).store.used id = true)
    (unused : world.store.used id = false) :
    ∃ inner claims, attempt.Records P identity world inner claims ∧ claims.id = id := by
  by_cases found : ∃ inner claims, attempt.Accepts P identity inner ∧ inner.Plain ∧
      guardClaims P (attempt.trust P) attempt.delivery.clock.guardCheck inner = some claims ∧
      claims.id = id
  · obtain ⟨inner, claims, accepts, plain, looked, rfl⟩ := found
    match count with
    | 0 | 1 | 2 =>
        rw [after_early accepts (by omega), unused] at used
        exact nomatch used
    | count + 3 =>
        have guards : attempt.Performs GUARD_ACTION := performed 2 (by omega)
        cases fault : (attempt.inputs GUARD_ACTION).fault with
        | none =>
            exact ⟨inner, claims, ⟨accepts, plain, looked, unused, guards, fault⟩, rfl⟩
        | some writes =>
            rw [after_guard accepts plain looked, fault] at used
            have stores : SparesGrant claims.id (storeMessage P identity (attempt.config P)
                attempt.delivery inner) := sparesGrant_storeMessage _ _ _
            have spared := stores.execUpTo count
              (fun index => attempt.inputs (index + 3)) (world.withFiles attempt.toArrival)
            have same : (world.withFiles attempt.toArrival).store.used claims.id = false := unused
            rw [same] at spared
            exact absurd used (Bool.eq_false_iff.mp spared)
  · have others : ∀ inner claims, attempt.Accepts P identity inner → inner.Plain →
        guardClaims P (attempt.trust P) attempt.delivery.clock.guardCheck inner = some claims →
        claims.id ≠ id :=
      fun inner claims accepts plain looked same =>
        found ⟨inner, claims, accepts, plain, looked, same⟩
    rw [used_after_spared others, unused] at used
    exact nomatch used

/-- A message whose grant is recorded is inserted, if its id is free and the insertion
follows and succeeds. -/
theorem Attempt.Records.inserts
    (records : attempt.Records P identity world inner claims)
    (fresh : world.store.containsId inner.id = false)
    (performed : attempt.Performs INSERT_ACTION)
    (succeeds : (attempt.inputs INSERT_ACTION).Succeeds) :
    attempt.Inserts P identity world inner := by
  have unseen : (world.store.seenGrants[claims.id]?).isSome = false := records.unused
  have answer : (world.store.seenGrant claims.id "").2 = false := by
    simp [Store.seenGrant, unseen]
  have guarded (count : Nat) : attempt.after P identity world (count + 3) = _ :=
    Attempt.after_guard records.accepts records.plain records.looked count
  have recorded : (attempt.inputs GUARD_ACTION).fault = none := records.succeeds
  have inserted : (attempt.inputs INSERT_ACTION).fault = none := succeeds
  rw [recorded, answer] at guarded
  refine ⟨records.accepts, INSERT_ACTION, performed, ?_, ?_⟩
  · have reached := guarded 0
    rw [INSERT_ACTION, reached]
    have same := world.store.seenGrant_messages claims.id (attempt.inputs GUARD_ACTION).now
    have held : (world.store.seenGrant claims.id (attempt.inputs GUARD_ACTION).now).1.containsId
        inner.id = false := by
      rw [Store.containsId, same]
      exact fresh
    exact held
  · have before := guarded 0
    have after := guarded 1
    rw [INSERT_ACTION, before, after]
    have stored (store : Store) :
        store.attempt (.insertInbound inner attempt.delivery.topic)
          (attempt.inputs INSERT_ACTION).fault =
          (store.insertInbound inner attempt.delivery.topic).1 := by
      rw [inserted]
      rfl
    exact stored _

theorem Attempt.final_of_complete (complete : attempt.crash = none) :
    attempt.final P identity world = (arrive P identity world attempt.toArrival).1 := by
  rw [final, complete]

theorem Attempt.final_of_crash {ended : Nat} (crashed : attempt.crash = some ended) :
    attempt.final P identity world = (attempt.after P identity world ended).afterExit := by
  rw [final, crashed]

/-- The store that an attempt leaves is that of one of its states. -/
theorem Attempt.final_store (P : Platform) (identity : Identity) (world : World)
    (attempt : Attempt) :
    ∃ count, (attempt.final P identity world).store =
        (attempt.after P identity world count).store ∧
      ∀ action, action < count → attempt.Performs action := by
  cases crashed : attempt.crash with
  | none =>
      refine ⟨(onMsg P identity attempt.delivery).actions attempt.inputs
        (world.withFiles attempt.toArrival), ?_, ?_⟩
      · rw [final_of_complete crashed, after, Prog.execUpTo_actions, arrive]
      · intro action _ ended found
        rw [crashed] at found
        exact nomatch found
  | some ended =>
      refine ⟨ended, ?_, ?_⟩
      · rw [final_of_crash crashed, World.afterExit_store]
      · intro action earlier other found
        rw [crashed] at found
        cases found
        exact earlier

/-- What one attempt records, it stores. -/
theorem Attempt.stored_of_recorded
    (condition : attempt.StoresRecorded P identity world)
    (used : (attempt.final P identity world).store.used id = true)
    (unused : world.store.used id = false) :
    ∃ inner, attempt.Inserts P identity world inner ∧ grantId P inner = some id := by
  obtain ⟨count, same, performed⟩ := attempt.final_store P identity world
  rw [same] at used
  obtain ⟨inner, claims, records, rfl⟩ := records_of_used performed used unused
  obtain ⟨fresh, inserted, succeeds⟩ := condition inner claims records
  exact ⟨inner, records.inserts fresh inserted succeeds, grantId_of_guardClaims records.looked⟩

end Steps

/-! ## Whole runs -/

section Runs

variable {P : Platform} {identity : Identity} {start : World}

theorem StoredWithGrant.cons
    {attempt : Attempt} {rest : List Attempt} {id : String}
    (later : StoredWithGrant P identity (attempt.final P identity start) rest id) :
    StoredWithGrant P identity start (attempt :: rest) id := by
  obtain ⟨earlier, inserting, later, inner, rfl, inserts, carried⟩ := later
  exact ⟨attempt :: earlier, inserting, later, inner, rfl, inserts, carried⟩

/-- A grant is used only if a message that carries it was inserted. -/
theorem used_of_run (attempts : List Attempt) (id : String) :
    ∀ start, EveryAttempt P identity (Attempt.StoresRecorded P identity) start attempts →
      (attemptAll P identity start attempts).store.used id = true →
      start.store.used id = true ∨ StoredWithGrant P identity start attempts id := by
  induction attempts with
  | nil =>
      intro start _ used
      exact Or.inl used
  | cons attempt rest inductionHypothesis =>
      intro start conditions used
      obtain ⟨here, later⟩ := Machine.everyStep_cons_iff.mp conditions
      rcases inductionHypothesis _ later used with earlier | stored
      · cases before : start.store.used id with
        | true =>
            exact Or.inl rfl
        | false =>
            obtain ⟨inner, inserts, carried⟩ := Attempt.stored_of_recorded here earlier before
            exact Or.inr ⟨[], attempt, rest, inner, rfl, inserts, carried⟩
      · exact Or.inr stored.cons

/-- An arrival that carries an unused grant under a free id is stored. -/
theorem stored_of_unused
    {world : World} {arrival : Arrival} {inner : Inner} {id : String}
    (succeeds : ∀ index, (arrival.inputs index).Succeeds)
    (accepts : arrival.Accepts P identity inner) (plain : inner.Plain)
    (carried : grantId P inner = some id) (unused : world.store.used id = false)
    (fresh : world.store.containsId inner.id = false) :
    ∃ seq, (arrive P identity world arrival).2 = .stored seq inner := by
  have ingested := arrive_succeeds P identity world succeeds
  have free : world.store.grantUsed (guardClaims P (arrival.trust P)
      arrival.delivery.clock.guardCheck inner) = false := by
    cases looked : guardClaims P (arrival.trust P) arrival.delivery.clock.guardCheck inner with
    | none =>
        rfl
    | some claims =>
        have same := grantId_of_guardClaims looked
        rw [carried] at same
        cases same
        exact unused
  generalize (arrive P identity world arrival).1 = reached at ingested
  generalize (arrive P identity world arrival).2 = outcome at ingested ⊢
  cases ingested with
  | aside unplain _ _ =>
      exact absurd plain (unplain inner accepts)
  | replayed other _ _ accepted _ used _ =>
      rw [accepts.unique accepted] at used
      exact absurd used (Bool.eq_false_iff.mp free)
  | duplicate other _ accepted _ _ taken _ =>
      rw [accepts.unique accepted] at taken
      exact absurd taken (Bool.eq_false_iff.mp fresh)
  | stored other _ accepted _ _ _ _ =>
      rw [accepts.unique accepted]
      exact ⟨_, rfl⟩

end Runs

/-- In every run in which each grant that the guard records is recorded for a message
that is then inserted, a grant is used only if a message that carries it was inserted;
so a message whose grant was not used can still be delivered. -/
theorem used_grants_stored
    (P : Platform) (identity : Identity) (start : World) (attempts : List Attempt)
    (conditions : EveryAttempt P identity (Attempt.StoresRecorded P identity) start attempts)
    (id : String) (unused : start.store.used id = false) :
    ((attemptAll P identity start attempts).store.used id = true →
      StoredWithGrant P identity start attempts id) ∧
    (¬ StoredWithGrant P identity start attempts id →
      ∀ arrival inner, (∀ index, (arrival.inputs index).Succeeds) →
        arrival.Accepts P identity inner → inner.Plain → grantId P inner = some id →
        (attemptAll P identity start attempts).store.containsId inner.id = false →
        ∃ seq, (arrive P identity (attemptAll P identity start attempts) arrival).2 =
          .stored seq inner) := by
  have stored : (attemptAll P identity start attempts).store.used id = true →
      StoredWithGrant P identity start attempts id := by
    intro used
    rcases used_of_run attempts id start conditions used with before | carried
    · rw [unused] at before
      exact nomatch before
    · exact carried
  refine ⟨stored, fun unstored arrival inner succeeds accepts plain carried fresh => ?_⟩
  have free : (attemptAll P identity start attempts).store.used id = false :=
    Bool.eq_false_iff.mpr fun used => unstored (stored used)
  exact stored_of_unused succeeds accepts plain carried free fresh

/-- A complete run of the callback on an entry of a bench, all clocks at zero. -/
def completeAttempt (tag : UInt8) : Attempt :=
  { toArrival := grantArrival tag 0 0 }

theorem used_grants_stored_deploy :
    StoredWithGrant grantBench.platform Bench.me Bench.world [completeAttempt 0] "g1" := by
  have condition : (completeAttempt 0).StoresRecorded grantBench.platform Bench.me
      Bench.world := by
    intro inner claims _
    exact ⟨rfl, nofun, rfl⟩
  have stored := (used_grants_stored grantBench.platform Bench.me Bench.world
    [completeAttempt 0] (Machine.everyStep_cons condition Machine.everyStep_nil) "g1" rfl).1
  have looked : guardClaims grantBench.platform
      ((grantArrival 0 0 0).trust grantBench.platform)
      (grantArrival 0 0 0).delivery.clock.guardCheck (grantedText "m1") = some deployClaims :=
    grantBench_guard (by decide)
  have plain : (grantedText "m1").Plain := Bench.textTo_plain "*" "m1" "alice" "t0" "go"
  apply stored
  have complete : (completeAttempt 0).crash = none := rfl
  rw [attemptAll, Machine.run_cons, Machine.run_nil, Attempt.final_of_complete complete,
    completeAttempt, arrive_of_accepts grant_accepted_first, acceptMessage_of_plain plain,
    grantReplayed, looked]
  rfl

/-! ## A grant used up by a message that is not stored -/

/-- The process ends after the guard has recorded the grant. -/
def crashedAttempt : Attempt :=
  { toArrival := grantArrival 0 0 0, crash := some 3 }

private theorem crashedAttempt_accepts :
    crashedAttempt.Accepts grantBench.platform Bench.me (grantedText "m1") :=
  grant_accepted_first

private theorem crashedAttempt_looked :
    guardClaims grantBench.platform (crashedAttempt.trust grantBench.platform)
      crashedAttempt.delivery.clock.guardCheck (grantedText "m1") = some deployClaims :=
  grantBench_guard (by decide)

private theorem crashedAttempt_recorded :
    (crashedAttempt.after grantBench.platform Bench.me Bench.world 3).store =
      (({} : Store).seenGrant "g1" "").1 := by
  have plain : (grantedText "m1").Plain := Bench.textTo_plain "*" "m1" "alice" "t0" "go"
  rw [Attempt.after_guard crashedAttempt_accepts plain crashedAttempt_looked 0]
  rfl

private theorem crashedAttempt_empty {count : Nat} (early : count ≤ 3) :
    (crashedAttempt.after grantBench.platform Bench.me Bench.world count).store.messages.rows =
      [] := by
  by_cases guarded : count = 3
  · rw [guarded, crashedAttempt_recorded]
    rfl
  · rw [Attempt.after_early crashedAttempt_accepts (by omega)]
    rfl

/-- A crash between the two calls uses up the grant, and no message carries it. -/
theorem grant_used_unstored :
    ¬ ∀ (P : Platform) (identity : Identity) (start : World) (attempts : List Attempt)
        (id : String), start.store.used id = false →
        (attemptAll P identity start attempts).store.used id = true →
        StoredWithGrant P identity start attempts id := by
  intro carried
  have used : (attemptAll grantBench.platform Bench.me Bench.world [crashedAttempt]).store.used
      "g1" = true := by
    have crashed : crashedAttempt.crash = some 3 := rfl
    have recorded := crashedAttempt_recorded
    rw [attemptAll, Machine.run_cons, Machine.run_nil, Attempt.final_of_crash crashed,
      World.afterExit_store, recorded]
    rfl
  obtain ⟨earlier, attempt, later, inner, split, ⟨_, count, performed, free, inserted⟩, _⟩ :=
    carried grantBench.platform Bench.me Bench.world [crashedAttempt] "g1" rfl used
  obtain ⟨rfl, same⟩ : earlier = [] ∧ attempt = crashedAttempt := by
    cases earlier with
    | nil =>
        exact ⟨rfl, (List.cons.inj split).1.symm⟩
    | cons head tail =>
        exact absurd (List.cons.inj split).2 (by simp)
  subst same
  have early : count < 3 := performed 3 rfl
  have emptyAfter := crashedAttempt_empty (Nat.succ_le_of_lt early)
  rw [attemptAll, Machine.run_nil] at inserted free
  rw [inserted] at emptyAfter
  have added (store : Store) (fresh : store.containsId inner.id = false) :
      (store.insertInbound inner crashedAttempt.delivery.topic).1.messages.rows ≠ [] := by
    have rows := (RowTable.insertOrIgnore_fresh
      (show store.messages.holds (MsgRow.id (Store.inboundRow inner
        crashedAttempt.delivery.topic)) = false from fresh)).1
    simp only [Store.insertInbound, rows]
    exact List.append_ne_nil_of_right_ne_nil _ (List.cons_ne_nil _ _)
  exact added _ free emptyAfter

end AgentMsg
