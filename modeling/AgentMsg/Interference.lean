import AgentMsg.Grants
import AgentMsg.Retention

/-!
# Interference between senders

All senders share the ids of messages and of grants.  What an ingest does to the ids
taken, the grants used and the inbound rows depends on these alone, so removing the
payloads of other senders changes nothing for a sender with whom they share no id.
-/

namespace AgentMsg

open Checked

/-- Does the payload carry a message that names the sender? -/
def Arrival.names (P : Platform) (sender : String) (arrival : Arrival) : Bool :=
  match P.wrapperJson.decode arrival.delivery.payload with
  | none => false
  | some wrapper =>
      match wrapper.peek P with
      | .ok inner => inner.sender == sender
      | .error _ => false

/-- The sender's inbound rows, without the row id. -/
def StoredFrom (store : Store) (sender : String) (row : MsgRow) : Prop :=
  row.direction = .inbound ∧ row.sender = sender ∧ ∃ seq, (seq, row) ∈ store.messages.rows

/-- The id of the automatic receipt of a message. -/
def receiptId (P : Platform) (identity : Identity) (arrival : Arrival) (inner : Inner) :
    Option String :=
  if wantsReceipt identity (arrival.config P) inner then
    (build P identity arrival.delivery.draw
      (receiptOpts inner.sender inner.id .delivered)).toOption.map fun built => built.1.id
  else none

/-- The arriving message is stored. -/
structure Stores (P : Platform) (identity : Identity) (store : Store) (arrival : Arrival)
    (inner : Inner) : Prop where
  accepts : arrival.Accepts P identity inner
  plain : inner.Plain
  unused : store.grantUsed
    (guardClaims P (arrival.trust P) arrival.delivery.clock.guardCheck inner) = false
  fresh : store.messages.holds inner.id = false

/-- The bounds delete nothing when the arriving message is stored. -/
def NeverEvicts (P : Platform) (identity : Identity) (world : World) (arrival : Arrival) :
    Prop :=
  ∀ inner, Stores P identity world.store arrival inner →
    (Store.boundTable (insertedLog world arrival.delivery inner)
        (arrival.config P).maxMessages (arrival.config P).maxBytes).1.rows =
      (insertedLog world arrival.delivery inner).rows

/-- Two arrivals share neither a message id nor a grant, and the automatic receipt of
the one does not take the message id of the other. -/
def SharesNothing (P : Platform) (identity : Identity) (other own : Arrival) : Prop :=
  ∀ taken, other.Accepts P identity taken → taken.Plain →
    ∀ inner, own.Accepts P identity inner → inner.Plain →
      taken.id ≠ inner.id ∧ receiptId P identity other taken ≠ some inner.id ∧
        ∀ id, grantId P taken = some id → grantId P inner ≠ some id

/-! ## The sender of an accepted message -/

theorem Wrapper.sender_of_peek
    {P : Platform} {wrapper : Wrapper} {trust : TrustStore} {clock : Clock}
    {freshness : Int} {maxPayload : Nat} {allowUnsigned acceptV1 : Bool} {raw : Bytes}
    {me : Identity} {out : Inner} (parsed : P.wrapperJson.decode raw = some wrapper)
    (verified :
      verifyIncoming P raw me trust clock freshness maxPayload allowUnsigned acceptV1 =
        .ok out) :
    ∃ inner, wrapper.peek P = .ok inner ∧ out.sender = inner.sender := by
  obtain ⟨found, inner, foundParsed, finalized, path⟩ := verifyIncoming_ok verified
  have same : found = wrapper := Option.some.inj (foundParsed.symm.trans parsed)
  subst same
  have sender : out.sender = inner.sender := by
    rw [finalized.same]
  refine ⟨inner, ?_, sender⟩
  rcases path with ⟨innerBytes, publicKey, signed⟩ | ⟨_, _, peeked, _⟩
  · simp only [Wrapper.peek, Wrapper.innerBytes, Wrapper.parseInner, bind_eq_ok, okOr_eq_ok]
    exact ⟨innerBytes, signed.decoded, signed.parsed⟩
  · exact peeked

theorem Arrival.names_of_accepts
    {P : Platform} {identity : Identity} {arrival : Arrival} {inner : Inner}
    (accepts : arrival.Accepts P identity inner) (sender : String) :
    arrival.names P sender = (inner.sender == sender) := by
  obtain ⟨wrapper, _, parsed, _⟩ := verifyIncoming_ok accepts.verified
  obtain ⟨carried, peeked, same⟩ := Wrapper.sender_of_peek parsed accepts.verified
  rw [names, parsed]
  dsimp only
  rw [peeked, same]

/-! ## What an ingest depends on -/

section Effects

variable {P : Platform} {identity : Identity} {world : World} {arrival : Arrival}

variable (P identity arrival) in
theorem Store.holds_receipted
    (store : Store) (inner : Inner) (id : String) :
    (store.receipted P identity (arrival.config P) arrival.delivery inner).messages.holds id =
      (store.messages.holds id || decide (receiptId P identity arrival inner = some id)) := by
  unfold receipted receiptId
  by_cases wanted : wantsReceipt identity (arrival.config P) inner = true
  · rw [if_pos wanted, if_pos wanted]
    cases built : build P identity arrival.delivery.draw
        (receiptOpts inner.sender inner.id .delivered) with
    | error reason =>
        simp [Except.toOption]
    | ok result =>
        have inserted := store.messages.holds_insertOrIgnore
          (outboundRow result.1 arrival.delivery.topic) id
        have ids : (outboundRow result.1 arrival.delivery.topic).id = result.1.id := rfl
        rw [ids] at inserted
        simp only [Except.toOption, Option.map_some, Option.some.injEq]
        exact inserted
  · rw [if_neg wanted, if_neg wanted]
    simp

theorem AsideOp.holds
    {operation : Store.Op} (aside : AsideOp operation) (store : Store) (id : String) :
    (store.apply operation).messages.holds id = store.messages.holds id := by
  cases aside with
  | reject =>
      rfl
  | presence agent beacon lastSeen now =>
      simp only [Store.apply, Store.upsertPresence]
      split
      · rfl
      · split <;> rfl
  | delivered origId ts =>
      exact store.messages.holds_updateWhere _ _ _ id
  | read origId ts =>
      exact store.messages.holds_updateWhere _ _ _ id

theorem AsideOp.quiet {operation : Store.Op} (aside : AsideOp operation) : operation.Quiet := by
  cases aside <;> simp [Store.Op.Quiet, Store.Op.Trims]

private theorem holds_of_rows
    {first second : MessageTable} (rows : first.rows = second.rows) (id : String) :
    first.holds id = second.holds id := by
  rw [RowTable.holds, RowTable.holds, rows]

/-- The message log after an ingest: unless a message is stored, its ids and inbound rows
stay; else the ids of the message and of its receipt are taken, and its row is new. -/
inductive LogEffect (P : Platform) (identity : Identity) (store : Store) (arrival : Arrival)
    (final : Store) : Prop
  | kept (unstored : ∀ inner, ¬ Stores P identity store arrival inner)
      (ids : ∀ id, final.messages.holds id = store.messages.holds id)
      (rows : Store.SameInbound store.messages final.messages)
  | stored (inner : Inner) (stores : Stores P identity store arrival inner)
      (ids : ∀ id, final.messages.holds id =
        ((store.messages.holds id || decide (inner.id = id)) ||
          decide (receiptId P identity arrival inner = some id)))
      (rows : ∀ row : Int × MsgRow, row.2.direction = .inbound →
        (row ∈ final.messages.rows ↔ row ∈ store.messages.rows ∨
          row = (store.messages.last + 1, Store.inboundRow inner arrival.delivery.topic)))

theorem Ingested.logEffect
    {final : World} {outcome : Outcome} (never : NeverEvicts P identity world arrival)
    (ingested : Ingested P identity (world.withFiles arrival) arrival.delivery final outcome) :
    LogEffect P identity world.store arrival final.store := by
  cases ingested with
  | aside unplain _ change =>
      refine .kept (fun inner stores => unplain inner stores.accepts stores.plain) ?_ ?_
      · intro id
        rcases change with same | ⟨operation, aside, applied⟩
        · rw [same]
          rfl
        · rw [applied]
          exact aside.holds world.store id
      · rcases change with same | ⟨operation, aside, applied⟩
        · rw [same]
          exact .refl _
        · rw [applied]
          exact (Store.apply_log world.store operation).sameInbound aside.quiet
  | replayed inner now later accepted plain used result =>
      have messages : final.store.messages = world.store.messages := by
        rw [result]
        exact world.store.recordGrant_messages _ now
      refine .kept (fun other stores => ?_) (fun id => by rw [messages]) ?_
      · have unused := stores.unused
        rw [accepted.unique stores.accepts] at unused
        exact Bool.false_ne_true (unused.symm.trans used)
      · rw [messages]
        exact .refl _
  | duplicate inner now accepted plain unused taken result =>
      have recorded := world.store.recordGrant_messages
        (guardClaims P (arrival.trust P) arrival.delivery.clock.guardCheck inner) now
      have messages : final.store.messages.rows = world.store.messages.rows := by
        have skipped : (world.store.messages.insertOrIgnore
            (Store.inboundRow inner arrival.delivery.topic)).1.rows =
            world.store.messages.rows := by
          rw [RowTable.insertOrIgnore_taken taken]
          rfl
        rw [result]
        refine Eq.trans ?_ skipped
        exact congrArg (fun table : MessageTable => (table.insertOrIgnore
          (Store.inboundRow inner arrival.delivery.topic)).1.rows) recorded
      refine .kept (fun other stores => ?_) (holds_of_rows messages) ?_
      · have fresh := stores.fresh
        rw [accepted.unique stores.accepts] at fresh
        exact Bool.false_ne_true (fresh.symm.trans taken)
      · intro row _
        rw [messages]
  | stored inner now accepted plain unused fresh result =>
      have stores : Stores P identity world.store arrival inner :=
        ⟨accepted, plain, unused, fresh⟩
      have bounded : ((((world.store.recordGrant (guardClaims P (arrival.trust P)
          arrival.delivery.clock.guardCheck inner) now).insertInbound inner
            arrival.delivery.topic).1.enforceBounds (arrival.config P).maxMessages
              (arrival.config P).maxBytes).1).messages.rows =
          (insertedLog world arrival.delivery inner).rows := by
        have recorded := world.store.recordGrant_messages
          (guardClaims P (arrival.trust P) arrival.delivery.clock.guardCheck inner) now
        simp only [Store.enforceBounds, Store.insertInbound, recorded]
        exact never inner stores
      refine .stored inner stores (fun id => ?_) fun row inbound => ?_
      · have inserted := world.store.messages.holds_insertOrIgnore
          (Store.inboundRow inner arrival.delivery.topic) id
        have held := (holds_of_rows bounded id).trans inserted
        rw [result]
        refine (Store.holds_receipted P identity arrival _ inner id).trans ?_
        exact congrArg (· || decide (receiptId P identity arrival inner = some id)) held
      · rw [result]
        have present := iff_of_eq (congrArg (row ∈ ·) bounded)
        have inserted : row ∈ (insertedLog world arrival.delivery inner).rows ↔ _ :=
          RowTable.mem_insertOrIgnore.trans (or_congr_right (and_iff_right fresh))
        exact (Store.mem_receipted inbound).trans (present.trans inserted)

/-- A grant is used after an ingest if it was used before, or the guard looked it up. -/
theorem Ingested.used_iff
    {final : World} {outcome : Outcome}
    (ingested : Ingested P identity (world.withFiles arrival) arrival.delivery final outcome)
    (id : String) :
    final.store.used id = true ↔
      world.store.used id = true ∨ ∃ inner, arrival.Accepts P identity inner ∧ inner.Plain ∧
        ∃ claims, guardClaims P (arrival.trust P) arrival.delivery.clock.guardCheck inner =
          some claims ∧ claims.id = id := by
  have recorded {inner : Inner} (accepts : arrival.Accepts P identity inner)
      (plain : inner.Plain) (now : String) :
      (world.store.recordGrant (guardClaims P (arrival.trust P)
          arrival.delivery.clock.guardCheck inner) now).used id = true ↔
        world.store.used id = true ∨ ∃ inner, arrival.Accepts P identity inner ∧ inner.Plain ∧
          ∃ claims, guardClaims P (arrival.trust P) arrival.delivery.clock.guardCheck inner =
            some claims ∧ claims.id = id := by
    rw [Store.used_recordGrant, Bool.or_eq_true, Option.any_eq_true]
    apply or_congr_right
    constructor
    · rintro ⟨claims, looked, same⟩
      exact ⟨inner, accepts, plain, claims, looked, beq_iff_eq.mp same⟩
    · rintro ⟨other, otherAccepts, _, claims, looked, same⟩
      rw [accepts.unique otherAccepts] at looked
      exact ⟨claims, looked, beq_iff_eq.mpr same⟩
  cases ingested with
  | aside unplain _ change =>
      have unused : final.store.used id = world.store.used id := by
        rcases change with same | ⟨operation, aside, applied⟩
        · rw [same]
          rfl
        · rw [applied]
          exact aside.used world.store id
      rw [unused]
      refine (or_iff_left ?_).symm
      rintro ⟨inner, accepts, plain, _⟩
      exact unplain inner accepts plain
  | replayed inner now later accepted plain _ result =>
      rw [result]
      exact recorded accepted plain now
  | duplicate inner now accepted plain _ _ result =>
      rw [result]
      exact recorded accepted plain now
  | stored inner now accepted plain _ _ result =>
      rw [result, Store.used_receipted]
      exact recorded accepted plain now

variable {store final : Store}

theorem Stores.unique
    {inner other : Inner} (stores : Stores P identity store arrival inner)
    (otherStores : Stores P identity store arrival other) : other = inner :=
  stores.accepts.unique otherStores.accepts

theorem LogEffect.holds_iff (effect : LogEffect P identity store arrival final) (id : String) :
    final.messages.holds id = true ↔
      store.messages.holds id = true ∨ ∃ inner, Stores P identity store arrival inner ∧
        (inner.id = id ∨ receiptId P identity arrival inner = some id) := by
  cases effect with
  | kept unstored ids rows =>
      rw [ids]
      refine (or_iff_left ?_).symm
      rintro ⟨inner, stores, _⟩
      exact unstored inner stores
  | stored inner stores ids rows =>
      rw [ids, Bool.or_eq_true, Bool.or_eq_true, decide_eq_true_eq, decide_eq_true_eq, or_assoc]
      apply or_congr_right
      constructor
      · intro taken
        exact ⟨inner, stores, taken⟩
      · rintro ⟨other, otherStores, taken⟩
        rwa [stores.unique otherStores] at taken

theorem LogEffect.storedFrom_iff
    (effect : LogEffect P identity store arrival final) (sender : String) (row : MsgRow) :
    StoredFrom final sender row ↔
      StoredFrom store sender row ∨ ∃ inner, Stores P identity store arrival inner ∧
        inner.sender = sender ∧ row = Store.inboundRow inner arrival.delivery.topic := by
  cases effect with
  | kept unstored ids rows =>
      have same : StoredFrom final sender row ↔ StoredFrom store sender row :=
        and_congr_right fun inbound => and_congr_right fun _ =>
          exists_congr fun seq => rows (seq, row) inbound
      rw [same]
      refine (or_iff_left ?_).symm
      rintro ⟨inner, stores, _⟩
      exact unstored inner stores
  | stored inner stores ids rows =>
      constructor
      · rintro ⟨inbound, source, seq, member⟩
        rcases (rows (seq, row) inbound).mp member with old | new
        · exact Or.inl ⟨inbound, source, seq, old⟩
        · have value : row = Store.inboundRow inner arrival.delivery.topic :=
            congrArg Prod.snd new
          refine Or.inr ⟨inner, stores, ?_, value⟩
          rw [← source, value]
          rfl
      · rintro (⟨inbound, source, seq, member⟩ | ⟨other, otherStores, source, rfl⟩)
        · exact ⟨inbound, source, seq, (rows (seq, row) inbound).mpr (Or.inl member)⟩
        · rw [stores.unique otherStores] at source ⊢
          exact ⟨rfl, source, _, (rows _ rfl).mpr (Or.inr rfl)⟩

end Effects

/-! ## Two runs side by side -/

section Runs

variable {P : Platform} {identity : Identity} {sender : String} {ids grants : String → Prop}

/-- Two stores agree on the rows of a sender, and on the ids and grants it uses. -/
structure Alike (sender : String) (ids grants : String → Prop) (left right : Store) : Prop where
  rows : ∀ row, StoredFrom left sender row ↔ StoredFrom right sender row
  ids : ∀ id, ids id → left.messages.holds id = right.messages.holds id
  grants : ∀ id, grants id → left.used id = right.used id

theorem Alike.refl (store : Store) : Alike sender ids grants store store :=
  ⟨fun _ => Iff.rfl, fun _ _ => rfl, fun _ _ => rfl⟩

/-- The ids of a message and of its grant are among the given ones. -/
def UsesOnly (P : Platform) (ids grants : String → Prop) (inner : Inner) : Prop :=
  ids inner.id ∧ ∀ id, grantId P inner = some id → grants id

/-- The ids that an arriving message takes are not among the given ones. -/
def UsesNone (P : Platform) (identity : Identity) (ids grants : String → Prop)
    (arrival : Arrival) (inner : Inner) : Prop :=
  ¬ ids inner.id ∧ (∀ id, receiptId P identity arrival inner = some id → ¬ ids id) ∧
    ∀ id, grantId P inner = some id → ¬ grants id

theorem Alike.stores
    {left right : Store} {arrival : Arrival} {inner : Inner}
    (alike : Alike sender ids grants left right) (uses : UsesOnly P ids grants inner)
    (stores : Stores P identity left arrival inner) : Stores P identity right arrival inner where
  accepts := stores.accepts
  plain := stores.plain
  fresh := (alike.ids inner.id uses.1).symm.trans stores.fresh
  unused := by
    have unused := stores.unused
    rw [Store.grantUsed_eq] at unused ⊢
    cases looked : guardClaims P (arrival.trust P) arrival.delivery.clock.guardCheck inner with
    | none =>
        rfl
    | some claims =>
        rw [looked] at unused
        exact (alike.grants claims.id (uses.2 claims.id (grantId_of_guardClaims looked))).symm.trans
          unused

theorem Alike.symm
    {left right : Store} (alike : Alike sender ids grants left right) :
    Alike sender ids grants right left :=
  ⟨fun row => (alike.rows row).symm, fun id named => (alike.ids id named).symm,
    fun id named => (alike.grants id named).symm⟩

variable {left right : World} {arrival : Arrival}

/-- A payload that arrives in both runs keeps them alike. -/
theorem Alike.both
    (alike : Alike sender ids grants left.store right.store)
    (succeeds : ∀ index, (arrival.inputs index).Succeeds)
    (leftNever : NeverEvicts P identity left arrival)
    (rightNever : NeverEvicts P identity right arrival)
    (uses : ∀ inner, arrival.Accepts P identity inner → inner.Plain → UsesOnly P ids grants inner) :
    Alike sender ids grants (arrive P identity left arrival).1.store
      (arrive P identity right arrival).1.store := by
  have leftIngested := arrive_succeeds P identity left succeeds
  have rightIngested := arrive_succeeds P identity right succeeds
  have leftEffect := leftIngested.logEffect leftNever
  have rightEffect := rightIngested.logEffect rightNever
  have same (inner : Inner) :
      Stores P identity left.store arrival inner ↔ Stores P identity right.store arrival inner := by
    constructor
    · intro stores
      exact alike.stores (uses inner stores.accepts stores.plain) stores
    · intro stores
      exact alike.symm.stores (uses inner stores.accepts stores.plain) stores
  constructor
  · intro row
    rw [leftEffect.storedFrom_iff, rightEffect.storedFrom_iff, alike.rows row]
    simp only [same]
  · intro id named
    rw [Bool.eq_iff_iff, leftEffect.holds_iff, rightEffect.holds_iff, alike.ids id named]
    simp only [same]
  · intro id named
    rw [Bool.eq_iff_iff, leftIngested.used_iff, rightIngested.used_iff, alike.grants id named]

/-- A payload that names another sender, and uses none of the ids, may be left out. -/
theorem Alike.onlyLeft
    (alike : Alike sender ids grants left.store right.store)
    (succeeds : ∀ index, (arrival.inputs index).Succeeds)
    (never : NeverEvicts P identity left arrival)
    (other : arrival.names P sender = false)
    (uses : ∀ inner, arrival.Accepts P identity inner → inner.Plain →
      UsesNone P identity ids grants arrival inner) :
    Alike sender ids grants (arrive P identity left arrival).1.store right.store := by
  have ingested := arrive_succeeds P identity left succeeds
  have effect := ingested.logEffect never
  constructor
  · intro row
    rw [← alike.rows row, effect.storedFrom_iff]
    apply or_iff_left
    rintro ⟨inner, stores, source, _⟩
    rw [Arrival.names_of_accepts stores.accepts, source, beq_self_eq_true] at other
    cases other
  · intro id named
    rw [← alike.ids id named, Bool.eq_iff_iff, effect.holds_iff]
    apply or_iff_left
    rintro ⟨inner, stores, taken⟩
    obtain ⟨apart, receiptApart, _⟩ := uses inner stores.accepts stores.plain
    rcases taken with rfl | receipt
    · exact apart named
    · exact receiptApart id receipt named
  · intro id named
    rw [← alike.grants id named, Bool.eq_iff_iff, ingested.used_iff]
    apply or_iff_left
    rintro ⟨inner, accepts, plain, claims, looked, rfl⟩
    obtain ⟨_, _, apart⟩ := uses inner accepts plain
    exact apart claims.id (grantId_of_guardClaims looked) named

/-- The runs over all arrivals and over those that name the sender end alike. -/
theorem Alike.runs
    (arrivals : List Arrival) :
    ∀ {left right : World}, Alike sender ids grants left.store right.store →
      (∀ arrival ∈ arrivals, ∀ index, (arrival.inputs index).Succeeds) →
      EveryStep P identity (NeverEvicts P identity) left arrivals →
      EveryStep P identity (NeverEvicts P identity) right
        (arrivals.filter (Arrival.names P sender)) →
      (∀ arrival ∈ arrivals, arrival.names P sender = true →
        ∀ inner, arrival.Accepts P identity inner → inner.Plain → UsesOnly P ids grants inner) →
      (∀ arrival ∈ arrivals, arrival.names P sender = false →
        ∀ inner, arrival.Accepts P identity inner → inner.Plain →
          UsesNone P identity ids grants arrival inner) →
      Alike sender ids grants (ingestAll P identity left arrivals).1.store
        (ingestAll P identity right (arrivals.filter (Arrival.names P sender))).1.store := by
  induction arrivals with
  | nil =>
      intro left right alike _ _ _ _ _
      exact alike
  | cons arrival rest inductionHypothesis =>
      intro left right alike succeeds leftNever rightNever own other
      obtain ⟨succeedsFirst, succeedsRest⟩ := List.forall_mem_cons.mp succeeds
      obtain ⟨ownFirst, ownRest⟩ := List.forall_mem_cons.mp own
      obtain ⟨otherFirst, otherRest⟩ := List.forall_mem_cons.mp other
      by_cases named : arrival.names P sender = true
      · rw [List.filter_cons_of_pos named] at rightNever ⊢
        have stepped := alike.both succeedsFirst leftNever.head rightNever.head (ownFirst named)
        exact inductionHypothesis stepped succeedsRest leftNever.tail rightNever.tail ownRest
          otherRest
      · rw [List.filter_cons_of_neg named] at rightNever ⊢
        have unnamed : arrival.names P sender = false := Bool.eq_false_iff.mpr named
        have stepped := alike.onlyLeft succeedsFirst leftNever.head unnamed (otherFirst unnamed)
        exact inductionHypothesis stepped succeedsRest leftNever.tail rightNever ownRest otherRest

end Runs

/-- A message of the sender carries the value. -/
def Carried (P : Platform) (identity : Identity) (sender : String) (arrivals : List Arrival)
    (field : Inner → Option String) (value : String) : Prop :=
  ∃ own ∈ arrivals, own.names P sender = true ∧
    ∃ inner, own.Accepts P identity inner ∧ inner.Plain ∧ field inner = some value

/-- If the bounds never evict, and no payload of another sender shares a message id or a
grant with one of the sender, then leaving those payloads out changes nothing in what is
stored from the sender. -/
theorem stored_from_sender_unaffected
    (P : Platform) (identity : Identity) (sender : String) (start : World)
    (arrivals : List Arrival)
    (succeeds : ∀ arrival ∈ arrivals, ∀ index, (arrival.inputs index).Succeeds)
    (never : EveryStep P identity (NeverEvicts P identity) start arrivals)
    (ownNever : EveryStep P identity (NeverEvicts P identity) start
      (arrivals.filter (Arrival.names P sender)))
    (apart : ∀ other ∈ arrivals, other.names P sender = false →
      ∀ own ∈ arrivals, own.names P sender = true → SharesNothing P identity other own)
    (row : MsgRow) :
    StoredFrom (ingestAll P identity start arrivals).1.store sender row ↔
      StoredFrom (ingestAll P identity start
        (arrivals.filter (Arrival.names P sender))).1.store sender row := by
  have alike : Alike sender (Carried P identity sender arrivals fun inner => some inner.id)
      (Carried P identity sender arrivals (grantId P)) start.store start.store := .refl _
  refine (alike.runs arrivals succeeds never ownNever ?_ ?_).rows row
  · intro own member named inner accepts plain
    constructor
    · exact ⟨own, member, named, inner, accepts, plain, rfl⟩
    · intro id carried
      exact ⟨own, member, named, inner, accepts, plain, carried⟩
  · intro other member unnamed taken takenAccepts takenPlain
    have shares (own : Arrival) (ownMember : own ∈ arrivals) (named : own.names P sender = true) :=
      apart other member unnamed own ownMember named taken takenAccepts takenPlain
    refine ⟨?_, ?_, ?_⟩
    · rintro ⟨own, ownMember, named, inner, accepts, plain, same⟩
      exact (shares own ownMember named inner accepts plain).1 (Option.some.inj same).symm
    · rintro id receipt ⟨own, ownMember, named, inner, accepts, plain, same⟩
      exact (shares own ownMember named inner accepts plain).2.1 (receipt.trans same.symm)
    · rintro id granted ⟨own, ownMember, named, inner, accepts, plain, same⟩
      exact (shares own ownMember named inner accepts plain).2.2 id granted same

/-! ## A message that takes the id of another sender's -/

/-- Two messages of Bob, and one of Alice under the id of the first. -/
def sharedBench : Bench :=
  { inners := [Bench.textTo "*" "x" "bob" "t0" "mine", Bench.textTo "*" "y" "bob" "t0" "other",
      Bench.textTo "*" "x" "alice" "t0" "hello"]
    instants := [("t0", 0)], trust := Bench.trusting ["alice", "bob"] }

def sharedArrival (tag : UInt8) : Arrival :=
  Bench.arrival (Bench.delivery tag 0 "")

theorem shared_accepts_first :
    (sharedArrival 0).Accepts sharedBench.platform Bench.me
      (Bench.textTo "*" "x" "bob" "t0" "mine") :=
  Bench.accepts_text rfl rfl (by decide) (by decide)
    (Bench.trusting_publicKey (List.mem_cons_of_mem _ List.mem_cons_self)) (by decide) (by decide)

theorem shared_accepts_other :
    (sharedArrival 1).Accepts sharedBench.platform Bench.me
      (Bench.textTo "*" "y" "bob" "t0" "other") :=
  Bench.accepts_text rfl rfl (by decide) (by decide)
    (Bench.trusting_publicKey (List.mem_cons_of_mem _ List.mem_cons_self)) (by decide) (by decide)

theorem shared_accepts_alice :
    (sharedArrival 2).Accepts sharedBench.platform Bench.me
      (Bench.textTo "*" "x" "alice" "t0" "hello") :=
  Bench.accepts_text rfl rfl (by decide) (by decide)
    (Bench.trusting_publicKey List.mem_cons_self) (by decide) (by decide)

/-- Only Alice's message names Alice. -/
private theorem shared_own
    {arrival : Arrival} {inner : Inner}
    (accepts : arrival.Accepts sharedBench.platform Bench.me inner)
    (sender : inner.sender = "bob") :
    [arrival, sharedArrival 2].filter (Arrival.names sharedBench.platform "alice") =
      [sharedArrival 2] := by
  have bob : arrival.names sharedBench.platform "alice" = false := by
    rw [Arrival.names_of_accepts accepts, sender]
    rfl
  have alice : (sharedArrival 2).names sharedBench.platform "alice" = true := by
    rw [Arrival.names_of_accepts shared_accepts_alice]
    rfl
  rw [List.filter_cons_of_neg (by rw [bob]; exact Bool.false_ne_true),
    List.filter_cons_of_pos alice, List.filter_nil]

/-- The message of Alice is stored after the other one of Bob, as it would be alone. -/
theorem stored_from_sender_unaffected_apart :
    StoredFrom (ingestAll sharedBench.platform Bench.me Bench.world
        [sharedArrival 1, sharedArrival 2]).1.store "alice"
        (Store.inboundRow (Bench.textTo "*" "x" "alice" "t0" "hello") "chat") ↔
      StoredFrom (ingestAll sharedBench.platform Bench.me Bench.world
        ([sharedArrival 1, sharedArrival 2].filter
          (Arrival.names sharedBench.platform "alice"))).1.store "alice"
        (Store.inboundRow (Bench.textTo "*" "x" "alice" "t0" "hello") "chat") := by
  refine stored_from_sender_unaffected sharedBench.platform Bench.me "alice" Bench.world _ ?_ ?_ ?_
    ?_ _
  · simp only [List.forall_mem_cons]
    exact ⟨fun _ => rfl, fun _ => rfl, nofun⟩
  · refine Machine.everyStep_cons ?_ (Machine.everyStep_cons ?_ Machine.everyStep_nil)
    · intro inner stores
      rw [shared_accepts_other.unique stores.accepts]
      decide
    · intro inner stores
      rw [shared_accepts_alice.unique stores.accepts, arrive_of_accepts shared_accepts_other]
      decide
  · rw [shared_own shared_accepts_other rfl]
    refine Machine.everyStep_cons ?_ Machine.everyStep_nil
    intro inner stores
    rw [shared_accepts_alice.unique stores.accepts]
    decide
  · intro other otherMember unnamed own ownMember named
    simp only [List.mem_cons, List.not_mem_nil, or_false] at otherMember ownMember
    have bob : other = sharedArrival 1 := by
      refine otherMember.resolve_right fun same => ?_
      rw [same, Arrival.names_of_accepts shared_accepts_alice] at unnamed
      exact absurd unnamed (by decide)
    have alice : own = sharedArrival 2 := by
      refine ownMember.resolve_left fun same => ?_
      rw [same, Arrival.names_of_accepts shared_accepts_other] at named
      exact absurd named (by decide)
    subst bob alice
    intro taken takenAccepts _ inner accepts _
    rw [shared_accepts_other.unique takenAccepts, shared_accepts_alice.unique accepts]
    refine ⟨by decide, by decide, ?_⟩
    intro id granted
    cases granted

/-- A trusted sender that takes the id of another one's message keeps it out. -/
theorem taken_id_interferes :
    ¬ ∀ (P : Platform) (identity : Identity) (sender : String) (start : World)
        (arrivals : List Arrival), start.store.messages.rows = [] →
        (∀ arrival ∈ arrivals, ((arrival.trust P).publicKey sender).isOk = true) →
        (∀ arrival ∈ arrivals, ∀ index, (arrival.inputs index).Succeeds) →
        EveryStep P identity (NeverEvicts P identity) start arrivals →
        EveryStep P identity (NeverEvicts P identity) start
          (arrivals.filter (Arrival.names P sender)) →
        ∀ row, StoredFrom (ingestAll P identity start arrivals).1.store sender row ↔
          StoredFrom (ingestAll P identity start
            (arrivals.filter (Arrival.names P sender))).1.store sender row := by
  intro unaffected
  have own := shared_own shared_accepts_first rfl
  have trusted : sharedBench.trust.publicKey "alice" = .ok (Bench.key "alice") :=
    Bench.trusting_publicKey List.mem_cons_self
  have trusts (tag : UInt8) :
      (((sharedArrival tag).trust sharedBench.platform).publicKey "alice").isOk = true :=
    congrArg Except.isOk trusted
  have same := unaffected sharedBench.platform Bench.me "alice" Bench.world
    [sharedArrival 0, sharedArrival 2] rfl
    (by simp only [List.forall_mem_cons]; exact ⟨trusts 0, trusts 2, nofun⟩)
    (by simp only [List.forall_mem_cons]; exact ⟨fun _ => rfl, fun _ => rfl, nofun⟩)
    (by
      refine Machine.everyStep_cons ?_ (Machine.everyStep_cons ?_ Machine.everyStep_nil)
      · intro inner stores
        rw [shared_accepts_first.unique stores.accepts]
        decide
      · intro inner stores
        rw [shared_accepts_alice.unique stores.accepts, arrive_of_accepts shared_accepts_first]
        decide)
    (by
      rw [own]
      refine Machine.everyStep_cons ?_ Machine.everyStep_nil
      intro inner stores
      rw [shared_accepts_alice.unique stores.accepts]
      decide)
    (Store.inboundRow (Bench.textTo "*" "x" "alice" "t0" "hello") "chat")
  rw [own] at same
  obtain ⟨_, _, seq, member⟩ := same.mpr ⟨rfl, rfl, 1, by
    rw [ingestAll, arrive_of_accepts shared_accepts_alice]
    decide⟩
  have fromBob : ∀ row ∈ (ingestAll sharedBench.platform Bench.me Bench.world
      [sharedArrival 0, sharedArrival 2]).1.store.messages.rows, row.2.sender = "bob" := by
    rw [ingestAll, ingestAll, arrive_of_accepts shared_accepts_first,
      arrive_of_accepts shared_accepts_alice]
    decide
  have alice : "alice" = "bob" := fromBob _ member
  exact absurd alice (by decide)

end AgentMsg
