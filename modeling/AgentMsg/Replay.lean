import AgentMsg.Acceptance

/-!
# Replay protection

A message is refused when its id is among the rows still stored, or when its
timestamp has left the freshness window.  The two together cover every replay only
as long as the retention bounds delete no row that is still inside the window.
-/

namespace AgentMsg

/-- The rows that the retention bounds delete when the arriving message is stored are
outside the freshness window. -/
def EvictsOnlyStale (P : Platform) (identity : Identity) (freshness : Int) (world : World)
    (arrival : Arrival) : Prop :=
  ∀ inner, arrival.Accepts P identity inner → inner.Plain →
    world.store.messages.holds inner.id = false →
    ∀ row ∈ (insertedLog world arrival.delivery inner).rows,
      row.2.direction = .inbound →
      row ∉ (Store.boundTable (insertedLog world arrival.delivery inner)
        (arrival.config P).maxMessages (arrival.config P).maxBytes).1.rows →
      freshEnough P arrival.delivery.clock.freshness row.2.ts freshness = false

/-- Messages with one id that are accepted in the run have one timestamp. -/
def OneTimestampPerId (P : Platform) (identity : Identity) (arrivals : List Arrival) : Prop :=
  ∀ first ∈ arrivals, ∀ second ∈ arrivals, ∀ inner other,
    first.Accepts P identity inner → second.Accepts P identity other →
    inner.id = other.id → inner.ts = other.ts

section Coverage

variable {P : Platform} {identity : Identity} {freshness : Int}

/-- The timestamp was not beyond the window's far end at the given time. -/
def Admitted (P : Platform) (freshness now : Int) (ts : String) : Prop :=
  ∃ instant, P.parseRfc3339 ts = some instant ∧
    instant - now < (freshness + 1) * 1000000000

/-- The timestamp has left the window for good. -/
def Expired (P : Platform) (freshness now : Int) (ts : String) : Prop :=
  ∃ instant, P.parseRfc3339 ts = some instant ∧
    (freshness + 1) * 1000000000 ≤ now - instant

/-- A stored message cannot be stored again: its row is still there, or its timestamp
has left the window for good. -/
structure Covered (P : Platform) (freshness now : Int) (log : MessageTable) (inner : Inner) :
    Prop where
  admitted : Admitted P freshness now inner.ts
  covered : (∃ row ∈ log.rows, row.2.direction = .inbound ∧ row.2.id = inner.id ∧
      row.2.ts = inner.ts) ∨ Expired P freshness now inner.ts

theorem Admitted.later
    {earlier now : Int} {ts : String} (admitted : Admitted P freshness earlier ts)
    (order : earlier ≤ now) : Admitted P freshness now ts := by
  obtain ⟨instant, parsed, near⟩ := admitted
  exact ⟨instant, parsed, by omega⟩

theorem Expired.later
    {earlier now : Int} {ts : String} (expired : Expired P freshness earlier ts)
    (order : earlier ≤ now) : Expired P freshness now ts := by
  obtain ⟨instant, parsed, old⟩ := expired
  exact ⟨instant, parsed, by omega⟩

/-- An admitted timestamp outside the window is behind it. -/
theorem expired_of_stale
    {now : Int} {ts : String} (positive : 0 < freshness)
    (admitted : Admitted P freshness now ts)
    (stale : freshEnough P now ts freshness = false) : Expired P freshness now ts := by
  obtain ⟨instant, parsed, near⟩ := admitted
  refine ⟨instant, parsed, ?_⟩
  by_contra young
  have fresh : freshEnough P now ts freshness = true :=
    (freshEnough_iff positive).mpr ⟨instant, parsed, by omega, near⟩
  rw [fresh] at stale
  exact nomatch stale

theorem not_expired_of_fresh
    {now : Int} {ts : String} (positive : 0 < freshness)
    (fresh : freshEnough P now ts freshness = true) : ¬ Expired P freshness now ts := by
  rintro ⟨instant, parsed, old⟩
  obtain ⟨other, otherParsed, young, _⟩ := (freshEnough_iff positive).mp fresh
  rw [parsed] at otherParsed
  cases otherParsed
  omega

theorem admitted_of_fresh
    {now : Int} {ts : String} (positive : 0 < freshness)
    (fresh : freshEnough P now ts freshness = true) : Admitted P freshness now ts := by
  obtain ⟨instant, parsed, _, near⟩ := (freshEnough_iff positive).mp fresh
  exact ⟨instant, parsed, near⟩

/-! ## One step -/

variable {world : World} {arrival : Arrival} {earlier : Int}

/-- A message of a later arrival with a covered id is not stored. -/
theorem not_stored_of_covered
    {inner covered : Inner} (positive : 0 < freshness)
    (configured : (arrival.config P).freshnessSecs = freshness)
    (order : earlier ≤ arrival.delivery.clock.freshness)
    (cover : Covered P freshness earlier world.store.messages covered)
    (accepted : arrival.Accepts P identity inner)
    (ts : inner.ts = covered.ts)
    (fresh : world.store.messages.holds inner.id = false) : inner.id ≠ covered.id := by
  intro id
  rcases cover.covered with ⟨row, member, _, rowId, _⟩ | expired
  · exact RowTable.holds_eq_false_iff.mp fresh row member (rowId.trans id.symm)
  · have inWindow := accepted.fresh
    rw [configured, ts] at inWindow
    exact not_expired_of_fresh positive inWindow (expired.later order)

/-- What is covered before a step is covered after it. -/
theorem Covered.arrive
    {inner : Inner} (positive : 0 < freshness)
    (order : earlier ≤ arrival.delivery.clock.freshness)
    (evicts : EvictsOnlyStale P identity freshness world arrival)
    (cover : Covered P freshness earlier world.store.messages inner) :
    Covered P freshness arrival.delivery.clock.freshness
      (AgentMsg.arrive P identity world arrival).1.store.messages inner := by
  have admitted := cover.admitted.later order
  refine ⟨admitted, ?_⟩
  rcases cover.covered with ⟨row, member, inbound, id, ts⟩ | expired
  · have result := arrive_result P identity world arrival
    generalize (AgentMsg.arrive P identity world arrival).2 = outcome at result
    cases result with
    | quiet _ same =>
        exact Or.inl ⟨row, (same row inbound).mpr member, inbound, id, ts⟩
    | stored stored accepted plain fresh kept _ =>
        have inserted : row ∈ (insertedLog world arrival.delivery stored).rows :=
          RowTable.mem_insertOrIgnore.mpr (Or.inl member)
        by_cases remains : row ∈
            (Store.boundTable (insertedLog world arrival.delivery stored)
              (arrival.config P).maxMessages (arrival.config P).maxBytes).1.rows
        · exact Or.inl ⟨row, kept row inbound remains, inbound, id, ts⟩
        · have stale := evicts stored accepted plain fresh row inserted inbound remains
          rw [ts] at stale
          exact Or.inr (expired_of_stale positive admitted stale)
  · exact Or.inr (expired.later order)

/-- A message is covered once it is stored. -/
theorem covered_of_stored
    {seq : Int} {inner : Inner} (positive : 0 < freshness)
    (configured : (arrival.config P).freshnessSecs = freshness)
    (evicts : EvictsOnlyStale P identity freshness world arrival)
    (stored : (arrive P identity world arrival).2 = .stored seq inner) :
    arrival.Accepts P identity inner ∧ world.store.messages.holds inner.id = false ∧
      Covered P freshness arrival.delivery.clock.freshness
        (arrive P identity world arrival).1.store.messages inner := by
  have result := arrive_result P identity world arrival
  rw [stored] at result
  cases result with
  | quiet unstored _ =>
      exact nomatch unstored
  | stored _ accepted plain fresh kept _ =>
      have inWindow := accepted.fresh
      have configuredHere : ((world.withFiles arrival).config P).freshnessSecs = freshness :=
        configured
      rw [configuredHere] at inWindow
      refine ⟨accepted, fresh, admitted_of_fresh positive inWindow, Or.inl ?_⟩
      have inserted :
          (world.store.messages.last + 1, Store.inboundRow inner arrival.delivery.topic) ∈
            (insertedLog world arrival.delivery inner).rows :=
        RowTable.mem_insertOrIgnore.mpr (Or.inr ⟨fresh, rfl⟩)
      refine ⟨(world.store.messages.last + 1, Store.inboundRow inner arrival.delivery.topic),
        kept _ rfl ?_, rfl, rfl, rfl⟩
      by_contra evicted
      have stale := evicts inner accepted plain fresh _ inserted rfl evicted
      have stillFresh : freshEnough P arrival.delivery.clock.freshness inner.ts freshness = true :=
        inWindow
      rw [Store.inboundRow, stillFresh] at stale
      exact nomatch stale

end Coverage

/-! ## Whole runs -/

section Runs

variable (P : Platform) (identity : Identity) (freshness : Int)

/-- What is assumed of the rest of a run. -/
structure ReplayGuarded (world : World) (arrivals : List Arrival) : Prop where
  configured : ∀ arrival ∈ arrivals, (arrival.config P).freshnessSecs = freshness
  nondecreasing : arrivals.Pairwise fun first second =>
    first.delivery.clock.freshness ≤ second.delivery.clock.freshness
  evictsOnlyStale : EveryStep P identity (EvictsOnlyStale P identity freshness) world arrivals
  oneTimestamp : OneTimestampPerId P identity arrivals

/-- The id belongs to a message that was stored before, and that is covered. -/
structure Replayable (world : World) (arrivals : List Arrival) (id : String) : Prop where
  covers : ∃ inner earlier, inner.id = id ∧
    Covered P freshness earlier world.store.messages inner ∧
    (∀ arrival ∈ arrivals, earlier ≤ arrival.delivery.clock.freshness) ∧
    ∀ arrival ∈ arrivals, ∀ other, arrival.Accepts P identity other → other.id = id →
      other.ts = inner.ts

variable {P identity freshness}

theorem ReplayGuarded.tail
    {world : World} {arrival : Arrival} {rest : List Arrival}
    (guarded : ReplayGuarded P identity freshness world (arrival :: rest)) :
    ReplayGuarded P identity freshness (arrive P identity world arrival).1 rest where
  configured other member := guarded.configured other (List.mem_cons_of_mem _ member)
  nondecreasing := (List.pairwise_cons.mp guarded.nondecreasing).2
  evictsOnlyStale := guarded.evictsOnlyStale.tail
  oneTimestamp first firstMember second secondMember :=
    guarded.oneTimestamp first (List.mem_cons_of_mem _ firstMember) second
      (List.mem_cons_of_mem _ secondMember)

theorem replay_blocks (positive : 0 < freshness) :
    Blocks P identity (fun inner => some inner.id) (ReplayGuarded P identity freshness)
      (Replayable P identity freshness) where
  stays guarded := guarded.tail
  keeps := by
    rintro world arrival rest id guarded ⟨inner, earlier, same, covered, order, sameTs⟩
    have sorted := List.pairwise_cons.mp guarded.nondecreasing
    exact ⟨inner, arrival.delivery.clock.freshness, same,
      covered.arrive positive (order arrival List.mem_cons_self) guarded.evictsOnlyStale.head,
      sorted.1, fun other member => sameTs other (List.mem_cons_of_mem _ member)⟩
  enters := by
    intro world arrival rest seq inner id guarded stored found
    cases found
    obtain ⟨accepted, _, covered⟩ := covered_of_stored positive
      (guarded.configured arrival List.mem_cons_self) guarded.evictsOnlyStale.head stored
    refine ⟨inner, arrival.delivery.clock.freshness, rfl, covered,
      (List.pairwise_cons.mp guarded.nondecreasing).1, ?_⟩
    intro other member candidate candidateAccepted id
    exact guarded.oneTimestamp other (List.mem_cons_of_mem _ member) arrival List.mem_cons_self
      candidate inner candidateAccepted accepted id
  excludes := by
    rintro world arrival rest seq inner id guarded
      ⟨covering, earlier, same, covered, order, sameTs⟩ stored found
    cases found
    have configured := guarded.configured arrival List.mem_cons_self
    obtain ⟨accepted, fresh, _⟩ :=
      covered_of_stored positive configured guarded.evictsOnlyStale.head stored
    exact not_stored_of_covered positive configured (order arrival List.mem_cons_self) covered
      accepted (sameTs arrival List.mem_cons_self inner accepted rfl) fresh same.symm

end Runs

/-- In every run in which the retention bounds delete only rows outside the freshness
window, each id is freshly inserted at most once. -/
theorem stored_ids_nodup
    (P : Platform) (identity : Identity) (freshness : Int) (positive : 0 < freshness)
    (start : World) (arrivals : List Arrival)
    (configured : ∀ arrival ∈ arrivals, (arrival.config P).freshnessSecs = freshness)
    (nondecreasing : arrivals.Pairwise fun first second =>
      first.delivery.clock.freshness ≤ second.delivery.clock.freshness)
    (evictsOnlyStale :
      EveryStep P identity (EvictsOnlyStale P identity freshness) start arrivals)
    (oneTimestamp : OneTimestampPerId P identity arrivals) :
    ((storedInners P identity start arrivals).map Inner.id).Nodup := by
  have nodup := ((replay_blocks positive).nodup arrivals start
    ⟨configured, nondecreasing, evictsOnlyStale, oneTimestamp⟩).1
  rwa [List.filterMap_eq_map'] at nodup

/-! ## A log of one message -/

/-- Two messages of one time and one that is sent 400 seconds later, to a daemon whose
log holds one message. -/
def tinyBench : Bench :=
  { inners := [Bench.textTo "*" "m1" "alice" "t0" "one", Bench.textTo "*" "m2" "alice" "t0" "two",
      Bench.textTo "*" "m3" "alice" "t400" "three"]
    instants := [("t0", 0), ("t400", 400000000000)], config := { maxMessages := 1 }
    trust := Bench.trusting ["alice"] }

/-- The arrival of a message of the bench. -/
def tinyArrival (tag : UInt8) (now : Int) : Arrival :=
  Bench.arrival (Bench.delivery tag now "")

private theorem tiny_trusts : tinyBench.trust.publicKey "alice" = .ok (Bench.key "alice") :=
  Bench.trusting_publicKey List.mem_cons_self

theorem tiny_accepts_first :
    (tinyArrival 0 0).Accepts tinyBench.platform Bench.me
      (Bench.textTo "*" "m1" "alice" "t0" "one") :=
  Bench.accepts_text rfl rfl (by decide) (by decide) tiny_trusts (by decide) (by decide)

theorem tiny_accepts_second :
    (tinyArrival 1 0).Accepts tinyBench.platform Bench.me
      (Bench.textTo "*" "m2" "alice" "t0" "two") :=
  Bench.accepts_text rfl rfl (by decide) (by decide) tiny_trusts (by decide) (by decide)

theorem tiny_accepts_third :
    (tinyArrival 2 400000000000).Accepts tinyBench.platform Bench.me
      (Bench.textTo "*" "m3" "alice" "t400" "three") :=
  Bench.accepts_text rfl rfl (by decide) (by decide) tiny_trusts (by decide) (by decide)

/-- The log evicts the first message when the third one is stored, and the first one is
outside the window by then. -/
theorem stored_ids_nodup_tiny :
    ((storedInners tinyBench.platform Bench.me Bench.world
      [tinyArrival 0 0, tinyArrival 2 400000000000,
        tinyArrival 2 400000000000]).map Inner.id).Nodup := by
  have accepts (arrival : Arrival)
      (member : arrival ∈ [tinyArrival 0 0, tinyArrival 2 400000000000,
        tinyArrival 2 400000000000]) (inner : Inner)
      (accepted : arrival.Accepts tinyBench.platform Bench.me inner) :
      inner = Bench.textTo "*" "m1" "alice" "t0" "one" ∨
        inner = Bench.textTo "*" "m3" "alice" "t400" "three" := by
    simp only [List.mem_cons, List.not_mem_nil, or_false, or_self] at member
    rcases member with rfl | rfl
    · exact Or.inl (tiny_accepts_first.unique accepted)
    · exact Or.inr (tiny_accepts_third.unique accepted)
  refine stored_ids_nodup tinyBench.platform Bench.me 300 (by decide) Bench.world _ ?_ ?_ ?_ ?_
  · intro arrival member
    simp only [List.mem_cons, List.not_mem_nil, or_false, or_self] at member
    rcases member with rfl | rfl <;> rfl
  · decide
  · refine Machine.everyStep_cons ?_ (Machine.everyStep_cons ?_ (Machine.everyStep_cons ?_
      Machine.everyStep_nil))
    · intro inner accepted _
      rw [tiny_accepts_first.unique accepted]
      decide
    · intro inner accepted _
      rw [tiny_accepts_third.unique accepted, arrive_of_accepts tiny_accepts_first]
      decide
    · intro inner accepted _
      rw [tiny_accepts_third.unique accepted, arrive_of_accepts tiny_accepts_third,
        arrive_of_accepts tiny_accepts_first]
      decide
  · intro first firstMember second secondMember inner other accepted otherAccepted
    rcases accepts first firstMember inner accepted with rfl | rfl <;>
      rcases accepts second secondMember other otherAccepted with rfl | rfl <;> decide

/-- A message that was evicted inside the window is stored again when it is replayed. -/
theorem replay_stored_twice :
    ¬ ∀ (P : Platform) (identity : Identity) (freshness : Int) (start : World)
        (arrivals : List Arrival), 0 < freshness → start.store.messages.rows = [] →
        (∀ arrival ∈ arrivals, (arrival.config P).freshnessSecs = freshness) →
        (∀ arrival ∈ arrivals, ∀ index, (arrival.inputs index).Succeeds) →
        arrivals.Pairwise (fun first second =>
          first.delivery.clock.freshness ≤ second.delivery.clock.freshness) →
        ((storedInners P identity start arrivals).map Inner.id).Nodup := by
  intro guarded
  have stored : (storedInners tinyBench.platform Bench.me Bench.world
      [tinyArrival 0 0, tinyArrival 1 0, tinyArrival 0 0]).map Inner.id = ["m1", "m2", "m1"] := by
    simp only [storedInners_cons, storedInners_nil, arrive_of_accepts tiny_accepts_first,
      arrive_of_accepts tiny_accepts_second]
    decide
  have nodup := guarded tinyBench.platform Bench.me 300 Bench.world
    [tinyArrival 0 0, tinyArrival 1 0, tinyArrival 0 0] (by decide) rfl
    (by simp only [List.forall_mem_cons]; exact ⟨rfl, rfl, rfl, nofun⟩)
    (by simp only [List.forall_mem_cons]; exact ⟨fun _ => rfl, fun _ => rfl, fun _ => rfl, nofun⟩)
    (by decide)
  rw [stored] at nodup
  exact absurd nodup (by decide)

end AgentMsg
