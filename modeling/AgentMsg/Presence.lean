import AgentMsg.Delivery
import AgentMsg.Lib.Latest
import AgentMsg.Redelivery

/-!
# Presence

The presence table has a row for each agent, which an upsert replaces unless it is newer.
So a row is a register of the beacons of its agent, and whatever the calls of a run are in
between, it holds the last of those with the greatest `seq`.
-/

namespace AgentMsg

/-- The columns of a row that its beacon says. -/
def PresenceRow.said (row : PresenceRow) : PresenceRow :=
  { row with updatedAt := "" }

namespace Store

/-! ## The calls for one agent -/

/-- What a call of `upsertPresence` says of its agent. -/
structure Sighting where
  beacon : PresenceBeacon
  lastSeen : String
  now : String
  deriving DecidableEq

namespace Sighting

def seq (sighting : Sighting) : Int :=
  sighting.beacon.seq

/-- The beacon, without the time of the call. -/
def said (sighting : Sighting) : PresenceBeacon × String :=
  (sighting.beacon, sighting.lastSeen)

/-- The row it is recorded with. -/
def row (sighting : Sighting) : PresenceRow :=
  presenceRow sighting.beacon sighting.lastSeen sighting.now

end Sighting

def Op.sighting (agent : String) : Op → Option Sighting
  | .upsertPresence other beacon lastSeen now =>
      if other = agent then some { beacon, lastSeen, now } else none
  | _ => none

theorem Op.sighting_eq_some {agent : String} {operation : Op} {sighting : Sighting}
    (seen : operation.sighting agent = some sighting) :
    operation = .upsertPresence agent sighting.beacon sighting.lastSeen sighting.now := by
  cases operation with
  | upsertPresence other beacon lastSeen now =>
      rw [Op.sighting] at seen
      split at seen
      · next same =>
          cases seen
          rw [same]
      · cases seen
  | _ =>
      cases seen

/-- The calls for an agent, in order. -/
def sightings (agent : String) (operations : List Op) : List Sighting :=
  operations.filterMap (Op.sighting agent)

theorem sightings_concat (agent : String) (operations : List Op) (operation : Op) :
    sightings agent (operations ++ [operation]) =
      sightings agent operations ++ (operation.sighting agent).toList := by
  rw [sightings, List.filterMap_append]
  cases seen : operation.sighting agent with
  | none => rw [List.filterMap_cons_none seen]; rfl
  | some sighting => rw [List.filterMap_cons_some seen]; rfl

/-! ## A row is a register -/

/-- An upsert changes the row of its agent only. -/
theorem upsertPresence_other
    (store : Store) {agent other : String} (different : other ≠ agent) (beacon : PresenceBeacon)
    (lastSeen now : String) :
    (store.upsertPresence agent beacon lastSeen now).presence[other]? = store.presence[other]? := by
  rcases store.upsertPresence_cases agent beacon lastSeen now with recorded | ⟨kept, -⟩
  · have apart : compare agent other ≠ .eq := fun same =>
      different (Std.LawfulEqCmp.eq_of_compare same).symm
    rw [recorded, Std.TreeMap.getElem?_insert, if_neg apart]
  · rw [kept]

/-- An upsert keeps the newer one of the row and the beacon. -/
theorem upsertPresence_same
    {store : Store} {agent : String} {held : Option Sighting}
    (holds : store.presence[agent]? = held.map Sighting.row) (sighting : Sighting) :
    (store.upsertPresence agent sighting.beacon sighting.lastSeen sighting.now).presence[agent]? =
      (Latest.keep Sighting.seq held sighting).map Sighting.row := by
  have inserted (row : PresenceRow) : (store.presence.insert agent row)[agent]? = some row :=
    Std.TreeMap.getElem?_insert_self
  unfold upsertPresence
  rw [holds]
  cases held with
  | none => exact inserted _
  | some old =>
      have seq : old.row.seq = old.seq := rfl
      simp only [Option.map_some, Latest.keep, seq]
      by_cases newer : old.seq ≤ sighting.seq
      · rw [if_pos newer]
        refine Eq.trans (congrArg (fun store : Store => store.presence[agent]?) (if_pos newer)) ?_
        exact inserted _
      · rw [if_neg newer]
        refine Eq.trans (congrArg (fun store : Store => store.presence[agent]?) (if_neg newer)) ?_
        exact holds

/-- Only upserts for the agent concern its row. -/
theorem presence_apply_of_none
    (store : Store) {agent : String} {operation : Op} (apart : operation.sighting agent = none) :
    (store.apply operation).presence[agent]? = store.presence[agent]? := by
  cases operation with
  | upsertPresence other beacon lastSeen now =>
      have different : agent ≠ other := by
        rintro rfl
        rw [Op.sighting, if_pos rfl] at apart
        cases apart
      exact store.upsertPresence_other different beacon lastSeen now
  | ack consumer seq now =>
      unfold apply ack
      dsimp only
      split
      · rfl
      · split <;> rfl
  | seenGrant grantId now =>
      unfold apply seenGrant
      dsimp only
      split <;> rfl
  | _ =>
      rfl

/-- After a run the row of an agent is that of its latest call. -/
theorem presence_run
    {store : Store} {agent : String} (absent : store.presence[agent]? = none)
    (operations : List Op) :
    (store.run operations).presence[agent]? =
      (Latest.latest Sighting.seq (sightings agent operations)).map Sighting.row := by
  induction operations using List.reverseRecOn with
  | nil => exact absent
  | append_singleton operations operation inductionHypothesis =>
      rw [run_concat, sightings_concat]
      cases seen : operation.sighting agent with
      | none =>
          rw [presence_apply_of_none _ seen, inductionHypothesis, Option.toList_none,
            List.append_nil]
      | some sighting =>
          rw [Option.toList_some, Latest.latest_append_singleton,
            ← upsertPresence_same inductionHypothesis, Op.sighting_eq_some seen]
          rfl

/-! ## The table after a run -/

/-- A fresh store after a run of calls of all kinds. -/
def after (operations : List Op) : Store :=
  ({} : Store).run operations

theorem absent_empty (agent : String) : ({} : Store).presence[agent]? = none :=
  Std.TreeMap.getElem?_of_isEmpty Std.TreeMap.isEmpty_emptyc

theorem mem_listPresence_after {operations : List Op} {agent : String} {row : PresenceRow} :
    (agent, row) ∈ (after operations).listPresence ↔
      ∃ sighting, Latest.IsLatest Sighting.seq (sightings agent operations) sighting ∧
        row = sighting.row := by
  rw [listPresence, Std.TreeMap.mem_toList_iff_getElem?_eq_some, after,
    presence_run (absent_empty agent), Option.map_eq_some_iff]
  exact exists_congr fun sighting => and_congr Latest.latest_eq_some eq_comm

/-- A listing has no agent twice. -/
theorem nodup_listPresence (store : Store) : (store.listPresence.map Prod.fst).Nodup := by
  rw [listPresence, Std.TreeMap.map_fst_toList_eq_keys]
  exact Std.TreeMap.nodup_keys

/-- Runs with the same beacons, no two of one agent with the same `seq`, end in the same
table, up to the times of the calls. -/
theorem listPresence_after_congr {first second : List Op}
    (same : ∀ agent said, said ∈ (sightings agent first).map Sighting.said ↔
      said ∈ (sightings agent second).map Sighting.said)
    (distinct : ∀ agent, ∀ said ∈ (sightings agent first).map Sighting.said,
      ∀ other ∈ (sightings agent first).map Sighting.said,
        said.1.seq = other.1.seq → said = other) :
    (after first).listPresence.map (fun entry => (entry.1, entry.2.said)) =
      (after second).listPresence.map fun entry => (entry.1, entry.2.said) := by
  have row (operations : List Op) (agent : String) :
      ((after operations).presence.map fun _ row => row.said)[agent]? =
        (Latest.latest (fun said => said.1.seq)
          ((sightings agent operations).map Sighting.said)).map
            fun said => (presenceRow said.1 said.2 "") := by
    rw [Std.TreeMap.getElem?_map, after, presence_run (absent_empty agent), Option.map_map,
      ← @Latest.map_latest _ _ _ Sighting.seq _ _ (fun said => said.1.seq) Sighting.said
        fun _ => rfl,
      Option.map_map]
    rfl
  have tables : ((after first).presence.map fun _ row => row.said).Equiv
      ((after second).presence.map fun _ row => row.said) := by
    refine Std.TreeMap.Equiv.of_forall_constGet?_eq fun agent => ?_
    rw [row, row, Latest.latest_congr (same agent) (distinct agent)]
  have lists := tables.toList_eq
  rwa [Std.TreeMap.toList_map, Std.TreeMap.toList_map] at lists

/-- Presence keeps the newest beacon.  After a run an agent with calls has one row, that of
the last call with the greatest `seq`; the order and repetition of beacons do not matter
when no two of an agent have the same `seq`; a call leaves the rows of other agents alone. -/
theorem presence_keeps_newest :
    (∀ (operations : List Op) (agent : String),
        ((after operations).listPresence.map Prod.fst).Nodup ∧
          (sightings agent operations = [] →
            ∀ row, (agent, row) ∉ (after operations).listPresence) ∧
          (sightings agent operations ≠ [] →
            ∃ earlier newest later, sightings agent operations = earlier ++ newest :: later ∧
              (∀ call ∈ earlier, call.seq ≤ newest.seq) ∧
              (∀ call ∈ later, call.seq < newest.seq) ∧
              ∀ row, (agent, row) ∈ (after operations).listPresence ↔ row = newest.row)) ∧
      (∀ first second : List Op,
        (∀ agent said, said ∈ (sightings agent first).map Sighting.said ↔
          said ∈ (sightings agent second).map Sighting.said) →
        (∀ agent, ∀ said ∈ (sightings agent first).map Sighting.said,
          ∀ other ∈ (sightings agent first).map Sighting.said,
            said.1.seq = other.1.seq → said = other) →
        (after first).listPresence.map (fun entry => (entry.1, entry.2.said)) =
          (after second).listPresence.map fun entry => (entry.1, entry.2.said)) ∧
      ∀ (store : Store) (agent other : String) (beacon : PresenceBeacon) (lastSeen now : String),
        other ≠ agent →
        ∀ row, (other, row) ∈ (store.upsertPresence agent beacon lastSeen now).listPresence ↔
          (other, row) ∈ store.listPresence := by
  refine ⟨fun operations agent => ⟨nodup_listPresence _, ?_, ?_⟩, ?_, ?_⟩
  · intro none row listed
    obtain ⟨sighting, last, -⟩ := mem_listPresence_after.mp listed
    have member := last.mem
    rw [none] at member
    exact List.not_mem_nil member
  · intro some
    obtain ⟨newest, held⟩ := Option.ne_none_iff_exists'.mp
      (mt (@Latest.latest_eq_none _ _ Sighting.seq _ _ _).mp some)
    have last := Latest.latest_eq_some.mp held
    obtain ⟨earlier, later, whole, before, behind⟩ := last
    refine ⟨earlier, newest, later, whole, before, behind, fun row => ?_⟩
    rw [mem_listPresence_after]
    constructor
    · rintro ⟨other, otherLast, rfl⟩
      rw [otherLast.unique (Latest.latest_eq_some.mp held)]
    · rintro rfl
      exact ⟨newest, Latest.latest_eq_some.mp held, rfl⟩
  · intro first second same distinct
    exact listPresence_after_congr same distinct
  · intro store agent other beacon lastSeen now different row
    rw [listPresence, listPresence, Std.TreeMap.mem_toList_iff_getElem?_eq_some,
      Std.TreeMap.mem_toList_iff_getElem?_eq_some, upsertPresence_other store different]

end Store

end AgentMsg
