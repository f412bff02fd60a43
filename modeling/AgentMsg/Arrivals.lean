import AgentMsg.Daemon
import AgentMsg.IngestSpec

/-!
# Runs of the ingest callback

The broker session calls the ingest callback for one payload after the other.  A run
of the callback is a list of arrivals, each with the files as they stand at that
moment; it is one of the runs of the system.  Two specifications say what a single
ingest does: one whatever store calls fail, and an exact one when none does.
-/

namespace AgentMsg

open Checked

/-- A payload that arrives, with the outside world's inputs to its ingest and the
files as they are at that time. -/
structure Arrival where
  delivery : Delivery
  inputs : Nat → Input
  configFile : FileState
  trustFile : FileState

namespace Arrival

def config (P : Platform) (arrival : Arrival) : Config :=
  unwrapOr default (Config.load P arrival.configFile)

def trust (P : Platform) (arrival : Arrival) : TrustStore :=
  unwrapOr default (TrustStore.load P arrival.trustFile)

/-- The message is accepted when it arrives. -/
abbrev Accepts (P : Platform) (identity : Identity) (arrival : Arrival) (inner : Inner) :
    Prop :=
  Accepted P identity (arrival.config P) (arrival.trust P) arrival.delivery inner

end Arrival

/-- The state with the files as they are when a payload arrives. -/
def World.withFiles (world : World) (arrival : Arrival) : World :=
  { world with configFile := arrival.configFile, trustFile := arrival.trustFile }

section Runs

variable (P : Platform) (identity : Identity)

/-- Ingest one arrival. -/
def arrive (world : World) (arrival : Arrival) : World × Outcome :=
  (onMsg P identity arrival.delivery).exec arrival.inputs (world.withFiles arrival)

/-- Ingest the arrivals in order, and collect what was done. -/
def ingestAll : World → List Arrival → World × List Outcome
  | world, [] => (world, [])
  | world, arrival :: rest =>
      let first := arrive P identity world arrival
      let later := ingestAll first.1 rest
      (later.1, first.2 :: later.2)

/-- The messages freshly inserted in a run, in order. -/
def storedInners (world : World) (arrivals : List Arrival) : List Inner :=
  (ingestAll P identity world arrivals).2.filterMap Outcome.storedInner

variable {P identity}

@[simp]
theorem storedInners_nil (world : World) : storedInners P identity world [] = [] :=
  rfl

theorem storedInners_cons (world : World) (arrival : Arrival) (rest : List Arrival) :
    storedInners P identity world (arrival :: rest) =
      (arrive P identity world arrival).2.storedInner.toList ++
        storedInners P identity (arrive P identity world arrival).1 rest := by
  rw [storedInners, ingestAll]
  cases found : (arrive P identity world arrival).2.storedInner with
  | none =>
      rw [List.filterMap_cons_none found]
      rfl
  | some inner =>
      rw [List.filterMap_cons_some found]
      rfl

variable (P identity) in
/-- A condition on the state before a step and on the arrival holds at every step of
a run. -/
def EveryStep (condition : World → Arrival → Prop) : World → List Arrival → Prop :=
  Machine.EveryStep (fun world arrival => (arrive P identity world arrival).1) condition

/-- A stored message is what the outcome says. -/
theorem Outcome.eq_stored_of_storedInner
    {outcome : Outcome} {inner : Inner} (found : outcome.storedInner = some inner) :
    ∃ seq, outcome = .stored seq inner := by
  cases outcome with
  | stored seq other =>
      cases found
      exact ⟨seq, rfl⟩
  | _ =>
      exact nomatch found

variable (P identity) in
/-- Why a key is stored at most once: the assumption on the rest of the run is kept,
a stored key is blocked from then on, and a blocked key is not stored. -/
structure Blocks {κ : Type} (key : Inner → Option κ) (valid : World → List Arrival → Prop)
    (blocked : World → List Arrival → κ → Prop) : Prop where
  stays : ∀ {world arrival rest}, valid world (arrival :: rest) →
    valid (arrive P identity world arrival).1 rest
  keeps : ∀ {world arrival rest value}, valid world (arrival :: rest) →
    blocked world (arrival :: rest) value →
    blocked (arrive P identity world arrival).1 rest value
  enters : ∀ {world arrival rest seq inner value}, valid world (arrival :: rest) →
    (arrive P identity world arrival).2 = .stored seq inner → key inner = some value →
    blocked (arrive P identity world arrival).1 rest value
  excludes : ∀ {world arrival rest seq inner value}, valid world (arrival :: rest) →
    blocked world (arrival :: rest) value →
    (arrive P identity world arrival).2 = .stored seq inner → key inner ≠ some value

/-- The keys stored in a run are different from one another and from those blocked at
its start. -/
theorem Blocks.nodup
    {κ : Type} {key : Inner → Option κ} {valid : World → List Arrival → Prop}
    {blocked : World → List Arrival → κ → Prop} (blocks : Blocks P identity key valid blocked)
    (arrivals : List Arrival) :
    ∀ world, valid world arrivals →
      ((storedInners P identity world arrivals).filterMap key).Nodup ∧
        ∀ value ∈ (storedInners P identity world arrivals).filterMap key,
          ¬ blocked world arrivals value := by
  induction arrivals with
  | nil =>
      intro world _
      simp
  | cons arrival rest inductionHypothesis =>
      intro world holds
      obtain ⟨nodup, apart⟩ := inductionHypothesis _ (blocks.stays holds)
      have later : ∀ value ∈
          (storedInners P identity (arrive P identity world arrival).1 rest).filterMap key,
          ¬ blocked world (arrival :: rest) value :=
        fun value member before => apart value member (blocks.keeps holds before)
      rw [storedInners_cons]
      cases outcome : (arrive P identity world arrival).2.storedInner with
      | none =>
          exact ⟨nodup, later⟩
      | some inner =>
          obtain ⟨seq, stored⟩ := Outcome.eq_stored_of_storedInner outcome
          rw [Option.toList_some, List.singleton_append]
          cases found : key inner with
          | none =>
              rw [List.filterMap_cons_none found]
              exact ⟨nodup, later⟩
          | some value =>
              rw [List.filterMap_cons_some found]
              refine ⟨List.nodup_cons.mpr ⟨fun repeated => ?_, nodup⟩, ?_⟩
              · exact apart value repeated (blocks.enters holds stored found)
              · intro other member before
                rcases List.mem_cons.mp member with rfl | member
                · exact blocks.excludes holds before stored found
                · exact later other member before

variable (P identity) in
theorem arrive_result (world : World) (arrival : Arrival) :
    IngestResult P identity (world.withFiles arrival) arrival.delivery
      (arrive P identity world arrival).1 (arrive P identity world arrival).2 :=
  Prog.exec_of_meets onMsg_meets fun _ => trivial

variable (P identity) in
theorem arrive_succeeds
    (world : World) {arrival : Arrival} (succeeds : ∀ index, (arrival.inputs index).Succeeds) :
    Ingested P identity (world.withFiles arrival) arrival.delivery
      (arrive P identity world arrival).1 (arrive P identity world arrival).2 :=
  Prog.exec_of_meets onMsg_succeeds succeeds

/-- The arrival of an accepted message. -/
theorem arrive_of_accepts
    {arrival : Arrival} {inner : Inner} (accepts : arrival.Accepts P identity inner)
    (world : World) :
    arrive P identity world arrival =
      (acceptMessage P identity (arrival.config P) (arrival.trust P) arrival.delivery
        inner).exec (fun index => arrival.inputs (index + 2)) (world.withFiles arrival) :=
  Accepted.exec_eq accepts arrival.inputs

variable (P identity) in
/-- Beside any threads, some moves of the system lead from one state to the other. -/
def Reaches (start final : World) : Prop :=
  ∀ threads, ∃ moves later, System.run P identity { shared := start, threads } moves =
    { shared := final, threads := later }

theorem Reaches.refl (world : World) : Reaches P identity world world :=
  fun threads => ⟨[], threads, rfl⟩

theorem Reaches.trans
    {first second third : World} (earlier : Reaches P identity first second)
    (later : Reaches P identity second third) : Reaches P identity first third := by
  intro threads
  obtain ⟨moves, middle, reached⟩ := earlier threads
  obtain ⟨rest, final, ended⟩ := later middle
  refine ⟨moves ++ rest, final, ?_⟩
  rw [System.run] at reached ended ⊢
  rw [Pool.run_append, reached, ended]

/-- A job that runs without interruption. -/
theorem Reaches.job (job : Job) (inputs : Nat → Input) (world : World) :
    Reaches P identity world ((job.thread P identity).exec inputs world).1 :=
  fun threads => ⟨.spawn job :: _, _,
    Pool.run_uninterrupted job (job.thread P identity) inputs world threads⟩

/-- An arrival is a piece of a run of the system: the files are edited, and the ingest
runs without interruption. -/
theorem arrive_reaches (world : World) (arrival : Arrival) :
    Reaches P identity world (arrive P identity world arrival).1 := by
  have edited : Reaches P identity world { world with configFile := arrival.configFile } :=
    Reaches.job (.editConfig arrival.configFile) (fun _ => {}) world
  have filed : Reaches P identity { world with configFile := arrival.configFile }
      (world.withFiles arrival) :=
    Reaches.job (.editTrustFile arrival.trustFile) (fun _ => {}) _
  have ingested : Reaches P identity (world.withFiles arrival)
      ((ignore (onMsg P identity arrival.delivery)).exec arrival.inputs
        (world.withFiles arrival)).1 :=
    Reaches.job (.ingest arrival.delivery) arrival.inputs _
  rw [exec_ignore] at ingested
  exact edited.trans (filed.trans ingested)

/-- Every run of the callback is a run of the system. -/
theorem ingestAll_reaches (arrivals : List Arrival) (world : World) :
    Reaches P identity world (ingestAll P identity world arrivals).1 := by
  induction arrivals generalizing world with
  | nil =>
      exact .refl world
  | cons arrival rest inductionHypothesis =>
      exact (arrive_reaches world arrival).trans (inductionHypothesis _)

end Runs

end AgentMsg
