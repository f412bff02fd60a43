import AgentMsg.Outbox
import AgentMsg.Receipts

/-!
# No outbound message is stuck

In every run without store errors in which the drawn ids are new, a row that is still
pending is in the outbox, or the thread that logged it queues it next; and a row leaves
the outbox only after the broker session took its publish.
-/

namespace AgentMsg

/-! ## Runs -/

section Runs

variable {P : Platform} {identity : Identity} {start : World}

/-- A thread whose next action queues the id. -/
def QueuesNext (P : Platform) (identity : Identity) (system : System) (id : String) : Prop :=
  ∃ index job thread, system.threads[index]? = some (job, thread) ∧ job.Draws id ∧
    ∀ input : Input, input.Succeeds →
      (Pool.move (Job.thread P identity) system (.step index input)).shared.store.outbox.holds
        id = true

/-- No step of the run meets a store error. -/
def Reliable (moves : List (Move Input Job)) : Prop :=
  ∀ index input, .step index input ∈ moves → input.Succeeds

theorem run_concat {taken : List (Move Input Job)} {choice : Move Input Job} :
    System.run P identity { shared := start } (taken ++ [choice]) =
      Pool.move (Job.thread P identity)
        (System.run P identity { shared := start } taken) choice := by
  rw [System.run, Pool.run_append, Pool.run_cons, Pool.run_nil]
  rfl

/-- Every row that awaits its hand-off is in the outbox, or some thread has just logged
it. -/
structure Coupled (P : Platform) (identity : Identity) (start : World)
    (taken : List (Move Input Job)) (accounts : Nat → Hand) : Prop where
  owned : ∀ index job,
    (System.run P identity { shared := start } taken).labels[index]? = some job →
      ∀ id, (accounts index).ids id → job.Draws id
  due : ∀ index id, (accounts index).awaits = some id → (accounts index).ids id
  rows : ∀ row ∈ (System.run P identity { shared := start } taken).shared.store.messages.rows,
    row.2.Awaiting →
      (System.run P identity { shared := start } taken).shared.store.outbox.holds row.2.id =
          true ∨
        ∃ index < (System.run P identity { shared := start } taken).threads.length,
          (accounts index).awaits = some row.2.id

theorem coupled_spawn
    {taken : List (Move Input Job)} {job : Job} {accounts : Nat → Hand}
    (coupled : Coupled P identity start taken accounts) :
    Coupled P identity start (taken ++ [.spawn job])
      (Function.update accounts
        (System.run P identity { shared := start } taken).threads.length job.hand) := by
  have count : (System.run P identity { shared := start } taken).labels.length =
      (System.run P identity { shared := start } taken).threads.length := List.length_map _
  refine ⟨?_, ?_, ?_⟩
  · intro index other located id own
    rw [run_concat, Pool.labels_spawn] at located
    by_cases last : index = (System.run P identity { shared := start } taken).threads.length
    · rw [last, ← count, List.getElem?_concat_length, Option.some.injEq] at located
      rw [last, Function.update_self] at own
      rw [← located]
      exact own
    · have old : (System.run P identity { shared := start } taken).labels[index]? =
          some other := by
        rw [← located, List.getElem?_append]
        split
        · rfl
        · rename_i beyond
          rw [List.getElem?_append_right (by omega), List.getElem?_eq_none (by simp; omega)]
            at located
          cases located
      rw [Function.update_of_ne last] at own
      exact coupled.owned index other old id own
  · intro index id due
    by_cases last : index = (System.run P identity { shared := start } taken).threads.length
    · rw [last, Function.update_self] at due
      cases due
    · rw [Function.update_of_ne last] at due ⊢
      exact coupled.due index id due
  · intro row member awaiting
    rw [run_concat] at member ⊢
    rcases coupled.rows row member awaiting with held | ⟨index, within, due⟩
    · exact Or.inl held
    · refine Or.inr ⟨index, Nat.lt_of_lt_of_le within ?_, ?_⟩
      · simp [Pool.move]
      · rw [Function.update_of_ne (Nat.ne_of_lt within)]
        exact due

theorem coupled_step
    {taken : List (Move Input Job)} {index : Nat} {input : Input} {accounts : Nat → Hand}
    {later : Hand} (coupled : Coupled P identity start taken accounts)
    (reliable : input.Succeeds)
    (within : index < (System.run P identity { shared := start } taken).threads.length)
    (follows : OutboxRule (accounts index) input
      (System.run P identity { shared := start } taken).shared
      (System.run P identity { shared := start } (taken ++ [.step index input])).shared later) :
    Coupled P identity start (taken ++ [.step index input])
      (Function.update accounts index later) := by
  obtain ⟨isQueued, isOwned, isAwaiting⟩ := follows.awaiting reliable
  have ids : ∀ id, later.ids id → (accounts index).ids id := by
    intro id own
    cases follows.step reliable with
    | kept _ ids _ _ =>
        exact ids id own
    | queued _ _ _ ids _ _ =>
        exact (ids id own).1
    | dropped _ _ _ _ =>
        exact own
  refine ⟨?_, ?_, ?_⟩
  · intro position job located id own
    rw [run_concat, Pool.labels_step] at located
    by_cases here : position = index
    · rw [here, Function.update_self] at own
      rw [here] at located
      exact coupled.owned index job located id (ids id own)
    · rw [Function.update_of_ne here] at own
      exact coupled.owned position job located id own
  · intro position id due
    by_cases here : position = index
    · rw [here, Function.update_self] at due ⊢
      exact isOwned id due
    · rw [Function.update_of_ne here] at due ⊢
      exact coupled.due position id due
  · intro row member awaiting
    have count : (System.run P identity { shared := start }
        (taken ++ [.step index input])).threads.length =
          (System.run P identity { shared := start } taken).threads.length := by
      have labels := congrArg List.length (Pool.labels_step (Job.thread P identity)
        (System.run P identity { shared := start } taken) index input)
      rw [← run_concat, Pool.labels, Pool.labels, List.length_map, List.length_map] at labels
      exact labels
    rcases isAwaiting row member awaiting with logged | ⟨old, stays⟩
    · refine Or.inr ⟨index, count ▸ within, ?_⟩
      rw [Function.update_self]
      exact logged
    · rcases coupled.rows row old awaiting with held | ⟨position, inside, due⟩
      · exact Or.inl (stays held)
      · by_cases here : position = index
        · rw [here] at due
          exact Or.inl (isQueued _ due)
        · refine Or.inr ⟨position, count ▸ inside, ?_⟩
          rw [Function.update_of_ne here]
          exact due

/-- The row was in the outbox at some point of the run. -/
def Queued (P : Platform) (identity : Identity) (start : World)
    (taken : List (Move Input Job)) (ob : Outbound) : Prop :=
  ∃ earlier, earlier <+: taken ∧
    ob ∈ (System.run P identity { shared := start } earlier).shared.store.pendingOutbound

/-- The session has taken the publish at some point of the run. -/
def Handed (P : Platform) (identity : Identity) (start : World)
    (taken : List (Move Input Job)) (publish : Publish) : Prop :=
  ∃ earlier choice, earlier ++ [choice] <+: taken ∧
    Takes (System.run P identity { shared := start } earlier).shared
      (System.run P identity { shared := start } (earlier ++ [choice])).shared publish

/-- The ids that the jobs of a run draw are new. -/
structure FreshIds (start : Store) (moves : List (Move Input Job)) : Prop where
  once : ∀ job, .spawn job ∈ moves → job.DrawsOnce
  unused : ∀ job, .spawn job ∈ moves → ∀ id, job.Draws id → start.outbox.holds id = false
  apart : ∀ taken job, taken ++ [.spawn job] <+: moves → ∀ other, .spawn other ∈ taken →
    ∀ id, job.Draws id → ¬ other.Draws id

theorem Queued.mono
    {taken longer : List (Move Input Job)} {ob : Outbound}
    (queued : Queued P identity start taken ob) (initial : taken <+: longer) :
    Queued P identity start longer ob := by
  obtain ⟨earlier, isPrefix, member⟩ := queued
  exact ⟨earlier, isPrefix.trans initial, member⟩

theorem Handed.mono
    {taken longer : List (Move Input Job)} {publish : Publish}
    (handed : Handed P identity start taken publish) (initial : taken <+: longer) :
    Handed P identity start longer publish := by
  obtain ⟨earlier, choice, isPrefix, takes⟩ := handed
  exact ⟨earlier, choice, isPrefix.trans initial, takes⟩

theorem queued_now
    {taken : List (Move Input Job)} {ob : Outbound}
    (member : ob ∈
      (System.run P identity { shared := start } taken).shared.store.pendingOutbound) :
    Queued P identity start taken ob :=
  ⟨taken, List.prefix_rfl, member⟩

theorem queued_concat
    {taken : List (Move Input Job)} {choice : Move Input Job} {ob : Outbound}
    (queued : Queued P identity start (taken ++ [choice]) ob) :
    Queued P identity start taken ob ∨
      ob ∈ (System.run P identity { shared := start }
        (taken ++ [choice])).shared.store.pendingOutbound := by
  obtain ⟨earlier, isPrefix, member⟩ := queued
  rcases List.prefix_concat_iff.mp isPrefix with rfl | initial
  · exact Or.inr member
  · exact Or.inl ⟨earlier, initial, member⟩

/-- Outbox rows are identified by their ids over the whole run, what threads know about
them is true, and a row was dropped only after the session took its publish. -/
structure Traced (P : Platform) (identity : Identity) (start : World)
    (taken : List (Move Input Job)) (accounts : Nat → Hand) : Prop where
  known : ∀ index ob, (accounts index).known ob → Queued P identity start taken ob
  handed : ∀ index publish, (accounts index).handed publish →
    Handed P identity start taken publish
  unique : ∀ ob other, Queued P identity start taken ob → Queued P identity start taken other →
    ob.id = other.id → ob = other
  fresh : ∀ index ob, Queued P identity start taken ob → ¬ (accounts index).ids ob.id
  apart : ∀ first second, first ≠ second → ∀ id, (accounts first).ids id →
    ¬ (accounts second).ids id
  drawn : ∀ index id, (accounts index).ids id → ∃ job, .spawn job ∈ taken ∧ job.Draws id
  source : ∀ ob, Queued P identity start taken ob → start.store.outbox.holds ob.id = true ∨
    ∃ job, .spawn job ∈ taken ∧ job.Draws ob.id
  dropped : ∀ earlier choice, earlier ++ [choice] <+: taken →
    ∀ ob ∈ (System.run P identity { shared := start } earlier).shared.store.pendingOutbound,
      ob ∉ (System.run P identity { shared := start }
        (earlier ++ [choice])).shared.store.pendingOutbound →
      Handed P identity start earlier ob.publish

theorem traced_nil (accounts : Nat → Hand) (blank : ∀ index, accounts index = Job.pump.hand) :
    Traced P identity start [] accounts := by
  have initial {ob : Outbound} (queued : Queued P identity start [] ob) :
      ob ∈ start.store.pendingOutbound := by
    obtain ⟨earlier, isPrefix, member⟩ := queued
    rw [List.prefix_nil.mp isPrefix] at member
    exact member
  have hand (index : Nat) (id : String) : ¬ (accounts index).ids id := by
    rw [blank index]
    exact fun own => own
  refine ⟨?_, ?_, ?_, ?_, ?_, ?_, ?_, ?_⟩
  · intro index ob known
    rw [blank index] at known
    exact known.elim
  · intro index publish handed
    rw [blank index] at handed
    exact handed.elim
  · intro ob other queued otherQueued same
    obtain ⟨row, member, rfl⟩ := List.mem_map.mp (initial queued)
    obtain ⟨row', member', rfl⟩ := List.mem_map.mp (initial otherQueued)
    rw [start.store.outbox.key_injective member member' same]
  · exact fun index ob _ => hand index ob.id
  · exact fun first _ _ id own => absurd own (hand first id)
  · exact fun index id own => absurd own (hand index id)
  · intro ob queued
    obtain ⟨row, member, rfl⟩ := List.mem_map.mp (initial queued)
    exact Or.inl (RowTable.holds_eq_true_iff.mpr ⟨row, member, rfl⟩)
  · intro earlier choice isPrefix
    have short := isPrefix.length_le
    simp at short

section Extended

variable {taken moves : List (Move Input Job)} {choice : Move Input Job}
  {accounts : Nat → Hand}

theorem queued_same
    (same : (System.run P identity { shared := start } (taken ++ [choice])).shared.store.outbox =
      (System.run P identity { shared := start } taken).shared.store.outbox)
    {ob : Outbound} (queued : Queued P identity start (taken ++ [choice]) ob) :
    Queued P identity start taken ob := by
  rcases queued_concat queued with old | member
  · exact old
  · rw [Store.pendingOutbound, same] at member
    exact queued_now member

theorem Traced.dropped_concat
    (traced : Traced P identity start taken accounts)
    (last : ∀ ob ∈
        (System.run P identity { shared := start } taken).shared.store.pendingOutbound,
      ob ∉ (System.run P identity { shared := start }
        (taken ++ [choice])).shared.store.pendingOutbound →
      Handed P identity start taken ob.publish) :
    ∀ earlier other, earlier ++ [other] <+: taken ++ [choice] →
      ∀ ob ∈ (System.run P identity { shared := start } earlier).shared.store.pendingOutbound,
        ob ∉ (System.run P identity { shared := start }
          (earlier ++ [other])).shared.store.pendingOutbound →
        Handed P identity start earlier ob.publish := by
  intro earlier other isPrefix ob member gone
  rcases List.prefix_concat_iff.mp isPrefix with whole | initial
  · obtain ⟨rfl, same⟩ := List.append_inj' whole rfl
    cases same
    exact last ob member gone
  · exact traced.dropped earlier other initial ob member gone

/-- A move that leaves the outbox and the accounts alone. -/
theorem Traced.same
    (traced : Traced P identity start taken accounts)
    (same : (System.run P identity { shared := start } (taken ++ [choice])).shared.store.outbox =
      (System.run P identity { shared := start } taken).shared.store.outbox) :
    Traced P identity start (taken ++ [choice]) accounts := by
  have longer : taken <+: taken ++ [choice] := List.prefix_append _ _
  refine ⟨?_, ?_, ?_, ?_, traced.apart, ?_, ?_, traced.dropped_concat ?_⟩
  · exact fun index ob known => (traced.known index ob known).mono longer
  · exact fun index publish handed => (traced.handed index publish handed).mono longer
  · exact fun ob other queued otherQueued =>
      traced.unique ob other (queued_same same queued) (queued_same same otherQueued)
  · exact fun index ob queued => traced.fresh index ob (queued_same same queued)
  · intro index id own
    obtain ⟨job, spawned, draws⟩ := traced.drawn index id own
    exact ⟨job, longer.subset spawned, draws⟩
  · intro ob queued
    refine (traced.source ob (queued_same same queued)).imp_right ?_
    rintro ⟨job, spawned, draws⟩
    exact ⟨job, longer.subset spawned, draws⟩
  · intro ob member gone
    rw [Store.pendingOutbound, same] at gone
    exact absurd member gone

/-- A thread is started with an account of new ids. -/
theorem Traced.spawn
    {job : Job} (traced : Traced P identity start taken accounts)
    (fresh : FreshIds start.store moves) (isPrefix : taken ++ [.spawn job] <+: moves)
    (index : Nat) :
    Traced P identity start (taken ++ [.spawn job]) (Function.update accounts index job.hand) := by
  have spawned : .spawn job ∈ moves :=
    isPrefix.subset (List.mem_append_right _ List.mem_cons_self)
  have kept : Traced P identity start (taken ++ [.spawn job]) accounts :=
    traced.same (by rw [run_concat]; rfl)
  have foreign (position : Nat) (id : String) (own : (accounts position).ids id) :
      ¬ job.Draws id := by
    obtain ⟨other, otherSpawned, draws⟩ := traced.drawn position id own
    exact fun drawn => fresh.apart taken job isPrefix other otherSpawned id drawn draws
  refine ⟨?_, ?_, kept.unique, ?_, ?_, ?_, kept.source, kept.dropped⟩
  · intro position ob known
    by_cases here : position = index
    · rw [here, Function.update_self] at known
      exact known.elim
    · rw [Function.update_of_ne here] at known
      exact kept.known position ob known
  · intro position publish handed
    by_cases here : position = index
    · rw [here, Function.update_self] at handed
      exact handed.elim
    · rw [Function.update_of_ne here] at handed
      exact kept.handed position publish handed
  · intro position ob queued own
    by_cases here : position = index
    · rw [here, Function.update_self] at own
      have before : Queued P identity start taken ob :=
        queued_same (by rw [run_concat]; rfl) queued
      rcases traced.source ob before with held | ⟨other, otherSpawned, draws⟩
      · rw [fresh.unused job spawned ob.id own] at held
        cases held
      · exact fresh.apart taken job isPrefix other otherSpawned ob.id own draws
    · rw [Function.update_of_ne here] at own
      exact kept.fresh position ob queued own
  · intro first second different id own other
    by_cases here : first = index
    · rw [here, Function.update_self] at own
      rw [Function.update_of_ne (fun same => different (here.trans same.symm))] at other
      exact foreign second id other own
    · rw [Function.update_of_ne here] at own
      by_cases there : second = index
      · rw [there, Function.update_self] at other
        exact foreign first id own other
      · rw [Function.update_of_ne there] at other
        exact traced.apart first second different id own other
  · intro position id own
    by_cases here : position = index
    · rw [here, Function.update_self] at own
      exact ⟨job, List.mem_append_right _ List.mem_cons_self, own⟩
    · rw [Function.update_of_ne here] at own
      exact kept.drawn position id own

/-- An account that has not gained ids keeps the ids of the threads apart. -/
theorem ids_update
    {index : Nat} {later : Hand}
    (ids : ∀ id, later.ids id → (accounts index).ids id) (position : Nat) (id : String)
    (own : (Function.update accounts index later position).ids id) :
    (accounts position).ids id := by
  by_cases here : position = index
  · rw [here, Function.update_self] at own
    rw [here]
    exact ids id own
  · rw [Function.update_of_ne here] at own
    exact own

theorem known_update
    (known : ∀ index ob, (accounts index).known ob → Queued P identity start taken ob)
    {index : Nat} {later : Hand}
    (gained : ∀ ob, later.known ob → Queued P identity start taken ob) (position : Nat)
    (ob : Outbound) (knows : (Function.update accounts index later position).known ob) :
    Queued P identity start taken ob := by
  by_cases here : position = index
  · rw [here, Function.update_self] at knows
    exact gained ob knows
  · rw [Function.update_of_ne here] at knows
    exact known position ob knows

theorem handed_update
    (handed : ∀ index publish, (accounts index).handed publish →
      Handed P identity start taken publish)
    {index : Nat} {later : Hand}
    (gained : ∀ publish, later.handed publish → Handed P identity start taken publish)
    (position : Nat) (publish : Publish)
    (has : (Function.update accounts index later position).handed publish) :
    Handed P identity start taken publish := by
  by_cases here : position = index
  · rw [here, Function.update_self] at has
    exact gained publish has
  · rw [Function.update_of_ne here] at has
    exact handed position publish has

/-- A row that is queued under a new id. -/
theorem Traced.queue
    (traced : Traced P identity start taken accounts) {index : Nat} {later : Hand}
    {ob : Outbound} (own : (accounts index).ids ob.id)
    (queued : (System.run P identity { shared := start }
        (taken ++ [choice])).shared.store.outbox =
      ((System.run P identity { shared := start }
        taken).shared.store.outbox.insertOrIgnore ob).1)
    (ids : ∀ id, later.ids id → (accounts index).ids id ∧ id ≠ ob.id)
    (known : ∀ other, later.known other → (accounts index).known other ∨ other = ob)
    (handed : later.handed = (accounts index).handed) :
    Traced P identity start (taken ++ [choice]) (Function.update accounts index later) := by
  have longer : taken <+: taken ++ [choice] := List.prefix_append _ _
  have unused (other : Outbound) (before : Queued P identity start taken other) :
      other.id ≠ ob.id := by
    intro same
    exact traced.fresh index other before (same ▸ own)
  have inserted : (System.run P identity { shared := start }
        (taken ++ [choice])).shared.store.pendingOutbound =
      (System.run P identity { shared := start } taken).shared.store.pendingOutbound ++ [ob] := by
    have fresh : (System.run P identity { shared := start } taken).shared.store.outbox.holds
        ob.id = false := by
      refine RowTable.holds_eq_false_iff.mpr fun row member => ?_
      exact unused row.2 (queued_now (List.mem_map_of_mem member))
    rw [Store.pendingOutbound, queued, (RowTable.insertOrIgnore_fresh fresh).1, List.map_append]
    rfl
  have now : Queued P identity start (taken ++ [choice]) ob :=
    queued_now (by rw [inserted]; simp)
  have cases_queued (other : Outbound)
      (reached : Queued P identity start (taken ++ [choice]) other) :
      Queued P identity start taken other ∨ other = ob := by
    rcases queued_concat reached with old | member
    · exact Or.inl old
    · rw [inserted, List.mem_append, List.mem_singleton] at member
      exact member.imp_left queued_now
  have fewer : ∀ id, later.ids id → (accounts index).ids id := fun id has => (ids id has).1
  refine ⟨?_, ?_, ?_, ?_, ?_, ?_, ?_, traced.dropped_concat ?_⟩
  · refine known_update (fun index ob known => (traced.known index ob known).mono longer)
      fun other knows => ?_
    rcases known other knows with old | rfl
    · exact (traced.known index other old).mono longer
    · exact now
  · refine handed_update
      (fun index publish handed => (traced.handed index publish handed).mono longer)
      fun publish has => ?_
    rw [handed] at has
    exact (traced.handed index publish has).mono longer
  · intro first second firstQueued secondQueued same
    rcases cases_queued first firstQueued with old | rfl
    · rcases cases_queued second secondQueued with older | rfl
      · exact traced.unique first second old older same
      · exact absurd same (unused first old)
    · rcases cases_queued second secondQueued with older | rfl
      · exact absurd same.symm (unused second older)
      · rfl
  · intro position other reached has
    have had := ids_update fewer position _ has
    rcases cases_queued other reached with old | rfl
    · exact traced.fresh position other old had
    · by_cases here : position = index
      · rw [here, Function.update_self] at has
        exact (ids _ has).2 rfl
      · exact traced.apart index position (Ne.symm here) _ own had
  · intro first second different id has other
    exact traced.apart first second different id (ids_update fewer first id has)
      (ids_update fewer second id other)
  · intro position id has
    obtain ⟨job, spawned, draws⟩ :=
      traced.drawn position id (ids_update fewer position id has)
    exact ⟨job, longer.subset spawned, draws⟩
  · intro other reached
    rcases cases_queued other reached with old | rfl
    · refine (traced.source other old).imp_right ?_
      rintro ⟨job, spawned, draws⟩
      exact ⟨job, longer.subset spawned, draws⟩
    · obtain ⟨job, spawned, draws⟩ := traced.drawn index _ own
      exact Or.inr ⟨job, longer.subset spawned, draws⟩
  · intro other member gone
    rw [inserted] at gone
    exact absurd (List.mem_append_left _ member) gone

/-- A known row is dropped that the session has taken. -/
theorem Traced.drop
    (traced : Traced P identity start taken accounts) {index : Nat} {ob : Outbound}
    (known : (accounts index).known ob) (handed : (accounts index).handed ob.publish)
    (dropped : (System.run P identity { shared := start }
        (taken ++ [choice])).shared.store.outbox =
      (System.run P identity { shared := start } taken).shared.store.outbox.deleteWhere
        fun row => row.2.id == ob.id) :
    Traced P identity start (taken ++ [choice]) accounts := by
  have longer : taken <+: taken ++ [choice] := List.prefix_append _ _
  have back {other : Outbound} (reached : Queued P identity start (taken ++ [choice]) other) :
      Queued P identity start taken other := by
    rcases queued_concat reached with old | member
    · exact old
    · rw [Store.pendingOutbound, dropped] at member
      obtain ⟨row, stays, rfl⟩ := List.mem_map.mp member
      exact queued_now (List.mem_map_of_mem (RowTable.mem_deleteWhere.mp stays).1)
  refine ⟨?_, ?_, ?_, ?_, traced.apart, ?_, ?_, traced.dropped_concat ?_⟩
  · exact fun index ob known => (traced.known index ob known).mono longer
  · exact fun index publish handed => (traced.handed index publish handed).mono longer
  · exact fun first second reached other => traced.unique first second (back reached) (back other)
  · exact fun position other reached => traced.fresh position other (back reached)
  · intro position id own
    obtain ⟨job, spawned, draws⟩ := traced.drawn position id own
    exact ⟨job, longer.subset spawned, draws⟩
  · intro other reached
    refine (traced.source other (back reached)).imp_right ?_
    rintro ⟨job, spawned, draws⟩
    exact ⟨job, longer.subset spawned, draws⟩
  · intro other member gone
    have same : other.id = ob.id := by
      by_contra different
      obtain ⟨row, stored, rfl⟩ := List.mem_map.mp member
      refine gone ?_
      rw [Store.pendingOutbound, dropped]
      exact List.mem_map_of_mem
        (RowTable.mem_deleteWhere.mpr ⟨stored, beq_eq_false_iff_ne.mpr different⟩)
    rw [traced.unique other ob (queued_now member) (traced.known index ob known) same]
    exact traced.handed index _ handed

theorem Traced.step
    {index : Nat} {input : Input} {later : Hand}
    (traced : Traced P identity start taken accounts)
    (step : OutboxStep (accounts index)
      (System.run P identity { shared := start } taken).shared
      (System.run P identity { shared := start } (taken ++ [.step index input])).shared later) :
    Traced P identity start (taken ++ [.step index input])
      (Function.update accounts index later) := by
  generalize held : accounts index = hand at step
  cases step with
  | kept same ids known handed =>
      subst held
      have kept : Traced P identity start (taken ++ [.step index input]) accounts :=
        traced.same same
      refine ⟨?_, ?_, kept.unique, ?_, ?_, ?_, kept.source, kept.dropped⟩
      · refine known_update kept.known fun ob knows => ?_
        rcases known ob knows with old | member
        · exact kept.known index ob old
        · exact (queued_now member).mono (List.prefix_append _ _)
      · refine handed_update kept.handed fun publish has => ?_
        rcases handed publish has with old | takes
        · exact kept.handed index publish old
        · exact ⟨taken, _, List.prefix_rfl, takes⟩
      · exact fun position ob reached own =>
          kept.fresh position ob reached (ids_update ids position _ own)
      · exact fun first second different id own other =>
          traced.apart first second different id (ids_update ids first id own)
            (ids_update ids second id other)
      · exact fun position id own =>
          kept.drawn position id (ids_update ids position id own)
  | queued ob own queued ids known handed =>
      subst held
      exact traced.queue own queued ids known handed
  | dropped ob known handed dropped =>
      rw [← held] at known handed ⊢
      rw [Function.update_eq_self]
      exact traced.drop known handed dropped

end Extended

/-- The accounts of a run keep both invariants. -/
theorem accounts_run
    {moves : List (Move Input Job)}
    (coupled : ∀ row ∈ start.store.messages.rows, row.2.Awaiting →
      start.store.outbox.holds row.2.id = true)
    (fresh : FreshIds start.store moves) (reliable : Reliable moves) :
    ∃ accounts, (Coupled P identity start moves accounts ∧
        Traced P identity start moves accounts) ∧
      Pool.Tracked OutboxRule (fun later _ => later.awaits = none)
        (System.run P identity { shared := start } moves) accounts := by
  have typed : ∀ job, .spawn job ∈ moves →
      Prog.Tracks OutboxRule (fun later _ => later.awaits = none) job.hand
        (job.thread P identity) :=
    fun job spawned => tracks_thread job (fresh.once job spawned)
  have initial : Coupled P identity start [] (fun _ => Job.pump.hand) := by
    refine ⟨fun _ _ _ _ own => own.elim, fun _ _ due => ?_, fun row member awaiting => ?_⟩
    · cases due
    · exact Or.inl (coupled row member awaiting)
  refine Pool.tracked_run
    typed
    (fun taken accounts => Coupled P identity start taken accounts ∧
      Traced P identity start taken accounts)
    (fun _ => Job.pump.hand) ⟨initial, traced_nil _ fun _ => rfl⟩ ?_ ?_ ?_
  · intro taken job accounts isPrefix holds
    exact ⟨coupled_spawn holds.1, holds.2.spawn fresh isPrefix _⟩
  · intro taken index input job thread accounts later isPrefix holds located follows
    have success : input.Succeeds :=
      reliable index input (isPrefix.subset (List.mem_append_right _ List.mem_cons_self))
    have within : index < (System.run P identity { shared := start } taken).threads.length := by
      by_contra beyond
      rw [System.run] at beyond
      rw [List.getElem?_eq_none (Nat.not_lt.mp beyond)] at located
      cases located
    exact ⟨coupled_step holds.1 success within follows, holds.2.step (follows.step success)⟩
  · intro taken choice accounts isPrefix holds idle
    obtain ⟨⟨owned, due, rows⟩, traced⟩ := holds
    have same : System.run P identity { shared := start } (taken ++ [choice]) =
        System.run P identity { shared := start } taken := idle
    refine ⟨⟨?_, due, ?_⟩, traced.same (by rw [same])⟩
    · rw [same]
      exact owned
    · rw [same]
      exact rows

/-- A thread whose account owes a queueing takes it next. -/
theorem queuesNext_of_due
    {system : System} {accounts : Nat → Hand} {index : Nat} {id : String}
    (tracked : Pool.Tracked OutboxRule (fun later _ => later.awaits = none) system accounts)
    (owned : ∀ index job, system.labels[index]? = some job →
      ∀ id, (accounts index).ids id → job.Draws id)
    (own : (accounts index).ids id)
    (within : index < system.threads.length) (due : (accounts index).awaits = some id) :
    QueuesNext P identity system id := by
  obtain ⟨⟨job, thread⟩, located⟩ : ∃ entry, system.threads[index]? = some entry :=
    ⟨_, List.getElem?_eq_getElem within⟩
  have label : system.labels[index]? = some job := by
    rw [Pool.labels, List.getElem?_map, located]
    rfl
  refine ⟨index, job, thread, located, owned index job label id own, fun input success => ?_⟩
  have tracks := tracked index job thread located
  cases thread with
  | pure value =>
      cases tracks with
      | pure idle =>
          rw [idle] at due
          cases due
  | act update next =>
      obtain ⟨later, follows, _⟩ := tracks.action input system.shared
      have queued := (follows.awaiting success).1 id due
      have moved : Pool.move (Job.thread P identity) system (.step index input) =
          { shared := update input system.shared
            threads := system.threads.set index (job, next input system.shared) } := by
        simp [Pool.move, located]
      rw [moved]
      exact queued

/-- In every run without store errors in which the drawn ids are new, a row that awaits
its hand-off is in the outbox or is queued next by the thread that logged it, and a row
leaves the outbox only after the session took its publish. -/
theorem pending_rows_queued
    (P : Platform) (identity : Identity) (start : World) (moves : List (Move Input Job))
    (coupled : ∀ row ∈ start.store.messages.rows, row.2.Awaiting →
      start.store.outbox.holds row.2.id = true)
    (fresh : FreshIds start.store moves) (reliable : Reliable moves) :
    (∀ row ∈ (System.run P identity { shared := start } moves).shared.store.messages.rows,
        row.2.Awaiting →
          (System.run P identity { shared := start } moves).shared.store.outbox.holds
              row.2.id = true ∨
            QueuesNext P identity (System.run P identity { shared := start } moves) row.2.id) ∧
      ∀ taken choice, taken ++ [choice] <+: moves →
        ∀ ob ∈ (System.run P identity { shared := start } taken).shared.store.pendingOutbound,
          ob ∉ (System.run P identity { shared := start }
            (taken ++ [choice])).shared.store.pendingOutbound →
          Handed P identity start taken ob.publish := by
  obtain ⟨accounts, ⟨keeps, traced⟩, tracked⟩ := accounts_run coupled fresh reliable
  refine ⟨fun row member awaiting => ?_, traced.dropped⟩
  rcases keeps.rows row member awaiting with held | ⟨index, within, due⟩
  · exact Or.inl held
  · exact Or.inr (queuesNext_of_due tracked keeps.owned (keeps.due index _ due) within due)

end Runs

/-! ## A message that has just been logged -/

/-- The message to Bob has been logged and is not queued yet. -/
def loggedMoves : List (Move Input Job) :=
  [.spawn sendToBob, .step 0 {}, .step 0 {}]

theorem loggedMoves_fresh : FreshIds Bench.world.store loggedMoves where
  once job spawned := by
    simp only [loggedMoves, List.mem_cons, Move.spawn.injEq, reduceCtorEq, List.not_mem_nil,
      or_false] at spawned
    rw [spawned]
    trivial
  unused _ _ _ _ := rfl
  apart taken job isPrefix other otherSpawned := by
    cases taken with
    | nil =>
        cases otherSpawned
    | cons first taken =>
        have later := (List.cons_prefix_cons.mp isPrefix).2.subset
          (List.mem_append_right taken List.mem_cons_self)
        simp at later

theorem loggedMoves_reliable : Reliable loggedMoves := by
  intro index input member
  simp only [loggedMoves, List.mem_cons, Move.step.injEq, reduceCtorEq, List.not_mem_nil,
    or_false, false_or, or_self] at member
  rw [member.2]
  rfl

theorem pending_rows_queued_bob :
    (System.run carolBench.platform Bench.me { shared := Bench.world }
        loggedMoves).shared.store.outbox.holds "x" = true ∨
      QueuesNext carolBench.platform Bench.me
        (System.run carolBench.platform Bench.me { shared := Bench.world } loggedMoves) "x" := by
  have logged := (pending_rows_queued carolBench.platform Bench.me Bench.world loggedMoves
    (fun _ member => by cases member) loggedMoves_fresh loggedMoves_reliable).1
  exact logged (bobRow .pending none) (by decide) ⟨rfl, rfl⟩

end AgentMsg
