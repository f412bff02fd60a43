import AgentMsg.Lib.Machine
import Mathlib.Data.List.Basic
import Mathlib.Tactic.Common

/-!
# Programs over a shared state

A program is a sequence of atomic actions.  Each action reads the shared state and
an input of the outside world, changes the state in one indivisible step and goes
on with what it observed.  A program can be executed alone, or as one thread of a
pool whose scheduler may switch threads between any two actions.

`Meets` is the rule for a program executed alone: from a given state every
execution ends in a state and with a value that satisfy the postcondition.
`Parallel` compares two executions: from related states they take the same course.
`Within` is the rule for a program among others: whatever the others do, each
of its own actions makes a change of a given kind.
-/

/-- Programs with inputs `ι`, shared state `σ` and values `α`. -/
inductive Prog (ι σ α : Type) where
  | pure (value : α)
  | act (update : ι → σ → σ) (next : ι → σ → Prog ι σ α)

namespace Prog

variable {ι σ α β : Type}

def bind : Prog ι σ α → (α → Prog ι σ β) → Prog ι σ β
  | .pure value, rest => rest value
  | .act update next, rest => .act update fun input state => (next input state).bind rest

instance : Monad (Prog ι σ) where
  pure := Prog.pure
  bind := Prog.bind

/-- A single action with a result. -/
def call (operation : ι → σ → σ × α) : Prog ι σ α :=
  .act (fun input state => (operation input state).1)
    fun input state => .pure (operation input state).2

/-- Read the shared state. -/
def observe (view : σ → α) : Prog ι σ α :=
  call fun _ state => (state, view state)

/-- The first action of a program that begins with a single action. -/
theorem act_eq_call_bind
    {operation : ι → σ → σ × α} {rest : α → Prog ι σ β} {update : ι → σ → σ}
    {next : ι → σ → Prog ι σ β} (same : .act update next = call operation >>= rest)
    (input : ι) (state : σ) :
    update input state = (operation input state).1 ∧
      next input state = rest (operation input state).2 := by
  have unfolded : call operation >>= rest =
      .act (fun input state => (operation input state).1)
        fun input state => rest (operation input state).2 := rfl
  rw [unfolded] at same
  cases same
  exact ⟨rfl, rfl⟩

/-- Execute a program alone, on a stream of inputs. -/
def exec : Prog ι σ α → (Nat → ι) → σ → σ × α
  | .pure value, _, state => (state, value)
  | .act update next, inputs, state =>
      exec (next (inputs 0) state) (fun index => inputs (index + 1)) (update (inputs 0) state)

@[simp]
theorem exec_pure (value : α) (inputs : Nat → ι) (state : σ) :
    (Pure.pure value : Prog ι σ α).exec inputs state = (state, value) :=
  rfl

@[simp]
theorem exec_observe_bind
    (view : σ → α) (rest : α → Prog ι σ β) (inputs : Nat → ι) (state : σ) :
    (observe view >>= rest).exec inputs state =
      (rest (view state)).exec (fun index => inputs (index + 1)) state :=
  rfl

@[simp]
theorem exec_pure_bind
    (value : α) (rest : α → Prog ι σ β) (inputs : Nat → ι) (state : σ) :
    ((Pure.pure value : Prog ι σ α) >>= rest).exec inputs state =
      (rest value).exec inputs state :=
  rfl

@[simp]
theorem exec_observe_bind_bind
    {γ : Type} (view : σ → γ) (next : γ → Prog ι σ α) (rest : α → Prog ι σ β)
    (inputs : Nat → ι) (state : σ) :
    (observe view >>= next >>= rest).exec inputs state =
      (next (view state) >>= rest).exec (fun index => inputs (index + 1)) state :=
  rfl

theorem bind_assoc {γ : Type} (program : Prog ι σ α) (next : α → Prog ι σ β)
    (last : β → Prog ι σ γ) :
    (program >>= next >>= last) = (program >>= fun value => next value >>= last) := by
  induction program with
  | pure value =>
      rfl
  | act update rest inductionHypothesis =>
      exact congrArg (Prog.act update) (funext fun input => funext fun state =>
        inductionHypothesis input state)

/-- A value that is computed at the end does not change the final state. -/
theorem exec_bind_pure
    (program : Prog ι σ α) (value : α → β) (inputs : Nat → ι) (state : σ) :
    (program >>= fun found => Pure.pure (value found)).exec inputs state =
      ((program.exec inputs state).1, value (program.exec inputs state).2) := by
  induction program generalizing inputs state with
  | pure found =>
      rfl
  | act update next inductionHypothesis =>
      exact inductionHypothesis (inputs 0) state _ _

/-- How many actions an execution takes. -/
def actions : Prog ι σ α → (Nat → ι) → σ → Nat
  | .pure _, _, _ => 0
  | .act update next, inputs, state =>
      actions (next (inputs 0) state) (fun index => inputs (index + 1))
        (update (inputs 0) state) + 1

/-- The state after at most the given number of actions. -/
def execUpTo : Nat → Prog ι σ α → (Nat → ι) → σ → σ
  | 0, _, _, state => state
  | _ + 1, .pure _, _, state => state
  | count + 1, .act update next, inputs, state =>
      execUpTo count (next (inputs 0) state) (fun index => inputs (index + 1))
        (update (inputs 0) state)

theorem execUpTo_actions (program : Prog ι σ α) (inputs : Nat → ι) (state : σ) :
    program.execUpTo (program.actions inputs state) inputs state =
      (program.exec inputs state).1 := by
  induction program generalizing inputs state with
  | pure value =>
      rfl
  | act update next inductionHypothesis =>
      exact inductionHypothesis (inputs 0) state _ _

/-- What is left of a program after some actions, and the state it is left in. -/
def advance : Nat → Prog ι σ α → (Nat → ι) → σ → Prog ι σ α × σ
  | 0, program, _, state => (program, state)
  | _ + 1, .pure value, _, state => (.pure value, state)
  | count + 1, .act update next, inputs, state =>
      advance count (next (inputs 0) state) (fun index => inputs (index + 1))
        (update (inputs 0) state)

@[simp]
theorem advance_observe_bind
    (count : Nat) (view : σ → α) (rest : α → Prog ι σ β) (inputs : Nat → ι) (state : σ) :
    (observe view >>= rest).advance (count + 1) inputs state =
      (rest (view state)).advance count (fun index => inputs (index + 1)) state :=
  rfl

@[simp]
theorem advance_observe_bind_bind
    {γ : Type} (count : Nat) (view : σ → γ) (next : γ → Prog ι σ α) (rest : α → Prog ι σ β)
    (inputs : Nat → ι) (state : σ) :
    (observe view >>= next >>= rest).advance (count + 1) inputs state =
      (next (view state) >>= rest).advance count (fun index => inputs (index + 1)) state :=
  rfl

@[simp]
theorem advance_pure_bind
    (count : Nat) (value : α) (rest : α → Prog ι σ β) (inputs : Nat → ι) (state : σ) :
    ((Pure.pure value : Prog ι σ α) >>= rest).advance count inputs state =
      (rest value).advance count inputs state :=
  rfl

theorem exec_of_advance
    {count : Nat} {program rest : Prog ι σ α} {inputs : Nat → ι} {state middle : σ}
    (advances : program.advance count inputs state = (rest, middle)) :
    program.exec inputs state = rest.exec (fun index => inputs (index + count)) middle := by
  induction count generalizing program inputs state with
  | zero =>
      cases advances
      rfl
  | succ count inductionHypothesis =>
      cases program with
      | pure value =>
          cases advances
          rfl
      | act update next =>
          exact inductionHypothesis advances

theorem execUpTo_of_advance
    {count : Nat} {program rest : Prog ι σ α} {inputs : Nat → ι} {state middle : σ}
    (advances : program.advance count inputs state = (rest, middle)) (more : Nat) :
    program.execUpTo (more + count) inputs state =
      rest.execUpTo more (fun index => inputs (index + count)) middle := by
  induction count generalizing program inputs state with
  | zero =>
      cases advances
      rfl
  | succ count inductionHypothesis =>
      cases program with
      | pure value =>
          cases advances
          cases more <;> rfl
      | act update next =>
          exact inductionHypothesis advances

/-! ## Programs executed alone -/

/-- Every execution from the state, on inputs that are allowed, ends well. -/
def Meets (allowed : ι → Prop) : Prog ι σ α → σ → (σ → α → Prop) → Prop
  | .pure value, state, post => post state value
  | .act update next, state, post =>
      ∀ input, allowed input → Meets allowed (next input state) (update input state) post

section Alone

variable {allowed : ι → Prop} {state : σ} {post weaker : σ → α → Prop}

@[simp]
theorem meets_call {operation : ι → σ → σ × α} :
    Meets allowed (call operation) state post ↔
      ∀ input, allowed input → post (operation input state).1 (operation input state).2 :=
  Iff.rfl

@[simp]
theorem meets_bind
    {program : Prog ι σ α} {rest : α → Prog ι σ β} {final : σ → β → Prop} :
    Meets allowed (program >>= rest) state final ↔
      Meets allowed program state fun middle value =>
        Meets allowed (rest value) middle final := by
  induction program generalizing state with
  | pure value =>
      rfl
  | act update next inductionHypothesis =>
      exact forall_congr' fun input => imp_congr_right fun _ => inductionHypothesis input _

theorem Meets.weaken
    {program : Prog ι σ α} (meets : Meets allowed program state post)
    (implies : ∀ final value, post final value → weaker final value) :
    Meets allowed program state weaker := by
  induction program generalizing state with
  | pure value =>
      exact implies state value meets
  | act update next inductionHypothesis =>
      intro input allows
      exact inductionHypothesis input _ (meets input allows)

/-- Executions end as the rule for programs executed alone says. -/
theorem exec_of_meets
    {program : Prog ι σ α} (meets : Meets allowed program state post)
    {inputs : Nat → ι} (allows : ∀ index, allowed (inputs index)) :
    post (program.exec inputs state).1 (program.exec inputs state).2 := by
  induction program generalizing state inputs with
  | pure value =>
      exact meets
  | act update next inductionHypothesis =>
      exact inductionHypothesis (inputs 0) state (meets (inputs 0) (allows 0))
        fun index => allows (index + 1)

end Alone

/-! ## Two executions side by side -/

/-- From related states, on the same inputs, a program takes the same course and stays
in related states. -/
def Parallel (related : σ → σ → Prop) : Prog ι σ α → Prop
  | .pure _ => True
  | .act update next =>
      ∀ input left right, related left right →
        related (update input left) (update input right) ∧
          next input left = next input right ∧ Parallel related (next input left)

section SideBySide

variable {related : σ → σ → Prop}

theorem parallel_pure {value : α} :
    Parallel related (Pure.pure value : Prog ι σ α) :=
  trivial

theorem parallel_call
    {operation : ι → σ → σ × α}
    (same : ∀ input left right, related left right →
      related (operation input left).1 (operation input right).1 ∧
        (operation input left).2 = (operation input right).2) :
    Parallel related (call operation) := by
  intro input left right holds
  obtain ⟨after, value⟩ := same input left right holds
  exact ⟨after, congrArg Prog.pure value, trivial⟩

theorem Parallel.bind
    {program : Prog ι σ α} {rest : α → Prog ι σ β} (first : Parallel related program)
    (second : ∀ value, Parallel related (rest value)) :
    Parallel related (program >>= rest) := by
  induction program with
  | pure value =>
      exact second value
  | act update next inductionHypothesis =>
      intro input left right holds
      obtain ⟨after, course, later⟩ := first input left right holds
      exact ⟨after, congrArg (fun program => Prog.bind program rest) course,
        inductionHypothesis input left later⟩

/-- The executions end in related states and with one value. -/
theorem exec_of_parallel
    {program : Prog ι σ α} (parallel : Parallel related program) {left right : σ}
    (holds : related left right) (inputs : Nat → ι) :
    related (program.exec inputs left).1 (program.exec inputs right).1 ∧
      (program.exec inputs left).2 = (program.exec inputs right).2 := by
  induction program generalizing left right inputs with
  | pure value =>
      exact ⟨holds, rfl⟩
  | act update next inductionHypothesis =>
      obtain ⟨after, course, later⟩ := parallel (inputs 0) left right holds
      rw [exec, exec, ← course]
      exact inductionHypothesis (inputs 0) left later after _

end SideBySide

/-! ## Programs among others -/

/-- Every action taken in a state that satisfies `assumed` makes a change of the
kind `change`, and the value satisfies `result`. -/
inductive Within (assumed : σ → Prop) (change : σ → σ → Prop) (result : α → Prop) :
    Prog ι σ α → Prop
  | pure {value : α} (ends : result value) : Within assumed change result (.pure value)
  | act {update : ι → σ → σ} {next : ι → σ → Prog ι σ α}
      (changes : ∀ input state, assumed state → change state (update input state))
      (continues : ∀ input state, assumed state →
        Within assumed change result (next input state)) :
      Within assumed change result (.act update next)

section Among

variable {assumed : σ → Prop} {change wider : σ → σ → Prop} {result : α → Prop}

/-- A program that returns at once. -/
theorem Within.done {value : α} :
    Within assumed change (fun _ => True) (Pure.pure value : Prog ι σ α) :=
  .pure trivial

theorem Within.call
    {operation : ι → σ → σ × α}
    (changes : ∀ input state, assumed state → change state (operation input state).1)
    (ends : ∀ input state, assumed state → result (operation input state).2) :
    Within assumed change result (call operation) :=
  .act changes fun input state holds => .pure (ends input state holds)

theorem Within.bind
    {program : Prog ι σ α} {rest : α → Prog ι σ β} {final : β → Prop}
    (first : Within assumed change result program)
    (second : ∀ value, result value → Within assumed change final (rest value)) :
    Within assumed change final (program >>= rest) := by
  induction first with
  | pure ends =>
      exact second _ ends
  | act changes _ inductionHypothesis =>
      exact .act changes fun input state holds => inductionHypothesis input state holds

theorem Within.andThen
    {program : Prog ι σ α} {rest : α → Prog ι σ β} {final : β → Prop}
    (first : Within assumed change (fun _ => True) program)
    (second : ∀ value, Within assumed change final (rest value)) :
    Within assumed change final (program >>= rest) :=
  first.bind fun value _ => second value

/-- A program that only reads keeps to every reflexive relation. -/
theorem Within.of_reads
    {program : Prog ι σ α}
    (reads : Within assumed (fun before after => after = before) result program)
    (refl : ∀ state, change state state) : Within assumed change result program := by
  induction reads with
  | pure ends =>
      exact .pure ends
  | act changes _ inductionHypothesis =>
      refine .act (fun input state holds => ?_) inductionHypothesis
      rw [changes input state holds]
      exact refl state

theorem Within.weaken
    {program : Prog ι σ α} (within : Within assumed change result program)
    {weaker : α → Prop}
    (widens : ∀ before after, assumed before → change before after → wider before after)
    (implies : ∀ value, result value → weaker value) :
    Within assumed wider weaker program := by
  induction within with
  | pure ends =>
      exact .pure (implies _ ends)
  | act changes _ inductionHypothesis =>
      exact .act (fun input state holds => widens _ _ holds (changes input state holds))
        fun input state holds => inductionHypothesis input state holds

/-- The next action of a program makes a permitted change. -/
theorem Within.action
    {update : ι → σ → σ} {next : ι → σ → Prog ι σ α}
    (within : Within assumed change result (.act update next))
    (input : ι) {state : σ} (holds : assumed state) :
    change state (update input state) ∧
      Within assumed change result (next input state) := by
  cases within with
  | act changes continues =>
      exact ⟨changes input state holds, continues input state holds⟩

/-- Executed alone, a program makes the changes it is confined to, one after the
other. -/
theorem Within.meets
    {allowed : ι → Prop} {program : Prog ι σ α} {related : σ → σ → Prop}
    (reflexive : ∀ state, related state state)
    (transitive : ∀ {first second third},
      related first second → related second third → related first third)
    (within : Within (fun _ => True) related result program) (state : σ) :
    Meets allowed program state fun final value => related state final ∧ result value := by
  induction within generalizing state with
  | pure ends =>
      exact ⟨reflexive state, ends⟩
  | act changes _ inductionHypothesis =>
      intro input _
      refine (inductionHypothesis input state trivial _).weaken ?_
      intro final value ⟨later, ends⟩
      exact ⟨transitive (changes input state trivial) later, ends⟩

/-- An execution that is cut short is a chain of the changes a program is confined
to. -/
theorem Within.execUpTo
    {program : Prog ι σ α} {related : σ → σ → Prop}
    (reflexive : ∀ state, related state state)
    (transitive : ∀ {first second third},
      related first second → related second third → related first third)
    (within : Within (fun _ => True) related result program)
    (count : Nat) (inputs : Nat → ι) (state : σ) :
    related state (program.execUpTo count inputs state) := by
  induction within generalizing count inputs state with
  | pure _ =>
      cases count <;> exact reflexive state
  | act changes _ inductionHypothesis =>
      cases count with
      | zero =>
          exact reflexive state
      | succ count =>
          exact transitive (changes (inputs 0) state trivial)
            (inductionHypothesis (inputs 0) state trivial count _ _)

end Among

end Prog

/-! ## Pools of threads -/

/-- A shared state and the threads over it, each under the label it was spawned
with. -/
structure Pool (ι σ l : Type) where
  shared : σ
  threads : List (l × Prog ι σ Unit) := []

/-- One choice of the scheduler: start a thread, or let one take its next action. -/
inductive Move (ι l : Type) where
  | spawn (label : l)
  | step (index : Nat) (input : ι)

namespace Pool

variable {ι σ l : Type}

/-- The effect of one choice.  A finished or missing thread takes no action. -/
def move (program : l → Prog ι σ Unit) (pool : Pool ι σ l) : Move ι l → Pool ι σ l
  | .spawn label => { pool with threads := pool.threads ++ [(label, program label)] }
  | .step index input =>
      match pool.threads[index]? with
      | some (label, .act update next) =>
          { shared := update input pool.shared
            threads := pool.threads.set index (label, next input pool.shared) }
      | _ => pool

def run (program : l → Prog ι σ Unit) (pool : Pool ι σ l) (moves : List (Move ι l)) :
    Pool ι σ l :=
  Machine.run (move program) pool moves

variable {program : l → Prog ι σ Unit} {pool : Pool ι σ l}

@[simp]
theorem run_nil : pool.run program [] = pool :=
  rfl

@[simp]
theorem run_cons {choice : Move ι l} {moves : List (Move ι l)} :
    pool.run program (choice :: moves) = (pool.move program choice).run program moves :=
  rfl

theorem run_append {first second : List (Move ι l)} :
    pool.run program (first ++ second) = (pool.run program first).run program second :=
  Machine.run_append

/-- What a move can do to the shared state: nothing, or the next action of one of
the threads. -/
theorem move_shared (choice : Move ι l) :
    (pool.move program choice).shared = pool.shared ∨
      ∃ index input label update next, choice = .step index input ∧
        pool.threads[index]? = some (label, .act update next) ∧
        (pool.move program choice).shared = update input pool.shared := by
  cases choice with
  | spawn label =>
      exact Or.inl rfl
  | step index input =>
      rcases found : pool.threads[index]? with _ | ⟨label, value | ⟨update, next⟩⟩
      · exact Or.inl (by simp [move, found])
      · exact Or.inl (by simp [move, found])
      · exact Or.inr ⟨index, input, label, update, next, rfl, found, by simp [move, found]⟩

/-- A label of the pool was in it at the start or was spawned. -/
theorem label_of_move
    {choice : Move ι l} {thread : l × Prog ι σ Unit}
    (member : thread ∈ (pool.move program choice).threads) :
    thread.1 ∈ pool.threads.map Prod.fst ∨ choice = .spawn thread.1 := by
  cases choice with
  | spawn label =>
      rcases List.mem_append.mp member with old | new
      · exact Or.inl (List.mem_map_of_mem old)
      · rw [List.mem_singleton] at new
        subst new
        exact Or.inr rfl
  | step index input =>
      left
      rcases found : pool.threads[index]? with _ | ⟨label, value | ⟨update, next⟩⟩
      · simp only [move, found] at member
        exact List.mem_map_of_mem member
      · simp only [move, found] at member
        exact List.mem_map_of_mem member
      · simp only [move, found] at member
        rcases List.mem_or_eq_of_mem_set member with old | new
        · exact List.mem_map_of_mem old
        · subst new
          exact List.mem_map.mpr ⟨_, List.mem_of_getElem? found, rfl⟩

/-- The action of the thread spawned last. -/
theorem move_last
    {label : l} {update : ι → σ → σ} {next : ι → σ → Prog ι σ Unit} {shared : σ}
    {threads : List (l × Prog ι σ Unit)} {input : ι} :
    Pool.move program { shared, threads := threads ++ [(label, .act update next)] }
        (.step threads.length input) =
      { shared := update input shared
        threads := threads ++ [(label, next input shared)] } := by
  simp [move]

/-- A thread that is never interrupted does what executing it alone does. -/
theorem run_uninterrupted
    (label : l) (thread : Prog ι σ Unit) (inputs : Nat → ι) (shared : σ)
    (threads : List (l × Prog ι σ Unit)) :
    Pool.run program { shared, threads := threads ++ [(label, thread)] }
        ((List.range (thread.actions inputs shared)).map fun index =>
          .step threads.length (inputs index)) =
      { shared := (thread.exec inputs shared).1
        threads := threads ++ [(label, .pure (thread.exec inputs shared).2)] } := by
  induction thread generalizing inputs shared with
  | pure value =>
      rfl
  | act update next inductionHypothesis =>
      rw [Prog.actions, List.range_succ_eq_map, List.map_cons, run_cons, move_last,
        List.map_map]
      exact inductionHypothesis (inputs 0) shared (fun index => inputs (index + 1))
        (update (inputs 0) shared)

/-- A step of a confined thread makes a change of its kind, or none. -/
theorem step_of_within
    {assumed : σ → Prop} {change : σ → σ → Prop} {index : Nat} {label : l}
    {thread : Prog ι σ Unit} (located : pool.threads[index]? = some (label, thread))
    (within : Prog.Within assumed change (fun _ => True) thread) (holds : assumed pool.shared)
    (input : ι) :
    (pool.move program (.step index input)).shared = pool.shared ∨
      change pool.shared (pool.move program (.step index input)).shared := by
  cases thread with
  | pure value =>
      exact Or.inl (by simp [Pool.move, located])
  | act update next =>
      have moved : (pool.move program (.step index input)).shared = update input pool.shared := by
        simp [Pool.move, located]
      rw [moved]
      exact Or.inr (within.action input holds).1

section Invariants

variable {assumed : σ → Prop} {change : l → σ → σ → Prop}

/-- Every thread of the pool makes only the changes its label permits. -/
def Confined (assumed : σ → Prop) (change : l → σ → σ → Prop) (pool : Pool ι σ l) : Prop :=
  ∀ thread ∈ pool.threads,
    Prog.Within assumed (change thread.1) (fun _ => True) thread.2

theorem Confined.move
    (confined : Confined assumed change pool) {choice : Move ι l}
    (holds : assumed pool.shared)
    (spawned : ∀ label, choice = .spawn label →
      Prog.Within assumed (change label) (fun _ => True) (program label)) :
    Confined assumed change (pool.move program choice) := by
  intro thread member
  cases choice with
  | spawn label =>
      rcases List.mem_append.mp member with old | new
      · exact confined thread old
      · rw [List.mem_singleton] at new
        subst new
        exact spawned label rfl
  | step index input =>
      rcases found : pool.threads[index]? with _ | ⟨label, value | ⟨update, next⟩⟩
      · simp only [Pool.move, found] at member
        exact confined thread member
      · simp only [Pool.move, found] at member
        exact confined thread member
      · simp only [Pool.move, found] at member
        rcases List.mem_or_eq_of_mem_set member with old | new
        · exact confined thread old
        · subst new
          exact ((confined _ (List.mem_of_getElem? found)).action input holds).2

/-- The confinement of every spawned thread is the confinement of the pool, in
every state of a run. -/
theorem Confined.run
    {moves : List (Move ι l)} (confined : Confined assumed change pool)
    (visited : ∀ taken, taken <+: moves → assumed (pool.run program taken).shared)
    (spawned : ∀ label, .spawn label ∈ moves →
      Prog.Within assumed (change label) (fun _ => True) (program label)) :
    Confined assumed change (pool.run program moves) := by
  induction moves generalizing pool with
  | nil =>
      exact confined
  | cons choice moves inductionHypothesis =>
      rw [run_cons]
      refine inductionHypothesis
        (confined.move (visited [] List.nil_prefix) fun label chosen => ?_) ?_ ?_
      · exact spawned label (chosen ▸ List.mem_cons_self)
      · intro taken initial
        exact visited (choice :: taken) (List.cons_prefix_cons.mpr ⟨rfl, initial⟩)
      · intro label member
        exact spawned label (List.mem_cons_of_mem _ member)

/-- A move of a confined pool changes nothing, or makes a change that the label of
the moving thread permits. -/
theorem Confined.move_change
    (confined : Confined assumed change pool) (holds : assumed pool.shared)
    (choice : Move ι l) :
    (pool.move program choice).shared = pool.shared ∨
      ∃ thread ∈ pool.threads,
        change thread.1 pool.shared (pool.move program choice).shared := by
  rcases move_shared choice with
    same | ⟨index, input, label, update, next, rfl, found, moved⟩
  · exact Or.inl same
  · refine Or.inr ⟨_, List.mem_of_getElem? found, ?_⟩
    rw [moved]
    exact ((confined _ (List.mem_of_getElem? found)).action input holds).1

/-- A step of a confined pool changes nothing, or makes a change that the label of the
stepping thread permits. -/
theorem Confined.step_change
    (confined : Confined assumed change pool) (holds : assumed pool.shared) {index : Nat}
    {label : l} {thread : Prog ι σ Unit} (found : pool.threads[index]? = some (label, thread))
    (input : ι) :
    (pool.move program (.step index input)).shared = pool.shared ∨
      change label pool.shared (pool.move program (.step index input)).shared :=
  step_of_within found (confined _ (List.mem_of_getElem? found)) holds input

/-- A thread that is confined stays so, whatever the others do. -/
theorem within_run
    {change : σ → σ → Prop} {index : Nat} {label : l} {thread : Prog ι σ Unit}
    (located : pool.threads[index]? = some (label, thread))
    (within : Prog.Within (fun _ => True) change (fun _ => True) thread)
    (moves : List (Move ι l)) :
    ∃ later, (pool.run program moves).threads[index]? = some (label, later) ∧
      Prog.Within (fun _ => True) change (fun _ => True) later := by
  induction moves generalizing pool thread with
  | nil =>
      exact ⟨thread, located, within⟩
  | cons choice moves inductionHypothesis =>
      rw [run_cons]
      cases choice with
      | spawn other =>
          refine inductionHypothesis ?_ within
          have bound := (List.getElem?_eq_some_iff.mp located).1
          rw [move, List.getElem?_append_left bound, located]
      | step position input =>
          rcases found : pool.threads[position]? with _ | ⟨other, value | ⟨update, next⟩⟩
          · exact inductionHypothesis (by simpa [move, found] using located) within
          · exact inductionHypothesis (by simpa [move, found] using located) within
          · by_cases same : position = index
            · subst same
              rw [located] at found
              cases found
              have bound := (List.getElem?_eq_some_iff.mp located).1
              obtain ⟨_, continues⟩ : change pool.shared (update input pool.shared) ∧ _ :=
                within.action input trivial
              refine inductionHypothesis ?_ continues
              rw [move, located]
              simp [bound]
            · refine inductionHypothesis ?_ within
              simp [move, found, List.getElem?_set_ne same, located]

/-- Whatever moves come first, a step of a confined thread makes a change of its kind, or
none. -/
theorem change_after_run
    {change : σ → σ → Prop} {index : Nat} {label : l} {thread : Prog ι σ Unit}
    (located : pool.threads[index]? = some (label, thread))
    (within : Prog.Within (fun _ => True) change (fun _ => True) thread)
    (moves : List (Move ι l)) (input : ι) :
    (pool.run program (moves ++ [.step index input])).shared = (pool.run program moves).shared ∨
      change (pool.run program moves).shared
        (pool.run program (moves ++ [.step index input])).shared := by
  obtain ⟨later, here, confined⟩ := @within_run _ _ _ program _ _ _ _ _ located within moves
  rw [run_append]
  exact @step_of_within _ _ _ program _ _ _ _ _ _ here confined trivial input

/-- A state the run passes through. -/
def Visits (program : l → Prog ι σ Unit) (pool : Pool ι σ l) (moves : List (Move ι l))
    (state : σ) : Prop :=
  ∃ taken, taken <+: moves ∧ (pool.run program taken).shared = state

theorem visits_final {moves : List (Move ι l)} :
    Visits program pool moves (pool.run program moves).shared :=
  ⟨moves, List.prefix_rfl, rfl⟩

/-- The label of a thread was there at the start or has been spawned. -/
theorem label_of_run
    {moves : List (Move ι l)} {thread : l × Prog ι σ Unit}
    (member : thread ∈ (pool.run program moves).threads) :
    thread.1 ∈ pool.threads.map Prod.fst ∨ .spawn thread.1 ∈ moves := by
  induction moves generalizing pool with
  | nil =>
      exact Or.inl (List.mem_map_of_mem member)
  | cons choice moves inductionHypothesis =>
      rcases inductionHypothesis member with threaded | later
      · obtain ⟨other, otherMember, same⟩ := List.mem_map.mp threaded
        rcases label_of_move otherMember with old | new
        · exact Or.inl (same ▸ old)
        · refine Or.inr (List.mem_cons.mpr (Or.inl ?_))
          rw [new, same]
      · exact Or.inr (List.mem_cons_of_mem _ later)

/-- Every move of a run from a pool without threads changes nothing, or makes a
change permitted to a label spawned before. -/
theorem run_change
    {start : σ} {taken : List (Move ι l)} (choice : Move ι l)
    (spawned : ∀ label, .spawn label ∈ taken →
      Prog.Within (Visits program { shared := start } taken) (change label)
        (fun _ => True) (program label)) :
    (Pool.run program { shared := start } (taken ++ [choice])).shared =
        (Pool.run program { shared := start } taken).shared ∨
      ∃ label, .spawn label ∈ taken ∧
        change label (Pool.run program { shared := start } taken).shared
          (Pool.run program { shared := start } (taken ++ [choice])).shared := by
  have confined :
      Confined (Visits program { shared := start } taken) change
        (Pool.run program { shared := start } taken) := by
    refine Confined.run (by simp [Confined]) (fun initial isPrefix => ?_) spawned
    exact ⟨initial, isPrefix, rfl⟩
  rw [run_append]
  rcases confined.move_change visits_final choice with
    same | ⟨thread, member, changed⟩
  · exact Or.inl same
  · rcases label_of_run member with threaded | spawnedBefore
    · exact absurd threaded (by simp)
    · exact Or.inr ⟨thread.1, spawnedBefore, changed⟩

end Invariants

/-! ## Conditions on the moves of a run -/

/-- A condition on the pool before a move, and on the move, holds at every move of a
run. -/
def Along (program : l → Prog ι σ Unit) (condition : Pool ι σ l → Move ι l → Prop)
    (pool : Pool ι σ l) (moves : List (Move ι l)) : Prop :=
  Machine.EveryStep (move program) condition pool moves

theorem along_append
    {condition : Pool ι σ l → Move ι l → Prop} {first second : List (Move ι l)} :
    Along program condition pool (first ++ second) ↔
      Along program condition pool first ∧
        Along program condition (pool.run program first) second :=
  Machine.everyStep_append_iff

/-- What threads satisfy when they are spawned, and keep at each of their actions, they
satisfy throughout a run. -/
theorem forall_threads_run
    {good : l × Prog ι σ Unit → Prop} {condition : Pool ι σ l → Move ι l → Prop}
    (spawned : ∀ label, good (label, program label))
    (steps : ∀ {pool : Pool ι σ l} {index : Nat} {input : ι} {label : l}
      {update : ι → σ → σ} {next : ι → σ → Prog ι σ Unit},
      condition pool (.step index input) →
      pool.threads[index]? = some (label, .act update next) →
      good (label, .act update next) → good (label, next input pool.shared))
    {moves : List (Move ι l)} (along : Along program condition pool moves)
    (initial : ∀ thread ∈ pool.threads, good thread) :
    ∀ thread ∈ (pool.run program moves).threads, good thread := by
  induction moves generalizing pool with
  | nil =>
      exact initial
  | cons choice moves inductionHypothesis =>
      obtain ⟨here, later⟩ := Machine.everyStep_cons_iff.mp along
      rw [run_cons]
      refine inductionHypothesis later ?_
      intro thread member
      cases choice with
      | spawn label =>
          rcases List.mem_append.mp member with old | new
          · exact initial thread old
          · rw [List.mem_singleton] at new
            rw [new]
            exact spawned label
      | step index input =>
          rcases found : pool.threads[index]? with _ | ⟨label, value | ⟨update, next⟩⟩
          · simp only [Pool.move, found] at member
            exact initial thread member
          · simp only [Pool.move, found] at member
            exact initial thread member
          · simp only [Pool.move, found] at member
            rcases List.mem_or_eq_of_mem_set member with old | new
            · exact initial thread old
            · rw [new]
              exact steps here found (initial _ (List.mem_of_getElem? found))

end Pool
