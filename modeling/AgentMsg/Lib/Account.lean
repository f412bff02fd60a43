import AgentMsg.Lib.Prog
import Mathlib.Logic.Function.Basic
import Mathlib.Data.List.Induction

/-!
# Threads that keep an account

A rule says which change an action may make under the account its thread holds, and
which account the thread holds afterwards: what it has seen, what it may still do,
what it owes.  Accounts exist in proofs only.  A program tracks the rule when each
of its actions follows it, whatever other threads do in between; an invariant of the
shared state and the accounts is then preserved by every run of a pool.
-/

namespace Prog

variable {ι σ τ α β : Type}

/-- Every action follows the rule, and the account at the end is fit for the value. -/
inductive Tracks (rule : τ → ι → σ → σ → τ → Prop) (final : τ → α → Prop) :
    τ → Prog ι σ α → Prop
  | pure {account : τ} {value : α} (ends : final account value) :
      Tracks rule final account (.pure value)
  | act {account : τ} {update : ι → σ → σ} {next : ι → σ → Prog ι σ α} (later : ι → σ → τ)
      (follows : ∀ input state,
        rule account input state (update input state) (later input state))
      (continues : ∀ input state,
        Tracks rule final (later input state) (next input state)) :
      Tracks rule final account (.act update next)

variable {rule : τ → ι → σ → σ → τ → Prop} {account : τ}

/-- A program that returns at once. -/
theorem Tracks.done
    {final : τ → α → Prop} {value : α} (ends : final account value) :
    Tracks rule final account (Pure.pure value : Prog ι σ α) :=
  .pure ends

theorem Tracks.call
    {final : τ → α → Prop} {operation : ι → σ → σ × α}
    (follows : ∀ input state, ∃ later,
      rule account input state (operation input state).1 later ∧
        final later (operation input state).2) :
    Tracks rule final account (call operation) := by
  choose later permitted ends using follows
  exact .act later permitted fun input state => .pure (ends input state)

theorem Tracks.bind
    {program : Prog ι σ α} {rest : α → Prog ι σ β} {middle : τ → α → Prop}
    {final : τ → β → Prop} (first : Tracks rule middle account program)
    (second : ∀ later value, middle later value → Tracks rule final later (rest value)) :
    Tracks rule final account (program >>= rest) := by
  induction first with
  | pure ends =>
      exact second _ _ ends
  | act later follows _ inductionHypothesis =>
      exact .act later follows inductionHypothesis

theorem Tracks.weaken
    {program : Prog ι σ α} {final weaker : τ → α → Prop}
    (tracks : Tracks rule final account program)
    (implies : ∀ later value, final later value → weaker later value) :
    Tracks rule weaker account program := by
  induction tracks with
  | pure ends =>
      exact .pure (implies _ _ ends)
  | act later follows _ inductionHypothesis =>
      exact .act later follows inductionHypothesis

/-- The next action follows the rule. -/
theorem Tracks.action
    {final : τ → α → Prop} {update : ι → σ → σ} {next : ι → σ → Prog ι σ α}
    (tracks : Tracks rule final account (.act update next)) (input : ι) (state : σ) :
    ∃ later, rule account input state (update input state) later ∧
      Tracks rule final later (next input state) := by
  cases tracks with
  | act later follows continues =>
      exact ⟨later input state, follows input state, continues input state⟩

/-- A program whose changes the rule permits without touching the account. -/
theorem Within.tracks
    {program : Prog ι σ α} {change : σ → σ → Prop} {result : α → Prop}
    (within : Within (fun _ => True) change result program)
    (permits : ∀ input before after, change before after →
      rule account input before after account) :
    Tracks rule (fun later value => later = account ∧ result value) account program := by
  induction within with
  | pure ends =>
      exact .pure ⟨rfl, ends⟩
  | act changes _ inductionHypothesis =>
      exact .act (fun _ _ => account)
        (fun input state => permits input _ _ (changes input state trivial))
        fun input state => inductionHypothesis input state trivial

/-! ## A larger state -/

/-- The program over a state with a part it neither reads nor changes. -/
def lift {ρ : Type} : Prog ι σ α → Prog ι (σ × ρ) α
  | .pure value => .pure value
  | .act update next =>
      .act (fun input state => (update input state.1, state.2))
        fun input state => lift (next input state.1)

theorem Tracks.lift
    {ρ : Type} {program : Prog ι σ α} {final : τ → α → Prop}
    {wide : τ → ι → σ × ρ → σ × ρ → τ → Prop}
    (tracks : Tracks rule final account program)
    (widens : ∀ {account input before after later} (rest : ρ),
      rule account input before after later →
      wide account input (before, rest) (after, rest) later) :
    Tracks wide final account (lift program) := by
  induction tracks with
  | pure ends =>
      exact .pure ends
  | act later follows _ inductionHypothesis =>
      exact .act (fun input state => later input state.1)
        (fun input state => widens state.2 (follows input state.1))
        fun input state => inductionHypothesis input state.1

end Prog

namespace Pool

variable {ι σ τ l : Type} {program : l → Prog ι σ Unit} {start : σ}
  {rule : τ → ι → σ → σ → τ → Prop} {final : τ → Unit → Prop}

/-- What a choice does: start a thread, let one act, or nothing. -/
theorem move_cases (program : l → Prog ι σ Unit) (pool : Pool ι σ l) (choice : Move ι l) :
    (∃ label, choice = .spawn label) ∨
      (∃ index input label update next, choice = .step index input ∧
        pool.threads[index]? = some (label, .act update next) ∧
        pool.move program choice =
          { shared := update input pool.shared
            threads := pool.threads.set index (label, next input pool.shared) }) ∨
      pool.move program choice = pool := by
  cases choice with
  | spawn label =>
      exact Or.inl ⟨label, rfl⟩
  | step index input =>
      rcases found : pool.threads[index]? with _ | ⟨label, value | ⟨update, next⟩⟩
      · exact Or.inr (Or.inr (by simp [move, found]))
      · exact Or.inr (Or.inr (by simp [move, found]))
      · exact Or.inr (Or.inl ⟨index, input, label, update, next, rfl, found,
          by simp [move, found]⟩)

/-- The labels of the threads, in the order in which they were started. -/
def labels (pool : Pool ι σ l) : List l :=
  pool.threads.map Prod.fst

theorem labels_spawn {pool : Pool ι σ l} {label : l} :
    (pool.move program (.spawn label)).labels = pool.labels ++ [label] :=
  List.map_append

theorem labels_step
    (program : l → Prog ι σ Unit) (pool : Pool ι σ l) (index : Nat) (input : ι) :
    (pool.move program (.step index input)).labels = pool.labels := by
  rcases found : pool.threads[index]? with _ | ⟨label, value | ⟨update, next⟩⟩
  · simp [move, found]
  · simp [move, found]
  · have same : pool.labels[index]? = some label := by
      rw [labels, List.getElem?_map, found]
      rfl
    have within : index < pool.labels.length := by
      by_contra beyond
      rw [List.getElem?_eq_none (Nat.not_lt.mp beyond)] at same
      cases same
    have moved : (pool.move program (.step index input)).labels = pool.labels.set index label := by
      simp [move, found, labels, List.map_set]
    rw [moved]
    refine List.ext_getElem? fun position => ?_
    by_cases here : position = index
    · rw [here, List.getElem?_set_self within, same]
    · rw [List.getElem?_set_ne (Ne.symm here)]

/-- What holds of a thread and its position when it is spawned, is kept while it does not act,
and is kept by its own actions, holds of every thread after every run. -/
theorem forall_positions_run
    {good : List (Move ι l) → Nat → l → Prog ι σ Unit → Prop}
    (spawned : ∀ taken label,
      good (taken ++ [.spawn label]) (Pool.run program { shared := start } taken).threads.length
        label (program label))
    (stays : ∀ taken choice index label thread, good taken index label thread →
      ((∀ input, choice ≠ .step index input) ∨ ∃ value, thread = .pure value) →
      good (taken ++ [choice]) index label thread)
    (steps : ∀ taken index input label update next,
      (Pool.run program { shared := start } taken).threads[index]? =
        some (label, .act update next) →
      good taken index label (.act update next) →
      good (taken ++ [.step index input]) index label
        (next input (Pool.run program { shared := start } taken).shared))
    (moves : List (Move ι l)) (index : Nat) (label : l) (thread : Prog ι σ Unit)
    (located : (Pool.run program { shared := start } moves).threads[index]? =
      some (label, thread)) : good moves index label thread := by
  induction moves using List.reverseRecOn generalizing index label thread with
  | nil =>
      cases located
  | append_singleton taken choice inductionHypothesis =>
      rw [run_append, run_cons, run_nil] at located
      cases choice with
      | spawn other =>
          rw [move, List.getElem?_append] at located
          split at located
          · exact stays _ _ _ _ _ (inductionHypothesis _ _ _ located) (Or.inl (by simp))
          · rename_i beyond
            have last : index = (Pool.run program { shared := start } taken).threads.length := by
              by_contra different
              rw [List.getElem?_eq_none (by simp; omega)] at located
              cases located
            subst last
            simp only [Nat.sub_self, List.getElem?_cons_zero, Option.some.injEq,
              Prod.mk.injEq] at located
            obtain ⟨rfl, rfl⟩ := located
            exact spawned taken other
      | step position input =>
          rcases found : (Pool.run program { shared := start } taken).threads[position]? with
            _ | ⟨other, value | ⟨update, next⟩⟩
          · simp only [move, found] at located
            refine stays _ _ _ _ _ (inductionHypothesis _ _ _ located) (Or.inl ?_)
            rintro _ same
            cases same
            rw [located] at found
            cases found
          · simp only [move, found] at located
            by_cases here : position = index
            · subst here
              rw [located] at found
              cases found
              exact stays _ _ _ _ _ (inductionHypothesis _ _ _ located) (Or.inr ⟨_, rfl⟩)
            · refine stays _ _ _ _ _ (inductionHypothesis _ _ _ located) (Or.inl ?_)
              rintro _ same
              cases same
              exact here rfl
          · simp only [move, found] at located
            by_cases here : position = index
            · subst here
              have within := (List.getElem?_eq_some_iff.mp found).1
              rw [List.getElem?_set_self within, Option.some.injEq, Prod.mk.injEq] at located
              obtain ⟨rfl, rfl⟩ := located
              exact steps _ _ _ _ _ _ found (inductionHypothesis _ _ _ found)
            · rw [List.getElem?_set_ne here] at located
              refine stays _ _ _ _ _ (inductionHypothesis _ _ _ located) (Or.inl ?_)
              rintro _ same
              cases same
              exact here rfl

/-- The threads of a pool track the rule with their accounts. -/
def Tracked (rule : τ → ι → σ → σ → τ → Prop) (final : τ → Unit → Prop)
    (pool : Pool ι σ l) (accounts : Nat → τ) : Prop :=
  ∀ index label thread, pool.threads[index]? = some (label, thread) →
    Prog.Tracks rule final (accounts index) thread

/-- A thread that is started is tracked with its account. -/
theorem Tracked.spawn
    {pool : Pool ι σ l} {accounts : Nat → τ} {label : l} {account : τ}
    (tracked : Tracked rule final pool accounts)
    (typed : Prog.Tracks rule final account (program label)) :
    Tracked rule final (pool.move program (.spawn label))
      (Function.update accounts pool.threads.length account) := by
  intro index other thread located
  rw [move] at located
  by_cases old : index < pool.threads.length
  · rw [List.getElem?_append_left old] at located
    rw [Function.update_of_ne (Nat.ne_of_lt old)]
    exact tracked index other thread located
  · rw [List.getElem?_append_right (Nat.not_lt.mp old)] at located
    have last : index = pool.threads.length := by
      by_contra different
      rw [List.getElem?_eq_none (by simp; omega)] at located
      cases located
    subst last
    simp only [Nat.sub_self, List.getElem?_cons_zero, Option.some.injEq,
      Prod.mk.injEq] at located
    obtain ⟨rfl, rfl⟩ := located
    rw [Function.update_self]
    exact typed

/-- A thread that acts follows the rule and is tracked with its new account. -/
theorem Tracked.act
    {pool : Pool ι σ l} {accounts : Nat → τ} {index : Nat} {label : l}
    {update : ι → σ → σ} {next : ι → σ → Prog ι σ Unit}
    (tracked : Tracked rule final pool accounts)
    (found : pool.threads[index]? = some (label, .act update next)) (input : ι) :
    ∃ later, rule (accounts index) input pool.shared (update input pool.shared) later ∧
      Tracked rule final
        { shared := update input pool.shared
          threads := pool.threads.set index (label, next input pool.shared) }
        (Function.update accounts index later) := by
  obtain ⟨later, follows, continues⟩ := (tracked index label _ found).action input pool.shared
  refine ⟨later, follows, fun position other thread located => ?_⟩
  dsimp only at located
  by_cases same : position = index
  · subst same
    have within : position < pool.threads.length := (List.getElem?_eq_some_iff.mp found).1
    rw [List.getElem?_set_self within, Option.some.injEq, Prod.mk.injEq] at located
    obtain ⟨rfl, rfl⟩ := located
    rw [Function.update_self]
    exact continues
  · rw [List.getElem?_set_ne (Ne.symm same)] at located
    rw [Function.update_of_ne same]
    exact tracked position other thread located

/-- What holds of the empty pool, and is kept when a thread is started with its account
and when a thread follows the rule, holds after every run. -/
theorem tracked_run
    {account : l → τ} {moves : List (Move ι l)}
    (typed : ∀ label, .spawn label ∈ moves →
      Prog.Tracks rule final (account label) (program label))
    (holds : List (Move ι l) → (Nat → τ) → Prop) (accounts : Nat → τ)
    (initial : holds [] accounts)
    (spawned : ∀ taken label accounts, taken ++ [.spawn label] <+: moves →
      holds taken accounts →
      holds (taken ++ [.spawn label])
        (Function.update accounts (Pool.run program { shared := start } taken).threads.length
          (account label)))
    (stepped : ∀ taken index input label thread accounts later,
      taken ++ [.step index input] <+: moves → holds taken accounts →
      (Pool.run program { shared := start } taken).threads[index]? = some (label, thread) →
      rule (accounts index) input (Pool.run program { shared := start } taken).shared
        (Pool.run program { shared := start } (taken ++ [.step index input])).shared later →
      holds (taken ++ [.step index input]) (Function.update accounts index later))
    (idle : ∀ taken choice accounts, taken ++ [choice] <+: moves → holds taken accounts →
      Pool.run program { shared := start } (taken ++ [choice]) =
        Pool.run program { shared := start } taken →
      holds (taken ++ [choice]) accounts) :
    ∃ accounts, holds moves accounts ∧
      Tracked rule final (Pool.run program { shared := start } moves) accounts := by
  suffices reached : ∀ taken, taken <+: moves → ∃ accounts, holds taken accounts ∧
      Tracked rule final (Pool.run program { shared := start } taken) accounts from
    reached moves List.prefix_rfl
  intro taken
  induction taken using List.reverseRecOn with
  | nil =>
      intro _
      exact ⟨accounts, initial, fun index label thread found => by simp at found⟩
  | append_singleton taken choice inductionHypothesis =>
      intro isPrefix
      have earlier : taken <+: moves := (List.prefix_append _ _).trans isPrefix
      obtain ⟨accounts, here, tracked⟩ := inductionHypothesis earlier
      have ran : Pool.run program { shared := start } (taken ++ [choice]) =
          (Pool.run program { shared := start } taken).move program choice := by
        rw [run_append, run_cons, run_nil]
      rcases move_cases program (Pool.run program { shared := start } taken) choice with
        ⟨label, rfl⟩ | ⟨index, input, label, update, next, rfl, found, moved⟩ | same
      · refine ⟨_, spawned taken label accounts isPrefix here, ?_⟩
        rw [ran]
        exact tracked.spawn
          (typed label (isPrefix.subset (List.mem_append_right _ List.mem_cons_self)))
      · obtain ⟨later, follows, continues⟩ := tracked.act found input
        have shared : (Pool.run program { shared := start } (taken ++ [.step index input])).shared =
            update input (Pool.run program { shared := start } taken).shared := by
          rw [ran, moved]
        refine ⟨_, stepped taken index input label _ accounts later isPrefix here found
          (by rw [shared]; exact follows), ?_⟩
        rw [ran, moved]
        exact continues
      · refine ⟨accounts, idle taken choice accounts isPrefix here (by rw [ran, same]), ?_⟩
        rw [ran, same]
        exact tracked

end Pool
