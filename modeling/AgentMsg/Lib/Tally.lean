import AgentMsg.Lib.Account
import Mathlib.Algebra.BigOperators.Group.Finset.Basic
import Mathlib.Algebra.Order.BigOperators.Group.Finset

/-!
# Counting along runs

The moves of a run of a pool are weighed by the states before and after them.  What a
measure of the state rises and falls by adds up to the difference of its values at the two
ends.  When every thread earns before it spends, no run spends more than it earns.
-/

/-- A sum in which one summand is replaced. -/
theorem sum_range_update
    {values : Nat → Nat} {count index value : Nat} (within : index < count) :
    ∑ k ∈ Finset.range count, Function.update values index value k + values index =
      ∑ k ∈ Finset.range count, values k + value := by
  have member : index ∈ Finset.range count := Finset.mem_range.mpr within
  have others : ∑ k ∈ (Finset.range count).erase index, Function.update values index value k =
      ∑ k ∈ (Finset.range count).erase index, values k := by
    refine Finset.sum_congr rfl fun k other => ?_
    rw [Function.update_of_ne (Finset.ne_of_mem_erase other)]
  rw [← Finset.add_sum_erase _ _ member, ← Finset.add_sum_erase _ values member, others,
    Function.update_self]
  omega

open Classical in
/-- Whether an event happens, as a number. -/
noncomputable def indicator (event : Prop) : Nat :=
  if event then 1 else 0

theorem indicator_of {event : Prop} (happens : event) : indicator event = 1 :=
  if_pos happens

theorem indicator_of_not {event : Prop} (absent : ¬ event) : indicator event = 0 :=
  if_neg absent

theorem indicator_le {event : Prop} : indicator event ≤ 1 := by
  by_cases happens : event
  · rw [indicator_of happens]
  · rw [indicator_of_not happens]
    exact Nat.zero_le 1

theorem indicator_mono {event other : Prop} (implies : event → other) :
    indicator event ≤ indicator other := by
  by_cases happens : event
  · rw [indicator_of happens, indicator_of (implies happens)]
  · rw [indicator_of_not happens]
    exact Nat.zero_le _

namespace Pool

variable {ι σ l : Type} {program : l → Prog ι σ Unit} {pool : Pool ι σ l}

/-! ## Sums over the moves of a run -/

/-- What a move weighs, by the pool before and after it. -/
abbrev Weight (ι σ l : Type) :=
  Pool ι σ l → Move ι l → Pool ι σ l → Nat

/-- The weights of the moves of a run. -/
def total (program : l → Prog ι σ Unit) (weight : Weight ι σ l) :
    Pool ι σ l → List (Move ι l) → Nat
  | _, [] => 0
  | pool, choice :: rest =>
      weight pool choice (pool.move program choice) +
        total program weight (pool.move program choice) rest

/-- How often an event happens in a run. -/
noncomputable def tally (program : l → Prog ι σ Unit)
    (event : Pool ι σ l → Move ι l → Pool ι σ l → Prop) :
    Pool ι σ l → List (Move ι l) → Nat :=
  total program fun before choice after => indicator (event before choice after)

variable {weight heavier : Weight ι σ l} {moves : List (Move ι l)}

theorem total_append {rest : List (Move ι l)} :
    total program weight pool (moves ++ rest) =
      total program weight pool moves + total program weight (pool.run program moves) rest := by
  induction moves generalizing pool with
  | nil =>
      rw [List.nil_append, run_nil, total, Nat.zero_add]
  | cons choice moves inductionHypothesis =>
      rw [List.cons_append, total, total, inductionHypothesis, run_cons, Nat.add_assoc]

theorem tally_append
    {event : Pool ι σ l → Move ι l → Pool ι σ l → Prop} {rest : List (Move ι l)} :
    tally program event pool (moves ++ rest) =
      tally program event pool moves + tally program event (pool.run program moves) rest :=
  total_append

theorem tally_append_singleton
    {event : Pool ι σ l → Move ι l → Pool ι σ l → Prop} {choice : Move ι l} :
    tally program event pool (moves ++ [choice]) =
      tally program event pool moves +
        indicator (event (pool.run program moves) choice
          ((pool.run program moves).move program choice)) := by
  rw [tally_append, tally, total, total, Nat.add_zero]

theorem total_mono
    (lighter : ∀ before choice, weight before choice (before.move program choice) ≤
      heavier before choice (before.move program choice)) :
    total program weight pool moves ≤ total program heavier pool moves := by
  induction moves generalizing pool with
  | nil =>
      exact Nat.le_refl _
  | cons choice moves inductionHypothesis =>
      exact Nat.add_le_add (lighter _ _) inductionHypothesis

/-- A measure ends where it began, with its rises added and its falls taken away. -/
theorem measure_add_falls (measure : σ → Nat) :
    measure (pool.run program moves).shared +
        total program (fun before _ after => measure before.shared - measure after.shared) pool
          moves =
      measure pool.shared +
        total program (fun before _ after => measure after.shared - measure before.shared) pool
          moves := by
  induction moves generalizing pool with
  | nil =>
      rfl
  | cons choice moves inductionHypothesis =>
      have rest := @inductionHypothesis (pool.move program choice)
      rw [run_cons, total, total]
      omega

end Pool

/-! ## Earning and spending -/

namespace Prog

variable {ι σ α β : Type} {earns : (ι → σ → σ) → ι → σ → Prop} {spends : σ → σ → Prop}

/-- Every action that spends is covered by what is left, or by an action that earned. -/
inductive Covered (earns : (ι → σ → σ) → ι → σ → Prop) (spends : σ → σ → Prop)
    (final : Nat → α → Prop) : Nat → Prog ι σ α → Prop
  | pure {left : Nat} {value : α} (ends : final left value) :
      Covered earns spends final left (.pure value)
  | act {left : Nat} {update : ι → σ → σ} {next : ι → σ → Prog ι σ α} (later : ι → σ → Nat)
      (covers : ∀ input state,
        indicator (spends state (update input state)) + later input state ≤
          left + indicator (earns update input state))
      (continues : ∀ input state,
        Covered earns spends final (later input state) (next input state)) :
      Covered earns spends final left (.act update next)

/-- A program that returns at once. -/
theorem Covered.done
    {final : Nat → α → Prop} {left : Nat} {value : α} (ends : final left value) :
    Covered earns spends final left (Pure.pure value : Prog ι σ α) :=
  .pure ends

theorem Covered.bind
    {program : Prog ι σ α} {rest : α → Prog ι σ β} {middle : Nat → α → Prop}
    {final : Nat → β → Prop} {left : Nat} (first : Covered earns spends middle left program)
    (second : ∀ later value, middle later value → Covered earns spends final later (rest value)) :
    Covered earns spends final left (program >>= rest) := by
  induction first with
  | pure ends =>
      exact second _ _ ends
  | act later covers _ inductionHypothesis =>
      exact .act later covers inductionHypothesis

/-- An action that earns what it leaves. -/
theorem Covered.call
    {left : Nat} {operation : ι → σ → σ × α}
    (saves : ∀ input state, ¬ spends state (operation input state).1)
    (pays : ∀ input state, earns (fun input state => (operation input state).1) input state) :
    Covered earns spends (fun later _ => later = left + 1) left (call operation) := by
  refine .act (fun _ _ => left + 1) (fun input state => ?_) fun _ _ => .pure rfl
  rw [indicator_of_not (saves input state), indicator_of (pays input state), Nat.zero_add]

/-- A program that never spends. -/
theorem Within.covered
    {program : Prog ι σ α} {change : σ → σ → Prop} {result : α → Prop} {left : Nat}
    (within : Within (fun _ => True) change result program)
    (saves : ∀ before after, change before after → ¬ spends before after) :
    Covered earns spends (fun later _ => later = left) left program := by
  induction within with
  | pure ends =>
      exact .pure rfl
  | act changes _ inductionHypothesis =>
      refine .act (fun _ _ => left) (fun input state => ?_)
        fun input state => inductionHypothesis input state trivial
      rw [indicator_of_not (saves _ _ (changes input state trivial)), Nat.zero_add]
      exact Nat.le_add_right _ _

/-- What is covered with less is covered with the accounts of a rule. -/
theorem Tracks.covered
    {τ : Type} {rule : τ → ι → σ → σ → τ → Prop} {final : τ → α → Prop} {account : τ}
    {program : Prog ι σ α} {holds : τ → Prop} {credit : τ → Nat}
    (tracks : Tracks rule final account program) (initial : holds account)
    (keeps : ∀ {current input before after later}, rule current input before after later →
      holds current → holds later)
    (balance : ∀ {current update input state later},
      rule current input state (update input state) later → holds current →
      indicator (spends state (update input state)) + credit later ≤
        credit current + indicator (earns update input state)) :
    Covered earns spends (fun _ _ => True) (credit account) program := by
  induction tracks with
  | pure ends =>
      exact .pure trivial
  | act later follows _ inductionHypothesis =>
      exact .act (fun input state => credit (later input state))
        (fun input state => balance (follows input state) initial)
        fun input state => inductionHypothesis input state (keeps (follows input state) initial)

end Prog

namespace Pool

variable {ι σ l : Type} {program : l → Prog ι σ Unit} {start : σ}
  {earns : (ι → σ → σ) → ι → σ → Prop} {spends : σ → σ → Prop}

/-- A thread takes an action that earns. -/
def Earning (earns : (ι → σ → σ) → ι → σ → Prop) (before : Pool ι σ l) (choice : Move ι l)
    (_ : Pool ι σ l) : Prop :=
  ∃ index input label update next, choice = .step index input ∧
    before.threads[index]? = some (label, .act update next) ∧ earns update input before.shared

/-- A move that spends. -/
def Spending (spends : σ → σ → Prop) (before : Pool ι σ l) (_ : Move ι l)
    (after : Pool ι σ l) : Prop :=
  spends before.shared after.shared

/-- What the threads have left covers them. -/
def Funded (earns : (ι → σ → σ) → ι → σ → Prop) (spends : σ → σ → Prop) (pool : Pool ι σ l)
    (lefts : Nat → Nat) : Prop :=
  ∀ index label thread, pool.threads[index]? = some (label, thread) →
    Prog.Covered earns spends (fun _ _ => True) (lefts index) thread

/-- What all threads have left. -/
def savings (pool : Pool ι σ l) (lefts : Nat → Nat) : Nat :=
  ∑ index ∈ Finset.range pool.threads.length, lefts index

variable {pool : Pool ι σ l} {lefts : Nat → Nat}

/-- A new thread has nothing left. -/
theorem Funded.spawn
    (funded : Funded earns spends pool lefts) {label : l}
    (typed : Prog.Covered earns spends (fun _ _ => True) 0 (program label)) :
    Funded earns spends (pool.move program (.spawn label))
        (Function.update lefts pool.threads.length 0) ∧
      (pool.move program (.spawn label)).savings
        (Function.update lefts pool.threads.length 0) = pool.savings lefts := by
  constructor
  · intro index other thread located
    rw [move] at located
    dsimp only at located
    by_cases old : index < pool.threads.length
    · rw [List.getElem?_append_left old] at located
      rw [Function.update_of_ne (Nat.ne_of_lt old)]
      exact funded index other thread located
    · have within := (List.getElem?_eq_some_iff.mp located).1
      rw [List.length_append, List.length_singleton] at within
      have last : index = pool.threads.length := by
        omega
      rw [last, List.getElem?_concat_length] at located
      cases located
      rw [last, Function.update_self]
      exact typed
  · have others : ∑ index ∈ Finset.range pool.threads.length,
        Function.update lefts pool.threads.length 0 index =
        ∑ index ∈ Finset.range pool.threads.length, lefts index := by
      refine Finset.sum_congr rfl fun index member => ?_
      rw [Function.update_of_ne (Nat.ne_of_lt (Finset.mem_range.mp member))]
    rw [savings, move]
    dsimp only
    rw [List.length_append, List.length_singleton, Finset.sum_range_succ, Function.update_self,
      others]
    exact Nat.add_zero _

/-- A step pays for what it spends. -/
theorem Funded.step
    (funded : Funded earns spends pool lefts) {index : Nat} {input : ι} {label : l}
    {update : ι → σ → σ} {next : ι → σ → Prog ι σ Unit}
    (found : pool.threads[index]? = some (label, .act update next))
    (moved : pool.move program (.step index input) =
      { shared := update input pool.shared
        threads := pool.threads.set index (label, next input pool.shared) }) :
    ∃ left, Funded earns spends (pool.move program (.step index input))
        (Function.update lefts index left) ∧
      indicator (spends pool.shared (update input pool.shared)) +
          (pool.move program (.step index input)).savings (Function.update lefts index left) ≤
        pool.savings lefts + indicator (earns update input pool.shared) := by
  have within : index < pool.threads.length := (List.getElem?_eq_some_iff.mp found).1
  rw [moved]
  cases funded index label _ found with
  | act later covers continues =>
      refine ⟨later input pool.shared, ?_, ?_⟩
      · intro position other thread located
        dsimp only at located
        by_cases same : position = index
        · rw [same, List.getElem?_set_self within] at located
          cases located
          rw [same, Function.update_self]
          exact continues input pool.shared
        · rw [List.getElem?_set_ne (Ne.symm same)] at located
          rw [Function.update_of_ne same]
          exact funded position other thread located
      · have replaced := @sum_range_update lefts pool.threads.length index
          (later input pool.shared) within
        have paid := covers input pool.shared
        rw [savings, savings]
        dsimp only
        rw [List.length_set]
        omega

/-- When every thread earns before it spends, a run spends no more than it earns. -/
theorem tally_spending_le
    (typed : ∀ label, Prog.Covered earns spends (fun _ _ => True) 0 (program label))
    (idle : ∀ state, ¬ spends state state) (moves : List (Move ι l)) :
    tally program (Spending spends) { shared := start } moves ≤
      tally program (Earning earns) { shared := start } moves := by
  suffices covered : ∃ lefts,
      Funded earns spends (Pool.run program { shared := start } moves) lefts ∧
        tally program (Spending spends) { shared := start } moves +
            (Pool.run program { shared := start } moves).savings lefts ≤
          tally program (Earning earns) { shared := start } moves by
    obtain ⟨lefts, _, covered⟩ := covered
    exact (Nat.le_add_right _ _).trans covered
  induction moves using List.reverseRecOn with
  | nil =>
      refine ⟨fun _ => 0, fun index label thread located => ?_, Nat.le_refl 0⟩
      cases located
  | append_singleton moves choice inductionHypothesis =>
      obtain ⟨lefts, funded, covered⟩ := inductionHypothesis
      rw [tally_append_singleton, tally_append_singleton, run_append, run_cons, run_nil]
      generalize Pool.run program { shared := start } moves = pool at funded covered
      rcases move_cases program pool choice with
        ⟨label, rfl⟩ | ⟨index, input, label, update, next, rfl, found, moved⟩ | same
      · obtain ⟨stays, equal⟩ := funded.spawn (typed label)
        have nothing : ¬ Spending spends pool (.spawn label)
            (pool.move program (.spawn label)) := idle pool.shared
        refine ⟨_, stays, ?_⟩
        rw [equal, indicator_of_not nothing]
        omega
      · obtain ⟨left, stays, paid⟩ := funded.step found moved
        refine ⟨_, stays, ?_⟩
        have spent : indicator (Spending spends pool (.step index input)
            (pool.move program (.step index input))) =
            indicator (spends pool.shared (update input pool.shared)) := by
          rw [Spending, moved]
        have earned : indicator (earns update input pool.shared) ≤
            indicator (Earning earns pool (.step index input)
              (pool.move program (.step index input))) :=
          indicator_mono fun earning => ⟨index, input, label, update, next, rfl, found, earning⟩
        omega
      · have nothing : ¬ Spending spends pool choice pool := idle pool.shared
        refine ⟨lefts, ?_⟩
        rw [same, indicator_of_not nothing]
        refine ⟨funded, ?_⟩
        omega

end Pool
