import AgentMsg.Daemon
import AgentMsg.Reference
import AgentMsg.Tokens

/-!
# Two edits of the trust file

Every edit of the trust store loads the whole file, changes the store and writes the
whole file, and nothing keeps a second edit out in between.  Two edits both take effect
when neither loads the file while the other is between its load and the end of its save.
-/

namespace AgentMsg

/-! ## Edits -/

/-- A name in one of the two tables of a trust store. -/
inductive Target where
  | agent (name : String)
  | authority (name : String)
  deriving DecidableEq

def TrustStore.entry (trust : TrustStore) : Target → Option KnownAgentRecord
  | .agent name => trust.agents[name]?
  | .authority name => trust.authorities[name]?

/-- The edits, with what they were asked for. -/
inductive Edit where
  | agentAdd (token : IdentityToken) (rotate : Bool)
  | agentRemove (name : String)
  | authorityAdd (token : AuthorityToken)
  | authorityRemove (name : String)
  | pairConfirm (entry : PendingPair)

namespace Edit

def change (P : Platform) (trust : TrustStore) : Edit → Except Error TrustStore
  | .agentAdd token rotate => importAgent P trust token rotate
  | .agentRemove name => .ok (trust.remove name).1
  | .authorityAdd token => .ok (trust.addAuthorityFromToken token)
  | .authorityRemove name => .ok (trust.removeAuthority name).1
  | .pairConfirm entry =>
      .ok (trust.addWithKem entry.name entry.publicKey entry.kemPublicKey)

def target : Edit → Target
  | .agentAdd token _ => .agent token.name
  | .agentRemove name => .agent name
  | .authorityAdd token => .authority token.name
  | .authorityRemove name => .authority name
  | .pairConfirm entry => .agent entry.name

/-- The entry that the edit leaves under its name. -/
def outcome : Edit → Option KnownAgentRecord
  | .agentAdd token _ =>
      some { pk := b64 token.publicKey, kemPk := token.kemPublicKey.map b64 }
  | .agentRemove _ => none
  | .authorityAdd token => some { pk := b64 token.publicKey }
  | .authorityRemove _ => none
  | .pairConfirm entry =>
      some { pk := b64 entry.publicKey, kemPk := entry.kemPublicKey.map b64 }

end Edit

theorem entry_addWithKem
    (trust : TrustStore) (name : String) (pk : Bytes) (kem : Option Bytes) (target : Target) :
    (trust.addWithKem name pk kem).entry target =
      if target = .agent name then some { pk := b64 pk, kemPk := kem.map b64 }
      else trust.entry target := by
  cases target with
  | agent other =>
      by_cases same : other = name
      · simp [TrustStore.entry, TrustStore.addWithKem, same]
      · simp [TrustStore.entry, TrustStore.addWithKem, Std.TreeMap.getElem?_insert, same,
          Ne.symm same]
  | authority other =>
      rfl

theorem entry_remove (trust : TrustStore) (name : String) (target : Target) :
    (trust.remove name).1.entry target =
      if target = .agent name then none else trust.entry target := by
  cases target with
  | agent other =>
      by_cases same : other = name
      · simp [TrustStore.entry, TrustStore.remove, same]
      · simp [TrustStore.entry, TrustStore.remove, Std.TreeMap.getElem?_erase, same,
          Ne.symm same]
  | authority other =>
      rfl

theorem entry_addAuthority (trust : TrustStore) (token : AuthorityToken) (target : Target) :
    (trust.addAuthorityFromToken token).entry target =
      if target = .authority token.name then some { pk := b64 token.publicKey }
      else trust.entry target := by
  cases target with
  | agent other =>
      rfl
  | authority other =>
      by_cases same : other = token.name
      · simp [TrustStore.entry, TrustStore.addAuthorityFromToken, same]
      · simp [TrustStore.entry, TrustStore.addAuthorityFromToken, Std.TreeMap.getElem?_insert,
          same, Ne.symm same]

theorem entry_removeAuthority (trust : TrustStore) (name : String) (target : Target) :
    (trust.removeAuthority name).1.entry target =
      if target = .authority name then none else trust.entry target := by
  cases target with
  | agent other =>
      rfl
  | authority other =>
      by_cases same : other = name
      · simp [TrustStore.entry, TrustStore.removeAuthority, same]
      · simp [TrustStore.entry, TrustStore.removeAuthority, Std.TreeMap.getElem?_erase, same,
          Ne.symm same]

theorem importAgent_ok
    {P : Platform} {trust changed : TrustStore} {token : IdentityToken} {rotate : Bool}
    (imported : importAgent P trust token rotate = .ok changed) :
    changed = trust.addFromToken token := by
  unfold importAgent at imported
  split at imported
  · split at imported
    · cases imported
    · cases imported
      rfl
  · cases imported
    rfl

theorem currentKey_eq_entry (trust : TrustStore) (name : String) :
    trust.currentKey name = (trust.entry (.agent name)).bind fun record => unb64 record.pk :=
  rfl

/-- An edit sets the entry under its name and no other. -/
theorem Edit.entry_change
    {P : Platform} {trust changed : TrustStore} {edit : Edit}
    (applied : edit.change P trust = .ok changed) (target : Target) :
    changed.entry target =
      if target = edit.target then edit.outcome else trust.entry target := by
  cases edit with
  | agentAdd token rotate =>
      rw [importAgent_ok applied]
      exact entry_addWithKem trust token.name token.publicKey token.kemPublicKey target
  | agentRemove name =>
      cases applied
      exact entry_remove trust name target
  | authorityAdd token =>
      cases applied
      exact entry_addAuthority trust token target
  | authorityRemove name =>
      cases applied
      exact entry_removeAuthority trust name target
  | pairConfirm entry =>
      cases applied
      exact entry_addWithKem trust entry.name entry.publicKey entry.kemPublicKey target

/-! ## Steps -/

/-- How far an edit has come. -/
inductive EditStage where
  | ready
  | loaded (changed : TrustStore)
  | opened (changed : TrustStore)
  | saved
  | failed (reason : Error)

/-- The next step of an edit: load and modify, open the file, which empties it, and
write it. -/
def EditStage.step (P : Platform) (edit : Edit) (accepts : Bool) (file : FileState) :
    EditStage → FileState × EditStage
  | .ready =>
      match TrustStore.load P file with
      | .error e => (file, .failed e)
      | .ok trust =>
          match edit.change P trust with
          | .error e => (file, .failed e)
          | .ok changed => (file, .loaded changed)
  | .loaded changed =>
      if accepts then (.text "", .opened changed) else (file, .failed (.inputOutput ""))
  | .opened changed =>
      if accepts then (.text (P.trustJson.encode changed), .saved)
      else (file, .failed (.inputOutput ""))
  | .saved => (file, .saved)
  | .failed reason => (file, .failed reason)

/-- The trust file, and the two edits that share it. -/
structure Editing where
  file : FileState
  first : EditStage := .ready
  second : EditStage := .ready

/-- Which edit takes its next step, and whether the file accepts what it does. -/
structure Turn where
  second : Bool
  accepts : Bool := true

namespace Editing

variable (P : Platform) (a b : Edit)

def move (state : Editing) (turn : Turn) : Editing :=
  if turn.second then
    { state with
      file := (state.second.step P b turn.accepts state.file).1
      second := (state.second.step P b turn.accepts state.file).2 }
  else
    { state with
      file := (state.first.step P a turn.accepts state.file).1
      first := (state.first.step P a turn.accepts state.file).2 }

def run (state : Editing) (turns : List Turn) : Editing :=
  Machine.run (move P a b) state turns

end Editing

/-! ## The steps are those of the commands -/

/-- What is left of the thread of an edit at a stage. -/
def EditStage.thread (P : Platform) (edit : Edit) : EditStage → Thread (Except Error Unit)
  | .ready => editTrust P fun trust => edit.change P trust
  | .loaded changed => saveTrust P changed
  | .opened changed =>
      .call fun input world =>
        if input.accepts then
          ({ world with trustFile := .text (P.trustJson.encode changed) }, .ok ())
        else (world, .error (.inputOutput ""))
  | .saved => return .ok ()
  | .failed reason => return .error reason

theorem agentAdd_eq (P : Platform) (text : String) (rotate : Bool) :
    agentAdd P text rotate =
      match IdentityToken.decode P text with
      | .error e => return .error e
      | .ok token => EditStage.ready.thread P (.agentAdd token rotate) := by
  unfold agentAdd
  cases IdentityToken.decode P text <;> rfl

theorem agentRemove_eq (P : Platform) (name : String) :
    agentRemove P name = EditStage.ready.thread P (.agentRemove name) :=
  rfl

theorem authorityAdd_eq (P : Platform) (text : String) :
    authorityAdd P text =
      match AuthorityToken.decode P text with
      | .error e => return .error e
      | .ok token => EditStage.ready.thread P (.authorityAdd token) := by
  unfold authorityAdd
  cases AuthorityToken.decode P text <;> rfl

theorem authorityRemove_eq (P : Platform) (name : String) :
    authorityRemove P name = EditStage.ready.thread P (.authorityRemove name) :=
  rfl

/-- Confirming a pairing is an edit, followed by the removal of the pending entry. -/
theorem pairConfirm_eq (P : Platform) (name : String) :
    pairConfirm P name = (do
      match ← .observe fun world : World => world.pending[name]? with
      | none => return .error ("no pending pairing for '" ++ name ++ "'")
      | some entry => do
          match ← EditStage.ready.thread P (.pairConfirm entry) with
          | .error e => return .error e.text
          | .ok _ =>
              .call fun _ world =>
                ({ world with pending := world.pending.erase name }, .ok)) := by
  unfold pairConfirm
  congr 1
  funext found
  cases found with
  | none =>
      rfl
  | some entry =>
      show Prog.act _ _ = Prog.act _ _
      congr 1
      funext input world
      dsimp only [Prog.bind]
      cases TrustStore.load P world.trustFile <;> rfl

/-- An action of a thread is a step of its edit. -/
theorem thread_step
    (P : Platform) (edit : Edit) (stage : EditStage) :
    (∃ value, stage.thread P edit = .pure value ∧
      ∀ accepts file, stage.step P edit accepts file = (file, stage)) ∨
      ∃ update next, stage.thread P edit = .act update next ∧ ∀ input world,
        update input world =
          { world with trustFile := (stage.step P edit input.accepts world.trustFile).1 } ∧
        next input world =
          (stage.step P edit input.accepts world.trustFile).2.thread P edit := by
  cases stage with
  | ready =>
      refine Or.inr ⟨_, _, rfl, fun input world => ?_⟩
      dsimp only [Prog.bind, EditStage.step]
      cases TrustStore.load P world.trustFile with
      | error e =>
          exact ⟨rfl, rfl⟩
      | ok trust =>
          dsimp only
          cases edit.change P trust <;> exact ⟨rfl, rfl⟩
  | loaded changed =>
      refine Or.inr ⟨_, _, rfl, fun input world => ?_⟩
      by_cases accepted : input.accepts = true
      · simp only [EditStage.step, accepted, if_true, Prog.bind, true_and]
        rfl
      · simp only [EditStage.step, accepted, Prog.bind, Bool.false_eq_true, if_false, true_and]
        rfl
  | opened changed =>
      refine Or.inr ⟨_, _, rfl, fun input world => ?_⟩
      by_cases accepted : input.accepts = true
      · simp only [EditStage.step, accepted, if_true, true_and]
        rfl
      · simp only [EditStage.step, accepted, Bool.false_eq_true, if_false, true_and]
        rfl
  | saved =>
      exact Or.inl ⟨_, rfl, fun _ _ => rfl⟩
  | failed reason =>
      exact Or.inl ⟨_, rfl, fun _ _ => rfl⟩

/-- The two threads in a pool, at the stages of the edits. -/
def Editing.pool
    (P : Platform) (a b : Edit) (world : World) (state : Editing) : Pool Input World Edit :=
  { shared := { world with trustFile := state.file }
    threads := [(a, ignore (state.first.thread P a)), (b, ignore (state.second.thread P b))] }

/-- The moves of the scheduler that the turns stand for. -/
def Turn.move (turn : Turn) (input : Input) : Move Input Edit :=
  .step (if turn.second then 1 else 0) input

/-- The next action of a thread that is left of an edit. -/
theorem move_thread
    {P : Platform} {program : Edit → Thread Unit} {pool : Pool Input World Edit} {index : Nat}
    {edit : Edit} {stage : EditStage}
    (chosen : pool.threads[index]? = some (edit, ignore (stage.thread P edit)))
    (input : Input) :
    pool.move program (.step index input) =
      { shared :=
          { pool.shared with
            trustFile := (stage.step P edit input.accepts pool.shared.trustFile).1 }
        threads := pool.threads.set index
          (edit, ignore ((stage.step P edit input.accepts pool.shared.trustFile).2.thread
            P edit)) } := by
  rcases thread_step P edit stage with ⟨value, ended, same⟩ | ⟨update, next, acts, follows⟩
  · obtain ⟨inside, here⟩ := List.getElem?_eq_some_iff.mp chosen
    have finished : ignore (Prog.pure value : Thread (Except Error Unit)) = .pure () := rfl
    rw [same, ← here, List.set_getElem_self]
    rw [ended, finished] at chosen
    simp only [Pool.move, chosen]
  · obtain ⟨moved, rest⟩ := follows input pool.shared
    have unfolded : ignore (Prog.act update next) =
        .act update fun input world => ignore (next input world) := rfl
    rw [acts, unfolded] at chosen
    simp only [Pool.move, chosen, moved, rest]

/-- A move of the scheduler is a turn of the edits. -/
theorem pool_move
    {P : Platform} {a b : Edit} {program : Edit → Thread Unit} {world : World} {state : Editing}
    {turn : Turn} {input : Input} (accepts : input.accepts = turn.accepts) :
    (state.pool P a b world).move program (turn.move input) =
      (state.move P a b turn).pool P a b world := by
  obtain ⟨side, turnAccepts⟩ := turn
  have given : input.accepts = turnAccepts := accepts
  subst given
  cases side with
  | false =>
      have chosen : (state.pool P a b world).threads[0]? =
          some (a, ignore (state.first.thread P a)) := rfl
      exact move_thread chosen input
  | true =>
      have chosen : (state.pool P a b world).threads[1]? =
          some (b, ignore (state.second.thread P b)) := rfl
      exact move_thread chosen input

/-- Every interleaving of the two threads is a run of turns. -/
theorem pool_run
    {P : Platform} {a b : Edit} {program : Edit → Thread Unit} {world : World} {state : Editing}
    (choices : List (Turn × Input))
    (accepts : ∀ choice ∈ choices, choice.2.accepts = choice.1.accepts) :
    (state.pool P a b world).run program (choices.map fun choice => choice.1.move choice.2) =
      (state.run P a b (choices.map Prod.fst)).pool P a b world := by
  induction choices generalizing state with
  | nil =>
      rfl
  | cons choice more inductionHypothesis =>
      have first := accepts choice List.mem_cons_self
      have later := fun other member => accepts other (List.mem_cons_of_mem choice member)
      rw [List.map_cons, Pool.run_cons, pool_move first, inductionHypothesis later]
      rfl

/-! ## Edits that do not overlap -/

/-- A saved trust file is read back with the same entries. -/
def SavesEntries (P : Platform) : Prop :=
  ∀ trust, ∃ saved, P.trustJson.decode (P.trustJson.encode trust) = some saved ∧
    ∀ target, saved.entry target = trust.entry target

/-- The file loads to a store with the given entry. -/
def FileHas (P : Platform) (file : FileState) (target : Target)
    (record : Option KnownAgentRecord) : Prop :=
  ∃ trust, TrustStore.load P file = .ok trust ∧ trust.entry target = record

namespace EditStage

/-- Not between the load and the end of the save. -/
def Idle : EditStage → Prop
  | .loaded _ | .opened _ => False
  | .ready | .saved | .failed _ => True

/-- What an edit is about to write has the given entry. -/
def Writes (target : Target) (record : Option KnownAgentRecord) : EditStage → Prop
  | .loaded changed | .opened changed => changed.entry target = record
  | .ready | .saved | .failed _ => True

/-- An entry saved by the other edit is in the file, or in what is about to be written. -/
def Keeps (P : Platform) (file : FileState) (target : Target)
    (record : Option KnownAgentRecord) : EditStage → Prop
  | .ready | .saved => FileHas P file target record
  | .loaded changed | .opened changed => changed.entry target = record
  | .failed _ => True

end EditStage

/-- No edit loads the file while the other is between its load and the end of its save. -/
def Editing.LoadsAlone (state : Editing) (turn : Turn) : Prop :=
  if turn.second then state.second = .ready → state.first.Idle
  else state.first = .ready → state.second.Idle

/-- The condition holds at every turn of a run. -/
def EveryTurn (P : Platform) (a b : Edit) (condition : Editing → Turn → Prop) :
    Editing → List Turn → Prop :=
  Machine.EveryStep (Editing.move P a b) condition

/-- One edit at its stage beside the other at its own. -/
structure Beside (P : Platform) (file : FileState) (mine : Edit) (here there : EditStage) :
    Prop where
  writes : here.Writes mine.target mine.outcome
  keeps : here = .saved → there.Keeps P file mine.target mine.outcome
  alone : here.Idle ∨ there.Idle

/-- What a step of an edit can do to the file and to its stage. -/
inductive Steps (P : Platform) (edit : Edit) (file : FileState) :
    EditStage → FileState × EditStage → Prop
  | loads {trust changed : TrustStore} (loaded : TrustStore.load P file = .ok trust)
      (applied : edit.change P trust = .ok changed) :
      Steps P edit file .ready (file, .loaded changed)
  | opens (changed : TrustStore) :
      Steps P edit file (.loaded changed) (.text "", .opened changed)
  | writes (changed : TrustStore) :
      Steps P edit file (.opened changed) (.text (P.trustJson.encode changed), .saved)
  | fails (stage : EditStage) (reason : Error) : Steps P edit file stage (file, .failed reason)
  | rests : Steps P edit file .saved (file, .saved)

theorem EditStage.steps
    (P : Platform) (edit : Edit) (accepts : Bool) (file : FileState) (stage : EditStage) :
    Steps P edit file stage (stage.step P edit accepts file) := by
  cases stage with
  | ready =>
      simp only [step]
      cases loaded : TrustStore.load P file with
      | error e =>
          exact .fails _ e
      | ok trust =>
          dsimp only
          cases applied : edit.change P trust with
          | error e =>
              exact .fails _ e
          | ok changed =>
              exact .loads loaded applied
  | loaded changed =>
      cases accepts with
      | true =>
          exact .opens changed
      | false =>
          exact .fails _ _
  | opened changed =>
      cases accepts with
      | true =>
          exact .writes changed
      | false =>
          exact .fails _ _
  | saved =>
      exact .rests
  | failed reason =>
      exact .fails _ reason

/-- A step of one edit keeps the relation of the two. -/
theorem beside_step
    {P : Platform} {file : FileState} {mine other : Edit} {here there : EditStage}
    {next : FileState × EditStage} (codec : SavesEntries P)
    (different : other.target ≠ mine.target) (left : Beside P file mine here there)
    (right : Beside P file other there here) (alone : here = .ready → there.Idle)
    (steps : Steps P mine file here next) :
    Beside P next.1 mine next.2 there ∧ Beside P next.1 other there next.2 := by
  cases steps with
  | @loads trust changed loaded applied =>
      have idle := alone rfl
      have entry := Edit.entry_change applied
      refine ⟨⟨?_, nofun, Or.inr idle⟩, ⟨right.writes, fun saved => ?_, Or.inl idle⟩⟩
      · exact (entry mine.target).trans (if_pos rfl)
      · obtain ⟨found, foundLoads, has⟩ := right.keeps saved
        rw [loaded] at foundLoads
        cases foundLoads
        exact ((entry other.target).trans (if_neg different)).trans has
  | opens changed =>
      have idle : there.Idle := left.alone.resolve_left id
      exact ⟨⟨left.writes, nofun, Or.inr idle⟩, ⟨right.writes, right.keeps, Or.inl idle⟩⟩
  | writes changed =>
      have idle : there.Idle := left.alone.resolve_left id
      have has : ∀ target record, changed.entry target = record →
          FileHas P (.text (P.trustJson.encode changed)) target record := by
        intro target record entry
        obtain ⟨saved, read, same⟩ := codec changed
        exact ⟨saved, TrustStore.load_text_eq_ok.mpr read, (same target).trans entry⟩
      refine ⟨⟨trivial, fun _ => ?_, Or.inr idle⟩, ⟨right.writes, fun saved => ?_, Or.inl idle⟩⟩
      · have mineEntry := has _ _ left.writes
        cases there with
        | ready | saved =>
            exact mineEntry
        | loaded | opened =>
            exact idle.elim
        | failed =>
            trivial
      · exact has _ _ (right.keeps saved)
  | fails stage reason =>
      refine ⟨⟨trivial, nofun, Or.inl trivial⟩, ⟨right.writes, fun _ => trivial, Or.inr trivial⟩⟩
  | rests =>
      exact ⟨left, right⟩

/-- Two edits side by side. -/
structure SideBySide (P : Platform) (a b : Edit) (state : Editing) : Prop where
  first : Beside P state.file a state.first state.second
  second : Beside P state.file b state.second state.first

theorem sideBySide_move
    {P : Platform} {a b : Edit} {state : Editing} {turn : Turn} (codec : SavesEntries P)
    (different : a.target ≠ b.target) (both : SideBySide P a b state)
    (alone : state.LoadsAlone turn) : SideBySide P a b (state.move P a b turn) := by
  unfold Editing.LoadsAlone at alone
  unfold Editing.move
  split
  · rename_i turned
    rw [if_pos turned] at alone
    obtain ⟨second, first⟩ := beside_step codec different both.second both.first alone
      (state.second.steps P b turn.accepts state.file)
    exact ⟨first, second⟩
  · rename_i turned
    rw [if_neg turned] at alone
    obtain ⟨first, second⟩ := beside_step codec (Ne.symm different) both.first both.second alone
      (state.first.steps P a turn.accepts state.file)
    exact ⟨first, second⟩

theorem sideBySide_run
    {P : Platform} {a b : Edit} {state : Editing} {turns : List Turn} (codec : SavesEntries P)
    (different : a.target ≠ b.target) (both : SideBySide P a b state)
    (alone : EveryTurn P a b Editing.LoadsAlone state turns) :
    SideBySide P a b (state.run P a b turns) :=
  alone.invariant both fun _ _ before condition => sideBySide_move codec different before condition

/-- Two edits of different names, neither of which loads the file while the other is
between its load and the end of its save, both take effect when both are saved. -/
theorem both_edits_kept
    {P : Platform} {a b : Edit} {file : FileState} {turns : List Turn} (codec : SavesEntries P)
    (different : a.target ≠ b.target)
    (alone : EveryTurn P a b Editing.LoadsAlone { file } turns)
    (first : (Editing.run P a b { file } turns).first = .saved)
    (second : (Editing.run P a b { file } turns).second = .saved) :
    FileHas P (Editing.run P a b { file } turns).file a.target a.outcome ∧
      FileHas P (Editing.run P a b { file } turns).file b.target b.outcome := by
  have start : SideBySide P a b { file } :=
    ⟨⟨trivial, nofun, Or.inl trivial⟩, ⟨trivial, nofun, Or.inl trivial⟩⟩
  have both := sideBySide_run codec different start alone
  have keptFirst := both.first.keeps first
  have keptSecond := both.second.keeps second
  rw [second] at keptFirst
  rw [first] at keptSecond
  exact ⟨keptFirst, keptSecond⟩

/-! ## Edits that overlap -/

/-- The second edit loads, the first loads and saves, and then the second saves. -/
def overlapping : List Turn :=
  [⟨true, true⟩, ⟨false, true⟩, ⟨false, true⟩, ⟨false, true⟩, ⟨true, true⟩, ⟨true, true⟩]

/-- The first edit loads and saves, and then the second. -/
def serial : List Turn :=
  [⟨false, true⟩, ⟨false, true⟩, ⟨false, true⟩, ⟨true, true⟩, ⟨true, true⟩, ⟨true, true⟩]

section Overlap

variable {P : Platform} {a b : Edit} {file : FileState} {trust changed other : TrustStore}

theorem step_ready
    {edit : Edit} {accepts : Bool} (loaded : TrustStore.load P file = .ok trust)
    (applied : edit.change P trust = .ok changed) :
    EditStage.ready.step P edit accepts file = (file, .loaded changed) := by
  simp only [EditStage.step, loaded, applied]

theorem run_overlapping
    (loaded : TrustStore.load P file = .ok trust) (first : a.change P trust = .ok changed)
    (second : b.change P trust = .ok other) :
    Editing.run P a b { file } overlapping =
      { file := .text (P.trustJson.encode other), first := .saved, second := .saved } := by
  have secondLoads : Editing.move P a b { file } ⟨true, true⟩ =
      { file, first := .ready, second := .loaded other } := by
    simp only [Editing.move, if_true, step_ready loaded second]
  have firstLoads : Editing.move P a b { file, first := .ready, second := .loaded other }
      ⟨false, true⟩ = { file, first := .loaded changed, second := .loaded other } := by
    simp only [Editing.move, Bool.false_eq_true, if_false, step_ready loaded first]
  simp only [Editing.run, overlapping, Machine.run_cons, secondLoads, firstLoads]
  rfl

theorem run_serial
    {after : TrustStore} (loaded : TrustStore.load P file = .ok trust)
    (first : a.change P trust = .ok changed)
    (reloaded : TrustStore.load P (.text (P.trustJson.encode changed)) = .ok after)
    (second : b.change P after = .ok other) :
    EveryTurn P a b Editing.LoadsAlone { file } serial ∧
      Editing.run P a b { file } serial =
        { file := .text (P.trustJson.encode other), first := .saved, second := .saved } := by
  have firstLoads : Editing.move P a b { file } ⟨false, true⟩ =
      { file, first := .loaded changed, second := .ready } := by
    simp only [Editing.move, Bool.false_eq_true, if_false, step_ready loaded first]
  have firstSaves : Editing.run P a b { file, first := .loaded changed, second := .ready }
      [⟨false, true⟩, ⟨false, true⟩] =
        { file := .text (P.trustJson.encode changed), first := .saved, second := .ready } :=
    rfl
  have secondLoads : Editing.move P a b
      { file := .text (P.trustJson.encode changed), first := .saved, second := .ready }
      ⟨true, true⟩ =
        { file := .text (P.trustJson.encode changed), first := .saved,
          second := .loaded other } := by
    simp only [Editing.move, if_true, step_ready reloaded second]
  simp only [Editing.run, Machine.run_cons, Machine.run_nil] at firstSaves
  refine ⟨?_, ?_⟩
  · refine Machine.everyStep_cons (fun _ => trivial) ?_
    rw [firstLoads]
    refine Machine.everyStep_cons nofun (Machine.everyStep_cons nofun ?_)
    rw [firstSaves]
    refine Machine.everyStep_cons (fun _ => trivial) ?_
    rw [secondLoads]
    exact Machine.everyStep_cons nofun (Machine.everyStep_cons nofun Machine.everyStep_nil)
  · simp only [Editing.run, serial, Machine.run_cons, Machine.run_nil, firstLoads, firstSaves,
      secondLoads]
    rfl

/-- The entry of the edit that was saved first is the one from before. -/
theorem overlapping_loses
    (codec : SavesEntries P) (different : a.target ≠ b.target)
    (loaded : TrustStore.load P file = .ok trust) (first : a.change P trust = .ok changed)
    (second : b.change P trust = .ok other) {record : Option KnownAgentRecord} :
    FileHas P (Editing.run P a b { file } overlapping).file a.target record ↔
      trust.entry a.target = record := by
  obtain ⟨saved, read, same⟩ := codec other
  have entry : saved.entry a.target = trust.entry a.target :=
    (same a.target).trans ((Edit.entry_change second a.target).trans (if_neg different))
  rw [run_overlapping loaded first second]
  constructor
  · rintro ⟨found, foundLoads, has⟩
    rw [TrustStore.load_text_eq_ok, read] at foundLoads
    cases foundLoads
    exact entry.symm.trans has
  · intro has
    exact ⟨saved, TrustStore.load_text_eq_ok.mpr read, entry.trans has⟩

end Overlap

/-! ## A removed agent -/

theorem Reference.savesEntries (config : Config) : SavesEntries (Reference.platform config) := by
  intro trust
  obtain ⟨saved, read, agents, authorities⟩ := TrustStore.decode_codec trust
  refine ⟨saved, read, fun target => ?_⟩
  cases target with
  | agent name =>
      exact agents name
  | authority name =>
      exact authorities name

/-- A trust file with mallory's key. -/
def compromised : FileState :=
  .text ((Reference.platform {}).trustJson.encode
    (TrustStore.addFromToken {} Reference.mallory.token))

/-- What the edits find in it. -/
theorem loads_compromised :
    ∃ trust, TrustStore.load (Reference.platform {}) compromised = .ok trust ∧
      trust.entry (.agent "mallory") =
        some { pk := b64 Reference.mallory.publicKey,
               kemPk := some (b64 Reference.mallory.kemEk) } ∧
      trust.currentKey "alice" = none := by
  obtain ⟨trust, read, same⟩ :=
    Reference.savesEntries {} (TrustStore.addFromToken {} Reference.mallory.token)
  have added : ∀ target, trust.entry target = if target = .agent "mallory" then
      some { pk := b64 Reference.mallory.publicKey, kemPk := some (b64 Reference.mallory.kemEk) }
      else TrustStore.entry {} target := by
    intro target
    rw [same target]
    exact entry_addWithKem {} "mallory" Reference.mallory.publicKey (some Reference.mallory.kemEk)
      target
  refine ⟨trust, TrustStore.load_text_eq_ok.mpr read, ?_, ?_⟩
  · exact (added _).trans (if_pos rfl)
  · have absent : trust.entry (.agent "alice") = none :=
      (added _).trans (if_neg (by decide))
    rw [currentKey_eq_entry, absent, Option.bind_none]

/-- Removing mallory, and adding alice. -/
def removal : Edit :=
  .agentRemove "mallory"

def addition : Edit :=
  .agentAdd Reference.alice.token false

theorem changes
    {trust : TrustStore} (unknown : trust.currentKey "alice" = none) :
    removal.change (Reference.platform {}) trust = .ok (trust.remove "mallory").1 ∧
      addition.change (Reference.platform {}) trust =
        .ok (trust.addFromToken Reference.alice.token) := by
  refine ⟨rfl, ?_⟩
  have named : trust.currentKey Reference.alice.token.name = none := unknown
  simp only [addition, Edit.change, importAgent, named]

/-- One after the other, both edits are kept. -/
theorem both_edits_kept_serial :
    let final := (Editing.run (Reference.platform {}) removal addition { file := compromised }
      serial).file
    EveryTurn (Reference.platform {}) removal addition Editing.LoadsAlone { file := compromised }
        serial ∧
      FileHas (Reference.platform {}) final (.agent "mallory") none ∧
      FileHas (Reference.platform {}) final (.agent "alice") addition.outcome := by
  obtain ⟨trust, loaded, known, unknown⟩ := loads_compromised
  obtain ⟨after, read, same⟩ := Reference.savesEntries {} (trust.remove "mallory").1
  have reloaded := TrustStore.load_text_eq_ok.mpr read
  have stillUnknown : after.currentKey "alice" = none := by
    rw [currentKey_eq_entry, same, entry_remove, if_neg (by decide), ← currentKey_eq_entry]
    exact unknown
  obtain ⟨removes, -⟩ := changes unknown
  obtain ⟨-, adds⟩ := changes stillUnknown
  obtain ⟨alone, run⟩ := run_serial loaded removes reloaded adds
  exact ⟨alone, both_edits_kept (Reference.savesEntries {}) (by decide) alone (by rw [run])
    (by rw [run])⟩

/-- Both edits are saved and mallory is trusted again. -/
theorem removed_agent_returns :
    ¬ ∀ a b file turns, a.target ≠ b.target →
      (Editing.run (Reference.platform {}) a b { file } turns).first = .saved →
      (Editing.run (Reference.platform {}) a b { file } turns).second = .saved →
      FileHas (Reference.platform {}) (Editing.run (Reference.platform {}) a b { file } turns).file
          a.target a.outcome ∧
        FileHas (Reference.platform {})
          (Editing.run (Reference.platform {}) a b { file } turns).file b.target b.outcome := by
  intro kept
  obtain ⟨trust, loaded, known, unknown⟩ := loads_compromised
  obtain ⟨removes, adds⟩ := changes unknown
  have different : removal.target ≠ addition.target := by decide
  have run := run_overlapping loaded removes adds
  have removed := (kept removal addition compromised overlapping different (by rw [run])
    (by rw [run])).1
  rw [overlapping_loses (Reference.savesEntries {}) different loaded removes adds] at removed
  have still : trust.entry (.agent "mallory") = none := removed
  rw [known] at still
  cases still

end AgentMsg
