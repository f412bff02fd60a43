import AgentMsg.Lib.Directory
import AgentMsg.Lib.Machine
import AgentMsg.Reference
import AgentMsg.Trust

/-!
# The file of the identity and its backups

`id generate` writes a new signing seed over the file of the identity.  What it replaces is
copied to a backup only when it can be parsed, and the name of the backup depends on the key
alone, so what survives depends on both files.
-/

namespace AgentMsg

/-- The file of an identity: a name and the signing seed in base64url. -/
structure IdentityFile where
  name : String
  seed : String
  deriving DecidableEq, Repr

def SEED_LEN : Nat := 32

namespace IdentityFile

/-- A file of an earlier version may have more fields, which are not read. -/
def record : Document.Record (String × String) :=
  .and (.plain "name") .text <|
  .single (.plain "seed") .text

def shape : Document.Shape IdentityFile :=
  (record.shape (by decide)).via (fun file => (file.name, file.seed))
    (fun (name, seed) => some { name := name, seed })

/-- `serde_json::to_string_pretty` -/
def pretty (file : IdentityFile) : String :=
  Document.encode .pretty (shape.write file)

end IdentityFile

def IDENTITY_PATH : String := "identity.json"

def backupPath (fp : String) : String :=
  "identity.json.bak-" ++ fp

/-- How the file operations of one command end. -/
structure FileOps where
  readable : Bool := true
  backup : Directory.Written := .all
  backupRestricted : Bool := true
  dirReady : Bool := true
  write : Directory.Written := .all
  restricted : Bool := true
  deriving DecidableEq, Repr

/-- `id generate`, with the seed that is drawn for it. -/
structure Generate where
  name : String
  force : Bool := false
  seed : Bytes
  ops : FileOps := {}
  deriving DecidableEq, Repr

/-- What the command prints. -/
structure Generated where
  name : String
  fingerprint : String
  deriving DecidableEq, Repr

section Commands

variable (P : Platform) (parse : String → Option IdentityFile) (publicKeyOf : Bytes → Bytes)

/-- The name and the fingerprint of the identity on disk, if there is one that can be read
and parsed. -/
def loadNameFp (readable : Bool) (files : Directory UInt8) : Option (String × String) :=
  match files IDENTITY_PATH with
  | none => none
  | some content =>
      if readable then do
        let text ← fromUtf8 content
        let file ← parse text
        let seed ← unb64 file.seed
        if seed.length = SEED_LEN then some (file.name, fingerprint P (publicKeyOf seed)) else none
      else none

/-- Copy the file of the identity to the backup of its fingerprint. -/
def backupExisting (ops : FileOps) (files : Directory UInt8) :
    Directory UInt8 × Except Error (Option String) :=
  match files IDENTITY_PATH with
  | none => (files, .ok none)
  | some content =>
      let fp :=
        match loadNameFp P parse publicKeyOf ops.readable files with
        | some found => found.2
        | none => "unknown"
      match files.write (backupPath fp) content ops.backup with
      | (copied, true) =>
          if ops.backupRestricted then (copied, .ok (some fp))
          else (copied, .error (.inputOutput ""))
      | (copied, false) => (copied, .error (.inputOutput ""))

/-- The text that a command saves. -/
def Generate.text (cmd : Generate) : String :=
  IdentityFile.pretty { name := cmd.name, seed := b64 cmd.seed }

def saveIdentity (cmd : Generate) (files : Directory UInt8) :
    Directory UInt8 × Except Error Unit :=
  if cmd.ops.dirReady then
    match files.write IDENTITY_PATH (asBytes cmd.text) cmd.ops.write with
    | (saved, true) =>
        if cmd.ops.restricted then (saved, .ok ()) else (saved, .error (.inputOutput ""))
    | (saved, false) => (saved, .error (.inputOutput ""))
  else (files, .error (.inputOutput ""))

/-- Save the generated identity and print it. -/
def finishGenerate (cmd : Generate) (files : Directory UInt8) :
    Directory UInt8 × Except Error Generated :=
  match saveIdentity cmd files with
  | (saved, .error e) => (saved, .error e)
  | (saved, .ok _) => (saved, .ok ⟨cmd.name, fingerprint P (publicKeyOf cmd.seed)⟩)

def idGenerate (cmd : Generate) (files : Directory UInt8) :
    Directory UInt8 × Except Error Generated :=
  match validateName cmd.name with
  | .error e => (files, .error (.config ("invalid identity name: " ++ e)))
  | .ok _ =>
      match loadNameFp P parse publicKeyOf cmd.ops.readable files with
      | some (existingName, existingFp) =>
          if cmd.force then
            match backupExisting P parse publicKeyOf cmd.ops files with
            | (backed, .error e) => (backed, .error e)
            | (backed, .ok _) => finishGenerate P publicKeyOf cmd backed
          else if existingName ≠ cmd.name then
            (files, .error (.identityNameMismatch ("an identity '" ++ existingName ++ "' (" ++
              existingFp ++ ") already exists; refusing to generate '" ++ cmd.name ++
              "' — pass --force to replace it")))
          else (files, .error (.identityExists "use --force to overwrite"))
      | none => finishGenerate P publicKeyOf cmd files

/-- What a command makes of the files. -/
def generateStep (files : Directory UInt8) (cmd : Generate) : Directory UInt8 :=
  (idGenerate P parse publicKeyOf cmd files).1

/-! ## What must not be lost -/

/-- What a command replaces is in a backup afterwards, no backup changes, and an error
leaves all files alone. -/
structure Preserves (before : Directory UInt8) (after : Directory UInt8 × Except Error Generated) :
    Prop where
  previous : ∀ content, before IDENTITY_PATH = some content →
    after.1 IDENTITY_PATH ≠ some content → ∃ tag, after.1 (backupPath tag) = some content
  backups : ∀ tag content, before (backupPath tag) = some content →
    after.1 (backupPath tag) = some content
  unchanged : ∀ e, after.2 = .error e → after.1 = before

/-- A guard refuses the command: its name is invalid, or there is an identity and no
`--force`. -/
def GenerateRefused (files : Directory UInt8) (cmd : Generate) : Prop :=
  (∃ e, validateName cmd.name = .error e) ∨
    (loadNameFp P parse publicKeyOf cmd.ops.readable files).isSome = true ∧ cmd.force = false

/-- A command is refused; or its file operations succeed, and what is there can be parsed
and its backup would not replace another, or it is in a backup, or it is what is saved. -/
def Recoverable (files : Directory UInt8) (cmd : Generate) : Prop :=
  GenerateRefused P parse publicKeyOf files cmd ∨
    cmd.ops = {} ∧ ∀ content, files IDENTITY_PATH = some content →
      match loadNameFp P parse publicKeyOf true files with
      | some found => ∀ old, files (backupPath found.2) = some old → old = content
      | none => content = asBytes cmd.text ∨ ∃ tag, files (backupPath tag) = some content

end Commands

section Results

variable {P : Platform} {parse : String → Option IdentityFile} {publicKeyOf : Bytes → Bytes}
variable {files : Directory UInt8} {cmd : Generate}

theorem backupPath_ne_identity (tag : String) : backupPath tag ≠ IDENTITY_PATH := by
  intro same
  have path : IDENTITY_PATH.length = 13 := by decide
  have front : "identity.json.bak-".length = 18 := by decide
  have total : (backupPath tag).length = 18 + tag.length :=
    (String.length_append _ _).trans (congrArg (· + tag.length) front)
  have length := total.symm.trans ((congrArg String.length same).trans path)
  omega

theorem idGenerate_refused (refused : GenerateRefused P parse publicKeyOf files cmd) :
    (idGenerate P parse publicKeyOf cmd files).1 = files := by
  rcases refused with ⟨e, invalid⟩ | ⟨present, unforced⟩
  · simp only [idGenerate, invalid]
  · obtain ⟨found, loaded⟩ := Option.isSome_iff_exists.mp present
    cases valid : validateName cmd.name with
    | error e =>
        simp only [idGenerate, valid]
    | ok _ =>
        simp only [idGenerate, valid, loaded, unforced, Bool.false_eq_true, if_false]
        split <;> rfl

/-- The files with a backup of what is there, if that can be parsed. -/
def backedUp (P : Platform) (parse : String → Option IdentityFile) (publicKeyOf : Bytes → Bytes)
    (files : Directory UInt8) : Directory UInt8 :=
  match files IDENTITY_PATH, loadNameFp P parse publicKeyOf true files with
  | some content, some found => files.put (backupPath found.2) content
  | _, _ => files

/-- A command that is not refused and whose file operations succeed saves its text, over a
backup of what is there if that can be parsed. -/
theorem idGenerate_accepted
    (accepted : ¬ GenerateRefused P parse publicKeyOf files cmd) (ops : cmd.ops = {}) :
    idGenerate P parse publicKeyOf cmd files =
      ((backedUp P parse publicKeyOf files).put IDENTITY_PATH (asBytes cmd.text),
        .ok ⟨cmd.name, fingerprint P (publicKeyOf cmd.seed)⟩) := by
  rw [GenerateRefused, not_or, ops] at accepted
  obtain ⟨valid, forced⟩ := accepted
  have finishes (backed : Directory UInt8) : finishGenerate P publicKeyOf cmd backed =
      (backed.put IDENTITY_PATH (asBytes cmd.text),
        .ok ⟨cmd.name, fingerprint P (publicKeyOf cmd.seed)⟩) := by
    simp only [finishGenerate, saveIdentity, ops, Directory.write, if_true]
  cases checked : validateName cmd.name with
  | error e =>
      exact absurd ⟨e, checked⟩ valid
  | ok _ =>
      cases loaded : loadNameFp P parse publicKeyOf true files with
      | none =>
          simp only [idGenerate, checked, ops, loaded, finishes, backedUp]
          cases files IDENTITY_PATH <;> rfl
      | some found =>
          have force : cmd.force = true := by
            rw [loaded] at forced
            simpa using forced
          cases there : files IDENTITY_PATH with
          | none =>
              simp only [loadNameFp, there] at loaded
              cases loaded
          | some content =>
              simp only [idGenerate, checked, ops, loaded, force, if_true, backupExisting, there,
                Directory.write, finishes, backedUp]

/-- What a command saves is the identity that the next one finds. -/
theorem loadNameFp_saved
    (parses : parse cmd.text = some ⟨cmd.name, b64 cmd.seed⟩) (sized : cmd.seed.length = SEED_LEN)
    (backed : Directory UInt8) :
    loadNameFp P parse publicKeyOf true (backed.put IDENTITY_PATH (asBytes cmd.text)) =
      some (cmd.name, fingerprint P (publicKeyOf cmd.seed)) := by
  simp only [loadNameFp, Directory.put_same, if_true, fromUtf8_asBytes, parses, unb64_b64, sized,
    Option.bind_eq_bind, Option.bind_some]

theorem preserves_of_unchanged
    {after : Directory UInt8 × Except Error Generated} (same : after.1 = files) :
    Preserves files after where
  previous _ there replaced := absurd (same ▸ there) replaced
  backups _ _ there := same ▸ there
  unchanged _ _ := same

section Saved

variable {content bytes : Bytes} {result : Generated}

/-- Saving the identity leaves the backups alone. -/
theorem backup_of_saved (backed : Directory UInt8) (bytes : Bytes) (tag : String) :
    backed.put IDENTITY_PATH bytes (backupPath tag) = backed (backupPath tag) :=
  Directory.put_other backed (backupPath_ne_identity tag) _

/-- Where no identity is, none is lost. -/
theorem preserves_absent (absent : files IDENTITY_PATH = none) :
    Preserves files (files.put IDENTITY_PATH bytes, .ok result) where
  previous content before _ := by
    cases absent.symm.trans before
  backups tag _ before := (backup_of_saved files bytes tag).trans before
  unchanged := nofun

/-- What is overwritten without a backup must be in a backup already. -/
theorem preserves_unread_iff (there : files IDENTITY_PATH = some content) :
    Preserves files (files.put IDENTITY_PATH bytes, .ok result) ↔
      content = bytes ∨ ∃ tag, files (backupPath tag) = some content := by
  constructor
  · intro preserves
    by_cases same : content = bytes
    · exact Or.inl same
    · obtain ⟨tag, held⟩ := preserves.previous content there (by simp [Ne.symm same])
      exact Or.inr ⟨tag, backup_of_saved files bytes tag ▸ held⟩
  · intro kept
    refine ⟨fun old before replaced => ?_, fun tag old before => ?_, nofun⟩
    · cases there.symm.trans before
      rcases kept with same | ⟨tag, held⟩
      · exact absurd (same ▸ Directory.put_same files IDENTITY_PATH _) replaced
      · exact ⟨tag, (backup_of_saved files bytes tag).trans held⟩
    · exact (backup_of_saved files bytes tag).trans before

/-- What is overwritten after a backup was made is lost only from under that backup. -/
theorem preserves_backed_iff (there : files IDENTITY_PATH = some content) (tag : String) :
    Preserves files ((files.put (backupPath tag) content).put IDENTITY_PATH bytes, .ok result) ↔
      ∀ old, files (backupPath tag) = some old → old = content := by
  have placed := (backup_of_saved (files.put (backupPath tag) content) bytes tag).trans
    (Directory.put_same _ _ _)
  constructor
  · intro preserves old before
    exact Option.some.inj ((preserves.backups tag old before).symm.trans placed)
  · intro kept
    refine ⟨fun old before _ => ?_, fun other old before => ?_, nofun⟩
    · cases there.symm.trans before
      exact ⟨tag, placed⟩
    · exact (backup_of_saved _ bytes other).trans (Directory.put_keeps_iff.mpr kept _ old before)

end Saved

/-- A command whose file operations succeed preserves what is there exactly when it is
recoverable. -/
theorem preserves_iff (ops : cmd.ops = {}) :
    Preserves files (idGenerate P parse publicKeyOf cmd files) ↔
      Recoverable P parse publicKeyOf files cmd := by
  by_cases refused : GenerateRefused P parse publicKeyOf files cmd
  · exact iff_of_true (preserves_of_unchanged (idGenerate_refused refused)) (Or.inl refused)
  · rw [Recoverable, or_iff_right refused, and_iff_right ops, idGenerate_accepted refused ops]
    cases there : files IDENTITY_PATH with
    | none =>
        have nothing : backedUp P parse publicKeyOf files = files := by
          simp only [backedUp, there]
        rw [nothing]
        exact iff_of_true (preserves_absent there) nofun
    | some content =>
        cases loaded : loadNameFp P parse publicKeyOf true files with
        | none =>
            have nothing : backedUp P parse publicKeyOf files = files := by
              simp only [backedUp, there, loaded]
            rw [nothing, preserves_unread_iff there]
            exact ⟨by rintro kept _ ⟨⟩; exact kept, fun kept => kept content rfl⟩
        | some found =>
            have backed : backedUp P parse publicKeyOf files =
                files.put (backupPath found.2) content := by
              simp only [backedUp, there, loaded]
            rw [backed, preserves_backed_iff there]
            exact ⟨by rintro kept _ ⟨⟩; exact kept, fun kept => kept content rfl⟩

theorem Recoverable.preserves (recoverable : Recoverable P parse publicKeyOf files cmd) :
    Preserves files (idGenerate P parse publicKeyOf cmd files) := by
  rcases recoverable with refused | ⟨ops, kept⟩
  · exact preserves_of_unchanged (idGenerate_refused refused)
  · exact (preserves_iff ops).mpr (Or.inr ⟨ops, kept⟩)

/-! ## Runs of commands -/

/-- A content that is in the file of the identity or in a backup. -/
def Held (files : Directory UInt8) (content : Bytes) : Prop :=
  files IDENTITY_PATH = some content ∨ ∃ tag, files (backupPath tag) = some content

theorem Preserves.held
    {after : Directory UInt8 × Except Error Generated} (preserves : Preserves files after)
    {content : Bytes} (held : Held files content) : Held after.1 content := by
  rcases held with current | ⟨tag, backup⟩
  · by_cases same : after.1 IDENTITY_PATH = some content
    · exact Or.inl same
    · exact Or.inr (preserves.previous content current same)
  · exact Or.inr ⟨tag, preserves.backups tag content backup⟩

end Results

/-- In every run of commands that are recoverable where they are run, each command
preserves what it replaces, and nothing that is ever in the file of the identity or in a
backup is lost; and when the file operations succeed, only such runs preserve everything. -/
theorem seeds_preserved
    (P : Platform) (parse : String → Option IdentityFile) (publicKeyOf : Bytes → Bytes)
    (files : Directory UInt8) (cmds : List Generate) :
    let step := generateStep P parse publicKeyOf
    let preserving := Machine.EveryStep step
      (fun before cmd => Preserves before (idGenerate P parse publicKeyOf cmd before)) files cmds
    let recoverable := Machine.EveryStep step (Recoverable P parse publicKeyOf) files cmds
    (recoverable → preserving ∧ ∀ earlier later, cmds = earlier ++ later →
      ∀ content, Held (Machine.run step files earlier) content →
        Held (Machine.run step files cmds) content) ∧
    ((∀ cmd ∈ cmds, cmd.ops = {}) → (preserving ↔ recoverable)) := by
  intro step preserving recoverable
  refine ⟨fun safe => ⟨fun earlier cmd later split => (safe earlier cmd later split).preserves, ?_⟩,
    fun ops => ⟨fun safe earlier cmd later split => ?_, fun safe earlier cmd later split => ?_⟩⟩
  · rintro earlier later rfl content held
    rw [Machine.run_append]
    exact safe.later.invariant held fun before cmd kept recoverable =>
      recoverable.preserves.held kept
  · exact (preserves_iff (ops cmd (by simp [split]))).mp (safe earlier cmd later split)
  · exact (safe earlier cmd later split).preserves

/-! ## Two identities, and a torn file -/

def aliceCmd : Generate where
  name := "alice"
  seed := List.replicate 32 1

def bobCmd : Generate where
  name := "bob"
  force := true
  seed := List.replicate 32 2

/-- The parser, on the file of alice and on what is not one. -/
def parseAlice (text : String) : Option IdentityFile :=
  if text = aliceCmd.text then some ⟨"alice", b64 aliceCmd.seed⟩ else none

/-- Public keys of the reference platform. -/
def referenceKey (seed : Bytes) : Bytes :=
  List.replicate PUBLIC_KEY_LEN (seed.headD 0)

theorem not_refused_alice
    {P : Platform} {files : Directory UInt8}
    (nothing : loadNameFp P parseAlice referenceKey true files = none) :
    ¬ GenerateRefused P parseAlice referenceKey files aliceCmd := by
  rintro (⟨e, invalid⟩ | ⟨present, _⟩)
  · have valid : validateName aliceCmd.name = .ok () := by decide
    rw [valid] at invalid
    cases invalid
  · have readable : aliceCmd.ops.readable = true := rfl
    rw [readable, nothing] at present
    cases present

/-- The file of alice is still there after bob was generated over it. -/
theorem seeds_preserved_alice :
    Held (Machine.run (generateStep (Reference.platform {}) parseAlice referenceKey)
      (fun _ => none) [aliceCmd, bobCmd]) (asBytes aliceCmd.text) := by
  have saved : generateStep (Reference.platform {}) parseAlice referenceKey (fun _ => none)
      aliceCmd = Directory.put (fun _ => none) IDENTITY_PATH (asBytes aliceCmd.text) :=
    congrArg Prod.fst (idGenerate_accepted (not_refused_alice rfl) rfl)
  have parses : parseAlice aliceCmd.text = some ⟨aliceCmd.name, b64 aliceCmd.seed⟩ := if_pos rfl
  have recoverable : Machine.EveryStep
      (generateStep (Reference.platform {}) parseAlice referenceKey)
      (Recoverable (Reference.platform {}) parseAlice referenceKey) (fun _ => none)
      [aliceCmd, bobCmd] := by
    refine Machine.everyStep_cons (Or.inr ⟨rfl, nofun⟩)
      (Machine.everyStep_cons (Or.inr ⟨rfl, fun content _ => ?_⟩) Machine.everyStep_nil)
    rw [saved, loadNameFp_saved parses rfl]
    intro old before
    rw [Directory.put_other _ (backupPath_ne_identity _)] at before
    cases before
  refine ((seeds_preserved (Reference.platform {}) parseAlice referenceKey (fun _ => none)
    [aliceCmd, bobCmd]).1 recoverable).2 [aliceCmd] [bobCmd] rfl _ ?_
  rw [Machine.run_cons, Machine.run_nil, saved]
  exact Or.inl (Directory.put_same _ _ _)

/-- The beginning of the file of an identity. -/
def tornText : String :=
  "\x7b\n  \"name\": \"alice"

/-- A file of which only the beginning was written. -/
def tornFiles : Directory UInt8 :=
  Directory.put (fun _ => none) IDENTITY_PATH (asBytes tornText)

theorem tornText_ne : tornText ≠ aliceCmd.text := by
  decide

/-- A torn file is replaced without a backup, even without `--force`. -/
theorem torn_file_lost :
    ¬ ∀ (P : Platform) (parse : String → Option IdentityFile) (publicKeyOf : Bytes → Bytes)
        (files : Directory UInt8) (cmds : List Generate), (∀ cmd ∈ cmds, cmd.ops = {}) →
        Machine.EveryStep (generateStep P parse publicKeyOf)
          (fun before cmd => Preserves before (idGenerate P parse publicKeyOf cmd before))
          files cmds := by
  intro preserved
  have single := preserved (Reference.platform {}) parseAlice referenceKey tornFiles [aliceCmd]
    (fun cmd member => by rw [List.mem_singleton.mp member]; rfl)
  have unparsed : parseAlice tornText = none := if_neg tornText_ne
  have torn : loadNameFp (Reference.platform {}) parseAlice referenceKey true tornFiles = none := by
    simp only [loadNameFp, tornFiles, Directory.put_same, if_true, fromUtf8_asBytes, unparsed,
      Option.bind_eq_bind, Option.bind_some, Option.bind_none]
  have first : Preserves tornFiles
      (idGenerate (Reference.platform {}) parseAlice referenceKey aliceCmd tornFiles) :=
    single [] aliceCmd [] rfl
  rcases (preserves_iff rfl).mp first with refused | ⟨_, kept⟩
  · exact not_refused_alice torn refused
  · have lost := kept (asBytes tornText) (Directory.put_same _ _ _)
    rw [torn] at lost
    rcases lost with same | ⟨tag, backup⟩
    · have texts := congrArg fromUtf8 same
      rw [fromUtf8_asBytes, fromUtf8_asBytes] at texts
      exact tornText_ne (Option.some.inj texts)
    · rw [tornFiles, Directory.put_other _ (backupPath_ne_identity tag)] at backup
      cases backup

end AgentMsg
