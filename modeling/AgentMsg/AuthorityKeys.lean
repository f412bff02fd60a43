import AgentMsg.IdentityFiles
import AgentMsg.Lib.Record
import AgentMsg.Tokens

/-!
# The signing key of the authority

`authority generate` writes the seed of a new key over the file of the authority, after a copy of
whatever is there.  The operations on the files may break off at any point.  A file that was
written in part is not a key, and every key that the file ever held stays in it or in the backup
of its fingerprint.
-/

namespace AgentMsg

/-- The file of the authority: a name and the signing seed in base64url. -/
structure AuthorityFile where
  name : String
  seed : String
  deriving DecidableEq, Repr

namespace AuthorityFile

open Document

def record : Document.Record (String × String) :=
  .and (.plain "name") .text <|
  .single (.plain "seed") .text

def shape : Shape AuthorityFile :=
  (record.shape (by decide)).via (fun file => (file.name, file.seed))
    (fun (name, seed) => some { name := name, seed })

/-- `serde_json::to_string_pretty` -/
def pretty (file : AuthorityFile) : String :=
  encode .pretty (shape.write file)

/-- `serde_json::from_str` -/
def parse (text : String) : Option AuthorityFile :=
  (decode text).bind shape.read

@[simp]
theorem parse_pretty (file : AuthorityFile) : parse file.pretty = some file := by
  rw [parse, pretty, decode_encode, Option.bind_some]
  exact shape.reads file ⟨⟨trivial, trivial⟩, rfl⟩

end AuthorityFile

/-- A loaded signing key of an authority. -/
structure Authority where
  name : String
  seed : Bytes
  publicKey : Bytes
  deriving DecidableEq, Repr

namespace Authority

def path : String :=
  "authority.json"

def backupPath (fp : String) : String :=
  "authority.json.bak-" ++ fp

def kid (P : Platform) (authority : Authority) : String :=
  makeKid P authority.name authority.publicKey

def token (authority : Authority) : AuthorityToken :=
  { name := authority.name, publicKey := authority.publicKey }

def sign (P : Platform) (authority : Authority) (message : Bytes) : Bytes :=
  P.mlDsaSign authority.seed message

/-- Is there a file of the authority? -/
def fileExists (files : Directory UInt8) : Bool :=
  (files path).isSome

section Commands

variable (P : Platform) (publicKeyOf : Bytes → Bytes) (syntaxError : String → String)

/-- The key in the content of a file. -/
def ofContent (content : Bytes) : Except Error Authority :=
  match fromUtf8 content with
  | none => .error (.inputOutput "stream did not contain valid UTF-8")
  | some text =>
      match AuthorityFile.parse text with
      | none => .error (.crypto ("authority: " ++ syntaxError text))
      | some file =>
          match unb64 file.seed with
          | none => .error (.crypto "bad seed")
          | some seed =>
              if seed.length = SEED_LEN then
                .ok { name := file.name, seed, publicKey := publicKeyOf seed }
              else .error (.crypto "seed must be 32 bytes")

/-- Load the key from its file. -/
def load (readable : Bool) (files : Directory UInt8) : Except Error Authority :=
  match files path with
  | none => .error .noAuthority
  | some content =>
      if readable then ofContent publicKeyOf syntaxError content else .error (.inputOutput "")

/-- The tag of the backup of a key that was loaded, or not. -/
def backupTag (loaded : Except Error Authority) : String :=
  match loaded with
  | .ok authority => fingerprint P authority.publicKey
  | .error _ => "unknown"

/-- Copy the file of the authority to the backup of its fingerprint. -/
def backupExisting (ops : FileOps) (files : Directory UInt8) :
    Directory UInt8 × Except Error (Option String) :=
  match files path with
  | none => (files, .ok none)
  | some content =>
      let fp := backupTag P (load publicKeyOf syntaxError ops.readable files)
      match files.write (backupPath fp) content ops.backup with
      | (copied, true) =>
          if ops.backupRestricted then (copied, .ok (some fp))
          else (copied, .error (.inputOutput ""))
      | (copied, false) => (copied, .error (.inputOutput ""))

/-- The content that is saved for a name and a seed. -/
def saved (name : String) (seed : Bytes) : Bytes :=
  asBytes (AuthorityFile.pretty { name, seed := b64 seed })

def save (authority : Authority) (ops : FileOps) (files : Directory UInt8) :
    Directory UInt8 × Except Error Unit :=
  if ops.dirReady then
    match files.write path (saved authority.name authority.seed) ops.write with
    | (written, true) =>
        if ops.restricted then (written, .ok ()) else (written, .error (.inputOutput ""))
    | (written, false) => (written, .error (.inputOutput ""))
  else (files, .error (.inputOutput ""))

/-- Save the key of a drawn seed and print it. -/
def finish (cmd : Generate) (files : Directory UInt8) :
    Directory UInt8 × Except Error Authority :=
  let authority : Authority :=
    { name := cmd.name, seed := cmd.seed, publicKey := publicKeyOf cmd.seed }
  match authority.save cmd.ops files with
  | (written, .error e) => (written, .error e)
  | (written, .ok _) => (written, .ok authority)

/-- `authority generate` -/
def generate (cmd : Generate) (files : Directory UInt8) :
    Directory UInt8 × Except Error Authority :=
  match validateName cmd.name with
  | .error e => (files, .error (.config ("invalid authority name: " ++ e)))
  | .ok _ =>
      if fileExists files && !cmd.force then
        (files, .error (.identityExists
          "an authority key already exists; use --force to overwrite"))
      else if fileExists files then
        match backupExisting P publicKeyOf syntaxError cmd.ops files with
        | (backed, .error e) => (backed, .error e)
        | (backed, .ok _) => finish publicKeyOf cmd backed
      else finish publicKeyOf cmd files

/-- What a command makes of the files. -/
def generateStep (files : Directory UInt8) (cmd : Generate) : Directory UInt8 :=
  (generate P publicKeyOf syntaxError cmd files).1

end Commands

/-! ## Contents that are keys -/

section Contents

variable {P : Platform} {publicKeyOf : Bytes → Bytes} {syntaxError : String → String}

@[simp]
theorem ofContent_saved (name : String) {seed : Bytes} (sized : seed.length = SEED_LEN) :
    ofContent publicKeyOf syntaxError (saved name seed) =
      .ok { name, seed, publicKey := publicKeyOf seed } := by
  simp only [ofContent, saved, fromUtf8_asBytes, AuthorityFile.parse_pretty, unb64_b64, sized,
    if_true]

/-- A file that was written in part is not a key. -/
theorem ofContent_torn (name : String) (seed : Bytes) {count : Nat}
    (short : count < (saved name seed).length) :
    ∃ e, ofContent publicKeyOf syntaxError ((saved name seed).take count) = .error e := by
  rw [ofContent]
  cases decoded : fromUtf8 ((saved name seed).take count) with
  | none =>
      exact ⟨_, rfl⟩
  | some front =>
      obtain ⟨missing, whole, cut⟩ := prefix_of_fromUtf8_take decoded short
      have unparsed : AuthorityFile.parse front = none := by
        rw [AuthorityFile.pretty, Document.toList_encode_pretty] at whole
        rw [AuthorityFile.parse, ← String.ofList_toList (s := front),
          Document.decode_cut whole cut, Option.bind_none]
      simp only [unparsed]
      exact ⟨_, rfl⟩

end Contents

/-! ## What a command leaves -/

section Commands

variable {P : Platform} {publicKeyOf : Bytes → Bytes} {syntaxError : String → String}
  {files : Directory UInt8} {cmd : Generate}

theorem backupPath_eq (tag : String) : backupPath tag = "authority.json.bak-" ++ tag :=
  rfl

theorem backupPath_ne_path (tag : String) : backupPath tag ≠ path := by
  intro same
  have whole : path.length = 14 := rfl
  have front : "authority.json.bak-".length = 19 := rfl
  have total : (backupPath tag).length = 19 + tag.length := by
    rw [backupPath_eq, String.length_append, front]
  have length := total.symm.trans ((congrArg String.length same).trans whole)
  omega

theorem backupPath_injective {first second : String}
    (same : backupPath first = backupPath second) : first = second := by
  have letters := congrArg String.toList same
  rw [backupPath_eq, backupPath_eq, String.toList_append, String.toList_append] at letters
  exact String.toList_injective (List.append_cancel_left letters)

/-- The tag of the backup of a content. -/
def tagOf (P : Platform) (publicKeyOf : Bytes → Bytes) (syntaxError : String → String)
    (content : Bytes) : String :=
  backupTag P (ofContent publicKeyOf syntaxError content)

/-- No fingerprint is the tag of what is not a key. -/
theorem fingerprint_ne_unknown (publicKey : Bytes) : fingerprint P publicKey ≠ "unknown" := by
  intro same
  have even := length_hexEncode ((P.sha256 publicKey).take 8)
  have seven : "unknown".toList.length = 7 := rfl
  rw [← fingerprint, same, seven] at even
  omega

/-- The files with a backup of the first bytes of what is there. -/
def backedUp (P : Platform) (publicKeyOf : Bytes → Bytes) (syntaxError : String → String)
    (files : Directory UInt8) (content : Bytes) (count : Nat) : Directory UInt8 :=
  files.put (backupPath (tagOf P publicKeyOf syntaxError content)) (content.take count)

/-- What a command can make of the files: nothing, a backup that may be cut off, or a new file
that may be cut off, over a backup of what was there. -/
inductive Leaves (P : Platform) (publicKeyOf : Bytes → Bytes) (syntaxError : String → String)
    (files : Directory UInt8) (cmd : Generate) : Directory UInt8 → Prop where
  | unchanged : Leaves P publicKeyOf syntaxError files cmd files
  | copied {content : Bytes} (there : files path = some content) (count : Nat) :
      Leaves P publicKeyOf syntaxError files cmd
        (backedUp P publicKeyOf syntaxError files content count)
  | created (absent : files path = none) (count : Nat) :
      Leaves P publicKeyOf syntaxError files cmd
        (files.put path ((saved cmd.name cmd.seed).take count))
  | replaced {content : Bytes} (there : files path = some content) (count : Nat) :
      Leaves P publicKeyOf syntaxError files cmd
        ((backedUp P publicKeyOf syntaxError files content content.length).put path
          ((saved cmd.name cmd.seed).take count))

/-- Writing a file leaves the directory, or the first bytes of the content. -/
theorem write_fst (files : Directory UInt8) (name : String) (content : Bytes)
    (outcome : Directory.Written) :
    (files.write name content outcome).1 = files ∨
      ∃ count, (files.write name content outcome).1 = files.put name (content.take count) := by
  cases outcome with
  | all =>
      exact .inr ⟨content.length, by rw [List.take_length]; rfl⟩
  | nothing =>
      exact .inl rfl
  | part count =>
      exact .inr ⟨count, rfl⟩

theorem finish_fst (cmd : Generate) (files : Directory UInt8) :
    (finish publicKeyOf cmd files).1 = files ∨
      ∃ count, (finish publicKeyOf cmd files).1 =
        files.put path ((saved cmd.name cmd.seed).take count) := by
  have same : (finish publicKeyOf cmd files).1 =
      (save { name := cmd.name, seed := cmd.seed, publicKey := publicKeyOf cmd.seed } cmd.ops
        files).1 := by
    rw [finish]
    split <;> rename_i found <;> rw [found]
  rw [same, save]
  split
  · have written := write_fst files path (saved cmd.name cmd.seed) cmd.ops.write
    dsimp only
    split
    · rename_i done found
      rw [found] at written
      split <;> exact written
    · rename_i done found
      rw [found] at written
      exact written
  · exact .inl rfl

/-- The backup succeeds with the whole content, or it leaves the files or its first bytes. -/
theorem backupExisting_cases {content : Bytes} (there : files path = some content)
    (readable : cmd.ops.readable = true) :
    (∃ fp, backupExisting P publicKeyOf syntaxError cmd.ops files =
        (backedUp P publicKeyOf syntaxError files content content.length, .ok fp)) ∨
      ∃ backed e, backupExisting P publicKeyOf syntaxError cmd.ops files = (backed, .error e) ∧
        (backed = files ∨
          ∃ count, backed = backedUp P publicKeyOf syntaxError files content count) := by
  have loaded : load publicKeyOf syntaxError cmd.ops.readable files =
      ofContent publicKeyOf syntaxError content := by
    simp only [load, there, readable, if_true]
  have tag : backupTag P (load publicKeyOf syntaxError cmd.ops.readable files) =
      tagOf P publicKeyOf syntaxError content := by
    rw [loaded, tagOf]
  rw [backupExisting]
  simp only [there, tag]
  cases outcome : cmd.ops.backup with
  | all =>
      simp only [Directory.write]
      split
      · refine .inl ⟨some (tagOf P publicKeyOf syntaxError content), ?_⟩
        rw [backedUp, List.take_length]
      · refine .inr ⟨_, _, rfl, .inr ⟨content.length, ?_⟩⟩
        rw [backedUp, List.take_length]
  | nothing =>
      exact .inr ⟨files, _, rfl, .inl rfl⟩
  | part count =>
      exact .inr ⟨_, _, rfl, .inr ⟨count, rfl⟩⟩

theorem leaves_generate (readable : cmd.ops.readable = true) :
    Leaves P publicKeyOf syntaxError files cmd
      (generate P publicKeyOf syntaxError cmd files).1 := by
  rw [generate]
  split
  · exact .unchanged
  · split
    · exact .unchanged
    · split
      · rename_i here
        obtain ⟨content, there⟩ := Option.isSome_iff_exists.mp here
        rcases @backupExisting_cases P publicKeyOf syntaxError _ _ _ there readable with
          ⟨fp, backed⟩ | ⟨backed, e, failed, same | ⟨count, same⟩⟩
        · simp only [backed]
          rcases finish_fst cmd (backedUp P publicKeyOf syntaxError files content content.length)
            with same | ⟨count, same⟩
          · rw [same]
            exact .copied there content.length
          · rw [same]
            exact .replaced there count
        · simp only [failed, same]
          exact .unchanged
        · simp only [failed, same]
          exact .copied there count
      · rename_i absent
        have none : files path = none := by
          rw [fileExists, Bool.not_eq_true, Option.isSome_eq_false_iff, Option.isNone_iff_eq_none]
            at absent
          exact absent
        rcases finish_fst cmd files with same | ⟨count, same⟩
        · rw [same]
          exact .unchanged
        · rw [same]
          exact .created none count

/-! ## Keys are kept -/

/-- The content is still there: in the file of the authority, or in the backup of its
fingerprint, which nothing else in the file has. -/
structure Kept (P : Platform) (publicKeyOf : Bytes → Bytes) (syntaxError : String → String)
    (content : Bytes) (fp : String) (files : Directory UInt8) : Prop where
  held : files path = some content ∨ files (backupPath fp) = some content
  alone : ∀ current, files path = some current →
    tagOf P publicKeyOf syntaxError current = fp → current = content

/-- What a command writes has the tag of its seed, or is not a key. -/
theorem tagOf_take_saved (name : String) (seed : Bytes) (count : Nat) :
    tagOf P publicKeyOf syntaxError ((saved name seed).take count) =
        fingerprint P (publicKeyOf seed) ∨
      tagOf P publicKeyOf syntaxError ((saved name seed).take count) = "unknown" := by
  by_cases short : count < (saved name seed).length
  · obtain ⟨e, torn⟩ := @ofContent_torn publicKeyOf syntaxError name seed count short
    rw [tagOf, torn]
    exact .inr rfl
  · rw [List.take_of_length_le (Nat.not_lt.mp short)]
    by_cases sized : seed.length = SEED_LEN
    · rw [tagOf, ofContent_saved name sized]
      exact .inl rfl
    · simp only [tagOf, ofContent, saved, fromUtf8_asBytes, AuthorityFile.parse_pretty, unb64_b64,
        sized, if_false]
      exact .inr rfl

theorem Kept.step {content : Bytes} {publicKey : Bytes}
    (kept : Kept P publicKeyOf syntaxError content (fingerprint P publicKey) files)
    (key : tagOf P publicKeyOf syntaxError content = fingerprint P publicKey)
    (other : fingerprint P (publicKeyOf cmd.seed) ≠ fingerprint P publicKey)
    {after : Directory UInt8} (leaves : Leaves P publicKeyOf syntaxError files cmd after) :
    Kept P publicKeyOf syntaxError content (fingerprint P publicKey) after := by
  have fresh (count : Nat) : tagOf P publicKeyOf syntaxError
      ((saved cmd.name cmd.seed).take count) ≠ fingerprint P publicKey := by
    rcases tagOf_take_saved cmd.name cmd.seed count with same | same
    · rw [same]
      exact other
    · rw [same]
      exact (fingerprint_ne_unknown publicKey).symm
  have written (backed : Directory UInt8) (count : Nat)
      (held : backed (backupPath (fingerprint P publicKey)) = some content) :
      Kept P publicKeyOf syntaxError content (fingerprint P publicKey)
        (backed.put path ((saved cmd.name cmd.seed).take count)) := by
    refine ⟨.inr ?_, fun current now tag => ?_⟩
    · rw [Directory.put_other _ (backupPath_ne_path _), held]
    · rw [Directory.put_same, Option.some.injEq] at now
      rw [← now] at tag
      exact absurd tag (fresh count)
  cases leaves with
  | unchanged =>
      exact kept
  | @copied current there count =>
      have still : backedUp P publicKeyOf syntaxError files current count path =
          files path := Directory.put_other _ (backupPath_ne_path _).symm _
      refine ⟨?_, fun now found => kept.alone now (still ▸ found)⟩
      by_cases same : tagOf P publicKeyOf syntaxError current = fingerprint P publicKey
      · refine .inl ?_
        rw [still, there, kept.alone current there same]
      · rcases kept.held with here | backup
        · exact .inl (still.trans here)
        · refine .inr ?_
          rw [backedUp, Directory.put_other _ fun equal =>
            same (backupPath_injective equal).symm, backup]
  | created absent count =>
      refine written files count (kept.held.resolve_left fun here => ?_)
      rw [absent] at here
      cases here
  | @replaced current there count =>
      refine written _ count ?_
      rw [backedUp, List.take_length]
      by_cases same : tagOf P publicKeyOf syntaxError current = fingerprint P publicKey
      · rw [same, Directory.put_same, kept.alone current there same]
      · rw [Directory.put_other _ fun equal => same (backupPath_injective equal).symm]
        refine kept.held.resolve_left fun here => ?_
        rw [there, Option.some.injEq] at here
        exact same (here ▸ key)

theorem Kept.run {content publicKey : Bytes} {cmds : List Generate}
    (kept : Kept P publicKeyOf syntaxError content (fingerprint P publicKey) files)
    (key : tagOf P publicKeyOf syntaxError content = fingerprint P publicKey)
    (readable : ∀ cmd ∈ cmds, cmd.ops.readable = true)
    (others : ∀ cmd ∈ cmds, fingerprint P (publicKeyOf cmd.seed) ≠ fingerprint P publicKey) :
    Kept P publicKeyOf syntaxError content (fingerprint P publicKey)
      (Machine.run (generateStep P publicKeyOf syntaxError) files cmds) := by
  induction cmds generalizing files with
  | nil =>
      exact kept
  | cons cmd cmds inductionHypothesis =>
      obtain ⟨first, later⟩ := List.forall_mem_cons.mp readable
      obtain ⟨other, rest⟩ := List.forall_mem_cons.mp others
      exact inductionHypothesis (kept.step key other (leaves_generate first)) later rest

/-- Without `--force` a file that is there is left alone. -/
theorem generate_unforced (here : fileExists files = true) (unforced : cmd.force = false) :
    generateStep P publicKeyOf syntaxError files cmd = files := by
  rw [generateStep, generate]
  split
  · rfl
  · simp only [here, unforced, Bool.not_false, Bool.and_self, if_true]

theorem run_unforced {cmds : List Generate} (here : fileExists files = true)
    (unforced : ∀ cmd ∈ cmds, cmd.force = false) :
    Machine.run (generateStep P publicKeyOf syntaxError) files cmds = files := by
  induction cmds with
  | nil =>
      rfl
  | cons cmd cmds inductionHypothesis =>
      obtain ⟨first, later⟩ := List.forall_mem_cons.mp unforced
      rw [Machine.run_cons, generate_unforced here first]
      exact inductionHypothesis later

theorem finish_ok {printed : Authority} (sized : cmd.seed.length = SEED_LEN)
    (success : (finish publicKeyOf cmd files).2 = .ok printed) :
    load publicKeyOf syntaxError true (finish publicKeyOf cmd files).1 = .ok printed := by
  rw [finish] at success ⊢
  cases outcome : save { name := cmd.name, seed := cmd.seed, publicKey := publicKeyOf cmd.seed }
      cmd.ops files with
  | mk written result =>
      rw [outcome] at success
      cases result with
      | error e =>
          cases success
      | ok done =>
          cases success
          rw [save] at outcome
          split at outcome
          · split at outcome
            · rename_i other wrote
              split at outcome
              · cases outcome
                cases all : cmd.ops.write with
                | all =>
                    rw [all] at wrote
                    cases wrote
                    simp only [load, Directory.put_same, if_true, ofContent_saved cmd.name sized]
                | nothing =>
                    rw [all] at wrote
                    cases wrote
                | part count =>
                    rw [all] at wrote
                    cases wrote
              · cases outcome
            · cases outcome
          · cases outcome

/-- What a command prints is what the file holds afterwards. -/
theorem generate_ok {printed : Authority} (sized : cmd.seed.length = SEED_LEN)
    (success : (generate P publicKeyOf syntaxError cmd files).2 = .ok printed) :
    load publicKeyOf syntaxError true (generateStep P publicKeyOf syntaxError files cmd) =
      .ok printed := by
  rw [generateStep]
  rw [generate] at success ⊢
  split at success
  · cases success
  · split at success
    · cases success
    · rename_i allowed
      rw [if_neg allowed]
      split at success
      · rename_i here
        rw [if_pos here]
        cases outcome : backupExisting P publicKeyOf syntaxError cmd.ops files with
        | mk backed result =>
            rw [outcome] at success
            cases result with
            | error e =>
                cases success
            | ok fp =>
                exact finish_ok sized success
      · rename_i absent
        rw [if_neg absent]
        exact finish_ok sized success

end Commands

/-- In every run of `authority generate` whose operations on the files may fail or break off
anywhere: a key that is in the file stays there or in the backup of its fingerprint, byte for
byte, as long as it can be read and nothing else is drawn with its fingerprint; without
`--force` a file that is there stays as it is; and a command that prints a key, the first one
or a later one, has saved that key. -/
theorem authority_keys_kept (P : Platform) (publicKeyOf : Bytes → Bytes)
    (syntaxError : String → String) (files : Directory UInt8) (cmds : List Generate) :
    let run := Machine.run (generateStep P publicKeyOf syntaxError) files
    (∀ content authority, files path = some content →
      ofContent publicKeyOf syntaxError content = .ok authority →
      (∀ cmd ∈ cmds, cmd.ops.readable = true ∧
        fingerprint P (publicKeyOf cmd.seed) ≠ fingerprint P authority.publicKey) →
      run cmds path = some content ∨
        run cmds (backupPath (fingerprint P authority.publicKey)) = some content) ∧
    (fileExists files = true → (∀ cmd ∈ cmds, cmd.force = false) → run cmds = files) ∧
    ∀ earlier cmd later, cmds = earlier ++ cmd :: later → cmd.seed.length = SEED_LEN →
      ∀ printed, (generate P publicKeyOf syntaxError cmd (run earlier)).2 = .ok printed →
        load publicKeyOf syntaxError true (run (earlier ++ [cmd])) = .ok printed := by
  intro run
  refine ⟨fun content authority there key others => ?_, run_unforced, ?_⟩
  · have tag : tagOf P publicKeyOf syntaxError content = fingerprint P authority.publicKey := by
      rw [tagOf, key]
      rfl
    have kept : Kept P publicKeyOf syntaxError content (fingerprint P authority.publicKey) files :=
      ⟨.inl there, fun current now _ => Option.some.inj (now.symm.trans there)⟩
    exact (kept.run tag (fun cmd member => (others cmd member).1)
      fun cmd member => (others cmd member).2).held
  · intro earlier cmd later _ sized printed success
    have last : run (earlier ++ [cmd]) = generateStep P publicKeyOf syntaxError (run earlier) cmd :=
      Machine.run_concat
    rw [last]
    exact generate_ok sized success

/-! ## A torn file and another key -/

/-- A public key of the right length that shows the seed. -/
def paddedKey (seed : Bytes) : Bytes :=
  seed ++ List.replicate (PUBLIC_KEY_LEN - SEED_LEN) 0

def opsSeed : Bytes :=
  1 :: List.replicate 31 0

/-- The file of an authority. -/
def opsFiles : Directory UInt8 :=
  Directory.put (fun _ => none) path (saved "ops" opsSeed)

/-- Two keys that are drawn over it, of which the first is written in part. -/
def opsCommands : List Generate :=
  [{ name := "ops", force := true, seed := 2 :: List.replicate 31 0, ops := { write := .part 5 } },
    { name := "lead", force := true, seed := 3 :: List.replicate 31 0 }]

/-- The key of the first command is what is loaded afterwards, and two forced commands, of
which one fails, leave it in a file. -/
theorem authority_keys_kept_ops :
    let run := Machine.run (generateStep (Reference.platform {}) paddedKey fun _ => "")
    load paddedKey (fun _ => "") true
        (run (fun _ => none) [{ name := "ops", seed := opsSeed }]) =
      .ok { name := "ops", seed := opsSeed, publicKey := paddedKey opsSeed } ∧
    (run opsFiles opsCommands path = some (saved "ops" opsSeed) ∨
      run opsFiles opsCommands
          (backupPath (fingerprint (Reference.platform {}) (paddedKey opsSeed))) =
        some (saved "ops" opsSeed)) := by
  intro run
  have first := (authority_keys_kept (Reference.platform {}) paddedKey (fun _ => "")
    (fun _ => none) [{ name := "ops", seed := opsSeed }]).2.2
  have forced := (authority_keys_kept (Reference.platform {}) paddedKey (fun _ => "") opsFiles
    opsCommands).1
  refine ⟨first [] _ [] rfl (by decide) _ rfl, ?_⟩
  exact forced (saved "ops" opsSeed)
    { name := "ops", seed := opsSeed, publicKey := paddedKey opsSeed }
    (Directory.put_same _ _ _) (ofContent_saved "ops" (by decide)) (by decide +kernel)

end Authority

end AgentMsg
