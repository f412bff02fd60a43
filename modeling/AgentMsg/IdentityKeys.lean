import AgentMsg.IdentityFiles
import AgentMsg.Lib.Record
import AgentMsg.Minting

/-!
# The keys of an identity

Both key pairs of an agent are computed from the seed in its file, again in every process that
loads it.  The token that was printed once therefore stays good: peers that have imported it
accept what the agent signs, and the agent opens what they seal, for as long as nobody replaces
the identity with `--force`.
-/

namespace AgentMsg

open Checked

namespace IdentityFile

open Document

/-- `serde_json::from_str` -/
def parse (text : String) : Option IdentityFile :=
  (decode text).bind shape.read

@[simp]
theorem parse_pretty (file : IdentityFile) : parse file.pretty = some file := by
  rw [parse, pretty, decode_encode, Option.bind_some]
  exact shape.reads file ⟨⟨trivial, trivial⟩, rfl⟩

end IdentityFile

/-! ## Key derivation -/

/-- Domain-separated SHA-256 of a seed. -/
def kdf (P : Platform) (domain : String) (seed : Bytes) : Bytes :=
  P.sha256 (asBytes domain ++ seed)

/-- The decapsulation key and the encapsulation key of a seed. -/
def deriveFromSeed (P : Platform) (generateDeterministic : Bytes → Bytes → Bytes × Bytes)
    (seed : Bytes) : Bytes × Bytes :=
  generateDeterministic (kdf P "agentmsg-kem-d-v1" seed) (kdf P "agentmsg-kem-z-v1" seed)

/-- The libraries that generate keys: the public key of a signing seed, and the key pair of two
random inputs. -/
structure KeyGen where
  publicKeyOf : Bytes → Bytes
  generateDeterministic : Bytes → Bytes → Bytes × Bytes

/-- What is signed with a seed verifies, and what is encapsulated to a key is recovered. -/
structure KeyGen.Sound (P : Platform) (keys : KeyGen) : Prop where
  signs : ∀ seed, seed.length = SEED_LEN → ∀ message,
    cryptoVerify P (keys.publicKeyOf seed) message (P.mlDsaSign seed message) = true
  decapsulates : ∀ d z randomness kemCt ss,
    P.kemEncapsulate (keys.generateDeterministic d z).2 randomness = some (kemCt, ss) →
      P.kemDecapsulate (keys.generateDeterministic d z).1 kemCt = some ss

namespace Identity

section Loading

variable (P : Platform) (keys : KeyGen) (syntaxError : String → String)

/-- The identity of a name and a seed. -/
def ofSeed (name : String) (seed : Bytes) : Identity :=
  { name, seed, publicKey := keys.publicKeyOf seed,
    kemDk := (deriveFromSeed P keys.generateDeterministic seed).1,
    kemEk := (deriveFromSeed P keys.generateDeterministic seed).2 }

/-- The identity in the content of a file. -/
def ofContent (content : Bytes) : Except Error Identity :=
  match fromUtf8 content with
  | none => .error (.inputOutput "stream did not contain valid UTF-8")
  | some text =>
      match IdentityFile.parse text with
      | none => .error (.crypto ("identity: " ++ syntaxError text))
      | some file =>
          match unb64 file.seed with
          | none => .error (.crypto "bad seed")
          | some seed =>
              if seed.length = SEED_LEN then .ok (ofSeed P keys file.name seed)
              else .error (.crypto "seed must be 32 bytes")

/-- Load the local identity from its file. -/
def load (readable : Bool) (files : Directory UInt8) : Except Error Identity :=
  match files IDENTITY_PATH with
  | none => .error .noIdentity
  | some content =>
      if readable then ofContent P keys syntaxError content else .error (.inputOutput "")

end Loading

section Loaded

variable {P : Platform} {keys : KeyGen} {syntaxError : String → String} {files : Directory UInt8}
  {me : Identity}

theorem load_of_content {content : Bytes} (there : files IDENTITY_PATH = some content) :
    load P keys syntaxError true files = ofContent P keys syntaxError content := by
  rw [load, there]
  rfl

/-- A loaded identity is computed from a seed of the right length. -/
theorem ofSeed_of_load (loaded : load P keys syntaxError true files = .ok me) :
    ∃ seed, seed.length = SEED_LEN ∧ me = ofSeed P keys me.name seed := by
  cases there : files IDENTITY_PATH with
  | none =>
      rw [load, there] at loaded
      cases loaded
  | some content =>
      rw [load_of_content there, ofContent] at loaded
      split at loaded
      · cases loaded
      · split at loaded
        · cases loaded
        · split at loaded
          · cases loaded
          · split at loaded
            · rename_i sized
              cases loaded
              exact ⟨_, sized, rfl⟩
            · cases loaded

/-- What loads is what the guard of `id generate` finds. -/
theorem loadNameFp_of_load (loaded : load P keys syntaxError true files = .ok me) :
    loadNameFp P IdentityFile.parse keys.publicKeyOf true files =
      some (me.name, fingerprint P me.publicKey) := by
  cases there : files IDENTITY_PATH with
  | none =>
      rw [load, there] at loaded
      cases loaded
  | some content =>
      rw [load_of_content there, ofContent] at loaded
      rw [loadNameFp, there]
      cases text : fromUtf8 content with
      | none =>
          rw [text] at loaded
          cases loaded
      | some text' =>
          rw [text] at loaded
          cases file : IdentityFile.parse text' with
          | none =>
              simp only [file] at loaded
              cases loaded
          | some found =>
              simp only [file] at loaded
              cases seed : unb64 found.seed with
              | none =>
                  simp only [seed] at loaded
                  cases loaded
              | some bytes =>
                  simp only [seed] at loaded
                  split at loaded
                  · rename_i sized
                    cases loaded
                    simp only [file, seed, sized, if_true, Option.bind_eq_bind,
                      Option.bind_some, ofSeed, text]
                  · cases loaded

theorem signs_of_load
    (sound : keys.Sound P) (loaded : load P keys syntaxError true files = .ok me) :
    me.Signs P := by
  obtain ⟨seed, sized, same⟩ := ofSeed_of_load loaded
  intro message
  rw [same]
  exact sound.signs seed sized message

theorem decapsulates_of_load
    (sound : keys.Sound P) (loaded : load P keys syntaxError true files = .ok me) :
    me.Decapsulates P := by
  obtain ⟨seed, _, same⟩ := ofSeed_of_load loaded
  intro randomness kemCt ss encapsulated
  rw [same] at encapsulated ⊢
  exact sound.decapsulates _ _ _ _ _ encapsulated

/-- While an identity loads, commands without `--force` leave the files alone. -/
theorem run_unforced
    (loaded : load P keys syntaxError true files = .ok me) {cmds : List Generate}
    (unforced : ∀ cmd ∈ cmds, cmd.force = false)
    (readable : ∀ cmd ∈ cmds, cmd.ops.readable = true) :
    Machine.run (generateStep P IdentityFile.parse keys.publicKeyOf) files cmds = files := by
  induction cmds with
  | nil =>
      rfl
  | cons cmd cmds inductionHypothesis =>
      have refused : GenerateRefused P IdentityFile.parse keys.publicKeyOf files cmd := by
        refine Or.inr ⟨?_, unforced cmd List.mem_cons_self⟩
        rw [readable cmd List.mem_cons_self, loadNameFp_of_load loaded]
        rfl
      rw [Machine.run_cons, generateStep, idGenerate_refused refused]
      exact inductionHypothesis
        (fun other member => unforced other (List.mem_cons_of_mem cmd member))
        (fun other member => readable other (List.mem_cons_of_mem cmd member))

theorem ofContent_of_parse
    {text name : String} {seed : Bytes}
    (parsed : IdentityFile.parse text = some { name, seed := b64 seed })
    (sized : seed.length = SEED_LEN) :
    ofContent P keys syntaxError (asBytes text) = .ok (ofSeed P keys name seed) := by
  simp only [ofContent, fromUtf8_asBytes, parsed, unb64_b64, sized, if_true]

/-- The content that a command saves loads to the identity of its seed. -/
theorem ofContent_saved (name : String) {seed : Bytes} (sized : seed.length = SEED_LEN) :
    ofContent P keys syntaxError (asBytes (IdentityFile.pretty { name, seed := b64 seed })) =
      .ok (ofSeed P keys name seed) :=
  ofContent_of_parse (IdentityFile.parse_pretty _) sized

end Loaded

end Identity

/-! ## What a token is good for -/

section Tokens

variable (P : Platform) (me : Identity) (informed : TrustStore)

/-- A receiver with the store accepts what the agent signs, sealed to it or not. -/
def AcceptsSigned : Prop :=
  ∀ (receiver : Identity) (draw : Draw) (opts : BuildOpts) (inner : Inner) (wrapper : Wrapper)
    (clock : Clock) (freshnessSecs : Int) (maxPayload : Nat) (allowUnsigned acceptV1 : Bool),
    build P me draw opts = .ok (inner, wrapper) → opts.unsigned = false → opts.grant = none →
    receiver.Decapsulates P → draw.aeadNonce.length = 12 →
    (∀ ek, opts.encryptTo = some ek → ek = receiver.kemEk) →
    inner.body.utf8ByteSize ≤ maxPayload →
    freshEnough P clock.freshness draw.ts freshnessSecs = true →
    verifyIncoming P (P.wrapperJson.encode wrapper) receiver informed clock freshnessSecs
        maxPayload allowUnsigned acceptV1 =
      .ok { inner with body := opts.body, ctype := opts.ctype }

/-- The agent opens what anyone seals to the key that the store has for it. -/
def OpensSealed : Prop :=
  ∀ (peer : Identity) (draw : Draw) (opts : BuildOpts) (inner : Inner) (wrapper : Wrapper)
    (ri : RejectReason → RejectInfo),
    opts.encryptTo = informed.kemPublicKey me.name →
    build P peer draw opts = .ok (inner, wrapper) → draw.aeadNonce.length = 12 →
    decryptBody P me inner ri = .ok { inner with body := opts.body, ctype := opts.ctype }

variable {P me informed}

theorem acceptsSigned_of_publicKey
    (signs : me.Signs P) (opens : P.OpensSealed) (wrapperJson : P.wrapperJson.Lawful)
    (innerJson : P.innerJson.Lawful) (clear : '#' ∉ me.name.toList)
    (trusted : informed.publicKey me.name = .ok me.publicKey) : AcceptsSigned P me informed := by
  intro receiver draw opts inner wrapper clock freshnessSecs maxPayload allowUnsigned acceptV1
    built signed ungranted decapsulates nonce addressed small fresh
  have hears : Hears me opts.unsigned informed allowUnsigned := by
    rw [Hears, signed, if_neg Bool.false_ne_true]
    exact trusted
  have passes := gate_accepts_built signs innerJson clear hears built
  have carried := (grant_built built).trans ungranted
  rw [(build_ok built).1, verifyIncoming_wrapped wrapperJson passes,
    finalize_eq_checkGrant decapsulates opens nonce addressed built small fresh]
  rw [checkGrant, carried]
  rfl

theorem opensSealed_of_kemPublicKey
    (decapsulates : me.Decapsulates P) (opens : P.OpensSealed)
    (known : informed.kemPublicKey me.name = some me.kemEk) : OpensSealed P me informed := by
  intro peer draw opts inner wrapper ri sealedTo built nonce
  rw [known] at sealedTo
  obtain ⟨_, ⟨clear, rfl⟩ | ⟨ek, kemCt, ss, key, _, encapsulated, rfl⟩⟩ := build_ok built
  · rw [sealedTo] at clear
    cases clear
  · rw [sealedTo] at key
    cases key
    exact decryptBody_sealedDraft decapsulates opens nonce encapsulated

end Tokens

/-! ## Commands that succeed -/

section Commands

variable {P : Platform} {keys : KeyGen} {syntaxError : String → String} {files : Directory UInt8}
  {cmd : Generate} {printed : Generated}

theorem saved_of_finishGenerate
    (success : (finishGenerate P keys.publicKeyOf cmd files).2 = .ok printed) :
    (finishGenerate P keys.publicKeyOf cmd files).1 IDENTITY_PATH = some (asBytes cmd.text) := by
  rw [finishGenerate] at success ⊢
  cases outcome : saveIdentity cmd files with
  | mk saved result =>
      rw [outcome] at success
      cases result with
      | error e =>
          cases success
      | ok done =>
          dsimp only
          rw [saveIdentity] at outcome
          split at outcome
          · split at outcome
            · rename_i wrote
              split at outcome
              · cases outcome
                rw [Directory.write_ok wrote, Directory.put_same]
              · cases outcome
            · cases outcome
          · cases outcome

theorem saved_of_idGenerate
    (success : (idGenerate P IdentityFile.parse keys.publicKeyOf cmd files).2 = .ok printed) :
    (idGenerate P IdentityFile.parse keys.publicKeyOf cmd files).1 IDENTITY_PATH =
      some (asBytes cmd.text) := by
  rw [idGenerate] at success ⊢
  cases checked : validateName cmd.name with
  | error e =>
      simp only [checked] at success
      cases success
  | ok _ =>
      simp only [checked] at success ⊢
      cases found : loadNameFp P IdentityFile.parse keys.publicKeyOf cmd.ops.readable files with
      | none =>
          simp only [found] at success ⊢
          exact saved_of_finishGenerate success
      | some existing =>
          simp only [found] at success ⊢
          split at success
          · rename_i forced
            rw [if_pos forced]
            cases backup : backupExisting P IdentityFile.parse keys.publicKeyOf cmd.ops files with
            | mk backed result =>
                rw [backup] at success
                cases result with
                | error e =>
                    cases success
                | ok fp =>
                    exact saved_of_finishGenerate success
          · split at success <;> cases success

/-- A command that succeeds leaves the identity of its seed. -/
theorem load_generated
    (sized : cmd.seed.length = SEED_LEN)
    (success : (idGenerate P IdentityFile.parse keys.publicKeyOf cmd files).2 = .ok printed) :
    Identity.load P keys syntaxError true
        (idGenerate P IdentityFile.parse keys.publicKeyOf cmd files).1 =
      .ok (Identity.ofSeed P keys cmd.name cmd.seed) := by
  rw [Identity.load_of_content (saved_of_idGenerate success)]
  exact Identity.ofContent_saved cmd.name sized

end Commands

/-! ## From the file to the peers -/

/-- An identity that can be loaded stays as it is under commands without `--force`, and every peer
that adds its token accepts what it signs and seals what it can open.  A command that succeeds
leaves the identity of its seed. -/
theorem identity_serves_token
    (P : Platform) (keys : KeyGen) (syntaxError : String → String) (sound : keys.Sound P)
    (opens : P.OpensSealed) (wrapperJson : P.wrapperJson.Lawful) (innerJson : P.innerJson.Lawful)
    (tokenJson : P.tokenV2Json.Lawful) (files : Directory UInt8) (me : Identity)
    (loaded : Identity.load P keys syntaxError true files = .ok me)
    (valid : validateName me.name = .ok ()) (cmds : List Generate)
    (unforced : ∀ cmd ∈ cmds, cmd.force = false)
    (readable : ∀ cmd ∈ cmds, cmd.ops.readable = true) :
    Identity.load P keys syntaxError true
        (Machine.run (generateStep P IdentityFile.parse keys.publicKeyOf) files cmds) = .ok me ∧
      (∀ (trust : TrustStore) (lead tail : String), Blank lead → Blank tail →
        ∃ informed, trust.importToken P (lead ++ me.token.encode P ++ tail) = .ok informed ∧
          AcceptsSigned P me informed ∧ OpensSealed P me informed) ∧
      ∀ cmd printed, cmd.seed.length = SEED_LEN →
        (idGenerate P IdentityFile.parse keys.publicKeyOf cmd files).2 = .ok printed →
        Identity.load P keys syntaxError true
            (idGenerate P IdentityFile.parse keys.publicKeyOf cmd files).1 =
          .ok (Identity.ofSeed P keys cmd.name cmd.seed) := by
  have signs := Identity.signs_of_load sound loaded
  have decapsulates : me.Decapsulates P := Identity.decapsulates_of_load sound loaded
  obtain ⟨named, clear⟩ := validateName_ok valid
  refine ⟨?_, fun trust lead tail leadBlank tailBlank => ?_, fun cmd printed => load_generated⟩
  · rw [Identity.run_unforced loaded unforced readable]
    exact loaded
  · have decoded := @IdentityToken.decode_surrounded P lead tail me.token tokenJson named
      signs.length_publicKey leadBlank tailBlank
    refine ⟨trust.addFromToken me.token, by rw [TrustStore.importToken, decoded]; rfl, ?_, ?_⟩
    · apply acceptsSigned_of_publicKey signs opens wrapperJson innerJson clear
      rw [TrustStore.publicKey_eq_ok_iff, TrustStore.addFromToken,
        TrustStore.currentKey_addWithKem]
      exact if_pos rfl
    · apply opensSealed_of_kemPublicKey decapsulates opens
      exact TrustStore.kemPublicKey_addWithKem trust me.name me.publicKey me.kemEk

/-! ## An identity of an earlier version -/

/-- Key pairs of the reference platform. -/
def referenceKeys : KeyGen where
  publicKeyOf := mintKey
  generateDeterministic d _ :=
    (List.replicate 2400 (d.headD 0), List.replicate Reference.KEM_PK_LEN (d.headD 0))

theorem referenceKeys_sound : referenceKeys.Sound (Reference.platform {}) where
  signs seed _ message := by
    have key : (mintKey seed).headD 0 = seed.headD 0 := rfl
    have sized : ∀ publicKey, (Reference.signature publicKey message).length = SIGNATURE_LEN :=
      fun _ => List.length_replicate
    have same : Reference.signature seed message = Reference.signature (mintKey seed) message := by
      rw [Reference.signature, Reference.signature, key]
    have length : (mintKey seed).length = PUBLIC_KEY_LEN := List.length_replicate
    simp only [cryptoVerify, referenceKeys, Reference.platform, length, sized, same,
      beq_self_eq_true, decide_true, Bool.and_self]
  decapsulates d z randomness kemCt ss encapsulated := by
    have ek : (List.replicate Reference.KEM_PK_LEN (d.headD 0)).headD 0 = d.headD 0 := rfl
    have dk : (List.replicate 2400 (d.headD 0)).headD 0 = d.headD 0 := rfl
    have cipher : (List.replicate Reference.KEM_CT_LEN (Reference.digest randomness)).headD 0 =
        Reference.digest randomness := rfl
    simp only [referenceKeys, Reference.platform, List.length_replicate, if_true, ek,
      Option.some.injEq, Prod.mk.injEq] at encapsulated
    obtain ⟨rfl, rfl⟩ := encapsulated
    simp only [referenceKeys, Reference.platform, List.length_replicate, if_true, dk, cipher]

/-- The file of an identity that also has the seed of another key. -/
def legacyText : String :=
  Document.encode .compact (.object [("name", .text "alice"),
    ("seed", .text (b64 (List.replicate 32 1))), ("kem_seed", .text "AAAA")])

theorem parse_legacyText :
    IdentityFile.parse legacyText =
      some { name := "alice", seed := b64 (List.replicate 32 1) } := by
  generalize written : b64 (List.replicate 32 1) = seed
  rw [IdentityFile.parse, legacyText, written, Document.decode_encode, Option.bind_some]
  rfl

def legacyFiles : Directory UInt8 :=
  Directory.put (fun _ => none) IDENTITY_PATH (asBytes legacyText)

def legacyAlice : Identity :=
  Identity.ofSeed (Reference.platform {}) referenceKeys "alice" (List.replicate 32 1)

theorem load_legacyFiles :
    Identity.load (Reference.platform {}) referenceKeys (fun _ => "") true legacyFiles =
      .ok legacyAlice := by
  have there : legacyFiles IDENTITY_PATH = some (asBytes legacyText) := by
    rw [legacyFiles, Directory.put_same]
  exact (Identity.load_of_content there).trans
    (Identity.ofContent_of_parse parse_legacyText List.length_replicate)

/-- Peers that add the token of the old file accept what alice signs. -/
theorem identity_serves_token_legacy :
    Identity.load (Reference.platform {}) referenceKeys (fun _ => "") true
        (Machine.run (generateStep (Reference.platform {}) IdentityFile.parse mintKey) legacyFiles
          [{ name := "bob", seed := List.replicate 32 2 }]) = .ok legacyAlice ∧
      ∃ informed, TrustStore.importToken (Reference.platform {}) {}
          ("" ++ legacyAlice.token.encode (Reference.platform {}) ++ "") = .ok informed ∧
        AcceptsSigned (Reference.platform {}) legacyAlice informed ∧
        OpensSealed (Reference.platform {}) legacyAlice informed := by
  have served := identity_serves_token (Reference.platform {}) referenceKeys (fun _ => "")
    referenceKeys_sound (Reference.opensSealed {}) (Reference.wrapperJson_lawful {})
    (Reference.innerJson_lawful {}) (Reference.tokenV2Json_lawful {}) legacyFiles legacyAlice
    load_legacyFiles (by decide) [{ name := "bob", seed := List.replicate 32 2 }] (by decide)
    (by decide)
  exact ⟨served.1, served.2.1 {} "" "" blank_empty blank_empty⟩

end AgentMsg
