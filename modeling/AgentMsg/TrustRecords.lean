import AgentMsg.RoundTrip
import AgentMsg.TrustEdits

/-!
# The records of the trust store

Agents enter the trust store by tokens of two versions and by pairing hellos, all of them
written by somebody else.  The decoders check the length of the signing key; whether the
name can stand in a key id and whether the encapsulation key has its length is left to
the one who wrote the token or the hello.
-/

namespace AgentMsg

open Checked

/-! ## Well-formed records -/

/-- The name can stand in a key id, and the keys decode to their lengths. -/
structure KnownAgentRecord.WellFormed (P : Platform) (name : String) (record : KnownAgentRecord) :
    Prop where
  named : validateName name = .ok ()
  key : ∃ key, unb64 record.pk = some key ∧ key.length = PUBLIC_KEY_LEN ∧
    splitKid (makeKid P name key) = some (name, fingerprint P key)
  kem : ∀ text, record.kemPk = some text →
    ∃ key, unb64 text = some key ∧ key.length = KEM_PK_LEN

def TrustStore.WellFormed (P : Platform) (trust : TrustStore) : Prop :=
  ∀ (name : String) (record : KnownAgentRecord), trust.agents[name]? = some record →
    record.WellFormed P name

/-- What an imported agent brings along: a name for key ids and an encapsulation key of
the right length, if any. -/
structure Presentable (name : String) (kemPublicKey : Option Bytes) : Prop where
  named : validateName name = .ok ()
  kem : ∀ key, kemPublicKey = some key → key.length = KEM_PK_LEN

/-- The record that is stored for an imported agent. -/
def importedRecord (publicKey : Bytes) (kemPublicKey : Option Bytes) : KnownAgentRecord :=
  { pk := b64 publicKey, kemPk := kemPublicKey.map b64 }

/-- A record with a signing key of the right length is well formed exactly when the agent
is presentable. -/
theorem importedRecord_wellFormed_iff
    {P : Platform} {name : String} {publicKey : Bytes} {kemPublicKey : Option Bytes}
    (sized : publicKey.length = PUBLIC_KEY_LEN) :
    (importedRecord publicKey kemPublicKey).WellFormed P name ↔
      Presentable name kemPublicKey := by
  constructor
  · intro formed
    refine ⟨formed.named, fun key carried => ?_⟩
    obtain ⟨decoded, decodes, length⟩ := formed.kem (b64 key) (by
      rw [importedRecord, carried]
      rfl)
    rw [unb64_b64] at decodes
    cases decodes
    exact length
  · intro presentable
    refine ⟨presentable.named, ⟨publicKey, unb64_b64 publicKey, sized, ?_⟩, ?_⟩
    · exact splitKid_makeKid P publicKey (validateName_ok presentable.named).2
    · intro text carried
      obtain ⟨key, given, rfl⟩ := Option.map_eq_some_iff.mp carried
      exact ⟨key, unb64_b64 key, presentable.kem key given⟩

/-! ## What the decoders check -/

theorem decodeV1_ok
    {P : Platform} {rest : String} {token : IdentityToken}
    (decoded : IdentityToken.decodeV1 P rest = .ok token) :
    token.publicKey.length = PUBLIC_KEY_LEN := by
  simp only [IdentityToken.decodeV1, bind_eq_ok, okOr_eq_ok, ensure_eq_ok, checkPkLen,
    pure_eq_ok] at decoded
  obtain ⟨_, _, _, _, _, _, _, _, _, sized, rfl⟩ := decoded
  exact sized

theorem decodeV2_ok
    {P : Platform} {rest : String} {token : IdentityToken}
    (decoded : IdentityToken.decodeV2 P rest = .ok token) :
    token.publicKey.length = PUBLIC_KEY_LEN := by
  simp only [IdentityToken.decodeV2, bind_eq_ok, okOr_eq_ok, ensure_eq_ok, checkPkLen]
    at decoded
  obtain ⟨_, _, body, _, _, _, _, _, _, sized, rest⟩ := decoded
  cases kem : body.kemPk with
  | none =>
      rw [kem, pure_eq_ok] at rest
      subst rest
      exact sized
  | some text =>
      simp only [kem, bind_eq_ok, okOr_eq_ok, pure_eq_ok] at rest
      obtain ⟨_, _, rfl⟩ := rest
      exact sized

/-- Tokens of both versions carry a signing key of the right length. -/
theorem decode_ok
    {P : Platform} {text : String} {token : IdentityToken}
    (decoded : IdentityToken.decode P text = .ok token) :
    token.publicKey.length = PUBLIC_KEY_LEN := by
  unfold IdentityToken.decode at decoded
  split at decoded
  · exact decodeV2_ok decoded
  · split at decoded
    · exact decodeV1_ok decoded
    · cases decoded

/-- So does a verified hello. -/
theorem verifyPair_ok
    {P : Platform} {raw : Bytes} {hello : PairHello} (verified : verifyPair P raw = .ok hello) :
    hello.publicKey.length = PUBLIC_KEY_LEN := by
  simp only [verifyPair, bind_eq_ok, okOr_eq_ok, ensure_eq_ok, pure_eq_ok] at verified
  obtain ⟨_, _, _, _, _, _, _, _, _, _, _, _, publicKey, _, sig, _, _, signed, _, _, _, _, _, _,
    _, _, _, _, rfl⟩ := verified
  simp only [cryptoVerify, Bool.and_eq_true, decide_eq_true_eq] at signed
  exact signed.1.1

/-! ## Sequences of edits -/

/-- The edits of agents: of a token that decodes, of a pending pairing that a verified
hello left, and of a name to remove. -/
inductive AgentEdit (P : Platform) : Edit → Prop
  | add (text : String) (token : IdentityToken) (rotate : Bool)
      (decoded : IdentityToken.decode P text = .ok token) :
      AgentEdit P (.agentAdd token rotate)
  | confirm (raw : Bytes) (entry : PendingPair)
      (verified : verifyPair P raw =
        .ok { name := entry.name, publicKey := entry.publicKey,
              kemPublicKey := entry.kemPublicKey }) :
      AgentEdit P (.pairConfirm entry)
  | remove (name : String) : AgentEdit P (.agentRemove name)

/-- The pending pairings are those of verified hellos. -/
theorem agentEdit_of_intercept
    {P : Platform} {identity : Identity} {payload : Bytes} {entry : PendingPair}
    (found : intercept P identity payload = .hello entry) : AgentEdit P (.pairConfirm entry) :=
  .confirm payload entry (verified_of_intercept found).1

/-- What an edit imports is presentable. -/
def Edit.Presentable : Edit → Prop
  | .agentAdd token _ => AgentMsg.Presentable token.name token.kemPublicKey
  | .pairConfirm entry => AgentMsg.Presentable entry.name entry.kemPublicKey
  | .agentRemove _ | .authorityAdd _ | .authorityRemove _ => True

/-- The trust store after an edit; an edit that fails leaves it as it was. -/
def Edit.apply (P : Platform) (trust : TrustStore) (edit : Edit) : TrustStore :=
  unwrapOr trust (edit.change P trust)

def applyEdits (P : Platform) (trust : TrustStore) (edits : List Edit) : TrustStore :=
  edits.foldl (Edit.apply P) trust

/-- The record that an edit of agents leaves under its name is well formed exactly when
what it imports is presentable. -/
theorem AgentEdit.outcome_wellFormed_iff
    {P : Platform} {edit : Edit} {name : String} (agent : AgentEdit P edit)
    (target : edit.target = .agent name) :
    (∀ record, edit.outcome = some record → record.WellFormed P name) ↔ edit.Presentable := by
  have imported {publicKey : Bytes} {kemPublicKey : Option Bytes}
      (sized : publicKey.length = PUBLIC_KEY_LEN) :
      (∀ record, some (importedRecord publicKey kemPublicKey) = some record →
        record.WellFormed P name) ↔ AgentMsg.Presentable name kemPublicKey := by
    rw [← importedRecord_wellFormed_iff sized]
    exact ⟨fun formed => formed _ rfl, fun formed record same => Option.some.inj same ▸ formed⟩
  cases agent with
  | add text token rotate decoded =>
      cases target
      exact imported (decode_ok decoded)
  | confirm raw entry verified =>
      cases target
      exact imported (verifyPair_ok verified)
  | remove other =>
      exact ⟨fun _ => trivial, nofun⟩

theorem AgentEdit.target_agent
    {P : Platform} {edit : Edit} (agent : AgentEdit P edit) :
    ∃ name, edit.target = .agent name := by
  cases agent with
  | add text token rotate decoded =>
      exact ⟨token.name, rfl⟩
  | confirm raw entry verified =>
      exact ⟨entry.name, rfl⟩
  | remove name =>
      exact ⟨name, rfl⟩

/-- An edit keeps the store well formed when what it imports is presentable. -/
theorem AgentEdit.wellFormed_apply
    {P : Platform} {trust : TrustStore} {edit : Edit} (agent : AgentEdit P edit)
    (presentable : edit.Presentable) (formed : trust.WellFormed P) :
    (edit.apply P trust).WellFormed P := by
  unfold Edit.apply
  cases applied : edit.change P trust with
  | error e =>
      exact formed
  | ok changed =>
      intro name record found
      have entry := Edit.entry_change applied (.agent name)
      have present : changed.entry (.agent name) = some record := found
      rw [present] at entry
      obtain ⟨target, named⟩ := agent.target_agent
      by_cases same : (.agent name : Target) = edit.target
      · rw [if_pos same] at entry
        exact (agent.outcome_wellFormed_iff same.symm).mpr presentable record entry.symm
      · rw [if_neg same] at entry
        exact formed name record entry.symm

/-- In every sequence of edits from the empty store that import presentable agents, every
record is well formed. -/
theorem agent_records_wellFormed
    (P : Platform) (edits : List Edit) (agents : ∀ edit ∈ edits, AgentEdit P edit)
    (presentable : ∀ edit ∈ edits, edit.Presentable) :
    (applyEdits P {} edits).WellFormed P := by
  have empty : TrustStore.WellFormed P {} := by
    intro name record found
    have absent : ({} : TrustStore).agents[name]? = none := rfl
    rw [absent] at found
    cases found
  have run : ∀ trust : TrustStore,
      trust.WellFormed P → (applyEdits P trust edits).WellFormed P := by
    induction edits with
    | nil =>
        exact fun trust formed => formed
    | cons edit more inductionHypothesis =>
        intro trust formed
        have first := (agents edit List.mem_cons_self).wellFormed_apply
          (presentable edit List.mem_cons_self) formed
        exact inductionHypothesis
          (fun other member => agents other (List.mem_cons_of_mem edit member))
          (fun other member => presentable other (List.mem_cons_of_mem edit member)) _ first
  exact run {} empty

/-! ## A name with a separator -/

/-- A token whose name cannot stand in a key id. -/
def splitToken : IdentityToken :=
  { Reference.mallory.token with name := "mal#lory" }

theorem splitToken_decodes :
    IdentityToken.decode (Reference.platform {})
      (IdentityToken.encode (Reference.platform {}) splitToken) = .ok splitToken :=
  IdentityToken.decode_encode (Reference.tokenV2Json_lawful {}) (by decide)
    (Reference.signs {} "mallory" 3).length_publicKey

theorem bobToken_decodes :
    IdentityToken.decode (Reference.platform {})
      (IdentityToken.encode (Reference.platform {}) Reference.bob.token) =
        .ok Reference.bob.token :=
  IdentityToken.decode_encode (Reference.tokenV2Json_lawful {}) (by decide)
    (Reference.signs {} "bob" 2).length_publicKey

theorem agent_records_wellFormed_bob :
    (applyEdits (Reference.platform {}) {} [.agentAdd Reference.bob.token false]).WellFormed
      (Reference.platform {}) := by
  refine agent_records_wellFormed (Reference.platform {}) [.agentAdd Reference.bob.token false]
    ?_ ?_
  · intro edit member
    rw [List.mem_singleton] at member
    rw [member]
    exact .add _ _ _ bobToken_decodes
  · intro edit member
    rw [List.mem_singleton] at member
    rw [member]
    refine ⟨by decide, fun key carried => ?_⟩
    rw [← Option.some.inj carried]
    exact List.length_replicate

/-- The import of a token takes any name that is not empty. -/
theorem separator_in_stored_name :
    ¬ ∀ edits, (∀ edit ∈ edits, AgentEdit (Reference.platform {}) edit) →
      (applyEdits (Reference.platform {}) {} edits).WellFormed (Reference.platform {}) := by
  intro formed
  have stored := formed [.agentAdd splitToken false] (by
    intro edit member
    rw [List.mem_singleton] at member
    rw [member]
    exact .add _ _ _ splitToken_decodes)
  have record : (applyEdits (Reference.platform {}) {}
      [.agentAdd splitToken false]).agents["mal#lory"]? =
        some (importedRecord Reference.mallory.publicKey (some Reference.mallory.kemEk)) :=
    entry_addWithKem {} "mal#lory" Reference.mallory.publicKey (some Reference.mallory.kemEk)
      (.agent "mal#lory")
  have named := (stored "mal#lory" _ record).named
  exact absurd named (by decide)

end AgentMsg
