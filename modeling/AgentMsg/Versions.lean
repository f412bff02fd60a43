import AgentMsg.RoundTrip

/-!
# The version of a message

A payload carries its protocol version twice: in the wrapper, where the version gate reads
it, and in the inner message, where the signature covers it.  Nothing compares the two,
and nothing after the gate looks at either.
-/

namespace AgentMsg

open Checked

section Verification

variable {P : Platform} {raw : Bytes} {me : Identity} {trust : TrustStore} {clock : Clock}
  {freshnessSecs : Int} {maxPayload : Nat} {allowUnsigned acceptV1 : Bool} {out : Inner}
  {wrapper : Wrapper} {carried : Inner}

/-! ## The course of an accepted payload -/

theorem SignedBy.peek
    {innerBytes publicKey : Bytes}
    (signed : SignedBy P trust wrapper innerBytes carried publicKey) :
    wrapper.peek P = .ok carried := by
  simp only [Wrapper.peek, Wrapper.innerBytes, Wrapper.parseInner, bind_eq_ok, okOr_eq_ok]
  exact ⟨innerBytes, signed.decoded, signed.parsed⟩

/-- The gates hand on the message that the wrapper carries. -/
theorem peek_of_algorithmGate
    (passes : algorithmGate P wrapper trust allowUnsigned = .ok carried) :
    wrapper.peek P = .ok carried := by
  unfold algorithmGate at passes
  split at passes
  · exact (unsignedPath_ok passes).2.1
  · split at passes
    · rename_i signed
      obtain ⟨_, _, by_⟩ := signedPath_ok signed passes
      exact by_.peek
    · cases passes

/-- An accepted payload passes one gate after the other. -/
theorem verifyIncoming_course
    (parsed : P.wrapperJson.decode raw = some wrapper) (peeked : wrapper.peek P = .ok carried)
    (accepted :
      verifyIncoming P raw me trust clock freshnessSecs maxPayload allowUnsigned acceptV1 =
        .ok out) :
    versionGate wrapper acceptV1 = .ok () ∧
      algorithmGate P wrapper trust allowUnsigned = .ok carried ∧
      finalize P carried me trust clock freshnessSecs maxPayload wrapper.rejectInfo = .ok out := by
  simp only [verifyIncoming, bind_eq_ok, mapErr_eq_ok, Wrapper.fromBytes, okOr_eq_ok]
    at accepted
  obtain ⟨found, foundParsed, _, version, inner, path, rest⟩ := accepted
  rw [parsed] at foundParsed
  cases foundParsed
  have same := peek_of_algorithmGate path
  rw [peeked] at same
  cases same
  exact ⟨version, path, rest⟩

/-- The version gate lets the current version through, and the first one if it is asked
to. -/
theorem versionGate_eq_ok_iff :
    versionGate wrapper acceptV1 = .ok () ↔
      (wrapper.v = 1 ∧ acceptV1 = true) ∨ wrapper.v = PROTOCOL_VERSION := by
  have different : PROTOCOL_VERSION ≠ 1 := by decide
  unfold versionGate
  by_cases first : wrapper.v = 1
  · rw [if_pos first, ensure_eq_ok]
    constructor
    · exact fun accepts => Or.inl ⟨first, accepts⟩
    · rintro (⟨_, accepts⟩ | current)
      · exact accepts
      · exact absurd (current.symm.trans first) different
  · rw [if_neg first, ensure_eq_ok]
    exact ⟨Or.inr, fun either => either.resolve_left fun both => first both.1⟩

/-! ## The version that is checked and the version that is signed -/

/-- The verdict on the version binds the message: it has the version of its wrapper, the
first one only where that is accepted, and none above the current one. -/
structure VersionBound (wrapper : Wrapper) (acceptV1 : Bool) (out : Inner) : Prop where
  same : out.v = wrapper.v
  first : acceptV1 = false → out.v ≠ 1
  current : out.v ≤ PROTOCOL_VERSION

/-- A wrapper as its sender publishes it, with the version of the message inside. -/
structure Wrapper.Mirrors (P : Platform) (sent : Wrapper) (signed : Inner) : Prop where
  peeked : sent.peek P = .ok signed
  version : sent.v = signed.v

theorem peek_wrapped
    {identity : Identity} (lawful : P.innerJson.Lawful) (unsigned : Bool) (inner : Inner) :
    (wrapped P identity unsigned (P.innerJson.encode inner)).peek P = .ok inner := by
  have message : (wrapped P identity unsigned (P.innerJson.encode inner)).msg =
      b64 (P.innerJson.encode inner) := by
    unfold wrapped
    split <;> rfl
  simp only [Wrapper.peek, Wrapper.innerBytes, Wrapper.parseInner, bind_eq_ok,
    okOr_eq_ok, message]
  exact ⟨_, unb64_b64 _, lawful inner⟩

/-- What is built mirrors the version. -/
theorem mirrors_of_build
    {identity : Identity} {draw : Draw} {opts : BuildOpts} {inner : Inner}
    (lawful : P.innerJson.Lawful) (built : build P identity draw opts = .ok (inner, wrapper)) :
    wrapper.Mirrors P inner := by
  obtain ⟨rfl, form⟩ := build_ok built
  have version : (wrapped P identity opts.unsigned (P.innerJson.encode inner)).v =
      PROTOCOL_VERSION := by
    unfold wrapped
    split <;> rfl
  refine ⟨peek_wrapped lawful opts.unsigned inner, ?_⟩
  rw [version]
  rcases form with ⟨_, rfl⟩ | ⟨_, _, _, _, _, _, rfl⟩ <;> rfl

theorem peek_eq_of_msg
    {received sent : Wrapper} (carries : received.msg = sent.msg) :
    received.peek P = sent.peek P := by
  rw [Wrapper.peek, Wrapper.peek, Wrapper.innerBytes, Wrapper.innerBytes, carries]

theorem version_of_finalize
    {ri : RejectReason → RejectInfo}
    (finalized : finalize P carried me trust clock freshnessSecs maxPayload ri = .ok out) :
    out.v = carried.v := by
  rw [(finalize_ok finalized).same]

end Verification

/-- However the fields around the inner bytes were rewritten on the way, the version gate
binds an accepted message exactly when the version in the wrapper was left as the sender
published it. -/
theorem versionBound_iff
    {P : Platform} {raw : Bytes} {me : Identity} {trust : TrustStore} {clock : Clock}
    {freshnessSecs : Int} {maxPayload : Nat} {allowUnsigned acceptV1 : Bool} {out signed : Inner}
    {sent received : Wrapper} (published : sent.Mirrors P signed)
    (parsed : P.wrapperJson.decode raw = some received) (carries : received.msg = sent.msg)
    (accepted :
      verifyIncoming P raw me trust clock freshnessSecs maxPayload allowUnsigned acceptV1 =
        .ok out) :
    VersionBound received acceptV1 out ↔ received.v = sent.v := by
  have peeked := (peek_eq_of_msg carries).trans published.peeked
  obtain ⟨version, _, finalized⟩ := verifyIncoming_course parsed peeked accepted
  have signedVersion : out.v = sent.v :=
    (version_of_finalize finalized).trans published.version.symm
  constructor
  · intro bound
    rw [← bound.same, signedVersion]
  · intro unchanged
    have same : out.v = received.v := signedVersion.trans unchanged.symm
    refine ⟨same, fun refuses first => ?_, ?_⟩
    · rcases versionGate_eq_ok_iff.mp version with ⟨_, accepts⟩ | current
      · rw [refuses] at accepts
        cases accepts
      · have two : (1 : UInt8) = PROTOCOL_VERSION := (first.symm.trans same).trans current
        exact absurd two (by decide)
    · rcases versionGate_eq_ok_iff.mp version with ⟨one, _⟩ | current
      · rw [same, one]
        decide
      · rw [same, current]
        exact UInt8.le_refl _

/-! ## A relabelled message -/

namespace Reference

/-- A text of alice to bob in a version of the protocol. -/
def versioned (version : UInt8) : Inner :=
  { draft alice draw { recipient := "bob", ctype := CTYPE_TEXT, body := "hi" } with v := version }

/-- The message, signed by alice, in a wrapper of the current version. -/
def relabelled (version : UInt8) : Wrapper :=
  wrapped (platform {}) alice false ((platform {}).innerJson.encode (versioned version))

/-- The wrapper as alice published it. -/
def original (version : UInt8) : Wrapper :=
  { relabelled version with v := version }

theorem original_mirrors (version : UInt8) :
    (original version).Mirrors (platform {}) (versioned version) := by
  refine ⟨?_, rfl⟩
  simp only [Wrapper.peek, Wrapper.innerBytes, Wrapper.parseInner, bind_eq_ok, okOr_eq_ok]
  exact ⟨_, unb64_b64 _, innerJson_lawful {} _⟩

theorem relabelled_passes (version : UInt8) :
    algorithmGate (platform {}) (relabelled version) (TrustStore.addFromToken {} alice.token)
      false = .ok (versioned version) := by
  have trusted : (TrustStore.addFromToken {} alice.token).publicKey alice.name =
      .ok alice.publicKey := by
    rw [TrustStore.publicKey_eq_ok_iff, TrustStore.addFromToken, TrustStore.currentKey_addWithKem]
    exact if_pos rfl
  exact gate_accepts_signed (signs {} "alice" 1) (innerJson_lawful {}) (by decide) rfl trusted
    false

theorem finalize_versioned
    (version : UInt8) (trust : TrustStore) (ri : RejectReason → RejectInfo) :
    finalize (platform {}) (versioned version) bob trust clock 300 262144 ri =
      .ok (versioned version) := by
  have small : (versioned version).body.utf8ByteSize ≤ 262144 := by
    show "hi".utf8ByteSize ≤ 262144
    decide
  exact finalize_accepts small (fresh_newYear {}) rfl nofun

theorem relabelled_accepted (version : UInt8) (acceptV1 : Bool) :
    verifyIncoming (platform {}) ((platform {}).wrapperJson.encode (relabelled version)) bob
        (TrustStore.addFromToken {} alice.token) clock 300 262144 false acceptV1 =
      .ok (versioned version) :=
  (verifyIncoming_wrapped (wrapperJson_lawful {}) (relabelled_passes version)).trans
    (finalize_versioned version _ _)

end Reference

theorem versionBound_iff_current :
    VersionBound (Reference.relabelled 2) false (Reference.versioned 2) :=
  (versionBound_iff (Reference.original_mirrors 2) (Reference.wrapperJson_lawful {} _) rfl
    (Reference.relabelled_accepted 2 false)).mpr rfl

/-- A message of the first version is accepted under the number of the current one. -/
theorem relabelled_version_accepted :
    ¬ ∀ raw wrapper trust clock freshnessSecs maxPayload allowUnsigned acceptV1 out,
      (Reference.platform {}).wrapperJson.decode raw = some wrapper →
      verifyIncoming (Reference.platform {}) raw Reference.bob trust clock freshnessSecs maxPayload
        allowUnsigned acceptV1 = .ok out → VersionBound wrapper acceptV1 out := by
  intro bound
  have bound := bound _ _ _ _ _ _ _ _ _ (Reference.wrapperJson_lawful {} _)
    (Reference.relabelled_accepted 1 false)
  exact bound.first rfl rfl

/-! ## The first version -/

/-- An accepted message took the signed path as it was before encryption and grants: it is
what was signed under the key of its sender, and carries neither. -/
structure LegacySigned (P : Platform) (trust : TrustStore) (wrapper : Wrapper) (out : Inner) :
    Prop where
  alg : wrapper.alg = ALG_ML_DSA_65
  signed : ∃ innerBytes publicKey sig, wrapper.innerBytes = .ok innerBytes ∧
    wrapper.sigBytes = .ok sig ∧ trust.publicKey out.sender = .ok publicKey ∧
    cryptoVerify P publicKey innerBytes sig = true ∧ Wrapper.parseInner P innerBytes = .ok out
  clear : out.enc = none
  bare : out.grant = none

/-- A message accepted under the first version took the legacy path. -/
def LegacyOnly (P : Platform) (trust : TrustStore) (wrapper : Wrapper) (out : Inner) : Prop :=
  wrapper.v = 1 → LegacySigned P trust wrapper out

section Legacy

variable {P : Platform} {raw : Bytes} {me : Identity} {trust : TrustStore} {clock : Clock}
  {freshnessSecs : Int} {maxPayload : Nat} {allowUnsigned acceptV1 : Bool} {out : Inner}
  {wrapper : Wrapper} {carried : Inner}

theorem signedPath_signature
    (accepted : signedPath P wrapper trust = .ok carried) :
    ∃ innerBytes publicKey sig, wrapper.innerBytes = .ok innerBytes ∧
      wrapper.sigBytes = .ok sig ∧ trust.publicKey carried.sender = .ok publicKey ∧
      cryptoVerify P publicKey innerBytes sig = true ∧
      Wrapper.parseInner P innerBytes = .ok carried := by
  simp only [signedPath, bind_eq_ok, okOr_eq_ok, mapErr_eq_ok, ensure_eq_ok, pure_eq_ok]
    at accepted
  obtain ⟨_, _, ⟨name, _⟩, _, publicKey, trusted, _, _, bytes, decoded, sig, signature, _,
    verified, parsed, parse, _, sender, rfl⟩ := accepted
  exact ⟨bytes, publicKey, sig, decoded, signature, by rw [sender]; exact trusted, verified,
    parse⟩

/-- A message that is neither encrypted nor granted is handed on unchanged. -/
theorem legacySigned_of_features
    (parsed : P.wrapperJson.decode raw = some wrapper) (peeked : wrapper.peek P = .ok carried)
    (accepted :
      verifyIncoming P raw me trust clock freshnessSecs maxPayload allowUnsigned acceptV1 =
        .ok out)
    (signed : wrapper.alg ≠ ALG_NONE) (clear : carried.enc = none)
    (bare : carried.grant = none) : LegacySigned P trust wrapper out := by
  obtain ⟨_, path, finalized⟩ := verifyIncoming_course parsed peeked accepted
  have same : out = carried := (finalize_ok finalized).clear clear
  subst same
  rw [algorithmGate, if_neg signed] at path
  by_cases alg : wrapper.alg = ALG_ML_DSA_65
  · rw [if_pos alg] at path
    exact ⟨alg, signedPath_signature path, clear, bare⟩
  · rw [if_neg alg] at path
    cases path

end Legacy

/-- A message accepted under the first version took the legacy path exactly when its
wrapper does not say that it is unsigned and it carries neither encryption metadata nor a
grant. -/
theorem legacyOnly_iff
    {P : Platform} {raw : Bytes} {me : Identity} {trust : TrustStore} {clock : Clock}
    {freshnessSecs : Int} {maxPayload : Nat} {allowUnsigned acceptV1 : Bool}
    {out carried : Inner} {wrapper : Wrapper}
    (parsed : P.wrapperJson.decode raw = some wrapper) (peeked : wrapper.peek P = .ok carried)
    (accepted :
      verifyIncoming P raw me trust clock freshnessSecs maxPayload allowUnsigned acceptV1 =
        .ok out) :
    LegacyOnly P trust wrapper out ↔
      (wrapper.v = 1 →
        wrapper.alg ≠ ALG_NONE ∧ carried.enc = none ∧ carried.grant = none) := by
  constructor
  · intro legacy first
    obtain ⟨alg, ⟨innerBytes, _, _, bytes, _, _, _, parse⟩, clear, bare⟩ := legacy first
    have same : wrapper.peek P = .ok out := by
      simp only [Wrapper.peek, bind_eq_ok]
      exact ⟨innerBytes, bytes, parse⟩
    rw [peeked] at same
    cases same
    refine ⟨?_, clear, bare⟩
    rw [alg]
    decide
  · intro features first
    obtain ⟨signed, clear, bare⟩ := features first
    exact legacySigned_of_features parsed peeked accepted signed clear bare

namespace Reference

/-- A text of alice in the first version, unsigned. -/
def unsignedFirst : Wrapper :=
  { v := 1, alg := ALG_NONE, msg := b64 ((platform {}).innerJson.encode (versioned 1)) }

theorem wrapper_first_accepted
    {wrapper : Wrapper} {trust : TrustStore} {allowUnsigned : Bool} (first : wrapper.v = 1)
    (passes : algorithmGate (platform {}) wrapper trust allowUnsigned = .ok (versioned 1)) :
    verifyIncoming (platform {}) ((platform {}).wrapperJson.encode wrapper) bob trust clock 300
        262144 allowUnsigned true =
      .ok (versioned 1) := by
  simp only [verifyIncoming, bind_eq_ok, mapErr_eq_ok, Wrapper.fromBytes, okOr_eq_ok]
  exact ⟨wrapper, wrapperJson_lawful {} _, (), versionGate_eq_ok_iff.mpr (Or.inl ⟨first, rfl⟩),
    versioned 1, passes, finalize_versioned 1 _ _⟩

theorem unsignedFirst_accepted :
    verifyIncoming (platform {}) ((platform {}).wrapperJson.encode unsignedFirst) bob {} clock 300
        262144 true true =
      .ok (versioned 1) :=
  wrapper_first_accepted rfl (@gate_accepts_unsigned _ alice _ _ (innerJson_lawful {}) rfl)

theorem original_first_accepted :
    verifyIncoming (platform {}) ((platform {}).wrapperJson.encode (original 1)) bob
        (TrustStore.addFromToken {} alice.token) clock 300 262144 false true =
      .ok (versioned 1) :=
  wrapper_first_accepted rfl (relabelled_passes 1)

end Reference

theorem legacyOnly_iff_original :
    LegacyOnly (Reference.platform {}) (TrustStore.addFromToken {} Reference.alice.token)
      (Reference.original 1) (Reference.versioned 1) :=
  (legacyOnly_iff (Reference.wrapperJson_lawful {} _) (Reference.original_mirrors 1).peeked
    Reference.original_first_accepted).mpr fun _ => ⟨by decide, rfl, rfl⟩

/-- An unsigned message is accepted under the first version. -/
theorem unsigned_first_version_accepted :
    ¬ ∀ raw wrapper trust clock freshnessSecs maxPayload allowUnsigned acceptV1 out,
      (Reference.platform {}).wrapperJson.decode raw = some wrapper →
      verifyIncoming (Reference.platform {}) raw Reference.bob trust clock freshnessSecs maxPayload
        allowUnsigned acceptV1 = .ok out →
      LegacyOnly (Reference.platform {}) trust wrapper out := by
  intro legacy
  have legacy := legacy _ _ _ _ _ _ _ _ _ (Reference.wrapperJson_lawful {} _)
    Reference.unsignedFirst_accepted rfl
  exact absurd legacy.alg (by decide)

end AgentMsg
