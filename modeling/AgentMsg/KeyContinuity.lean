import AgentMsg.Hellos

/-!
# Continuity of signing keys

The operations that edit the trust file, one after the other.  Importing a token
compares its key with the stored one; confirming a pairing does not, and takes the
key of whatever hello was pending under the name.
-/

namespace AgentMsg

/-- What a saved trust file reads back as, and that an empty file does not parse. -/
structure TrustCodec (P : Platform) : Prop where
  readsBack : ∀ trust saved, P.trustJson.decode (P.trustJson.encode trust) = some saved →
    ∀ name, saved.currentKey name = trust.currentKey name
  empty : P.trustJson.decode "" = none

/-- An operation, with the outside world's inputs to its execution. -/
structure Operation where
  job : Job
  inputs : Nat → Input

/-- The operations in question: the commands that edit the trust file, the ingest of
payloads, hellos among them, and the confirmation of a pairing. -/
inductive EditsKeys : Job → Prop
  | agentAdd (text : String) (rotate : Bool) : EditsKeys (.agentAdd text rotate)
  | agentRemove (name : String) : EditsKeys (.agentRemove name)
  | authorityAdd (text : String) : EditsKeys (.authorityAdd text)
  | authorityRemove (name : String) : EditsKeys (.authorityRemove name)
  | ingest (delivery : Delivery) : EditsKeys (.ingest delivery)
  | pairConfirm (name : String) (draw : Draw) (nowSeq : Int) :
      EditsKeys (.request (.pairConfirm name) draw nowSeq)

/-- The agent is trusted with the decodable signing key. -/
def TrustedWith (P : Platform) (world : World) (name : String) (key : Bytes) : Prop :=
  ∃ trust, TrustStore.load P world.trustFile = .ok trust ∧ trust.currentKey name = some key

theorem TrustedWith.unique
    {P : Platform} {world : World} {name : String} {first second : Bytes}
    (trusted : TrustedWith P world name first) (again : TrustedWith P world name second) :
    second = first := by
  obtain ⟨trust, loaded, key⟩ := trusted
  obtain ⟨other, otherLoaded, otherKey⟩ := again
  rw [loaded] at otherLoaded
  cases otherLoaded
  rw [key] at otherKey
  cases otherKey
  rfl

/-! ## Edits of the trust file -/

section Edits

variable {P : Platform} {identity : Identity} {allowed : Input → Prop} {world : World}

/-- A state whose trust file is the old one, empty, or the given store. -/
inductive Saved (P : Platform) (world : World) (trust : TrustStore) (final : World) : Prop
  | unchanged (same : final.trustFile = world.trustFile)
  | truncated (emptied : final.trustFile = .text "")
  | written (whole : final.trustFile = .text (P.trustJson.encode trust))

theorem saveTrust_meets (trust : TrustStore) :
    Prog.Meets allowed (saveTrust P trust) world fun final _ => Saved P world trust final := by
  refine Prog.meets_bind.mpr fun opening _ => ?_
  by_cases opened : opening.accepts = true
  · simp only [opened, if_true]
    intro writing _
    by_cases written : writing.accepts = true
    · simp only [written, if_true]
      exact .written rfl
    · simp only [written]
      exact .truncated rfl
  · simp only [opened]
    exact .unchanged rfl

/-- A store that keeps the keys of another one, as far as both have them. -/
def KeepsKeys (before after : TrustStore) : Prop :=
  ∀ name key changed, before.currentKey name = some key →
    after.currentKey name = some changed → changed = key

/-- Saving a store that keeps the keys of the one that was loaded replaces no key. -/
theorem Saved.keeps
    {trust changed : TrustStore} {final : World} (codec : TrustCodec P)
    (saved : Saved P world changed final)
    (loaded : TrustStore.load P world.trustFile = .ok trust) (keeps : KeepsKeys trust changed)
    {name : String} {key later : Bytes} (before : TrustedWith P world name key)
    (after : TrustedWith P final name later) : later = key := by
  obtain ⟨stored, storedLoaded, storedKey⟩ := before
  rw [loaded] at storedLoaded
  cases storedLoaded
  obtain ⟨found, foundLoaded, foundKey⟩ := after
  cases saved with
  | unchanged same =>
      rw [same, loaded] at foundLoaded
      cases foundLoaded
      rw [storedKey] at foundKey
      cases foundKey
      rfl
  | truncated emptied =>
      rw [emptied, TrustStore.load_text_eq_ok, codec.empty] at foundLoaded
      cases foundLoaded
  | written whole =>
      rw [whole, TrustStore.load_text_eq_ok] at foundLoaded
      rw [codec.readsBack changed found foundLoaded] at foundKey
      exact keeps name key later storedKey foundKey

/-- The keys of the agents are the same before and after, as far as they are trusted. -/
def KeysKept (P : Platform) (before after : World) : Prop :=
  ∀ name key later, TrustedWith P before name key → TrustedWith P after name later → later = key

theorem KeysKept.of_eq
    {before after : World} (same : after.trustFile = before.trustFile) :
    KeysKept P before after := by
  rintro name key later trusted ⟨trust, loaded, found⟩
  rw [same] at loaded
  exact trusted.unique ⟨trust, loaded, found⟩

theorem editTrust_meets
    (codec : TrustCodec P) {change : TrustStore → Except Error TrustStore}
    (keeps : ∀ trust changed, change trust = .ok changed → KeepsKeys trust changed) :
    Prog.Meets allowed (editTrust P change) world fun final _ => KeysKept P world final := by
  refine Prog.meets_bind.mpr (meets_observe ?_)
  split
  · exact .of_eq rfl
  · rename_i trust loaded
    split
    · exact .of_eq rfl
    · rename_i changed applied
      refine (saveTrust_meets changed).weaken fun final _ saved => ?_
      intro name key later before after
      exact saved.keeps codec loaded (keeps trust changed applied) before after

theorem importAgent_keeps
    {trust changed : TrustStore} {token : IdentityToken}
    (imported : importAgent P trust token false = .ok changed) : KeepsKeys trust changed := by
  intro name key later before after
  unfold importAgent at imported
  split at imported
  · rename_i oldKey known
    split at imported
    · cases imported
    · rename_i accepted
      cases imported
      rw [TrustStore.addFromToken, TrustStore.currentKey_addWithKem] at after
      by_cases same : token.name = name
      · rw [if_pos same] at after
        cases after
        rw [← same, known] at before
        cases before
        by_contra different
        exact accepted ⟨fun equal => different equal.symm, rfl⟩
      · rw [if_neg same, before] at after
        cases after
        rfl
  · rename_i unknown
    cases imported
    rw [TrustStore.addFromToken, TrustStore.currentKey_addWithKem] at after
    by_cases same : token.name = name
    · rw [← same, unknown] at before
      cases before
    · rw [if_neg same, before] at after
      cases after
      rfl

theorem remove_keeps (trust : TrustStore) (name : String) :
    KeepsKeys trust (trust.remove name).1 := by
  intro other key later before after
  rw [TrustStore.currentKey_remove] at after
  by_cases same : name = other
  · rw [if_pos same] at after
    cases after
  · rw [if_neg same, before] at after
    cases after
    rfl

/-- An edit of the authorities leaves the agents alone. -/
theorem keeps_of_agents_eq
    {trust changed : TrustStore} (agents : changed.agents = trust.agents) :
    KeepsKeys trust changed := by
  intro name key later before after
  rw [TrustStore.currentKey, agents, ← TrustStore.currentKey, before] at after
  cases after
  rfl

end Edits

/-! ## Ingest leaves the trust file alone -/

section Ingest

variable {P : Platform} {identity : Identity}

/-- A thread that does not touch the trust file. -/
abbrev SparesTrust {α : Type} (thread : Thread α) : Prop :=
  Prog.Within (fun _ => True) (fun before after => after.trustFile = before.trustFile)
    (fun _ => True) thread

theorem spares_onMsg (delivery : Delivery) : SparesTrust (onMsg P identity delivery) := by
  refine steps_onMsg.weaken (fun before after _ step => ?_) fun _ _ => trivial
  cases step <;> rfl

end Ingest

/-! ## One operation -/

section Steps

variable {P : Platform} {identity : Identity} {world : World}

/-- A pairing is confirmed only with the key that is already stored under the name, if
there is one. -/
def ConfirmsKnownKey (P : Platform) (world : World) (operation : Operation) : Prop :=
  ∀ name draw nowSeq entry key,
    operation.job = .request (.pairConfirm name) draw nowSeq →
    world.pending[name]? = some entry → TrustedWith P world entry.name key →
    entry.publicKey = key

theorem pairConfirm_meets
    {allowed : Input → Prop} (codec : TrustCodec P) {name : String}
    (known : ∀ entry key, world.pending[name]? = some entry →
      TrustedWith P world entry.name key → entry.publicKey = key) :
    Prog.Meets allowed (pairConfirm P name) world fun final _ => KeysKept P world final := by
  refine Prog.meets_bind.mpr (meets_observe ?_)
  split
  · exact .of_eq rfl
  · rename_i entry pending
    refine Prog.meets_bind.mpr (meets_observe ?_)
    split
    · exact .of_eq rfl
    · rename_i trust loaded
      have keeps : KeepsKeys trust
          (trust.addWithKem entry.name entry.publicKey entry.kemPublicKey) := by
        intro other key later before after
        rw [TrustStore.currentKey_addWithKem] at after
        by_cases same : entry.name = other
        · rw [if_pos same] at after
          cases after
          exact known entry key pending ⟨trust, loaded, same ▸ before⟩
        · rw [if_neg same, before] at after
          cases after
          rfl
      refine Prog.meets_bind.mpr ((saveTrust_meets _).weaken fun final result saved => ?_)
      have kept : KeysKept P world final := fun other key later before after =>
        saved.keeps codec loaded keeps before after
      split
      · exact kept
      · intro _ _
        exact kept

/-- A confirmed pairing is saved under the key of its hello. -/
theorem pairConfirm_accepts
    {name : String} {entry : PendingPair} {trust : TrustStore}
    (pending : world.pending[name]? = some entry)
    (loaded : TrustStore.load P world.trustFile = .ok trust) :
    Prog.Meets (fun input => input.accepts = true) (pairConfirm P name) world
      fun final _ => final.trustFile = .text (P.trustJson.encode
        (trust.addWithKem entry.name entry.publicKey entry.kemPublicKey)) := by
  refine Prog.meets_bind.mpr (meets_observe ?_)
  simp only [pending]
  refine Prog.meets_bind.mpr (meets_observe ?_)
  simp only [loaded]
  refine Prog.meets_bind.mpr (Prog.meets_bind.mpr fun opening accepts => ?_)
  simp only [accepts, if_true]
  intro writing accepted
  simp only [accepted, if_true]
  intro _ _
  rfl

theorem trustFile_exec_pairConfirm
    {name : String} {entry : PendingPair} {trust : TrustStore}
    (pending : world.pending[name]? = some entry)
    (loaded : TrustStore.load P world.trustFile = .ok trust) (draw : Draw) (nowSeq : Int) :
    (((Job.request (.pairConfirm name) draw nowSeq).thread P identity).exec (fun _ => {})
        world).1.trustFile =
      .text (P.trustJson.encode
        (trust.addWithKem entry.name entry.publicKey entry.kemPublicKey)) := by
  have confirmed := @Prog.exec_of_meets _ _ _ _ _ _ _ (pairConfirm_accepts pending loaded)
    (fun _ => {}) fun _ => rfl
  rw [Job.thread, exec_ignore]
  exact confirmed

/-- The state after an operation. -/
def perform (P : Platform) (identity : Identity) (world : World) (operation : Operation) :
    World :=
  ((operation.job.thread P identity).exec operation.inputs world).1

theorem trustFile_perform_pairConfirm
    {name : String} {entry : PendingPair} {trust : TrustStore}
    (pending : world.pending[name]? = some entry)
    (loaded : TrustStore.load P world.trustFile = .ok trust) (draw : Draw) (nowSeq : Int) :
    (perform P identity world
        { job := .request (.pairConfirm name) draw nowSeq, inputs := fun _ => {} }).trustFile =
      .text (P.trustJson.encode
        (trust.addWithKem entry.name entry.publicKey entry.kemPublicKey)) :=
  trustFile_exec_pairConfirm pending loaded draw nowSeq

/-- If the operation replaces the key of a trusted agent, it is a rotation. -/
def ReplacesByRotation (P : Platform) (identity : Identity) (world : World)
    (operation : Operation) : Prop :=
  ∀ name key later, TrustedWith P world name key →
    TrustedWith P (perform P identity world operation) name later → later ≠ key →
    ∃ text, operation.job = .agentAdd text true

private theorem replaces_of_meets
    {α : Type} {job : Job} {inputs : Nat → Input} (thread : Thread α)
    (runs : job.thread P identity = ignore thread)
    (kept : Prog.Meets (fun _ => True) thread world fun final _ => KeysKept P world final) :
    ReplacesByRotation P identity world ⟨job, inputs⟩ := by
  intro name key later before after changed
  have keys : KeysKept P world (thread.exec inputs world).1 :=
    Prog.exec_of_meets kept fun _ => trivial
  have result : perform P identity world ⟨job, inputs⟩ = (thread.exec inputs world).1 := by
    rw [perform, runs, exec_ignore]
  rw [result] at after
  exact absurd (keys name key later before after) changed

theorem replacesByRotation
    (codec : TrustCodec P) (operation : Operation) (edits : EditsKeys operation.job)
    (confirms : ConfirmsKnownKey P world operation) :
    ReplacesByRotation P identity world operation := by
  obtain ⟨job, inputs⟩ := operation
  cases edits with
  | agentAdd text rotate =>
      cases rotate with
      | true =>
          intro name key later before after changed
          exact ⟨text, rfl⟩
      | false =>
          refine replaces_of_meets (agentAdd P text false) rfl ?_
          unfold agentAdd
          split
          · exact .of_eq rfl
          · exact editTrust_meets codec fun trust changed => importAgent_keeps
  | agentRemove name =>
      refine replaces_of_meets (agentRemove P name) rfl (editTrust_meets codec ?_)
      intro trust changed removed
      cases removed
      exact remove_keeps trust name
  | authorityAdd text =>
      refine replaces_of_meets (authorityAdd P text) rfl ?_
      unfold authorityAdd
      split
      · exact .of_eq rfl
      · refine editTrust_meets codec fun trust changed added => ?_
        cases added
        exact keeps_of_agents_eq rfl
  | authorityRemove name =>
      refine replaces_of_meets (authorityRemove P name) rfl (editTrust_meets codec ?_)
      intro trust changed removed
      cases removed
      exact keeps_of_agents_eq rfl
  | ingest delivery =>
      refine replaces_of_meets (onMsg P identity delivery) rfl ?_
      refine (Prog.Within.meets ?_ ?_ (spares_onMsg delivery) world).weaken ?_
      · exact fun _ => rfl
      · exact fun earlier later => later.trans earlier
      · exact fun final _ same => KeysKept.of_eq same.1
  | pairConfirm name draw nowSeq =>
      refine replaces_of_meets (pairConfirm P name) rfl (pairConfirm_meets codec ?_)
      exact fun entry key => confirms name draw nowSeq entry key rfl

end Steps

/-! ## Sequences of operations -/

section Sequences

variable (P : Platform) (identity : Identity)

/-- A condition on the state before an operation and on the operation holds at every
operation of a sequence. -/
def EveryOperation (condition : World → Operation → Prop) : World → List Operation → Prop :=
  Machine.EveryStep (perform P identity) condition

/-- In every sequence in which pairings are confirmed only with keys already known, the
key of a trusted agent is replaced by rotations only. -/
theorem keys_replaced_by_rotation
    (codec : TrustCodec P) (start : World) (operations : List Operation)
    (edits : ∀ operation ∈ operations, EditsKeys operation.job)
    (confirms : EveryOperation P identity (ConfirmsKnownKey P) start operations) :
    EveryOperation P identity (ReplacesByRotation P identity) start operations := by
  induction operations generalizing start with
  | nil =>
      exact Machine.everyStep_nil
  | cons operation rest inductionHypothesis =>
      obtain ⟨here, later⟩ := Machine.everyStep_cons_iff.mp confirms
      refine Machine.everyStep_cons
        (replacesByRotation codec operation (edits operation List.mem_cons_self) here) ?_
      refine inductionHypothesis _ (fun other member => ?_) later
      exact edits other (List.mem_cons_of_mem _ member)

end Sequences

/-! ## A hello under a known name -/

theorem Reference.trustCodec (config : Config) : TrustCodec (Reference.platform config) where
  readsBack := by
    intro trust saved read name
    obtain ⟨found, again, agents, _⟩ := TrustStore.decode_codec trust
    have same : found = saved := Option.some.inj (again.symm.trans read)
    rw [TrustStore.currentKey, TrustStore.currentKey, ← same, agents]
  empty := by
    have nothing : Document.decode "" = none := rfl
    simp only [Reference.platform, TrustStore.codec, nothing, Option.bind_none]

namespace PairBench

/-- The platform of the agents. -/
abbrev platform : Platform :=
  Reference.platform {}

/-- Alice with the `n`-th key. -/
def alice (n : UInt8) : Identity :=
  Reference.identity "alice" n

/-- Her hello, delivered on the pairing topic. -/
def delivery (n : UInt8) : Delivery :=
  { topic := "pair", payload := platform.wrapperJson.encode (helloWrapper platform (alice n)
      Reference.draw), clock := Reference.clock, draw := Reference.draw }

/-- What it leaves with Bob. -/
def entry (n : UInt8) : PendingPair :=
  introduced platform (alice n) Reference.draw Reference.bob

theorem hello_intercepted (n : UInt8) :
    intercept platform Reference.bob (delivery n).payload = .hello (entry n) := by
  have clear : '#' ∉ "alice".toList := by decide
  have other : "alice" ≠ "bob" := by decide
  exact intercept_helloWrapper Reference.draw (Reference.signs {} "alice" n) clear other
    (Reference.wrapperJson_lawful {}) (Reference.innerJson_lawful {})
    (Reference.pairBodyJson_lawful {})

/-- The hello of the second key arrives, and the pairing with Alice is confirmed. -/
def pairing : List Operation :=
  [{ job := .ingest (delivery 2), inputs := fun _ => {} },
    { job := .request (.pairConfirm "alice") Reference.draw 0, inputs := fun _ => {} }]

theorem pairing_edits : ∀ operation ∈ pairing, EditsKeys operation.job := by
  intro operation member
  simp only [pairing, List.mem_cons, List.not_mem_nil, or_false] at member
  rcases member with rfl | rfl
  · exact .ingest (delivery 2)
  · exact .pairConfirm "alice" _ 0

/-- Bob knows Alice under the `n`-th key. -/
def start (n : UInt8) : World :=
  { trustFile := .text (platform.trustJson.encode (TrustStore.addFromToken {} (alice n).token)) }

/-- The state after the hello of the second key. -/
def greeted (n : UInt8) : World :=
  listedWorld (start n) "alice" (entry 2)

theorem perform_hello (n : UInt8) (inputs : Nat → Input) :
    perform platform Reference.bob (start n) { job := .ingest (delivery 2), inputs } =
      greeted n := by
  rw [perform, Job.thread, exec_ignore, onMsg_hello (hello_intercepted 2)]
  rfl

theorem pending_greeted (n : UInt8) : (greeted n).pending["alice"]? = some (entry 2) := by
  rw [greeted, listedWorld, Std.TreeMap.getElem?_insertIfNew,
    if_pos ⟨Std.ReflCmp.compare_self, Std.TreeMap.not_mem_emptyc⟩]

/-- A file in which Alice was added with a key knows her under it. -/
theorem trusted_of_saved
    {world : World} {trust : TrustStore} {n : UInt8}
    (saved : world.trustFile = .text (platform.trustJson.encode
      (trust.addWithKem "alice" (alice n).publicKey (some (alice n).kemEk)))) :
    TrustedWith platform world "alice" (alice n).publicKey := by
  obtain ⟨found, read, _⟩ := TrustStore.decode_codec
    (trust.addWithKem "alice" (alice n).publicKey (some (alice n).kemEk))
  refine ⟨found, ?_, ?_⟩
  · rw [saved, TrustStore.load_text_eq_ok]
    exact read
  · rw [(Reference.trustCodec {}).readsBack _ found read, TrustStore.currentKey_addWithKem,
      if_pos rfl]

theorem trusted_start (n : UInt8) :
    TrustedWith platform (start n) "alice" (alice n).publicKey :=
  trusted_of_saved rfl

theorem keys_differ : (alice 2).publicKey ≠ (alice 1).publicKey := by
  intro same
  have heads : (some 2 : Option UInt8) = some 1 := congrArg List.head? same
  cases heads

/-- The confirmation of the hello saves its key. -/
theorem trusted_confirmed :
    TrustedWith platform (perform platform Reference.bob (greeted 1)
      { job := .request (.pairConfirm "alice") Reference.draw 0, inputs := fun _ => {} })
      "alice" (alice 2).publicKey := by
  obtain ⟨trust, loaded, _⟩ := trusted_start 1
  have still : TrustStore.load platform (greeted 1).trustFile = .ok trust := loaded
  have saved := @trustFile_perform_pairConfirm platform Reference.bob (greeted 1) "alice"
    (entry 2) trust (pending_greeted 1) still Reference.draw 0
  refine @trusted_of_saved _ trust 2 ?_
  exact saved

/-- A pairing with a known agent under its own key replaces nothing. -/
theorem keys_replaced_by_rotation_paired :
    EveryOperation platform Reference.bob (ReplacesByRotation platform Reference.bob) (start 2)
      pairing := by
  refine keys_replaced_by_rotation platform Reference.bob (Reference.trustCodec {}) (start 2)
    pairing pairing_edits
    (Machine.everyStep_cons ?_ (Machine.everyStep_cons ?_ Machine.everyStep_nil))
  · intro name draw nowSeq found key chosen
    cases chosen
  · rw [perform_hello]
    intro name draw nowSeq found other chosen pending trusted
    cases chosen
    have isEntry : entry 2 = found := by
      rw [pending_greeted] at pending
      exact Option.some.inj pending
    rw [← isEntry] at trusted ⊢
    exact trusted.unique (trusted_start 2)

end PairBench

/-- The confirmation of a hello that anybody can send replaces a known agent's key. -/
theorem key_replaced_by_pairing :
    ¬ ∀ (P : Platform) (identity : Identity) (start : World) (operations : List Operation),
        TrustCodec P → (∀ operation ∈ operations, EditsKeys operation.job) →
        EveryOperation P identity (ReplacesByRotation P identity) start operations := by
  intro continuous
  have every := continuous PairBench.platform Reference.bob (PairBench.start 1) PairBench.pairing
    (Reference.trustCodec {}) PairBench.pairing_edits
  have replaces := Machine.EveryStep.head (Machine.EveryStep.tail every)
  rw [PairBench.perform_hello] at replaces
  obtain ⟨text, rotation⟩ := replaces "alice" _ _ (PairBench.trusted_start 1)
    PairBench.trusted_confirmed PairBench.keys_differ
  cases rotation

end AgentMsg
