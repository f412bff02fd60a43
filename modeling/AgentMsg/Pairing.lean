import AgentMsg.Deeds
import AgentMsg.KeyContinuity

/-!
# Pairings are confirmed with the listed key

Anybody can send a pairing hello at any time.  The operator compares the codes of a
listing and confirms a name later; since a pending entry is never replaced, the key that
is saved is the key that was listed, whatever arrives in between.
-/

namespace AgentMsg

open Checked

/-! ## The short authentication string -/

/-- Three digits, a space, three digits. -/
def SasForm (text : String) : Prop :=
  ∃ a b c d e f : Char, (∀ letter ∈ [a, b, c, d, e, f], letter.isDigit = true) ∧
    text = String.ofList [a, b, c, ' ', d, e, f]

/-- Both sides compute the same code. -/
theorem sas_comm (P : Platform) (pkA pkB : Bytes) : sas P pkA pkB = sas P pkB pkA := by
  unfold sas
  by_cases before : pkA ≤ pkB
  · by_cases after : pkB ≤ pkA
    · rw [List.le_antisymm before after]
    · simp only [if_pos before, if_neg after]
  · have after : pkB ≤ pkA := (List.le_total pkA pkB).resolve_left before
    simp only [if_neg before, if_pos after]

private theorem digitChar_isDigit : ∀ digit < 10, (Nat.digitChar digit).isDigit = true := by
  decide

theorem sas_form (P : Platform) (pkA pkB : Bytes) : SasForm (sas P pkA pkB) := by
  have form (code : Nat) (bound : code < 1000000) :
      SasForm (threeDigits (code / 1000) ++ " " ++ threeDigits (code % 1000)) := by
    refine ⟨_, _, _, _, _, _, ?_, by
      rw [threeDigits, threeDigits, ← String.ofList_append]
      exact (String.ofList_append ..).symm⟩
    intro letter member
    simp only [List.mem_cons, List.not_mem_nil, or_false] at member
    rcases member with rfl | rfl | rfl | rfl | rfl | rfl <;>
      exact digitChar_isDigit _ (by omega)
  exact form _ (Nat.mod_lt _ (by decide))

/-! ## Verified hellos -/

/-- The payload is a hello that names its sender, advertises the two keys, and is signed
by the key it advertises. -/
def SelfSigned (P : Platform) (payload : Bytes) (name : String) (key : Bytes)
    (kem : Option Bytes) : Prop :=
  ∃ wrapper innerBytes inner body sig,
    P.wrapperJson.decode payload = some wrapper ∧ wrapper.innerBytes = .ok innerBytes ∧
      P.innerJson.decode innerBytes = some inner ∧
      P.pairBodyJson.decode inner.body = some body ∧
      inner.sender = name ∧ body.name = name ∧
      unb64 body.pk = some key ∧ decodeKemPk body.kemPk = .ok kem ∧
      wrapper.sigBytes = .ok sig ∧ cryptoVerify P key innerBytes sig = true

theorem selfSigned_of_verifyPair
    {P : Platform} {raw : Bytes} {hello : PairHello} (verified : verifyPair P raw = .ok hello) :
    SelfSigned P raw hello.name hello.publicKey hello.kemPublicKey := by
  simp only [verifyPair, Wrapper.fromBytes, Wrapper.parseInner, bind_eq_ok, okOr_eq_ok,
    ensure_eq_ok, pure_eq_ok] at verified
  obtain ⟨wrapper, parsed, _, _, innerBytes, carried, inner, decoded, _, _, body, advertised,
    publicKey, key, sig, signature, _, signed, _, _, _, _, _, _, _, ⟨_, sender⟩, kem, kemKey,
    rfl⟩ := verified
  exact ⟨wrapper, innerBytes, inner, body, sig, parsed, carried, decoded, advertised, sender, rfl,
    key, kemKey, signature, signed⟩

/-- A pending entry is what a verified hello advertises, with the code of its key. -/
theorem selfSigned_of_intercept
    {P : Platform} {identity : Identity} {payload : Bytes} {entry : PendingPair}
    (found : intercept P identity payload = .hello entry) :
    SelfSigned P payload entry.name entry.publicKey entry.kemPublicKey ∧
      entry.sas = sas P identity.publicKey entry.publicKey := by
  obtain ⟨verified, code⟩ := verified_of_intercept found
  exact ⟨selfSigned_of_verifyPair verified, code⟩

/-! ## Pending entries -/

section Runs

variable {P : Platform} {identity : Identity} {start : World} {taken : List (Move Input Job)}

/-- A move does nothing, or a deed of the thread that steps. -/
theorem deed_of_move (choice : Move Input Job) :
    System.after P identity start (taken ++ [choice]) = System.after P identity start taken ∨
      ∃ index input job thread, choice = .step index input ∧
        (System.run P identity { shared := start } taken).threads[index]? =
          some (job, thread) ∧
        Deed P identity (fun _ => True) job (System.after P identity start taken)
          (System.after P identity start (taken ++ [choice])) := by
  have confined : Pool.Confined (fun _ => True) (Deed P identity fun _ => True)
      (System.run P identity { shared := start } taken) :=
    Pool.Confined.run (by simp [Pool.Confined]) (fun _ _ => trivial) fun job _ =>
      deeds_thread job
  have ran : System.after P identity start (taken ++ [choice]) =
      ((System.run P identity { shared := start } taken).move
        (Job.thread P identity) choice).shared :=
    congrArg Pool.shared Pool.run_append
  rw [ran]
  cases choice with
  | spawn job =>
      exact Or.inl rfl
  | step index input =>
      rcases located : (System.run P identity { shared := start } taken).threads[index]? with
        _ | ⟨job, thread⟩
      · exact Or.inl (by simp [System.after, Pool.move, located])
      · refine (confined.step_change trivial located input).imp_right fun deed => ?_
        exact ⟨index, input, job, thread, rfl, located, deed⟩

/-- Every pending entry was left under its name by a hello that was ingested. -/
theorem pending_origin
    (blank : start.pending = ∅) {name : String} {entry : PendingPair}
    (found : (System.after P identity start taken).pending[name]? = some entry) :
    entry.name = name ∧ ∃ delivery, .spawn (.ingest delivery) ∈ taken ∧
      intercept P identity delivery.payload = .hello entry := by
  induction taken using List.reverseRecOn with
  | nil =>
      have none : start.pending[name]? = some entry := found
      simp [blank] at none
  | append_singleton taken choice inductionHypothesis =>
      have earlier (old : (System.after P identity start taken).pending[name]? = some entry) :
          entry.name = name ∧ ∃ delivery, .spawn (.ingest delivery) ∈ taken ++ [choice] ∧
            intercept P identity delivery.payload = .hello entry := by
        obtain ⟨named, delivery, spawned, hello⟩ := inductionHypothesis old
        exact ⟨named, delivery, List.mem_append_left _ spawned, hello⟩
      rcases deed_of_move choice with same | ⟨index, input, job, thread, _, located, deed⟩
      · rw [same] at found
        exact earlier found
      · generalize shape : System.after P identity start (taken ++ [choice]) = final at found deed
        cases deed with
        | offers delivery offered ingests hello =>
            rw [Std.TreeMap.getElem?_insertIfNew] at found
            split at found
            · rename_i fresh
              cases found
              have spawned : .spawn job ∈ taken := by
                rcases Pool.label_of_run (List.mem_of_getElem? located) with old | new
                · cases old
                · exact new
              rw [ingests] at spawned
              exact ⟨by simpa using fresh.1, delivery, List.mem_append_left _ spawned, hello⟩
            · exact earlier found
        | confirms erased _ _ _ =>
            rw [Std.TreeMap.getElem?_erase] at found
            split at found
            · cases found
            · exact earlier found
        | _ =>
            exact earlier found

/-- No confirmation of the name takes a step among the moves. -/
def Unconfirmed (P : Platform) (identity : Identity) (start : World) (name : String)
    (taken between : List (Move Input Job)) : Prop :=
  ∀ earlier index input later, between = earlier ++ .step index input :: later →
    ∀ draw nowSeq thread,
      (System.run P identity { shared := start } (taken ++ earlier)).threads[index]? ≠
        some (.request (.pairConfirm name) draw nowSeq, thread)

/-- An entry stays as it is until its name is confirmed. -/
theorem pending_stays
    {between : List (Move Input Job)} {name : String} {entry : PendingPair}
    (unconfirmed : Unconfirmed P identity start name taken between)
    (found : (System.after P identity start taken).pending[name]? = some entry) :
    (System.after P identity start (taken ++ between)).pending[name]? = some entry := by
  induction between using List.reverseRecOn with
  | nil =>
      rw [List.append_nil]
      exact found
  | append_singleton between choice inductionHypothesis =>
      have before : Unconfirmed P identity start name taken between := by
        rintro earlier index input later rfl
        exact unconfirmed earlier index input (later ++ [choice]) (by simp)
      have here := inductionHypothesis before
      rw [← List.append_assoc]
      rcases deed_of_move choice with same | ⟨index, input, job, thread, rfl, located, deed⟩
      · rw [same]
        exact here
      · generalize shape : System.after P identity start
          (taken ++ between ++ [.step index input]) = final at deed
        cases deed with
        | offers delivery offered _ _ =>
            have taken : name ∈ (System.after P identity start (taken ++ between)).pending :=
              Std.TreeMap.mem_iff_isSome_getElem?.mpr (by rw [here]; rfl)
            rw [Std.TreeMap.getElem?_insertIfNew, if_neg, here]
            rintro ⟨same, absent⟩
            have equal : offered.name = name := by simpa using same
            exact absent (equal ▸ taken)
        | confirms erased draw nowSeq asked =>
            have different : erased ≠ name := by
              rintro rfl
              rw [asked] at located
              exact unconfirmed between index input [] rfl draw nowSeq thread located
            rw [Std.TreeMap.getElem?_erase, if_neg (by simpa using different)]
            exact here
        | _ =>
            exact here

/-! ## The confirmation -/

/-- The trust file is as it was, truncated, or holds a trust store to which the agent was
added. -/
def Records (P : Platform) (name : String) (key : Bytes) (kem : Option Bytes)
    (before after : World) : Prop :=
  after.trustFile = before.trustFile ∨ after.trustFile = .text "" ∨
    ∃ trust : TrustStore,
      after.trustFile = .text (P.trustJson.encode (trust.addWithKem name key kem))

/-- A confirmation after it has looked up the name. -/
def confirmFound (P : Platform) (name : String) : Option PendingPair → Thread Response
  | none => return .error ("no pending pairing for '" ++ name ++ "'")
  | some entry => do
      match ← loadTrust P with
      | .error e => return .error e.text
      | .ok trust => do
          match ← saveTrust P
            (trust.addWithKem entry.name entry.publicKey entry.kemPublicKey) with
          | .error e => return .error e.text
          | .ok _ =>
              .call fun _ world => ({ world with pending := world.pending.erase name }, .ok)

theorem pairConfirm_looks_up (P : Platform) (name : String) :
    pairConfirm P name =
      Prog.observe (fun world : World => world.pending[name]?) >>= confirmFound P name := by
  refine congrArg (Prog.observe (fun world : World => world.pending[name]?) >>= ·) ?_
  funext found
  cases found <;> rfl

theorem records_confirmFound (name : String) (entry : PendingPair) :
    Prog.Within (fun _ => True)
      (Records P entry.name entry.publicKey entry.kemPublicKey) (fun _ => True)
      (ignore (confirmFound P name (some entry))) := by
  have kept {before after : World} (same : after.trustFile = before.trustFile) :
      Records P entry.name entry.publicKey entry.kemPublicKey before after := Or.inl same
  refine Prog.Within.andThen ?_ fun _ => .done
  refine Prog.Within.andThen (.call (fun _ _ _ => kept rfl) fun _ _ _ => trivial) fun trust => ?_
  split
  · exact .done
  · rename_i loaded
    refine Prog.Within.andThen ?_ fun saved => ?_
    · refine Prog.Within.andThen (.call (fun input world _ => ?_) fun _ _ _ => trivial)
        fun opened => ?_
      · split
        · exact Or.inr (Or.inl rfl)
        · exact kept rfl
      · split
        · refine .call (fun input world _ => ?_) fun _ _ _ => trivial
          split
          · exact Or.inr (Or.inr ⟨loaded, rfl⟩)
          · exact kept rfl
        · exact .done
    · split
      · exact .done
      · exact .call (fun _ _ _ => kept rfl) fun _ _ _ => trivial

/-- The first step of a confirmation finds the entry that is pending then. -/
theorem confirm_begins
    {name : String} {entry : PendingPair} {index : Nat} {draw : Draw} {nowSeq : Int}
    (found : (System.after P identity start taken).pending[name]? = some entry)
    (next : (System.run P identity { shared := start } taken).threads[index]? =
      some (.request (.pairConfirm name) draw nowSeq,
        Job.thread P identity (.request (.pairConfirm name) draw nowSeq)))
    (input : Input) :
    (System.run P identity { shared := start } (taken ++ [.step index input])).threads[index]? =
      some (.request (.pairConfirm name) draw nowSeq,
        ignore (confirmFound P name (some entry))) := by
  have program : Job.thread P identity (.request (.pairConfirm name) draw nowSeq) =
      .act (fun _ world => world) fun _ world =>
        ignore (confirmFound P name world.pending[name]?) := by
    have begins : Job.thread P identity (.request (.pairConfirm name) draw nowSeq) =
        ignore (pairConfirm P name) := rfl
    rw [begins, pairConfirm_looks_up]
    rfl
  have bound := (List.getElem?_eq_some_iff.mp next).1
  rw [program] at next
  have ran : System.run P identity { shared := start } (taken ++ [.step index input]) =
      (System.run P identity { shared := start } taken).move (Job.thread P identity)
        (.step index input) := Pool.run_append
  rw [System.after] at found
  rw [ran, Pool.move, next]
  simp only [List.getElem?_set_self bound, found]

end Runs

/-! ## What is confirmed is what was listed -/

/-- The keys behind a listed pairing: its fingerprint and code are those of the key, and
both keys are those of a signed hello that was ingested. -/
structure ListedKeys (P : Platform) (identity : Identity) (taken : List (Move Input Job))
    (view : PendingPairView) (key : Bytes) (kem : Option Bytes) : Prop where
  fingerprint : AgentMsg.fingerprint P key = view.fingerprint
  sas : AgentMsg.sas P identity.publicKey key = view.sas
  encapsulates : kem.isSome = view.kem
  hello : ∃ delivery, .spawn (.ingest delivery) ∈ taken ∧
    SelfSigned P delivery.payload view.name key kem

/-- Once the thread has begun, its steps write nothing to the trust file but the keys. -/
def WritesOnly (P : Platform) (identity : Identity) (start : World)
    (taken : List (Move Input Job)) (index : Nat) (name : String) (key : Bytes)
    (kem : Option Bytes) : Prop :=
  ∀ input moves last,
    Records P name key kem
      (System.after P identity start (taken ++ .step index input :: moves))
      (System.after P identity start (taken ++ .step index input :: moves ++ [.step index last]))

/-- A confirmation that runs alone, and is not refused by the files, writes the keys. -/
def WritesKeys (P : Platform) (world : World) (name : String) (key : Bytes)
    (kem : Option Bytes) : Prop :=
  ∀ trust inputs, TrustStore.load P world.trustFile = .ok trust →
    (∀ index, (inputs index : Input).accepts = true) →
    ((pairConfirm P name).exec inputs world).1.trustFile =
      .text (P.trustJson.encode (trust.addWithKem name key kem))

section Confirmation

variable {P : Platform} {identity : Identity} {start : World} {taken : List (Move Input Job)}
  {name : String} {entry : PendingPair}

/-- A confirmation that begins while an entry is pending writes its keys and nothing else. -/
theorem writesOnly_of_pending
    {index : Nat} {draw : Draw} {nowSeq : Int}
    (found : (System.after P identity start taken).pending[name]? = some entry)
    (named : entry.name = name)
    (next : (System.run P identity { shared := start } taken).threads[index]? =
      some (.request (.pairConfirm name) draw nowSeq,
        Job.thread P identity (.request (.pairConfirm name) draw nowSeq))) :
    WritesOnly P identity start taken index name entry.publicKey entry.kemPublicKey := by
  intro input moves last
  have begun := confirm_begins found next input
  have changed := @Pool.change_after_run _ _ _ (Job.thread P identity) _ _ _ _ _ begun
    (records_confirmFound name entry) moves last
  rw [named] at changed
  have ran (later : List (Move Input Job)) :
      System.after P identity start (taken ++ .step index input :: later) =
        (Pool.run (Job.thread P identity)
          (System.run P identity { shared := start } (taken ++ [.step index input]))
          later).shared := by
    rw [← List.singleton_append, ← List.append_assoc]
    exact congrArg Pool.shared Pool.run_append
  rw [List.append_assoc, List.cons_append, ran, ran]
  rcases changed with same | wrote
  · exact Or.inl (congrArg World.trustFile same)
  · exact wrote

/-- A confirmation of a pending entry that runs alone writes its keys. -/
theorem writesKeys_of_pending
    {world : World} (found : world.pending[name]? = some entry) (named : entry.name = name) :
    WritesKeys P world name entry.publicKey entry.kemPublicKey := by
  intro trust inputs loaded accepts
  have confirmed := Prog.exec_of_meets (pairConfirm_accepts found loaded) accepts
  rw [named] at confirmed
  exact confirmed

end Confirmation

/-- A name that was listed is confirmed with the key that was listed, whatever hellos
arrive in between. -/
theorem pairing_confirms_listed_key
    (P : Platform) (identity : Identity) (world : World) (taken between : List (Move Input Job))
    (inputs : Nat → Input) (views : List PendingPairView) (view : PendingPairView)
    (listed : ((pairList P).exec inputs
      (System.after P identity world.afterExit taken)).2 = .pairs views)
    (shown : view ∈ views)
    (unconfirmed : Unconfirmed P identity world.afterExit view.name taken between)
    (index : Nat) (draw : Draw) (nowSeq : Int)
    (next : (System.run P identity { shared := world.afterExit }
        (taken ++ between)).threads[index]? =
      some (.request (.pairConfirm view.name) draw nowSeq,
        Job.thread P identity (.request (.pairConfirm view.name) draw nowSeq))) :
    (∃ key kem, ListedKeys P identity taken view key kem ∧
      WritesOnly P identity world.afterExit (taken ++ between) index view.name key kem ∧
      WritesKeys P (System.after P identity world.afterExit (taken ++ between)) view.name key
        kem) ∧
    ∀ a b : Identity, sas P a.publicKey b.publicKey = sas P b.publicKey a.publicKey ∧
      SasForm (sas P a.publicKey b.publicKey) := by
  refine ⟨?_, fun a b => ⟨sas_comm P _ _, sas_form P _ _⟩⟩
  cases listed
  obtain ⟨⟨name, entry⟩, member, rfl⟩ := List.mem_map.mp shown
  have found := Std.TreeMap.mem_toList_iff_getElem?_eq_some.mp member
  obtain ⟨named, delivery, spawned, hello⟩ := pending_origin rfl found
  dsimp only at named unconfirmed next
  rw [named] at unconfirmed next
  obtain ⟨signed, code⟩ := selfSigned_of_intercept hello
  have still := pending_stays unconfirmed found
  rw [named] at signed
  dsimp only
  rw [named]
  exact ⟨entry.publicKey, entry.kemPublicKey, ⟨rfl, code.symm, rfl, delivery, spawned, signed⟩,
    writesOnly_of_pending still named next, writesKeys_of_pending still named⟩

namespace PairBench

/-- The hello of the second key arrives at a daemon that has just started. -/
def arrival : List (Move Input Job) :=
  [.spawn (.ingest (delivery 2)), .step 0 {}]

/-- A hello under the same name arrives with the third key. -/
def imitation : List (Move Input Job) :=
  [.spawn (.ingest (delivery 3)), .step 1 {}]

def confirmation : Job :=
  .request (.pairConfirm "alice") Reference.draw 0

theorem run_arrival :
    System.run platform Reference.bob { shared := (start 1).afterExit } arrival =
      { shared := greeted 1, threads := [(.ingest (delivery 2), .pure ())] } :=
  System.run_hello (hello_intercepted 2) (start 1).afterExit [] {}

theorem run_imitation :
    System.run platform Reference.bob { shared := (start 1).afterExit }
        (arrival ++ (imitation ++ [.spawn confirmation])) =
      { shared := listedWorld (greeted 1) "alice" (entry 3)
        threads := [(.ingest (delivery 2), .pure ()), (.ingest (delivery 3), .pure ()),
          (confirmation, confirmation.thread platform Reference.bob)] } := by
  have first := run_arrival
  have second := System.run_hello (hello_intercepted 3) (greeted 1)
    [(.ingest (delivery 2), .pure ())] {}
  rw [System.run] at first second ⊢
  rw [Pool.run_append, first, Pool.run_append]
  exact congrArg (Pool.move (Job.thread platform Reference.bob) · (.spawn confirmation)) second

/-- Alice as the listing shows her. -/
def aliceView : PendingPairView :=
  { name := "alice", fingerprint := fingerprint platform (alice 2).publicKey,
    sas := sas platform Reference.bob.publicKey (alice 2).publicKey, kem := true }

/-- The imitation is the only thread that takes a step. -/
theorem unconfirmed_imitation :
    Unconfirmed platform Reference.bob (start 1).afterExit aliceView.name arrival
      (imitation ++ [.spawn confirmation]) := by
  intro earlier index input later split draw nowSeq thread
  rcases earlier with _ | ⟨first, _ | ⟨second, _ | ⟨third, rest⟩⟩⟩
  · cases split
  · cases split
    have ran := run_arrival
    rw [System.run] at ran ⊢
    rw [Pool.run_append, ran]
    intro located
    cases located
  · cases split
  · simp [imitation] at split

/-- Alice is listed, imitated and then confirmed. -/
theorem pairing_confirms_listed_key_alice :
    ∃ pk kem, ListedKeys platform Reference.bob arrival aliceView pk kem ∧
      WritesOnly platform Reference.bob (start 1).afterExit
        (arrival ++ (imitation ++ [.spawn confirmation])) 2 "alice" pk kem := by
  have listed : ((pairList platform).exec (fun _ => {})
      (System.after platform Reference.bob (start 1).afterExit arrival)).2 =
      .pairs [aliceView] := by
    rw [System.after, run_arrival]
    rfl
  have next : (System.run platform Reference.bob { shared := (start 1).afterExit }
      (arrival ++ (imitation ++ [.spawn confirmation]))).threads[2]? =
      some (confirmation, confirmation.thread platform Reference.bob) := by
    rw [run_imitation]
    rfl
  obtain ⟨⟨pk, kem, keys, only, _⟩, _⟩ :=
    pairing_confirms_listed_key platform Reference.bob (start 1) arrival
      (imitation ++ [.spawn confirmation]) (fun _ => {}) [aliceView] aliceView listed
      List.mem_cons_self unconfirmed_imitation 2 Reference.draw 0 next
  exact ⟨pk, kem, keys, only⟩

end PairBench

end AgentMsg
