import AgentMsg.Exchange
import AgentMsg.Pairing

/-!
# Two agents that introduce themselves

Two agents that do not know each other can come to trust each other over the broker.  Each starts
a pairing, finds the other in its listing under the same code, and confirms it; nothing else in
the two trust files changes.
-/

namespace AgentMsg

open Checked

/-! ## The steps of one agent -/

section Steps

variable {P : Platform} {identity peer : Identity} {world : World} {session : Mqtt}

/-- A pairing after it has built its hello. -/
def announce (P : Platform) (topic : String) (inner : Inner) (wrapper : Wrapper) :
    Thread Response := do
  match ← Calls.enqueueOutbound (outboxEntry P topic inner wrapper) with
  | .error e => return .error e.text
  | .ok _ => do
      if ← connectedClient then
        let _ ← publishOn topic (P.wrapperJson.encode wrapper) false
        return .ok
      else return .ok

/-- The topic is chosen and the hello is built before anything happens. -/
theorem exec_pairStart
    {topic : Option String} {chosen : String} (draw : Draw)
    (chooses : chooseTopic (world.config P) topic = .ok chosen) :
    (((Job.request (.pairStart topic) draw 0).thread P identity).exec (fun _ => {}) world).1 =
      ((announce P chosen (hello P identity draw) (helloWrapper P identity draw)).exec
        (fun _ => {}) world).1 := by
  have observed : loadConfig P = Prog.observe (World.config P) := rfl
  have asked : handle P identity draw 0 (.pairStart topic) = pairStart P identity topic draw := rfl
  rw [Job.thread, exec_ignore, asked]
  simp only [pairStart, observed, Prog.exec_observe_bind, chooses, buildPair_hello]
  rfl

/-- A connected daemon hands its hello over at once. -/
theorem exec_announce
    {topic : String} {inner : Inner} {wrapper : Wrapper} (online : world.mqtt = some session)
    (connected : session.connected = true) :
    ((announce P topic inner wrapper).exec (fun _ => {}) world).1 =
      { world with
        store := world.store.enqueueOutbound (outboxEntry P topic inner wrapper)
        mqtt := some { session with
          requests := session.requests ++ [⟨topic, P.wrapperJson.encode wrapper, false⟩] } } := by
  obtain ⟨isConnected, requests⟩ := session
  cases world
  subst online connected
  rfl

variable (P) in
/-- The listing of an agent shows the entry. -/
def Shows (world : World) (view : PendingPairView) : Prop :=
  ∃ views, ((pairList P).exec (fun _ => {}) world).2 = .pairs views ∧ view ∈ views

variable (P) in
/-- How a pending entry is listed. -/
def viewOf (entry : PendingPair) : PendingPairView :=
  { name := entry.name, fingerprint := fingerprint P entry.publicKey, sas := entry.sas,
    kem := entry.kemPublicKey.isSome }

theorem shows_of_pending
    {name : String} {entry : PendingPair} (found : world.pending[name]? = some entry) :
    Shows P world (viewOf P entry) := by
  refine ⟨_, rfl, List.mem_map.mpr ⟨(name, entry), ?_, rfl⟩⟩
  exact Std.TreeMap.mem_toList_iff_getElem?_eq_some.mpr found

/-- The trust file has both keys of the peer, and for every other name what the store had. -/
structure Befriended (P : Platform) (file : FileState) (trust : TrustStore) (peer : Identity) : Prop
    where
  loads : ∃ befriended, TrustStore.load P file = .ok befriended ∧
    befriended.publicKey peer.name = .ok peer.publicKey ∧
    befriended.kemPublicKey peer.name = some peer.kemEk ∧
    ∀ target, target ≠ .agent peer.name → befriended.entry target = trust.entry target

theorem exec_pairConfirm
    {entry : PendingPair} {trust : TrustStore} (saves : SavesEntries P)
    (pending : world.pending[peer.name]? = some entry)
    (named : entry.name = peer.name) (key : entry.publicKey = peer.publicKey)
    (kem : entry.kemPublicKey = some peer.kemEk)
    (loaded : TrustStore.load P world.trustFile = .ok trust) (draw : Draw) :
    Befriended P (((Job.request (.pairConfirm peer.name) draw 0).thread P identity).exec
      (fun _ => {}) world).1.trustFile trust peer := by
  obtain ⟨saved, decoded, entries⟩ :=
    saves (trust.addWithKem peer.name peer.publicKey (some peer.kemEk))
  rw [trustFile_exec_pairConfirm pending loaded, named, key, kem]
  refine ⟨saved, TrustStore.load_text_eq_ok.mpr decoded, ?_, ?_, fun target other => ?_⟩
  · rw [TrustStore.publicKey_eq_ok_iff, currentKey_eq_entry, entries, entry_addWithKem,
      if_pos rfl]
    exact unb64_b64 _
  · have same : saved.kemPublicKey peer.name =
        ((saved.entry (.agent peer.name)).bind KnownAgentRecord.kemPk).bind unb64 := rfl
    rw [same, entries, entry_addWithKem, if_pos rfl]
    exact unb64_b64 _
  · rw [entries, entry_addWithKem, if_neg other]

end Steps

/-! ## Both agents -/

/-- A daemon with a session and a readable trust file, where a pairing can be started and the peer
is not pending. -/
structure CanMeet (P : Platform) (me peer : Identity) (world : World) (topic : Option String)
    (trust : TrustStore) : Prop where
  online : world.mqtt.isSome
  chooses : ∃ chosen, chooseTopic (world.config P) topic = .ok chosen
  unmet : world.pending[peer.name]? = none
  loaded : TrustStore.load P world.trustFile = .ok trust
  signs : me.Signs P
  clear : '#' ∉ me.name.toList
  other : me.name ≠ peer.name

section Phases

variable {P : Platform} {me peer : Identity} {world : World} {topic : Option String}
  {trust : TrustStore}

/-- Once it is connected, an agent announces itself; its files and its listing stay as they are. -/
theorem announces
    (online : world.mqtt.isSome)
    (chooses : ∃ chosen, chooseTopic (world.config P) topic = .ok chosen) (draw : Draw) :
    ∃ final chosen, (((Job.request (.pairStart topic) draw 0).thread P me).exec (fun _ => {})
        (((Job.connection true).thread P me).exec (fun _ => {}) world).1).1 = final ∧
      ⟨chosen, P.wrapperJson.encode (helloWrapper P me draw), false⟩ ∈ final.requests ∧
      final.pending = world.pending ∧ final.trustFile = world.trustFile := by
  obtain ⟨session, live⟩ := Option.isSome_iff_exists.mp online
  obtain ⟨chosen, chooses⟩ := chooses
  refine ⟨_, chosen, rfl, ?_⟩
  have chooses' : chooseTopic
      (({ world with mqtt := some { session with connected := true } } : World).config P) topic =
        .ok chosen := chooses
  rw [exec_connection me live, exec_pairStart draw chooses', exec_announce rfl rfl]
  exact ⟨List.mem_append_right _ List.mem_cons_self, rfl, rfl⟩

/-- The hello of a peer that is not pending is listed. -/
theorem meets_hello
    (signs : peer.Signs P) (clear : '#' ∉ peer.name.toList) (other : peer.name ≠ me.name)
    (wrapperJson : P.wrapperJson.Lawful) (innerJson : P.innerJson.Lawful)
    (pairBodyJson : P.pairBodyJson.Lawful) (unmet : world.pending[peer.name]? = none)
    (draw : Draw) (channel : String) (clock : Clock) (again : Draw) (inputs : Nat → Input) :
    ((onMsg P me ⟨channel, P.wrapperJson.encode (helloWrapper P peer draw), clock, again⟩).exec
        inputs world).1 = listedWorld world peer.name (introduced P peer draw me) ∧
    (listedWorld world peer.name (introduced P peer draw me)).pending[peer.name]? =
      some (introduced P peer draw me) := by
  have found := intercept_helloWrapper draw signs clear other wrapperJson innerJson pairBodyJson
  refine ⟨?_, ?_⟩
  · rw [@onMsg_hello P me ⟨channel, P.wrapperJson.encode (helloWrapper P peer draw), clock, again⟩ _
      found]
    rfl
  · have absent : peer.name ∉ world.pending := by
      rw [Std.TreeMap.mem_iff_isSome_getElem?, unmet]
      exact Bool.false_ne_true
    rw [listedWorld, Std.TreeMap.getElem?_insertIfNew, if_pos ⟨Std.ReflCmp.compare_self, absent⟩]

end Phases

section Pairing

variable (P : Platform) {ι : Type} [DecidableEq ι] (identity : ι → Identity)
  (start : ι → World) (i j : ι)

/-- How the peer is listed under a code. -/
def peerView (peer : Identity) (code : String) : PendingPairView :=
  { name := peer.name, fingerprint := fingerprint P peer.publicKey, sas := code, kem := true }

/-- Each of the two lists the other, under one code. -/
def Introduced (a b : World) (code : String) : Prop :=
  Shows P a (peerView P (identity j) code) ∧ Shows P b (peerView P (identity i) code)

/-- From any states in which they can meet, two agents can come to find each other listed under
one code, and to have each other's keys once both have confirmed. -/
theorem pairing_completes
    (wrapperJson : P.wrapperJson.Lawful) (innerJson : P.innerJson.Lawful)
    (pairBodyJson : P.pairBodyJson.Lawful) (saves : SavesEntries P) (different : i ≠ j)
    {here there : Option String} {trustHere trustThere : TrustStore}
    (first : CanMeet P (identity i) (identity j) (start i) here trustHere)
    (second : CanMeet P (identity j) (identity i) (start j) there trustThere)
    (draw drawThere : Draw) (clock : Clock) :
    ∃ listed broker, Attains P identity start listed broker ∧
      Introduced P identity i j (listed i) (listed j)
        (sas P (identity i).publicKey (identity j).publicKey) ∧
      ∃ confirmed, Attains P identity start confirmed broker ∧
        confirmed i = (((Job.request (.pairConfirm (identity j).name) draw 0).thread P
          (identity i)).exec (fun _ => {}) (listed i)).1 ∧
        confirmed j = (((Job.request (.pairConfirm (identity i).name) drawThere 0).thread P
          (identity j)).exec (fun _ => {}) (listed j)).1 ∧
        Befriended P (confirmed i).trustFile trustHere (identity j) ∧
        Befriended P (confirmed j).trustFile trustThere (identity i) := by
  have initial : Meets P identity start i j (start i) (start j) [] :=
    ⟨start, attains_start, rfl, rfl⟩
  have announced := (initial.job different (.connection true) (fun _ same => by cases same)).job
    different (.request (.pairStart here) draw 0) (fun _ same => by cases same)
  obtain ⟨afterStart, channel, result, handed, pending, trustFile⟩ :=
    @announces P (identity i) (start i) here first.online first.chooses draw
  rw [result] at announced
  have heard := (announced.publish handed).symm.ingest (Ne.symm different)
    (List.mem_append_right _ List.mem_cons_self) clock drawThere
  obtain ⟨course, met⟩ := @meets_hello P (identity j) (identity i) (start j) first.signs
    first.clear first.other wrapperJson innerJson pairBodyJson second.unmet draw channel clock
    drawThere (fun _ => {})
  rw [course] at heard
  have answered := (heard.job (Ne.symm different) (.connection true)
    (fun _ same => by cases same)).job (Ne.symm different)
    (.request (.pairStart there) drawThere 0) (fun _ same => by cases same)
  obtain ⟨afterAnswer, channelThere, resultThere, handedThere, pendingThere, trustFileThere⟩ :=
    @announces P (identity j)
      (listedWorld (start j) (identity i).name (introduced P (identity i) draw (identity j)))
      there second.online second.chooses drawThere
  rw [resultThere] at answered
  have returned := (answered.publish handedThere).symm.ingest different
    (List.mem_append_right _ List.mem_cons_self) clock draw
  obtain ⟨courseHere, metHere⟩ := @meets_hello P (identity i) (identity j) afterStart
    second.signs second.clear second.other wrapperJson innerJson pairBodyJson
    (by rw [pending]; exact first.unmet) drawThere channelThere clock draw (fun _ => {})
  rw [courseHere] at returned
  have found : afterAnswer.pending[(identity i).name]? =
      some (introduced P (identity i) draw (identity j)) := by
    rw [pendingThere]
    exact met
  have confirms := ((returned.job different (.request (.pairConfirm (identity j).name) draw 0)
    (fun _ same => by cases same)).symm.job (Ne.symm different)
    (.request (.pairConfirm (identity i).name) drawThere 0) (fun _ same => by cases same)).symm
  obtain ⟨listed, reached, atHere, atThere⟩ := returned
  obtain ⟨confirmed, reachedLast, lastHere, lastThere⟩ := confirms
  refine ⟨listed, _, reached, ⟨?_, ?_⟩, confirmed, reachedLast, by rw [lastHere, atHere],
    by rw [lastThere, atThere], ?_, ?_⟩
  · rw [atHere]
    exact shows_of_pending metHere
  · rw [atThere, sas_comm]
    exact shows_of_pending found
  · rw [lastHere]
    exact exec_pairConfirm saves metHere rfl rfl rfl
      (by rw [listedWorld, trustFile]; exact first.loaded) draw
  · rw [lastThere]
    exact exec_pairConfirm saves found rfl rfl rfl
      (by rw [trustFileThere]; exact second.loaded) drawThere

end Pairing

/-! ## Alice and Bob -/

/-- A daemon with a session that knows nobody. -/
def newcomer : World :=
  { configFile := .text "config", mqtt := some { connected := false } }

theorem newcomers_canMeet {daemon peer : Bool} (different : daemon ≠ peer) :
    CanMeet (Reference.platform chatConfig) (pair daemon) (pair peer) newcomer none {} where
  online := rfl
  chooses := ⟨"chat", rfl⟩
  unmet := Std.TreeMap.getElem?_emptyc
  loaded := rfl
  signs := by
    cases daemon with
    | true =>
        exact Reference.signs chatConfig "alice" 1
    | false =>
        exact Reference.signs chatConfig "bob" 2
  clear := by
    cases daemon <;> decide
  other := by
    cases daemon <;> cases peer <;> first | exact absurd rfl different | decide

/-- Alice and Bob come to know each other. -/
theorem pairing_completes_newcomers :
    ∃ listed broker,
      Attains (Reference.platform chatConfig) pair (fun _ => newcomer) listed broker ∧
      Introduced (Reference.platform chatConfig) pair true false (listed true) (listed false)
        (sas (Reference.platform chatConfig) Reference.alice.publicKey Reference.bob.publicKey) ∧
      ∃ confirmed,
        Attains (Reference.platform chatConfig) pair (fun _ => newcomer) confirmed broker ∧
        Befriended (Reference.platform chatConfig) (confirmed true).trustFile {} Reference.bob ∧
        Befriended (Reference.platform chatConfig) (confirmed false).trustFile {}
          Reference.alice := by
  obtain ⟨listed, broker, reached, introduced, confirmed, last, _, _, alice, bob⟩ :=
    pairing_completes (Reference.platform chatConfig) pair (fun _ => newcomer) true false
      (Reference.wrapperJson_lawful chatConfig) (Reference.innerJson_lawful chatConfig)
      (Reference.pairBodyJson_lawful chatConfig) (Reference.savesEntries chatConfig) (by decide)
      (newcomers_canMeet (by decide)) (newcomers_canMeet (by decide)) Reference.draw
      Reference.draw Reference.clock
  exact ⟨listed, broker, reached, introduced, confirmed, last, alice, bob⟩

end AgentMsg
