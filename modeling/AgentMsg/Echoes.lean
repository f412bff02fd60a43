import AgentMsg.Rejections
import AgentMsg.SendLimits

/-!
# Own echoes

The broker delivers what a daemon publishes back to the daemon.  The callback knows its
own payloads by the sender that the key id names, so it ignores what it signed, and takes
its own unsigned messages for those of somebody else.
-/

namespace AgentMsg

open Checked

section Echoes

variable {P : Platform} {identity : Identity}

variable (P identity) in
/-- The ingest of the payload changes nothing, whatever the configuration and the state. -/
def Ignored (payload : Bytes) : Prop :=
  ∀ (world : World) (delivery : Delivery) (inputs : Nat → Input), delivery.payload = payload →
    ((onMsg P identity delivery).exec inputs world).1 = world

/-- The messages that the daemon builds of its own accord. -/
inductive Automatic (P : Platform) (identity : Identity) (draw : Draw) : Inner → Wrapper → Prop
  | receipt (recipient refId : String) (status : ReceiptStatus) (inner : Inner)
      (wrapper : Wrapper)
      (built : build P identity draw (receiptOpts recipient refId status) =
        .ok (inner, wrapper)) :
      Automatic P identity draw inner wrapper
  | presence (beacon : PresenceBeacon) (inner : Inner) (wrapper : Wrapper)
      (built : build P identity draw
        { recipient := BROADCAST, ctype := CTYPE_PRESENCE,
          body := P.presenceJson.encode beacon } = .ok (inner, wrapper)) :
      Automatic P identity draw inner wrapper
  | hello (inner : Inner) (wrapper : Wrapper)
      (built : buildPair P identity draw = .ok (inner, wrapper)) :
      Automatic P identity draw inner wrapper

/-! ## The filter -/

theorem claimedSender_wrapped_unsigned (innerBytes : Bytes) :
    (wrapped P identity true innerBytes).claimedSender = none :=
  rfl

/-- The key id of a signed wrapper names the identity, unless the name is cut off at a
separator in it. -/
theorem claimedSender_wrapped_signed (innerBytes : Bytes) :
    (wrapped P identity false innerBytes).claimedSender = some identity.name ↔
      '#' ∉ identity.name.toList := by
  have claimed : (wrapped P identity false innerBytes).claimedSender =
      (splitKid (makeKid P identity.name identity.publicKey)).map Prod.fst :=
    rfl
  rw [claimed]
  constructor
  · intro named separator
    obtain ⟨⟨name, fp⟩, split, rfl⟩ := Option.map_eq_some_iff.mp named
    exact notMem_of_splitOnce split separator
  · intro absent
    rw [splitKid_makeKid P identity.publicKey absent, Option.map_some]

/-- The filter recognizes a wrapper exactly when it is signed under a name without
separators. -/
theorem claimedSender_wrapped
    {unsigned : Bool} {innerBytes : Bytes} :
    (wrapped P identity unsigned innerBytes).claimedSender = some identity.name ↔
      unsigned = false ∧ '#' ∉ identity.name.toList := by
  cases unsigned with
  | true =>
      rw [claimedSender_wrapped_unsigned]
      exact ⟨nofun, fun signed => absurd signed.1 (by decide)⟩
  | false =>
      rw [claimedSender_wrapped_signed]
      exact ⟨fun absent => ⟨rfl, absent⟩, fun both => both.2⟩

theorem intercept_echo_iff {payload : Bytes} {wrapper : Wrapper}
    (parsed : P.wrapperJson.decode payload = some wrapper) :
    intercept P identity payload = .echo ↔ wrapper.claimedSender = some identity.name := by
  unfold intercept
  rw [parsed]
  dsimp only
  constructor
  · intro echo
    by_contra other
    rw [if_neg other] at echo
    split at echo
    · cases echo
    · split at echo
      · split at echo <;> cases echo
      · cases echo
  · intro named
    rw [if_pos named]

/-! ## What passes the filter -/

/-- With the default configuration and nobody trusted, no payload is accepted. -/
theorem verifyDelivery_default (delivery : Delivery) :
    ∃ info, verifyDelivery P identity default default delivery = .error info := by
  cases verified : verifyDelivery P identity default default delivery with
  | error info =>
      exact ⟨info, rfl⟩
  | ok inner =>
      obtain ⟨_, signed, _, _, path⟩ := verifyIncoming_ok verified
      rcases path with ⟨_, publicKey, signature⟩ | ⟨_, allowed, _⟩
      · have trusted := TrustStore.publicKey_eq_ok_iff.mp signature.trusted
        have unknown : TrustStore.currentKey default signed.sender = none := rfl
        rw [unknown] at trusted
        cases trusted
      · exact absurd allowed Bool.false_ne_true

/-- Only an echo is ignored in every state. -/
theorem ignored_iff_echo {payload : Bytes} :
    Ignored P identity payload ↔ intercept P identity payload = .echo := by
  constructor
  · intro ignored
    let delivery : Delivery := ⟨"", payload, ⟨0, 0, 0⟩, ⟨"", "", [], [], []⟩⟩
    have unchanged := ignored {} delivery (fun _ => {}) rfl
    cases found : intercept P identity payload with
    | echo =>
        rfl
    | hello entry =>
        have offered : ((onMsg P identity delivery).exec (fun _ => {}) {}).1.pending =
            (∅ : Std.TreeMap String PendingPair).insertIfNew entry.name entry := by
          rw [onMsg, found]
          rfl
        rw [unchanged] at offered
        have present := congrArg (fun pending => pending.contains entry.name) offered
        simp at present
    | badHello reason claimed =>
        have refused : Refused P identity {} delivery := .hello reason claimed found
        exact absurd unchanged (refused.changes fun _ => rfl)
    | pass =>
        obtain ⟨info, failed⟩ : ∃ info,
            verifyDelivery P identity default default delivery = .error info :=
          verifyDelivery_default delivery
        have refused : Refused P identity {} delivery := .unverified info found failed
        exact absurd unchanged (refused.changes fun _ => rfl)
  · intro echo world delivery inputs same
    rw [onMsg, same, echo]
    rfl

end Echoes

/-! ## The messages of one daemon -/

section Own

variable {P : Platform} {identity : Identity} {draw : Draw} {inner : Inner} {wrapper : Wrapper}

theorem ignored_iff_of_build
    {opts : BuildOpts} (lawful : P.wrapperJson.Lawful)
    (built : build P identity draw opts = .ok (inner, wrapper)) :
    Ignored P identity (P.wrapperJson.encode wrapper) ↔
      opts.unsigned = false ∧ '#' ∉ identity.name.toList := by
  rw [ignored_iff_echo, intercept_echo_iff (lawful wrapper), (build_ok built).1,
    claimedSender_wrapped]

theorem Automatic.ignored_iff
    (lawful : P.wrapperJson.Lawful) (automatic : Automatic P identity draw inner wrapper) :
    Ignored P identity (P.wrapperJson.encode wrapper) ↔ '#' ∉ identity.name.toList := by
  cases automatic with
  | receipt recipient refId status inner wrapper built =>
      exact (ignored_iff_of_build lawful built).trans (and_iff_right rfl)
  | presence beacon inner wrapper built =>
      exact (ignored_iff_of_build lawful built).trans (and_iff_right rfl)
  | hello inner wrapper built =>
      exact (ignored_iff_of_build lawful built).trans (and_iff_right rfl)

theorem Sends.ignored_iff
    {cfg : Config} {trust : TrustStore} {p : SendParams} (lawful : P.wrapperJson.Lawful)
    (sends : Sends P identity cfg trust p draw inner wrapper) :
    Ignored P identity (P.wrapperJson.encode wrapper) ↔
      p.unsigned = false ∧ '#' ∉ identity.name.toList := by
  obtain ⟨grant, encryptTo, _, _, built⟩ := sends.built
  exact ignored_iff_of_build lawful built

end Own

/-- What a daemon publishes of its own accord is ignored when it comes back, and so is
what it sends for a client exactly when it is signed. -/
theorem own_echoes_ignored_iff
    (P : Platform) (identity : Identity) (lawful : P.wrapperJson.Lawful)
    (name : '#' ∉ identity.name.toList) :
    (∀ draw inner wrapper, Automatic P identity draw inner wrapper →
      Ignored P identity (P.wrapperJson.encode wrapper)) ∧
    ∀ cfg trust p draw inner wrapper, Sends P identity cfg trust p draw inner wrapper →
      (Ignored P identity (P.wrapperJson.encode wrapper) ↔ p.unsigned = false) := by
  refine ⟨fun draw inner wrapper automatic => (automatic.ignored_iff lawful).mpr name, ?_⟩
  intro cfg trust p draw inner wrapper sends
  rw [sends.ignored_iff lawful]
  exact and_iff_left name

theorem own_echoes_ignored_iff_alice :
    (∀ draw inner wrapper, Automatic (Reference.platform {}) Reference.alice draw inner wrapper →
      Ignored (Reference.platform {}) Reference.alice
        ((Reference.platform {}).wrapperJson.encode wrapper)) ∧
    ∀ cfg trust p draw inner wrapper,
      Sends (Reference.platform {}) Reference.alice cfg trust p draw inner wrapper →
        (Ignored (Reference.platform {}) Reference.alice
          ((Reference.platform {}).wrapperJson.encode wrapper) ↔ p.unsigned = false) :=
  own_echoes_ignored_iff _ _ (Reference.wrapperJson_lawful {}) (by decide)

/-! ## An unsigned note -/

def note : SendParams :=
  { recipient := "bob", ctype := CTYPE_TEXT, body := "hi", unsigned := true }

/-- The daemon does not recognize a note that it sent unsigned. -/
theorem unsigned_echo_taken :
    ¬ ∀ cfg trust p draw inner wrapper,
      Sends (Reference.platform {}) Reference.alice cfg trust p draw inner wrapper →
        Ignored (Reference.platform {}) Reference.alice
          ((Reference.platform {}).wrapperJson.encode wrapper) := by
  intro ignored
  have sends : Sends (Reference.platform {}) Reference.alice (limited 64) {} note
      Reference.draw _ _ :=
    ⟨⟨"chat", rfl⟩, by decide, none, none, rfl, rfl, build_plain rfl⟩
  have signed := (sends.ignored_iff (Reference.wrapperJson_lawful {})).mp
    (ignored _ _ _ _ _ _ sends)
  exact absurd signed.1 (by decide)

end AgentMsg
