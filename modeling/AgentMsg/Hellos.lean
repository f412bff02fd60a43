import AgentMsg.Echoes
import AgentMsg.Versions

/-!
# Hellos

The hello of an agent and what it leaves with another one.  It is signed under the key that it
brings along, so every other agent can check it, and keeps the first one for each name.
-/

namespace AgentMsg

open Checked

section Hellos

variable (P : Platform) (sender : Identity) (draw : Draw)

/-- The hello of an agent. -/
def hello : Inner :=
  draft sender draw
    { recipient := BROADCAST, ctype := CTYPE_PAIR
      body := P.pairBodyJson.encode
        { name := sender.name, pk := b64 sender.publicKey, kemPk := some (b64 sender.kemEk) } }

def helloWrapper : Wrapper :=
  wrapped P sender false (P.innerJson.encode (hello P sender draw))

/-- What the hello of an agent leaves with another. -/
def introduced (me : Identity) : PendingPair :=
  { name := sender.name, publicKey := sender.publicKey, kemPublicKey := some sender.kemEk,
    sas := sas P me.publicKey sender.publicKey, firstSeen := draw.ts }

theorem buildPair_hello :
    buildPair P sender draw = .ok (hello P sender draw, helloWrapper P sender draw) :=
  build_plain rfl

variable {P sender}

theorem verifyPair_hello
    (signs : sender.Signs P) (clear : '#' ∉ sender.name.toList)
    (wrapperJson : P.wrapperJson.Lawful) (innerJson : P.innerJson.Lawful)
    (pairBodyJson : P.pairBodyJson.Lawful) :
    verifyPair P (P.wrapperJson.encode (helloWrapper P sender draw)) =
      .ok { name := sender.name, publicKey := sender.publicKey,
            kemPublicKey := some sender.kemEk } := by
  have verified : cryptoVerify P sender.publicKey (P.innerJson.encode (hello P sender draw))
      (sender.sign P (P.innerJson.encode (hello P sender draw))) = true := signs _
  simp only [verifyPair, Wrapper.fromBytes, Wrapper.parseInner, Wrapper.innerBytes,
    Wrapper.sigBytes, bind_eq_ok, okOr_eq_ok, ensure_eq_ok, pure_eq_ok]
  refine ⟨_, wrapperJson _, (), rfl, _, unb64_b64 _, _, innerJson _, (), rfl, _,
    pairBodyJson _, _, unb64_b64 _, _, ⟨_, rfl, unb64_b64 _⟩, (), verified, _, rfl, _,
    splitKid_makeKid P _ clear, (), rfl, (), ⟨rfl, rfl⟩, some sender.kemEk, ?_, rfl⟩
  simp only [decodeKemPk, bind_eq_ok, okOr_eq_ok, pure_eq_ok]
  exact ⟨_, unb64_b64 _, rfl⟩

/-- Another agent takes the hello for one. -/
theorem intercept_helloWrapper
    {me : Identity} (signs : sender.Signs P) (clear : '#' ∉ sender.name.toList)
    (other : sender.name ≠ me.name) (wrapperJson : P.wrapperJson.Lawful)
    (innerJson : P.innerJson.Lawful) (pairBodyJson : P.pairBodyJson.Lawful) :
    intercept P me (P.wrapperJson.encode (helloWrapper P sender draw)) =
      .hello (introduced P sender draw me) := by
  have claimed : (helloWrapper P sender draw).claimedSender = some sender.name :=
    (claimedSender_wrapped_signed _).mpr clear
  have notOwn : (some sender.name : Option String) ≠ some me.name :=
    fun same => other (Option.some.inj same)
  have peeked : (helloWrapper P sender draw).peek P = .ok (hello P sender draw) :=
    peek_wrapped innerJson _ _
  have verified := verifyPair_hello draw signs clear wrapperJson innerJson pairBodyJson
  simp only [intercept, wrapperJson _, claimed, if_neg notOwn, peeked, verified]
  exact if_pos rfl

/-- The state in which an entry is offered under its name. -/
def listedWorld (world : World) (name : String) (entry : PendingPair) : World :=
  { world with pending := world.pending.insertIfNew name entry }

/-- A hello is kept under its name until the name is confirmed. -/
theorem onMsg_hello
    {me : Identity} {delivery : Delivery} {entry : PendingPair}
    (found : intercept P me delivery.payload = .hello entry) :
    onMsg P me delivery =
      .act (fun _ world => listedWorld world entry.name entry) fun _ _ => .pure .pairing := by
  rw [onMsg, found]
  rfl

theorem System.run_hello
    {me : Identity} {delivery : Delivery} {entry : PendingPair}
    (found : intercept P me delivery.payload = .hello entry) (world : World)
    (threads : List (Job × Thread Unit)) (input : Input) :
    System.run P me { shared := world, threads }
        [.spawn (.ingest delivery), .step threads.length input] =
      { shared := listedWorld world entry.name entry
        threads := threads ++ [(.ingest delivery, .pure ())] } := by
  rw [System.run, Pool.run_cons, Pool.move, Job.thread, onMsg_hello found, Pool.run_cons]
  exact @Pool.move_last _ _ _ (Job.thread P me) _ _ _ _ _ _

end Hellos

end AgentMsg
