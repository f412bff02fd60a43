import AgentMsg.Lib.Machine
import AgentMsg.Data
import Mathlib.Algebra.GroupWithZero.Nat

/-!
# The event loop of a broker session

A session runs an event loop in a thread of its own.  The loop takes events from the
connection, keeps the `connected` flag, subscribes again after every acknowledged connection,
hands publishes to the callback, and waits longer and longer between failed connections.
Another thread may ask it to stop at any time, and then joins it.  All requests to the broker
go through a bounded queue that only the polls of the loop empty.
-/

namespace AgentMsg

namespace EventLoop

/-- What the connection yields. -/
inductive Event where
  | connAck
  | publish (topic : String) (payload : Bytes)
  | other
  | error
  deriving DecidableEq, Repr

/-- Where the event thread stands: before the next event, before the stop flag is read for an
event, past it, in one of the arms, in `sleep_interruptible`, and out of the loop before and
after the guard is dropped. -/
inductive Place where
  | polling
  | polled (event : Event)
  | passed (event : Event)
  | acknowledged
  | subscribing (left : List String)
  | calling
  | failed
  | deciding
  | waiting (slept : Nat)
  | sleeping (slept : Nat)
  | leaving
  | ended
  deriving DecidableEq, Repr

/-- How far the thread that stops the session has come. -/
inductive Caller where
  | running
  | stopping
  | disconnected
  | joined
  | stopped
  deriving DecidableEq, Repr

/-- The first wait after a failed connection, in milliseconds. -/
def BACKOFF : Nat := 250

def MAX_BACKOFF : Nat := 30000

/-- The slices in which the thread sleeps. -/
def SLICE : Nat := 100

/-- The requests that the client of a session can hold. -/
def REQUEST_CAPACITY : Nat := 64

/-- A session with its thread and the requests that wait for the connection; what has been
received, what has passed the stop flag, the calls of `on_message`, the topics subscribed to,
and the time slept. -/
structure State where
  connected : Bool := false
  stop : Bool := false
  backoff : Nat := BACKOFF
  place : Place := .polling
  caller : Caller := .running
  queued : Nat := 0
  received : List Event := []
  handled : List Event := []
  calls : List (String × Bytes) := []
  subscriptions : List String := []
  slept : Nat := 0
  deriving DecidableEq, Repr

/-- What may happen next. -/
inductive Act where
  /-- The connection yields an event, or nothing any more. -/
  | next (event : Option Event)
  /-- The thread goes on. -/
  | advance
  /-- The callback returns, or panics. -/
  | returned (panicked : Bool)
  /-- A panic leaves the loop. -/
  | unwind
  /-- Another thread sends a request. -/
  | request
  /-- The poll takes some of the requests. -/
  | drain (count : Nat)
  /-- The parts of `stop`. -/
  | requestStop
  | disconnect
  | join
  | clear
  deriving DecidableEq, Repr

namespace State

/-- There is room for a request.  Without it the call that sends one waits. -/
def Room (state : State) : Prop :=
  state.queued < REQUEST_CAPACITY

instance (state : State) : Decidable state.Room :=
  inferInstanceAs (Decidable (_ < _))

/-- Leave the loop when a stop is asked for, and go on otherwise. -/
def unlessStopped (state : State) (place : Place) : State :=
  { state with place := if state.stop then .leaving else place }

/-- Match on an event. -/
def dispatch (state : State) : Event → State
  | .connAck => { state with place := .acknowledged }
  | .publish topic payload =>
      { state with place := .calling, calls := state.calls ++ [(topic, payload)] }
  | .other => { state with place := .polling }
  | .error => { state with place := .failed }

/-- The next action of the thread. -/
def advance (topics : List String) (state : State) : State :=
  match state.place with
  | .polled event =>
      if state.stop then { state with place := .leaving }
      else { state with place := .passed event, handled := state.handled ++ [event] }
  | .passed event => state.dispatch event
  | .acknowledged =>
      { state with connected := true, backoff := BACKOFF, place := .subscribing topics }
  | .subscribing [] => { state with place := .polling }
  | .subscribing (topic :: left) =>
      if state.Room then
        { state with
          queued := state.queued + 1
          subscriptions := state.subscriptions ++ [topic], place := .subscribing left }
      else state
  | .failed => { state with connected := false, place := .deciding }
  | .deciding => state.unlessStopped (.waiting 0)
  | .waiting slept =>
      if slept < state.backoff then state.unlessStopped (.sleeping slept)
      else if state.stop then { state with place := .leaving }
      else { state with place := .polling, backoff := min (state.backoff * 2) MAX_BACKOFF }
  | .sleeping slept =>
      { state with
        slept := state.slept + min SLICE (state.backoff - slept)
        place := .waiting (slept + min SLICE (state.backoff - slept)) }
  | .leaving => { state with connected := false, place := .ended }
  | .polling | .calling | .ended => state

/-- The thread is in the loop. -/
def Looping (state : State) : Prop :=
  state.place ≠ .leaving ∧ state.place ≠ .ended

instance (state : State) : Decidable state.Looping :=
  inferInstanceAs (Decidable (_ ∧ _))

/-- One action of the thread, of the connection or of the thread that stops the session. -/
def step (topics : List String) (state : State) : Act → State
  | .next event =>
      if state.place = .polling then
        match event with
        | some event =>
            { state with place := .polled event, received := state.received ++ [event] }
        | none => { state with place := .leaving }
      else state
  | .advance => state.advance topics
  | .returned _ =>
      if state.place = .calling then { state with place := .polling } else state
  | .unwind => if state.Looping then { state with place := .leaving } else state
  | .request => if state.Room then { state with queued := state.queued + 1 } else state
  | .drain count =>
      if state.place = .polling then { state with queued := state.queued - count } else state
  | .requestStop =>
      if state.caller = .running then { state with stop := true, caller := .stopping } else state
  | .disconnect =>
      if state.caller = .stopping ∧ (state.Room ∨ state.place = .ended) then
        { state with caller := .disconnected, queued := state.queued + 1 }
      else state
  | .join =>
      if state.caller = .disconnected ∧ state.place = .ended then { state with caller := .joined }
      else state
  | .clear =>
      if state.caller = .joined then { state with connected := false, caller := .stopped }
      else state

/-- The state that a new session comes to. -/
def run (topics : List String) (acts : List Act) : State :=
  Machine.run (step topics) {} acts

end State

/-! ## What the events tell -/

/-- The publishes among the events. -/
def published (events : List Event) : List (String × Bytes) :=
  events.filterMap fun
    | .publish topic payload => some (topic, payload)
    | _ => none

/-- The wait after a failure that follows the given number of failures. -/
def wait (failures : Nat) : Nat :=
  min (BACKOFF * 2 ^ failures) MAX_BACKOFF

/-- What a sequence of events amounts to: whether the connection stands, the failures since it
was last acknowledged, the time waited, and the acknowledgements. -/
structure Tally where
  up : Bool := false
  failures : Nat := 0
  waited : Nat := 0
  acknowledged : Nat := 0
  deriving DecidableEq, Repr

def Tally.note (tally : Tally) : Event → Tally
  | .connAck =>
      { tally with up := true, failures := 0, acknowledged := tally.acknowledged + 1 }
  | .error =>
      { tally with
        up := false, failures := tally.failures + 1
        waited := tally.waited + wait tally.failures }
  | _ => tally

def tally (events : List Event) : Tally :=
  events.foldl Tally.note {}

theorem tally_concat (events : List Event) (event : Event) :
    tally (events ++ [event]) = (tally events).note event :=
  List.foldl_concat ..

theorem published_append (earlier later : List Event) :
    published (earlier ++ later) = published earlier ++ published later :=
  List.filterMap_append

/-- The wait doubles up to its bound. -/
theorem wait_succ (failures : Nat) : min (wait failures * 2) MAX_BACKOFF = wait (failures + 1) := by
  have doubled : BACKOFF * 2 ^ (failures + 1) = BACKOFF * 2 ^ failures * 2 := by
    rw [Nat.pow_succ, Nat.mul_assoc]
  rw [wait, wait, doubled]
  omega

/-! ## The invariant of a session -/

/-- The event that the thread is working on, when it has not been noted yet. -/
def Place.holding : Place → List Event
  | .passed event => [event]
  | .acknowledged => [.connAck]
  | .failed | .deciding | .waiting _ | .sleeping _ => [.error]
  | _ => []

/-- The event for which the stop flag has still to be read. -/
def Place.unread : Place → List Event
  | .polled event => [event]
  | _ => []

/-- The publishes that the callback has still to be called with. -/
def Place.uncalled : Place → List (String × Bytes)
  | .passed event => published [event]
  | _ => []

/-- The topics that have still to be subscribed to. -/
def Place.unsubscribed (topics : List String) : Place → List String
  | .passed .connAck | .acknowledged => topics
  | .subscribing left => left
  | _ => []

/-- The time slept of the current wait. -/
def Place.slept : Place → Nat
  | .waiting slept | .sleeping slept => slept
  | _ => 0

/-- The flag has been cleared for the failure at hand. -/
def Place.down : Place → Bool
  | .deciding | .waiting _ | .sleeping _ => true
  | _ => false

/-- While the thread is in the loop: every event but the one at hand is dealt with. -/
structure Live (topics : List String) (state : State) (noted : List Event) : Prop where
  handled : state.handled = noted ++ state.place.holding
  received : state.received = state.handled ++ state.place.unread
  calls : published state.handled = state.calls ++ state.place.uncalled
  subscriptions : (List.replicate (tally state.handled).acknowledged topics).flatten =
    state.subscriptions ++ state.place.unsubscribed topics
  connected : state.connected = ((tally noted).up && !state.place.down)
  backoff : state.backoff = wait (tally noted).failures
  slept : state.slept = (tally noted).waited + state.place.slept
  within : state.place.slept ≤ state.backoff
  looping : state.Looping

/-- Out of the loop at most one publish is lost. -/
structure Left (topics : List String) (state : State) : Prop where
  calls : ∃ lost, published state.received = state.calls ++ lost ∧ lost.length ≤ 1
  subscriptions : state.subscriptions <+:
    (List.replicate (tally state.handled).acknowledged topics).flatten
  ended : state.place = .ended → state.connected = false

/-- The states that a session comes to. -/
structure Sound (topics : List String) (state : State) : Prop where
  live : state.Looping → ∃ noted, Live topics state noted
  left : ¬ state.Looping → Left topics state
  asked : state.stop = true ↔ state.caller ≠ .running
  joined : state.caller = .joined ∨ state.caller = .stopped → state.place = .ended

section Steps

variable {topics : List String} {state : State} {noted : List Event}

theorem length_published_le (events : List Event) : (published events).length ≤ events.length :=
  List.length_filterMap_le _ _

/-- In the loop at most one publish is missing, the one at hand. -/
theorem Live.missing
    (live : Live topics state noted) :
    ∃ lost, published state.received = state.calls ++ lost ∧ lost.length ≤ 1 := by
  refine ⟨state.place.uncalled ++ published state.place.unread, ?_, ?_⟩
  · rw [live.received, published_append, live.calls, List.append_assoc]
  · cases state.place with
    | polled event =>
        exact length_published_le [event]
    | passed event =>
        exact (List.append_nil _).symm ▸ length_published_le [event]
    | _ =>
        exact Nat.zero_le _

/-- Leaving the loop loses at most what is at hand. -/
theorem Live.leaves
    (live : Live topics state noted) : Left topics { state with place := .leaving } := by
  refine ⟨live.missing, ?_, nofun⟩
  dsimp only
  rw [live.subscriptions]
  exact List.prefix_append _ _

/-- An event that passes the stop flag is noted as handled. -/
theorem Live.passes
    {event : Event} (live : Live topics state noted) (place : state.place = .polled event) :
    Live topics { state with place := .passed event, handled := state.handled ++ [event] }
      noted := by
  obtain ⟨handled, received, calls, subscriptions, connected, backoff, slept, within, _⟩ := live
  rw [place] at handled received calls subscriptions connected slept within
  simp only [Place.holding, Place.uncalled, Place.unsubscribed, Place.slept, Place.down,
    List.append_nil, Bool.not_false, Bool.and_true] at *
  refine ⟨by rw [handled]; rfl, received.trans (List.append_nil _).symm, ?_, ?_, by
    simpa [Place.down] using connected, backoff, slept, within, nofun, nofun⟩
  · rw [published_append, calls]
    rfl
  · rw [tally_concat]
    cases event with
    | connAck =>
        simp only [Tally.note, List.replicate_succ', List.flatten_append, subscriptions,
          List.flatten_singleton, Place.unsubscribed]
    | publish | other | error =>
        simp only [Tally.note, Place.unsubscribed, subscriptions, List.append_nil]

theorem Live.dispatches
    {event : Event} (live : Live topics state noted) (place : state.place = .passed event) :
    ∃ later, Live topics (state.dispatch event) later := by
  obtain ⟨handled, received, calls, subscriptions, connected, backoff, slept, within, _⟩ := live
  rw [place] at handled received calls subscriptions connected slept within
  cases event with
  | connAck =>
      exact ⟨noted, handled, received, calls, subscriptions, connected, backoff, slept, within,
        nofun, nofun⟩
  | error =>
      exact ⟨noted, handled, received, calls, subscriptions, connected, backoff, slept, within,
        nofun, nofun⟩
  | publish topic payload =>
      refine ⟨noted ++ [.publish topic payload], handled.trans (List.append_nil _).symm,
        received, calls.trans (List.append_nil _).symm, subscriptions, ?_, ?_, ?_, within,
        nofun, nofun⟩
      all_goals rw [tally_concat]
      · exact connected
      · exact backoff
      · exact slept
  | other =>
      refine ⟨noted ++ [.other], handled.trans (List.append_nil _).symm, received, calls,
        subscriptions, ?_, ?_, ?_, within,
        nofun, nofun⟩
      all_goals rw [tally_concat]
      · exact connected
      · exact backoff
      · exact slept

/-- The next action of a thread in the loop keeps it there soundly, or leaves. -/
theorem Live.advances
    (live : Live topics state noted) :
    (∃ later, Live topics (state.advance topics) later) ∨
      state.advance topics = { state with place := .leaving } := by
  have copy := live
  obtain ⟨handled, received, calls, subscriptions, connected, backoff, slept, within, _⟩ := live
  unfold State.advance
  split
  · rename_i event place
    split
    · exact Or.inr rfl
    · exact Or.inl ⟨noted, copy.passes place⟩
  · rename_i event place
    exact Or.inl (copy.dispatches place)
  · rename_i place
    rw [place] at handled received calls subscriptions connected slept within
    refine Or.inl ⟨noted ++ [.connAck], handled.trans (List.append_nil _).symm, received, calls,
      subscriptions, ?_, ?_, ?_, Nat.zero_le _, nofun, nofun⟩
    all_goals rw [tally_concat]
    · rfl
    · rfl
    · exact slept
  · rename_i place
    rw [place] at handled received calls subscriptions connected slept within
    exact Or.inl ⟨noted, handled, received, calls, subscriptions, connected, backoff, slept,
      within, nofun, nofun⟩
  · rename_i topic left place
    split
    · rw [place] at handled received calls subscriptions connected slept within
      refine Or.inl ⟨noted, handled, received, calls, ?_, connected, backoff, slept, within, nofun,
        nofun⟩
      rw [subscriptions]
      simp [Place.unsubscribed]
    · exact Or.inl ⟨noted, copy⟩
  · rename_i place
    rw [place] at handled received calls subscriptions connected slept within
    exact Or.inl ⟨noted, handled, received, calls, subscriptions, (Bool.and_false _).symm,
      backoff, slept, within, nofun, nofun⟩
  · rename_i place
    rw [place] at handled received calls subscriptions connected slept within
    unfold State.unlessStopped
    split
    · exact Or.inr rfl
    · exact Or.inl ⟨noted, handled, received, calls, subscriptions, connected, backoff, slept,
        within, nofun, nofun⟩
  · rename_i sofar place
    rw [place] at handled received calls subscriptions connected slept within
    split
    · unfold State.unlessStopped
      split
      · exact Or.inr rfl
      · exact Or.inl ⟨noted, handled, received, calls, subscriptions, connected, backoff, slept,
          within, nofun, nofun⟩
    · split
      · exact Or.inr rfl
      · rename_i done _
        have full : sofar = state.backoff := Nat.le_antisymm within (Nat.le_of_not_lt done)
        refine Or.inl ⟨noted ++ [.error], handled.trans (List.append_nil _).symm, received, calls,
          subscriptions, ?_, ?_, ?_, Nat.zero_le _, nofun, nofun⟩
        all_goals rw [tally_concat]
        · exact connected.trans (Bool.and_false _)
        · dsimp only [Tally.note]
          rw [backoff, wait_succ]
        · dsimp only [Tally.note, Place.slept]
          rw [slept, ← backoff, ← full]
          rfl
  · rename_i sofar place
    rw [place] at handled received calls subscriptions connected slept within
    refine Or.inl ⟨noted, handled, received, calls, subscriptions, connected, backoff, ?_, ?_,
      nofun, nofun⟩
    · dsimp only [Place.slept] at slept ⊢
      omega
    · dsimp only [Place.slept] at within ⊢
      omega
  · rename_i place
    exact absurd place copy.looping.1
  · exact Or.inl ⟨noted, copy⟩
  · exact Or.inl ⟨noted, copy⟩
  · exact Or.inl ⟨noted, copy⟩

theorem Left.mono
    {later : State} (left : Left topics state) (received : later.received = state.received)
    (handled : later.handled = state.handled) (calls : later.calls = state.calls)
    (subscriptions : later.subscriptions = state.subscriptions)
    (ended : later.place = .ended → later.connected = false) : Left topics later := by
  refine ⟨?_, ?_, ended⟩
  · rw [received, calls]
    exact left.calls
  · rw [handled, subscriptions]
    exact left.subscriptions

theorem looping_leaving : ¬ ({ state with place := .leaving } : State).Looping :=
  fun looping => looping.1 rfl

/-- A step that keeps the threads that stop the session out of it. -/
theorem Sound.inLoop
    {later : State} (sound : Sound topics state) (looping : state.Looping)
    (same : later.stop = state.stop ∧ later.caller = state.caller)
    (goes : (∃ noted, Live topics later noted) ∨ later = { state with place := .leaving }) :
    Sound topics later := by
  have waiting : ¬ (state.caller = .joined ∨ state.caller = .stopped) :=
    fun finished => looping.2 (sound.joined finished)
  refine ⟨fun inside => ?_, fun outside => ?_, ?_, fun finished => ?_⟩
  · rcases goes with live | leaves
    · exact live
    · rw [leaves] at inside
      exact absurd inside looping_leaving
  · obtain ⟨noted, live⟩ := sound.live looping
    rcases goes with ⟨later, liveLater⟩ | leaves
    · exact absurd liveLater.looping outside
    · rw [leaves]
      exact live.leaves
  · rw [same.1, same.2]
    exact sound.asked
  · rw [same.2] at finished
    exact absurd finished waiting

/-- The thread touches neither the stop flag nor the thread that set it. -/
theorem advance_caller (state : State) :
    (state.advance topics).stop = state.stop ∧
      (state.advance topics).caller = state.caller := by
  unfold State.advance
  split
  · split <;> exact ⟨rfl, rfl⟩
  · rename_i event _
    cases event <;> exact ⟨rfl, rfl⟩
  · exact ⟨rfl, rfl⟩
  · exact ⟨rfl, rfl⟩
  · split <;> exact ⟨rfl, rfl⟩
  · exact ⟨rfl, rfl⟩
  · exact ⟨rfl, rfl⟩
  · split
    · exact ⟨rfl, rfl⟩
    · split <;> exact ⟨rfl, rfl⟩
  · exact ⟨rfl, rfl⟩
  · exact ⟨rfl, rfl⟩
  · exact ⟨rfl, rfl⟩
  · exact ⟨rfl, rfl⟩
  · exact ⟨rfl, rfl⟩

theorem Left.advances (left : Left topics state) (outside : ¬ state.Looping) :
    Left topics (state.advance topics) ∧ ¬ (state.advance topics).Looping ∧
      (state.place = .ended → (state.advance topics).place = .ended) := by
  by_cases leaving : state.place = .leaving
  · have advanced : state.advance topics = { state with connected := false, place := .ended } := by
      rw [State.advance, leaving]
    rw [advanced]
    exact ⟨left.mono rfl rfl rfl rfl fun _ => rfl, fun looping => looping.2 rfl, fun _ => rfl⟩
  · have ended : state.place = .ended := by
      by_contra other
      exact outside ⟨leaving, other⟩
    have advanced : state.advance topics = state := by
      rw [State.advance, ended]
    rw [advanced]
    exact ⟨left, outside, fun same => same⟩

/-- Only the thread that stops the session has gone on, or the queue has changed. -/
theorem Sound.called
    {caller : Caller} {stop : Bool} {queued : Nat} (sound : Sound topics state)
    (asked : stop = true ↔ caller ≠ .running)
    (joined : caller = .joined ∨ caller = .stopped → state.place = .ended) :
    Sound topics { state with caller, stop, queued } := by
  refine ⟨fun looping => ?_, fun outside => ?_, asked, joined⟩
  · obtain ⟨noted, live⟩ := sound.live looping
    exact ⟨noted, live.handled, live.received, live.calls, live.subscriptions, live.connected,
      live.backoff, live.slept, live.within, live.looping⟩
  · exact (sound.left outside).mono rfl rfl rfl rfl (sound.left outside).ended

theorem Sound.step (sound : Sound topics state) (act : Act) :
    Sound topics (state.step topics act) := by
  cases act with
  | next event =>
      dsimp only [State.step]
      split
      · rename_i place
        have looping : state.Looping := by
          constructor <;> rw [place] <;> nofun
        cases event with
        | none =>
            exact sound.inLoop looping ⟨rfl, rfl⟩ (Or.inr rfl)
        | some event =>
            refine sound.inLoop looping ⟨rfl, rfl⟩ (Or.inl ?_)
            obtain ⟨noted, handled, received, calls, subscriptions, connected, backoff, slept,
              within, _⟩ := sound.live looping
            rw [place] at handled received calls subscriptions connected slept within
            refine ⟨noted, handled, ?_, calls, subscriptions, connected, backoff, slept, within,
              nofun, nofun⟩
            dsimp only
            rw [received]
            exact congrArg (fun events => events ++ [event]) (List.append_nil _)
      · exact sound
  | advance =>
      dsimp only [State.step]
      by_cases looping : state.Looping
      · obtain ⟨noted, live⟩ := sound.live looping
        rcases live.advances with ⟨later, goes⟩ | leaves
        · refine sound.inLoop looping ?_ (Or.inl ⟨later, goes⟩)
          exact advance_caller state
        · rw [leaves]
          exact sound.inLoop looping ⟨rfl, rfl⟩ (Or.inr rfl)
      · obtain ⟨left, outside, ended⟩ := (sound.left looping).advances looping
        obtain ⟨stop, caller⟩ := @advance_caller topics state
        refine ⟨fun inside => absurd inside outside, fun _ => left, ?_, fun finished => ?_⟩
        · rw [stop, caller]
          exact sound.asked
        · rw [caller] at finished
          exact ended (sound.joined finished)
  | returned panicked =>
      dsimp only [State.step]
      split
      · rename_i place
        have looping : state.Looping := by
          constructor <;> rw [place] <;> nofun
        refine sound.inLoop looping ⟨rfl, rfl⟩ (Or.inl ?_)
        obtain ⟨noted, handled, received, calls, subscriptions, connected, backoff, slept,
          within, _⟩ := sound.live looping
        rw [place] at handled received calls subscriptions connected slept within
        exact ⟨noted, handled, received, calls, subscriptions, connected, backoff, slept, within,
          nofun, nofun⟩
      · exact sound
  | unwind =>
      dsimp only [State.step]
      split
      · rename_i looping
        exact sound.inLoop looping ⟨rfl, rfl⟩ (Or.inr rfl)
      · exact sound
  | request | drain =>
      dsimp only [State.step]
      split
      · exact sound.called sound.asked sound.joined
      · exact sound
  | requestStop =>
      dsimp only [State.step]
      split
      · exact sound.called (by decide) nofun
      · exact sound
  | disconnect =>
      dsimp only [State.step]
      split
      · rename_i both
        have asked := sound.asked.mpr (by rw [both.1]; nofun)
        exact sound.called (by rw [asked]; decide) nofun
      · exact sound
  | join =>
      dsimp only [State.step]
      split
      · rename_i both
        have asked := sound.asked.mpr (by rw [both.1]; nofun)
        exact sound.called (by rw [asked]; decide) fun _ => both.2
      · exact sound
  | clear =>
      dsimp only [State.step]
      split
      · rename_i joined
        have ended := sound.joined (Or.inl joined)
        have outside : ¬ state.Looping := fun looping => looping.2 ended
        have asked := sound.asked.mpr (by rw [joined]; nofun)
        refine ⟨fun looping => absurd looping outside,
          fun _ => (sound.left outside).mono rfl rfl rfl rfl fun _ => rfl, ?_, fun _ => ended⟩
        dsimp only
        rw [asked]
        decide
      · exact sound

end Steps

/-- In every run, the session is in a sound state. -/
theorem sound_run (topics : List String) (acts : List Act) :
    Sound topics (State.run topics acts) := by
  refine Machine.run_invariant ⟨fun _ => ⟨[], ?_⟩, fun outside => ?_, by decide, nofun⟩
    (fun _ act sound => sound.step act) acts
  · exact ⟨rfl, rfl, rfl, rfl, rfl, rfl, rfl, Nat.zero_le _, nofun, nofun⟩
  · exact absurd ⟨nofun, nofun⟩ outside

/-- In every run of a session: whenever the thread asks for the next event, the callback has been
called with exactly the publishes received, in order, whether or not it panicked; every
acknowledged connection was followed by a subscription to every topic; the flag says how the
last connection attempt ended; and the thread has slept 250 ms, doubled for every further
failure up to 30 s.  In every other state at most one publish is missing, and the flag is down
once the thread has ended. -/
theorem event_loop_exact (topics : List String) (acts : List Act) :
    ((State.run topics acts).place = .polling →
      (State.run topics acts).calls = published (State.run topics acts).received ∧
      (State.run topics acts).subscriptions =
        (List.replicate (tally (State.run topics acts).received).acknowledged topics).flatten ∧
      (State.run topics acts).connected = (tally (State.run topics acts).received).up ∧
      (State.run topics acts).backoff = wait (tally (State.run topics acts).received).failures ∧
      (State.run topics acts).slept = (tally (State.run topics acts).received).waited) ∧
    (∃ lost, published (State.run topics acts).received = (State.run topics acts).calls ++ lost ∧
      lost.length ≤ 1) ∧
    ((State.run topics acts).place = .ended → (State.run topics acts).connected = false) ∧
    ((State.run topics acts).caller = .stopped → (State.run topics acts).place = .ended) := by
  have sound := sound_run topics acts
  generalize State.run topics acts = state at sound
  refine ⟨fun place => ?_, ?_, fun ended => ?_, fun stopped => sound.joined (Or.inr stopped)⟩
  · have looping : state.Looping := by
      constructor <;> rw [place] <;> nofun
    obtain ⟨noted, handled, received, calls, subscriptions, connected, backoff, slept, _, _⟩ :=
      sound.live looping
    rw [place] at handled received calls subscriptions connected slept
    simp only [Place.holding, Place.uncalled, Place.unsubscribed, Place.slept, Place.down,
      List.append_nil, Bool.not_false, Bool.and_true, Nat.add_zero] at *
    have whole : state.received = noted := received.trans ((List.append_nil _).trans handled)
    rw [whole]
    rw [handled] at calls subscriptions
    exact ⟨calls.symm, subscriptions.symm, connected, backoff, slept⟩
  · by_cases looping : state.Looping
    · obtain ⟨noted, live⟩ := sound.live looping
      exact live.missing
    · exact (sound.left looping).calls
  · exact (sound.left fun looping => looping.2 ended).ended ended

/-! ## Stopping -/

section Stopping

variable {topics : List String} {state : State}

/-- How many more actions the thread takes once the stop flag is set. -/
def Place.remaining (topics : List String) : Place → Nat
  | .passed _ => topics.length + 6
  | .acknowledged => topics.length + 5
  | .subscribing left => left.length + 4
  | .calling => 4
  | .polling | .failed | .sleeping _ => 3
  | .polled _ | .deciding | .waiting _ => 2
  | .leaving => 1
  | .ended => 0

/-- How much longer the thread may sleep, how many events it may still receive, and how many
calls it may still make, once the stop flag is set. -/
def Place.sleeps : Place → Nat
  | .sleeping _ => SLICE
  | _ => 0

def Place.receives : Place → Nat
  | .passed _ | .acknowledged | .subscribing _ | .calling | .polling => 1
  | _ => 0

def Place.callsBack : Place → Nat
  | .passed _ => 1
  | _ => 0

/-- What the stop flag leaves of the work: less with every action. -/
structure Winds (topics : List String) (before after : State) : Prop where
  stop : after.stop = true
  less : after.place = before.place ∨
    after.place.remaining topics < before.place.remaining topics
  slept : after.slept + after.place.sleeps ≤ before.slept + before.place.sleeps
  received : after.received.length + after.place.receives ≤
    before.received.length + before.place.receives
  calls : after.calls.length + after.place.callsBack ≤
    before.calls.length + before.place.callsBack

/-- A step that leaves the thread where it is. -/
theorem winds_still
    {later : State} (stop : later.stop = true) (place : later.place = state.place)
    (slept : later.slept = state.slept) (received : later.received = state.received)
    (calls : later.calls = state.calls) : Winds topics state later :=
  ⟨stop, Or.inl place, Nat.le_of_eq (by rw [slept, place]),
    Nat.le_of_eq (by rw [received, place]), Nat.le_of_eq (by rw [calls, place])⟩

theorem winds_leaving
    (stop : state.stop = true) (looping : state.Looping) :
    Winds topics state { state with place := .leaving } := by
  refine ⟨stop, Or.inr ?_, Nat.add_le_add_left (Nat.zero_le _) _,
    Nat.add_le_add_left (Nat.zero_le _) _, Nat.add_le_add_left (Nat.zero_le _) _⟩
  have inside := looping
  cases place : state.place with
  | leaving =>
      exact absurd place inside.1
  | ended =>
      exact absurd place inside.2
  | _ =>
      simp [Place.remaining]

theorem winds_advance (stop : state.stop = true) : Winds topics state (state.advance topics) := by
  unfold State.advance
  split
  · rename_i event place
    rw [if_pos stop]
    exact winds_leaving stop ⟨by rw [place]; nofun, by rw [place]; nofun⟩
  · rename_i event place
    cases event with
    | publish topic payload =>
        refine ⟨stop, Or.inr ?_, ?_, ?_, ?_⟩ <;>
          simp [State.dispatch, place, Place.remaining, Place.sleeps, Place.receives,
            Place.callsBack]
    | connAck | other | error =>
        refine ⟨stop, Or.inr ?_, ?_, ?_, ?_⟩ <;>
          simp [State.dispatch, place, Place.remaining, Place.sleeps, Place.receives,
            Place.callsBack]
  · rename_i place
    refine ⟨stop, Or.inr ?_, ?_, ?_, ?_⟩ <;>
      simp [place, Place.remaining, Place.sleeps, Place.receives, Place.callsBack]
  · rename_i place
    refine ⟨stop, Or.inr ?_, ?_, ?_, ?_⟩ <;>
      simp [place, Place.remaining, Place.sleeps, Place.receives, Place.callsBack]
  · rename_i topic left place
    split
    · refine ⟨stop, Or.inr ?_, ?_, ?_, ?_⟩ <;>
        simp [place, Place.remaining, Place.sleeps, Place.receives, Place.callsBack]
    · exact winds_still stop rfl rfl rfl rfl
  · rename_i place
    refine ⟨stop, Or.inr ?_, ?_, ?_, ?_⟩ <;>
      simp [place, Place.remaining, Place.sleeps, Place.receives, Place.callsBack]
  · rename_i place
    rw [State.unlessStopped, if_pos stop]
    exact winds_leaving stop ⟨by rw [place]; nofun, by rw [place]; nofun⟩
  · rename_i slept place
    have leaves : Winds topics state { state with place := .leaving } :=
      winds_leaving stop ⟨by rw [place]; nofun, by rw [place]; nofun⟩
    split
    · rw [State.unlessStopped, if_pos stop]
      exact leaves
    · exact leaves
  · rename_i slept place
    refine ⟨stop, Or.inr ?_, ?_, ?_, ?_⟩
    · simp [place, Place.remaining]
    · rw [place]
      exact Nat.add_le_add_left (Nat.min_le_left _ _) _
    · simp [place, Place.receives]
    · simp [place, Place.callsBack]
  · rename_i place
    refine ⟨stop, Or.inr ?_, ?_, ?_, ?_⟩ <;>
      simp [place, Place.remaining, Place.sleeps, Place.receives, Place.callsBack]
  · exact winds_still stop rfl rfl rfl rfl
  · exact winds_still stop rfl rfl rfl rfl
  · exact winds_still stop rfl rfl rfl rfl

theorem winds_step (stop : state.stop = true) (act : Act) :
    Winds topics state (state.step topics act) := by
  have still : Winds topics state state := winds_still stop rfl rfl rfl rfl
  cases act with
  | next event =>
      dsimp only [State.step]
      split
      · rename_i place
        cases event with
        | none =>
            exact winds_leaving stop ⟨by rw [place]; nofun, by rw [place]; nofun⟩
        | some event =>
            refine ⟨stop, Or.inr ?_, ?_, ?_, ?_⟩ <;>
              simp [place, Place.remaining, Place.sleeps, Place.receives, Place.callsBack]
      · exact still
  | advance =>
      exact winds_advance stop
  | returned panicked =>
      dsimp only [State.step]
      split
      · rename_i place
        refine ⟨stop, Or.inr ?_, ?_, ?_, ?_⟩ <;>
          simp [place, Place.remaining, Place.sleeps, Place.receives, Place.callsBack]
      · exact still
  | unwind =>
      dsimp only [State.step]
      split
      · rename_i looping
        exact winds_leaving stop looping
      · exact still
  | request | drain | requestStop | disconnect | join | clear =>
      dsimp only [State.step]
      split
      · exact winds_still (by first | rfl | exact stop) rfl rfl rfl rfl
      · exact still

/-- How many of the acts move the thread. -/
def movesOf (topics : List String) : State → List Act → Nat
  | _, [] => 0
  | state, act :: rest =>
      (if (state.step topics act).place = state.place then 0 else 1) +
        movesOf topics (state.step topics act) rest

/-- After the stop flag is set, the work only gets less. -/
theorem winds_run (stop : state.stop = true) (acts : List Act) :
    (Machine.run (State.step topics) state acts).stop = true ∧
      movesOf topics state acts +
        (Machine.run (State.step topics) state acts).place.remaining topics ≤
          state.place.remaining topics ∧
      (Machine.run (State.step topics) state acts).slept ≤ state.slept + state.place.sleeps ∧
      (Machine.run (State.step topics) state acts).received.length ≤
        state.received.length + state.place.receives ∧
      (Machine.run (State.step topics) state acts).calls.length ≤
        state.calls.length + state.place.callsBack := by
  induction acts generalizing state with
  | nil =>
      refine ⟨stop, ?_, Nat.le_add_right _ _, Nat.le_add_right _ _, Nat.le_add_right _ _⟩
      rw [movesOf, Nat.zero_add]
      exact Nat.le_refl _
  | cons act rest inductionHypothesis =>
      have winds := @winds_step topics _ stop act
      obtain ⟨still, moves, slept, received, calls⟩ := inductionHypothesis winds.stop
      rw [Machine.run_cons]
      refine ⟨still, ?_, Nat.le_trans slept winds.slept, Nat.le_trans received winds.received,
        Nat.le_trans calls winds.calls⟩
      rw [movesOf]
      rcases winds.less with same | less
      · rw [if_pos same, Nat.zero_add]
        rw [same] at moves
        exact moves
      · have moved : (state.step topics act).place ≠ state.place := by
          intro same
          rw [same] at less
          exact absurd less (Nat.lt_irrefl _)
        rw [if_neg moved]
        omega

/-- No more topics are left than there are. -/
def Place.Fits (topics : List String) : Place → Prop
  | .subscribing left => left.length ≤ topics.length
  | _ => True

theorem fits_step (fits : state.place.Fits topics) (act : Act) :
    (state.step topics act).place.Fits topics := by
  cases act with
  | advance =>
      dsimp only [State.step, State.advance]
      split
      · split <;> trivial
      · rename_i event _
        cases event <;> trivial
      · exact Nat.le_refl _
      · trivial
      · rename_i topic left place
        split
        · rw [place] at fits
          exact Nat.le_of_succ_le fits
        · exact fits
      · trivial
      · unfold State.unlessStopped
        dsimp only
        split <;> trivial
      · split
        · unfold State.unlessStopped
          dsimp only
          split <;> trivial
        · split <;> trivial
      · trivial
      · trivial
      · exact fits
      · exact fits
      · exact fits
  | next event =>
      dsimp only [State.step]
      split
      · cases event <;> trivial
      · exact fits
  | returned | unwind =>
      dsimp only [State.step]
      split
      · trivial
      · exact fits
  | request | drain | requestStop | disconnect | join | clear =>
      dsimp only [State.step]
      split <;> exact fits

theorem remaining_le (topics : List String) (acts : List Act) :
    (State.run topics acts).place.remaining topics ≤ topics.length + 6 := by
  have fits : (State.run topics acts).place.Fits topics :=
    @Machine.run_invariant _ _ (State.step topics) {} (fun state => state.place.Fits topics) trivial
      (fun _ act before => fits_step before act) acts
  cases place : (State.run topics acts).place with
  | subscribing left =>
      rw [place] at fits
      exact Nat.add_le_add (show left.length ≤ topics.length from fits) (by decide)
  | _ =>
      simp only [Place.remaining]
      omega

/-- The thread waits in a subscription, since the queue is full. -/
def State.Blocked (state : State) : Prop :=
  ∃ topic left, state.place = .subscribing (topic :: left) ∧ ¬ state.Room

/-- The thread goes on unless it waits for the connection, for the callback or for room in the
queue. -/
theorem advance_moves
    (polling : state.place ≠ .polling) (calling : state.place ≠ .calling)
    (blocked : ¬ state.Blocked) (ended : state.place ≠ .ended) :
    (state.advance topics).place ≠ state.place := by
  unfold State.advance
  split
  · rename_i event place
    rw [place]
    split <;> nofun
  · rename_i event place
    rw [place]
    cases event <;> nofun
  · rename_i place
    rw [place]
    nofun
  · rename_i place
    rw [place]
    nofun
  · rename_i topic left place
    split
    · rw [place]
      intro same
      have shorter : left = topic :: left := by
        injection same
      exact absurd (congrArg List.length shorter) (Nat.ne_of_lt (Nat.lt_succ_self _))
    · rename_i full
      exact absurd ⟨topic, left, place, full⟩ blocked
  · rename_i place
    rw [place]
    nofun
  · rename_i place
    rw [place, State.unlessStopped]
    dsimp only
    split <;> nofun
  · rename_i place
    rw [place]
    unfold State.unlessStopped
    split
    · dsimp only
      split <;> nofun
    · split <;> nofun
  · rename_i place
    rw [place]
    nofun
  · rename_i place
    rw [place]
    nofun
  · rename_i place
    exact absurd place polling
  · rename_i place
    exact absurd place calling
  · rename_i place
    exact absurd place ended

/-- A thread that waits for room waits on, since only its own polls make room. -/
theorem blocked_step
    (blocked : state.Blocked) {act : Act} (calm : act ≠ .unwind) :
    (state.step topics act).Blocked ∧ (state.step topics act).place = state.place := by
  obtain ⟨topic, left, place, full⟩ := blocked
  have stays : state.Blocked := ⟨topic, left, place, full⟩
  cases act with
  | unwind =>
      exact absurd rfl calm
  | advance =>
      have still : state.advance topics = state := by
        rw [State.advance, place]
        exact if_neg full
      rw [State.step, still]
      exact ⟨stays, rfl⟩
  | next | returned | drain =>
      have elsewhere : state.place ≠ .polling ∧ state.place ≠ .calling := by
        rw [place]
        exact ⟨nofun, nofun⟩
      simp only [State.step, elsewhere.1, elsewhere.2, if_false]
      exact ⟨stays, trivial⟩
  | request =>
      rw [State.step, if_neg full]
      exact ⟨stays, rfl⟩
  | disconnect =>
      have refused : ¬ (state.caller = .stopping ∧ (state.Room ∨ state.place = .ended)) := by
        rw [place]
        rintro ⟨_, room | ended⟩
        · exact full room
        · cases ended
      rw [State.step, if_neg refused]
      exact ⟨stays, rfl⟩
  | requestStop | join | clear =>
      dsimp only [State.step]
      split
      · exact ⟨⟨topic, left, place, full⟩, rfl⟩
      · exact ⟨stays, rfl⟩

theorem blocked_run
    (blocked : state.Blocked) {acts : List Act} (calm : Act.unwind ∉ acts) :
    (Machine.run (State.step topics) state acts).place = state.place := by
  induction acts generalizing state with
  | nil =>
      rfl
  | cons act rest inductionHypothesis =>
      obtain ⟨stays, same⟩ := @blocked_step topics state blocked act fun panics =>
        calm (panics ▸ List.mem_cons_self)
      rw [Machine.run_cons, inductionHypothesis stays fun later =>
        calm (List.mem_cons_of_mem _ later), same]

end Stopping

/-- Once the stop flag is set, in whatever state the thread is: it takes at most as many further
actions as there are topics and six more, sleeps at most one slice, receives at most one event
and makes at most one call; unless it waits for the connection, for the callback or for room in
the queue, it can always go on until it has ended, with the flag down; and when it waits for
room, nothing but a panic brings it on. -/
theorem stop_is_prompt
    (topics : List String) (acts later : List Act)
    (stop : (State.run topics acts).stop = true) :
    movesOf topics (State.run topics acts) later ≤ topics.length + 6 ∧
    (State.run topics (acts ++ later)).slept ≤ (State.run topics acts).slept + SLICE ∧
    (State.run topics (acts ++ later)).received.length ≤
      (State.run topics acts).received.length + 1 ∧
    (State.run topics (acts ++ later)).calls.length ≤ (State.run topics acts).calls.length + 1 ∧
    ((State.run topics (acts ++ later)).place = .polling ∨
      (State.run topics (acts ++ later)).place = .calling ∨
      (State.run topics (acts ++ later)).Blocked ∨
      ((State.run topics (acts ++ later)).place = .ended ∧
        (State.run topics (acts ++ later)).connected = false) ∨
      (State.run topics (acts ++ later ++ [.advance])).place ≠
        (State.run topics (acts ++ later)).place) ∧
    ((State.run topics acts).Blocked → Act.unwind ∉ later →
      (State.run topics (acts ++ later)).place = (State.run topics acts).place) := by
  obtain ⟨_, moves, slept, received, calls⟩ :=
    @winds_run topics _ stop later
  have whole : State.run topics (acts ++ later) =
      Machine.run (State.step topics) (State.run topics acts) later := Machine.run_append
  rw [← whole] at moves slept received calls
  have bounds (place : Place) :
      place.sleeps ≤ SLICE ∧ place.receives ≤ 1 ∧ place.callsBack ≤ 1 := by
    cases place <;> simp [Place.sleeps, Place.receives, Place.callsBack]
  obtain ⟨sleeps, receives, callsBack⟩ := bounds (State.run topics acts).place
  have remaining := remaining_le topics acts
  refine ⟨by omega, by omega, by omega, by omega, ?_, fun blocked calm => ?_⟩
  · by_cases polling : (State.run topics (acts ++ later)).place = .polling
    · exact Or.inl polling
    by_cases calling : (State.run topics (acts ++ later)).place = .calling
    · exact Or.inr (Or.inl calling)
    by_cases blocked : (State.run topics (acts ++ later)).Blocked
    · exact Or.inr (Or.inr (Or.inl blocked))
    by_cases ended : (State.run topics (acts ++ later)).place = .ended
    · have sound := sound_run topics (acts ++ later)
      exact Or.inr (Or.inr (Or.inr (Or.inl
        ⟨ended, (sound.left fun looping => looping.2 ended).ended ended⟩)))
    · have next : State.run topics (acts ++ later ++ [.advance]) =
          (State.run topics (acts ++ later)).advance topics := Machine.run_concat
      rw [next]
      exact Or.inr (Or.inr (Or.inr (Or.inr (advance_moves polling calling blocked ended))))
  · rw [whole]
    exact blocked_run blocked calm

/-- A session that was connected, subscribed and received a publish, and that is asked to stop
while it sleeps after an error. -/
def interrupted : List Act :=
  [.next (some .connAck), .advance, .advance, .advance, .advance, .advance, .drain 1,
    .next (some (.publish "chat" [1])), .advance, .advance, .returned false,
    .next (some .error), .advance, .advance, .advance, .advance, .advance, .requestStop]

/-- What is left to do. -/
def ending : List Act :=
  [.disconnect, .advance, .advance, .advance, .join, .clear]

theorem stop_is_prompt_sleeping :
    (State.run ["chat"] interrupted).place = .sleeping 0 ∧
    (State.run ["chat"] (interrupted ++ ending)).caller = .stopped ∧
    (State.run ["chat"] (interrupted ++ ending)).subscriptions = ["chat"] ∧
    movesOf ["chat"] (State.run ["chat"] interrupted) ending ≤ 7 ∧
    (State.run ["chat"] (interrupted ++ ending)).slept ≤
      (State.run ["chat"] interrupted).slept + SLICE :=
  have prompt := stop_is_prompt ["chat"] interrupted ending (by decide)
  ⟨by decide, by decide, by decide, prompt.1, prompt.2.1⟩

end EventLoop

end AgentMsg
