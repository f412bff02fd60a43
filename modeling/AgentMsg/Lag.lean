import AgentMsg.Follow
import AgentMsg.Lib.Machine

/-!
# The lag signal of a streaming subscriber

A push keeps the registry locked over two `try_send`s to a subscriber: the lag notice that
is outstanding, and the message.  The thread that serves the subscriber takes frames from
the channel without that lock, so it may take one between the two.
-/

namespace AgentMsg

/-! ## Frames -/

/-- The messages among frames. -/
def messagesIn (frames : List StreamFrame) : List StoredMsg :=
  frames.filterMap fun frame =>
    match frame with
    | .message msg => some msg
    | .lagged _ => none

/-- How many messages the lag notices among frames report. -/
def lagIn (frames : List StreamFrame) : Nat :=
  (frames.map fun frame =>
    match frame with
    | .message _ => 0
    | .lagged dropped => dropped).sum

section Frames

variable {first second : List StreamFrame}

theorem messagesIn_append :
    messagesIn (first ++ second) = messagesIn first ++ messagesIn second :=
  List.filterMap_append

theorem lagIn_append : lagIn (first ++ second) = lagIn first + lagIn second := by
  simp [lagIn]

@[simp]
theorem messagesIn_message (msg : StoredMsg) : messagesIn [.message msg] = [msg] :=
  rfl

@[simp]
theorem messagesIn_lagged (dropped : Nat) : messagesIn [.lagged dropped] = [] :=
  rfl

@[simp]
theorem lagIn_message (msg : StoredMsg) : lagIn [.message msg] = 0 :=
  rfl

@[simp]
theorem lagIn_lagged (dropped : Nat) : lagIn [.lagged dropped] = dropped := by
  simp [lagIn]

end Frames

namespace Lag

/-! ## One subscriber, its pushes and its thread -/

/-- How far the push that holds the registry lock is with the subscriber. -/
inductive Stage where
  | idle
  | flushing (msg : StoredMsg)
  | offering (msg : StoredMsg)
  deriving DecidableEq, Repr

/-- A message that was offered to the channel, and whether the channel took it. -/
structure Offer where
  msg : StoredMsg
  taken : Bool
  deriving DecidableEq, Repr

/-- A subscriber since its registration, with the messages that pushes have offered it and
the frames that its thread has received. -/
structure Feed where
  subscriber : Subscriber
  registered : Bool := true
  stage : Stage := .idle
  offers : List Offer := []
  received : List StreamFrame := []
  deriving DecidableEq, Repr

/-- The frames that entered the channel, in their order. -/
def Feed.sent (feed : Feed) : List StreamFrame :=
  feed.received ++ feed.subscriber.queue

/-- Is there room in the channel? -/
def Feed.Room (feed : Feed) : Prop :=
  feed.subscriber.queue.length < CHANNEL_CAPACITY

instance (feed : Feed) : Decidable feed.Room :=
  inferInstanceAs (Decidable (_ < _))

inductive Step where
  /-- A push takes the registry lock. -/
  | push (msg : StoredMsg)
  /-- The lag notice is tried. -/
  | flush
  /-- The message is tried, and the lock is released. -/
  | offer
  /-- The serving thread takes a frame. -/
  | receive
  /-- The serving thread has ended. -/
  | hangUp
  deriving DecidableEq, Repr

def step (feed : Feed) : Step → Feed
  | .push msg =>
      match feed.stage with
      | .idle => if feed.registered then { feed with stage := .flushing msg } else feed
      | _ => feed
  | .flush =>
      match feed.stage with
      | .flushing msg =>
          match feed.subscriber.flushLag with
          | some flushed => { feed with subscriber := flushed, stage := .offering msg }
          | none => { feed with registered := false, stage := .idle }
      | _ => feed
  | .offer =>
      match feed.stage with
      | .offering msg =>
          match feed.subscriber.offer msg with
          | some offered =>
              { feed with
                subscriber := offered, stage := .idle
                offers := feed.offers ++ [⟨msg, decide feed.Room⟩] }
          | none => { feed with registered := false, stage := .idle }
      | _ => feed
  | .receive =>
      match feed.subscriber.connected, feed.subscriber.queue with
      | true, frame :: queue =>
          { feed with
            subscriber := { feed.subscriber with queue }
            received := feed.received ++ [frame] }
      | _, _ => feed
  | .hangUp => { feed with subscriber := { feed.subscriber with connected := false } }

/-- A subscriber as it is registered. -/
def start (id : Nat) (consumer : String) : Feed :=
  { subscriber := { id, consumer } }

/-- The steps after the registration. -/
def run (id : Nat) (consumer : String) (steps : List Step) : Feed :=
  Machine.run step (start id consumer) steps

/-- A push during which the thread receives nothing does to the subscriber what the push to
all subscribers does. -/
theorem run_push
    {feed : Feed} (idle : feed.stage = .idle) (registered : feed.registered = true)
    (msg : StoredMsg) :
    let pushed := Machine.run step feed [.push msg, .flush, .offer]
    pushed.registered = (feed.subscriber.push msg).isSome ∧
      ∀ later, feed.subscriber.push msg = some later → pushed.subscriber = later := by
  have started : step feed (.push msg) = { feed with stage := .flushing msg } := by
    simp [step, idle, registered]
  simp only [Machine.run_cons, Machine.run_nil, started, Subscriber.push]
  cases flushes : feed.subscriber.flushLag with
  | none =>
      simp [step, flushes]
  | some flushed =>
      cases offers : flushed.offer msg with
      | none =>
          simp [step, flushes, offers]
      | some offered =>
          simp [step, flushes, offers, registered]

/-! ## What a step does -/

/-- What a step makes of the feed. -/
inductive Effect (feed : Feed) : Step → Feed → Prop
  | nothing (item : Step) : Effect feed item feed
  | pushes (msg : StoredMsg) (idle : feed.stage = .idle) :
      Effect feed (.push msg) { feed with stage := .flushing msg }
  | upToDate (msg : StoredMsg) (flushing : feed.stage = .flushing msg)
      (undropped : feed.subscriber.dropped = 0) :
      Effect feed .flush { feed with stage := .offering msg }
  | reports (msg : StoredMsg) (flushing : feed.stage = .flushing msg)
      (live : feed.subscriber.connected = true) (dropped : 0 < feed.subscriber.dropped)
      (room : feed.Room) :
      Effect feed .flush
        { feed with
          subscriber := { feed.subscriber with
            queue := feed.subscriber.queue ++ [.lagged feed.subscriber.dropped], dropped := 0 }
          stage := .offering msg }
  | holdsBack (msg : StoredMsg) (flushing : feed.stage = .flushing msg)
      (dropped : 0 < feed.subscriber.dropped) (full : ¬ feed.Room) :
      Effect feed .flush { feed with stage := .offering msg }
  | takes (msg : StoredMsg) (offering : feed.stage = .offering msg)
      (live : feed.subscriber.connected = true) (room : feed.Room) :
      Effect feed .offer
        { feed with
          subscriber := { feed.subscriber with
            queue := feed.subscriber.queue ++ [.message msg] }
          stage := .idle
          offers := feed.offers ++ [⟨msg, true⟩] }
  | misses (msg : StoredMsg) (offering : feed.stage = .offering msg)
      (live : feed.subscriber.connected = true) (full : ¬ feed.Room) :
      Effect feed .offer
        { feed with
          subscriber := { feed.subscriber with dropped := feed.subscriber.dropped + 1 }
          stage := .idle
          offers := feed.offers ++ [⟨msg, false⟩] }
  | leaves (item : Step) (gone : feed.subscriber.connected = false) :
      Effect feed item { feed with registered := false, stage := .idle }
  | receives (frame : StreamFrame) (queue : List StreamFrame)
      (live : feed.subscriber.connected = true)
      (first : feed.subscriber.queue = frame :: queue) :
      Effect feed .receive
        { feed with
          subscriber := { feed.subscriber with queue }
          received := feed.received ++ [frame] }
  | hangsUp :
      Effect feed .hangUp
        { feed with subscriber := { feed.subscriber with connected := false } }

section Effects

variable {feed : Feed}

theorem trySend_cases (s : Subscriber) (frame : StreamFrame) :
    (s.connected = false ∧ s.trySend frame = .error .disconnected) ∨
      (s.connected = true ∧ s.queue.length < CHANNEL_CAPACITY ∧
        s.trySend frame = .ok { s with queue := s.queue ++ [frame] }) ∨
      (s.connected = true ∧ ¬ s.queue.length < CHANNEL_CAPACITY ∧
        s.trySend frame = .error .full) := by
  unfold Subscriber.trySend
  cases live : s.connected with
  | false =>
      exact Or.inl ⟨rfl, by simp⟩
  | true =>
      by_cases room : s.queue.length < CHANNEL_CAPACITY
      · exact Or.inr (Or.inl ⟨rfl, room, by simp [room]⟩)
      · exact Or.inr (Or.inr ⟨rfl, room, by simp [room]⟩)

theorem effect_flush {msg : StoredMsg} (flushing : feed.stage = .flushing msg) :
    Effect feed .flush (step feed .flush) := by
  by_cases dropped : 0 < feed.subscriber.dropped
  · rcases trySend_cases feed.subscriber (.lagged feed.subscriber.dropped) with
      ⟨gone, sends⟩ | ⟨live, room, sends⟩ | ⟨_, full, sends⟩
    · have next : step feed .flush = { feed with registered := false, stage := .idle } := by
        simp [step, flushing, Subscriber.flushLag, dropped, sends]
      rw [next]
      exact .leaves .flush gone
    · have next := Effect.reports msg flushing live dropped room
      simpa [step, flushing, Subscriber.flushLag, dropped, sends] using next
    · have next := Effect.holdsBack msg flushing dropped full
      simpa [step, flushing, Subscriber.flushLag, dropped, sends] using next
  · have undropped : feed.subscriber.dropped = 0 := Nat.eq_zero_of_not_pos dropped
    have next := Effect.upToDate msg flushing undropped
    simpa [step, flushing, Subscriber.flushLag, undropped] using next

theorem effect_offer {msg : StoredMsg} (offering : feed.stage = .offering msg) :
    Effect feed .offer (step feed .offer) := by
  rcases trySend_cases feed.subscriber (.message msg) with
    ⟨gone, sends⟩ | ⟨live, room, sends⟩ | ⟨live, full, sends⟩
  · have next : step feed .offer = { feed with registered := false, stage := .idle } := by
      simp [step, offering, Subscriber.offer, sends]
    rw [next]
    exact .leaves .offer gone
  · have next := Effect.takes msg offering live room
    have taken : decide feed.Room = true := decide_eq_true room
    simpa [step, offering, Subscriber.offer, sends, taken] using next
  · have next := Effect.misses msg offering live full
    have missed : decide feed.Room = false := decide_eq_false full
    simpa [step, offering, Subscriber.offer, sends, missed] using next

theorem step_effect (feed : Feed) (item : Step) : Effect feed item (step feed item) := by
  cases item with
  | push msg =>
      simp only [step]
      split
      · rename_i idle
        split
        · exact .pushes msg idle
        · exact .nothing _
      · exact .nothing _
  | flush =>
      cases stage : feed.stage with
      | flushing msg =>
          exact effect_flush stage
      | _ =>
          simp only [step, stage]
          exact .nothing _
  | offer =>
      cases stage : feed.stage with
      | offering msg =>
          exact effect_offer stage
      | _ =>
          simp only [step, stage]
          exact .nothing _
  | receive =>
      simp only [step]
      split
      · rename_i frame queue live first
        exact .receives frame queue live first
      · exact .nothing _
  | hangUp =>
      exact .hangsUp

end Effects

/-! ## The accounts balance -/

/-- The messages that the channel took, in push order. -/
def takenIn (offers : List Offer) : List StoredMsg :=
  (offers.filter Offer.taken).map Offer.msg

/-- How many messages the channel had no room for. -/
def missedIn (offers : List Offer) : Nat :=
  (offers.filter fun offer => !offer.taken).length

theorem takenIn_concat_taken (offers : List Offer) (msg : StoredMsg) :
    takenIn (offers ++ [⟨msg, true⟩]) = takenIn offers ++ [msg] := by
  simp [takenIn]

theorem takenIn_concat_missed (offers : List Offer) (msg : StoredMsg) :
    takenIn (offers ++ [⟨msg, false⟩]) = takenIn offers := by
  simp [takenIn]

theorem length_eq_taken_add_missed (offers : List Offer) :
    offers.length = (takenIn offers).length + missedIn offers := by
  rw [takenIn, List.length_map, missedIn]
  exact List.length_eq_length_filter_add Offer.taken

/-- Every message that was offered is in the channel or behind it, reported as missed, or
still counted; the channel keeps the order. -/
structure Balanced (feed : Feed) : Prop where
  order : messagesIn feed.sent = takenIn feed.offers
  count : missedIn feed.offers = lagIn feed.sent + feed.subscriber.dropped

theorem balanced_start (id : Nat) (consumer : String) : Balanced (start id consumer) :=
  ⟨rfl, rfl⟩

theorem Balanced.keeps {feed : Feed} (balanced : Balanced feed) (item : Step) :
    Balanced (step feed item) := by
  obtain ⟨order, count⟩ := balanced
  have effect := step_effect feed item
  generalize step feed item = later at effect ⊢
  cases effect with
  | nothing | pushes | upToDate | holdsBack | leaves | hangsUp =>
      exact ⟨order, count⟩
  | reports msg flushing live dropped room =>
      constructor
      · simp only [Feed.sent, ← List.append_assoc]
        rw [messagesIn_append, messagesIn_lagged, List.append_nil]
        exact order
      · simp only [Feed.sent, ← List.append_assoc]
        rw [lagIn_append, lagIn_lagged]
        exact count
  | takes msg offering live room =>
      constructor
      · simp only [Feed.sent, ← List.append_assoc]
        rw [messagesIn_append, messagesIn_message, takenIn_concat_taken]
        exact congrArg (· ++ [msg]) order
      · simp only [Feed.sent, ← List.append_assoc]
        rw [lagIn_append, lagIn_message]
        simpa [missedIn, Feed.sent] using count
  | misses msg offering live full =>
      constructor
      · rw [takenIn_concat_missed]
        exact order
      · have more : missedIn (feed.offers ++ [⟨msg, false⟩]) = missedIn feed.offers + 1 := by
          simp [missedIn]
        rw [more, count, Nat.add_assoc]
        rfl
  | receives frame queue live first =>
      have same : (feed.received ++ [frame]) ++ queue = feed.sent := by
        rw [Feed.sent, first, List.append_assoc, List.singleton_append]
      constructor
      · exact (congrArg messagesIn same).trans order
      · exact count.trans (congrArg (lagIn · + feed.subscriber.dropped) same.symm)

theorem balanced_run (id : Nat) (consumer : String) (steps : List Step) :
    Balanced (run id consumer steps) :=
  Machine.run_invariant (balanced_start id consumer)
    (fun _ item balanced => balanced.keeps item) steps

end Lag

/-- Every message that was pushed to a subscriber since its registration has entered the
channel, is part of a lag notice that entered it, or is still counted as dropped; and what
the subscriber receives is a subsequence of the pushes, in their order and each at most
once. -/
theorem lag_accounted
    (id : Nat) (consumer : String) (steps : List Lag.Step) :
    let feed := Lag.run id consumer steps
    feed.offers.length =
        (messagesIn feed.sent).length + lagIn feed.sent + feed.subscriber.dropped ∧
      (messagesIn feed.received).Sublist (feed.offers.map Lag.Offer.msg) ∧
      ((feed.offers.map Lag.Offer.msg).Nodup → (messagesIn feed.received).Nodup) := by
  intro feed
  obtain ⟨order, count⟩ := Lag.balanced_run id consumer steps
  have taken : (messagesIn feed.sent).Sublist (feed.offers.map Lag.Offer.msg) := by
    rw [order]
    exact List.filter_sublist.map _
  have received : (messagesIn feed.received).Sublist (messagesIn feed.sent) := by
    rw [Lag.Feed.sent, messagesIn_append]
    exact List.sublist_append_left _ _
  have subsequence := received.trans taken
  refine ⟨?_, subsequence, subsequence.nodup⟩
  have total := Lag.length_eq_taken_add_missed feed.offers
  rw [← order, count] at total
  rw [total, Nat.add_assoc]

namespace Lag

/-! ## Messages come after the notice of what was missed -/

/-- The message comes from a push before which the channel took what the earlier frames
carry, and missed as many messages as they report. -/
def Told (offers : List Offer) (earlier : List StreamFrame) (msg : StoredMsg) : Prop :=
  ∃ before after, offers = before ++ ⟨msg, true⟩ :: after ∧
    takenIn before = messagesIn earlier ∧ missedIn before = lagIn earlier

/-- Whenever the subscriber received a message, it had been told how many of the earlier
messages it missed. -/
def Informed (feed : Feed) : Prop :=
  ∀ earlier msg later, feed.received = earlier ++ .message msg :: later →
    Told feed.offers earlier msg

/-- No frame is taken between the two sends of a push while dropped messages are not
reported yet. -/
def Undisturbed (feed : Feed) (item : Step) : Prop :=
  item = .receive → ∀ msg, feed.stage = .offering msg → feed.subscriber.dropped = 0

theorem Told.more
    {offers more : List Offer} {earlier : List StreamFrame} {msg : StoredMsg}
    (told : Told offers earlier msg) : Told (offers ++ more) earlier msg := by
  obtain ⟨before, after, rfl, taken, missed⟩ := told
  exact ⟨before, after ++ more, by simp, taken, missed⟩

/-- Every message in the channel or behind it comes after its notice, and a message that is
about to enter the channel has nothing left to report. -/
structure Announced (feed : Feed) : Prop where
  balanced : Balanced feed
  window : ∀ msg, feed.stage = .offering msg → feed.Room → feed.subscriber.dropped = 0
  told : ∀ earlier msg later, feed.sent = earlier ++ .message msg :: later →
    Told feed.offers earlier msg

theorem announced_start (id : Nat) (consumer : String) : Announced (start id consumer) := by
  refine ⟨balanced_start id consumer, fun msg offering => ?_, fun earlier msg later split => ?_⟩
  · cases offering
  · simp [Feed.sent, start] at split

theorem told_concat_lagged
    {sent : List StreamFrame} {offers : List Offer} {dropped : Nat}
    (told : ∀ earlier msg later, sent = earlier ++ .message msg :: later →
      Told offers earlier msg)
    (earlier : List StreamFrame) (msg : StoredMsg) (later : List StreamFrame)
    (split : sent ++ [.lagged dropped] = earlier ++ .message msg :: later) :
    Told offers earlier msg := by
  rcases List.eq_nil_or_concat later with rfl | ⟨rest, last, rfl⟩
  · obtain ⟨_, same⟩ := List.append_inj' split rfl
    cases same
  · rw [List.concat_eq_append, ← List.cons_append, ← List.append_assoc] at split
    exact told earlier msg rest (List.append_inj' split rfl).1

theorem told_concat_message
    {sent : List StreamFrame} {offers : List Offer} {taken : StoredMsg}
    (told : ∀ earlier msg later, sent = earlier ++ .message msg :: later →
      Told offers earlier msg)
    (order : takenIn offers = messagesIn sent) (count : missedIn offers = lagIn sent)
    (earlier : List StreamFrame) (msg : StoredMsg) (later : List StreamFrame)
    (split : sent ++ [.message taken] = earlier ++ .message msg :: later) :
    Told (offers ++ [⟨taken, true⟩]) earlier msg := by
  rcases List.eq_nil_or_concat later with rfl | ⟨rest, last, rfl⟩
  · obtain ⟨rfl, same⟩ := List.append_inj' split rfl
    cases same
    exact ⟨offers, [], rfl, order, count⟩
  · rw [List.concat_eq_append, ← List.cons_append, ← List.append_assoc] at split
    exact (told earlier msg rest (List.append_inj' split rfl).1).more

theorem Announced.keeps
    {feed : Feed} (announced : Announced feed) {item : Step} (undisturbed : Undisturbed feed item) :
    Announced (step feed item) := by
  have balanced := announced.balanced.keeps item
  obtain ⟨⟨order, count⟩, window, told⟩ := announced
  have effect := step_effect feed item
  generalize step feed item = later at effect balanced ⊢
  cases effect with
  | nothing =>
      exact ⟨balanced, window, told⟩
  | pushes | leaves =>
      exact ⟨balanced, fun _ offering _ => (nomatch offering), told⟩
  | upToDate msg flushing undropped =>
      exact ⟨balanced, fun _ _ _ => undropped, told⟩
  | reports msg flushing live dropped room =>
      refine ⟨balanced, fun _ _ _ => rfl, ?_⟩
      simp only [Feed.sent, ← List.append_assoc]
      exact told_concat_lagged told
  | holdsBack msg flushing dropped full =>
      exact ⟨balanced, fun _ _ room => absurd room full, told⟩
  | takes msg offering live room =>
      refine ⟨balanced, fun _ offering _ => (nomatch offering), ?_⟩
      have undropped := window msg offering room
      simp only [Feed.sent, ← List.append_assoc]
      exact told_concat_message told order.symm (by rw [count, undropped]; rfl)
  | misses msg offering live full =>
      exact ⟨balanced, fun _ offering _ => (nomatch offering),
        fun earlier msg later split => (told earlier msg later split).more⟩
  | receives frame queue live first =>
      refine ⟨balanced, fun msg offering _ => undisturbed rfl msg offering, ?_⟩
      have same : (feed.received ++ [frame]) ++ queue = feed.sent := by
        rw [Feed.sent, first, List.append_assoc, List.singleton_append]
      intro earlier msg later split
      exact told earlier msg later (same.symm.trans split)
  | hangsUp =>
      exact ⟨balanced, window, told⟩

theorem Announced.informed {feed : Feed} (announced : Announced feed) : Informed feed := by
  intro earlier msg later split
  refine announced.told earlier msg (later ++ feed.subscriber.queue) ?_
  rw [Feed.sent, split]
  simp

end Lag

/-- In every run in which no frame is taken between the two sends of a push while dropped
messages are unreported, the subscriber learns how many messages it missed before it
receives the next one. -/
theorem lag_announced
    (id : Nat) (consumer : String) (steps : List Lag.Step)
    (undisturbed :
      Machine.EveryStep Lag.step Lag.Undisturbed (Lag.start id consumer) steps) :
    ∀ earlier later, steps = earlier ++ later → Lag.Informed (Lag.run id consumer earlier) := by
  rintro earlier later rfl
  have announced : Lag.Announced (Lag.run id consumer earlier) :=
    undisturbed.initial.invariant (Lag.announced_start id consumer)
      fun _ _ before condition => before.keeps condition
  exact announced.informed

namespace Lag

/-! ## Bursts -/

section Bursts

variable {feed : Feed} {msg : StoredMsg}

/-- Messages pushed one after another. -/
def pushes (msg : StoredMsg) (count : Nat) : List Step :=
  (List.replicate count [.push msg, .flush, .offer]).flatten

/-- A subscriber whose channel has taken a message a number of times. -/
def filled (id : Nat) (consumer : String) (msg : StoredMsg) (count : Nat) : Feed :=
  { subscriber := { id, consumer, queue := List.replicate count (.message msg) }
    offers := List.replicate count ⟨msg, true⟩ }

theorem run_pushes
    (id : Nat) (consumer : String) (msg : StoredMsg) {count : Nat}
    (within : count ≤ CHANNEL_CAPACITY) :
    run id consumer (pushes msg count) = filled id consumer msg count := by
  induction count with
  | zero =>
      rfl
  | succ count inductionHypothesis =>
      have room : count < CHANNEL_CAPACITY := within
      rw [pushes, List.replicate_succ', List.flatten_append, run, Machine.run_append]
      have before := inductionHypothesis (Nat.le_of_lt room)
      rw [run, pushes] at before
      rw [before]
      simp [filled, step, Subscriber.flushLag, Subscriber.offer, Subscriber.trySend, Feed.Room,
        room, List.replicate_succ']

theorem run_receives
    (live : feed.subscriber.connected = true) (count : Nat) :
    Machine.run step feed (List.replicate count .receive) =
      { feed with
        subscriber := { feed.subscriber with queue := feed.subscriber.queue.drop count }
        received := feed.received ++ feed.subscriber.queue.take count } := by
  induction count generalizing feed with
  | zero =>
      simp
  | succ count inductionHypothesis =>
      rw [List.replicate_succ, Machine.run_cons]
      cases queued : feed.subscriber.queue with
      | nil =>
          have idle : step feed .receive = feed := by
            simp [step, live, queued]
          rw [idle, inductionHypothesis live, queued]
          simp
      | cons frame queue =>
          have next : step feed .receive =
              { feed with
                subscriber := { feed.subscriber with queue }
                received := feed.received ++ [frame] } := by
            simp [step, live, queued]
          have liveNext : (step feed .receive).subscriber.connected = true := by
            rw [next]
            exact live
          rw [inductionHypothesis liveNext, next]
          simp

end Bursts

/-! ## A frame taken between the two sends -/

theorem not_told_concat
    {offers : List Offer} {sent : List StreamFrame} {msg : StoredMsg}
    (order : messagesIn sent = takenIn offers) (missed : missedIn offers ≠ lagIn sent) :
    ¬ Told (offers ++ [⟨msg, true⟩]) sent msg := by
  rintro ⟨before, after, split, taken, reported⟩
  rcases List.eq_nil_or_concat after with rfl | ⟨rest, last, rfl⟩
  · obtain ⟨rfl, _⟩ := List.append_inj' split rfl
    exact missed reported
  · rw [List.concat_eq_append, ← List.cons_append, ← List.append_assoc] at split
    obtain ⟨rfl, _⟩ := List.append_inj' split rfl
    have longer : (takenIn before).length < (takenIn (before ++ ⟨msg, true⟩ :: rest)).length := by
      simp [takenIn]
    rw [taken, order] at longer
    exact absurd longer (Nat.lt_irrefl _)

/-- When a frame is taken between the two sends while dropped messages are unreported, the
message of that push reaches the subscriber before their notice. -/
theorem not_informed_of_disturbed
    {feed : Feed} {msg : StoredMsg} (balanced : Balanced feed)
    (live : feed.subscriber.connected = true) (offering : feed.stage = .offering msg)
    (dropped : 0 < feed.subscriber.dropped) {frame : StreamFrame} {queue : List StreamFrame}
    (queued : feed.subscriber.queue = frame :: queue)
    (bounded : feed.subscriber.queue.length ≤ CHANNEL_CAPACITY) :
    ¬ Informed (Machine.run step feed
      (.receive :: .offer :: List.replicate feed.subscriber.queue.length .receive)) := by
  have room : queue.length < CHANNEL_CAPACITY := by
    rw [queued, List.length_cons] at bounded
    exact bounded
  have disturbed : step (step feed .receive) .offer =
      { feed with
        subscriber := { feed.subscriber with queue := queue ++ [.message msg] }
        stage := .idle
        offers := feed.offers ++ [⟨msg, true⟩]
        received := feed.received ++ [frame] } := by
    simp [step, live, queued, offering, Subscriber.offer, Subscriber.trySend, Feed.Room, room]
  have liveNext : (step (step feed .receive) .offer).subscriber.connected = true := by
    rw [disturbed]
    exact live
  rw [Machine.run_cons, Machine.run_cons, run_receives liveNext, disturbed]
  intro informed
  have received : (feed.received ++ [frame]) ++
        (queue ++ [StreamFrame.message msg]).take feed.subscriber.queue.length =
      feed.sent ++ [StreamFrame.message msg] := by
    rw [Feed.sent, queued, List.take_of_length_le (by simp)]
    simp
  refine not_told_concat balanced.order ?_ (informed feed.sent msg [] received)
  rw [balanced.count]
  omega

/-- A message of the bursts below. -/
def burstMsg : StoredMsg :=
  { Store.inboundRow
      { id := "m", v := PROTOCOL_VERSION, sender := "alice", recipient := "me", ts := "t0",
        nonce := "", ctype := CTYPE_TEXT, body := "" } "chat" with seq := 1 }

/-- The channel is filled, and one message more is dropped. -/
def burst : List Step :=
  pushes burstMsg CHANNEL_CAPACITY ++ [.push burstMsg, .flush, .offer]

def burstFeed : Feed :=
  { subscriber :=
      { id := 1, consumer := "me",
        queue := List.replicate CHANNEL_CAPACITY (.message burstMsg), dropped := 1 }
    offers := List.replicate CHANNEL_CAPACITY ⟨burstMsg, true⟩ ++ [⟨burstMsg, false⟩] }

theorem run_burst : run 1 "me" burst = burstFeed := by
  have filled := run_pushes 1 "me" burstMsg (Nat.le_refl CHANNEL_CAPACITY)
  rw [run] at filled
  rw [run, burst, Machine.run_append, filled]
  simp [Lag.filled, burstFeed, step, Subscriber.flushLag, Subscriber.offer, Subscriber.trySend,
    Feed.Room]

end Lag

namespace Lag

/-! ## A burst, and a push that reports what it dropped -/

theorem undisturbed_pushes
    (feed : Feed) (msg : StoredMsg) (count : Nat) :
    Machine.EveryStep step Undisturbed feed (pushes msg count) := by
  refine Machine.everyStep_of_forall fun item member reached receives => ?_
  simp [pushes, receives] at member

theorem stage_receive (feed : Feed) : (step feed .receive).stage = feed.stage := by
  simp only [step]
  split <;> rfl

theorem undisturbed_receives
    {feed : Feed} (idle : feed.stage = .idle) (count : Nat) :
    Machine.EveryStep step Undisturbed feed (List.replicate count .receive) := by
  induction count generalizing feed with
  | zero =>
      exact Machine.everyStep_nil
  | succ count inductionHypothesis =>
      refine Machine.everyStep_cons ?_ (inductionHypothesis ((stage_receive feed).trans idle))
      intro _ msg offering
      rw [idle] at offering
      cases offering

section Reporting

variable {feed : Feed} {first second : StreamFrame} {queue : List StreamFrame}

/-- A frame is taken, and another one between the two sends of the next push, when the
notice is in the channel already. -/
def reporting (msg : StoredMsg) : List Step :=
  [.receive, .push msg, .flush, .receive, .offer]

theorem run_reporting_flushed
    (idle : feed.stage = .idle) (registered : feed.registered = true)
    (live : feed.subscriber.connected = true) (dropped : 0 < feed.subscriber.dropped)
    (queued : feed.subscriber.queue = first :: second :: queue)
    (full : feed.subscriber.queue.length = CHANNEL_CAPACITY) (msg : StoredMsg) :
    Machine.run step feed [.receive, .push msg, .flush] =
      { feed with
        subscriber := { feed.subscriber with
          queue := second :: queue ++ [.lagged feed.subscriber.dropped], dropped := 0 }
        stage := .offering msg
        received := feed.received ++ [first] } := by
  have room : queue.length + 1 < CHANNEL_CAPACITY := by
    rw [queued, List.length_cons, List.length_cons] at full
    omega
  simp [step, idle, registered, live, dropped, queued, room, Subscriber.flushLag,
    Subscriber.trySend]

theorem run_reporting
    (idle : feed.stage = .idle) (registered : feed.registered = true)
    (live : feed.subscriber.connected = true) (dropped : 0 < feed.subscriber.dropped)
    (queued : feed.subscriber.queue = first :: second :: queue)
    (full : feed.subscriber.queue.length = CHANNEL_CAPACITY) (msg : StoredMsg) :
    Machine.EveryStep step Undisturbed feed (reporting msg) ∧
      Machine.run step feed (reporting msg) =
        { feed with
          subscriber := { feed.subscriber with
            queue := queue ++ [.lagged feed.subscriber.dropped, .message msg], dropped := 0 }
          offers := feed.offers ++ [⟨msg, true⟩]
          received := feed.received ++ [first, second] } := by
  have flushed := run_reporting_flushed idle registered live dropped queued full msg
  have room : queue.length + 1 < CHANNEL_CAPACITY := by
    rw [queued, List.length_cons, List.length_cons] at full
    omega
  have parts : reporting msg = [.receive, .push msg, .flush] ++ [.receive, .offer] := rfl
  rw [parts, Machine.everyStep_append_iff, Machine.run_append, flushed]
  constructor
  · simp only [Machine.everyStep_cons_iff]
    refine ⟨⟨?_, nofun, nofun, Machine.everyStep_nil⟩, fun _ _ _ => rfl, nofun,
      Machine.everyStep_nil⟩
    intro _ other offering
    rw [idle] at offering
    cases offering
  · simp [step, idle, live, room, Subscriber.offer, Subscriber.trySend, Feed.Room]

end Reporting

/-- The subscriber of the burst when the next push has reported what it missed. -/
def reportedFeed : Feed :=
  { subscriber :=
      { id := 1, consumer := "me",
        queue := List.replicate (CHANNEL_CAPACITY - 2) (.message burstMsg) ++
          [.lagged 1, .message burstMsg] }
    offers := burstFeed.offers ++ [⟨burstMsg, true⟩]
    received := [.message burstMsg, .message burstMsg] }

theorem replicate_capacity (frame : StreamFrame) :
    List.replicate CHANNEL_CAPACITY frame =
      frame :: frame :: List.replicate (CHANNEL_CAPACITY - 2) frame :=
  rfl

theorem run_reporting_burst :
    Machine.EveryStep step Undisturbed burstFeed (reporting burstMsg) ∧
      Machine.run step burstFeed (reporting burstMsg) = reportedFeed :=
  run_reporting rfl rfl rfl Nat.one_pos (replicate_capacity _) List.length_replicate burstMsg

end Lag

/-- After a burst that overfills the channel, the next push reports the message that was
dropped, and the subscriber receives the notice before the message of that push. -/
theorem lag_announced_burst :
    let steps := Lag.burst ++ Lag.reporting Lag.burstMsg ++
      List.replicate CHANNEL_CAPACITY .receive
    Lag.Informed (Lag.run 1 "me" steps) ∧
      (Lag.run 1 "me" steps).received =
        List.replicate CHANNEL_CAPACITY (.message Lag.burstMsg) ++
          [.lagged 1, .message Lag.burstMsg] := by
  intro steps
  obtain ⟨undisturbed, reported⟩ := Lag.run_reporting_burst
  have burst : Machine.run Lag.step (Lag.start 1 "me") Lag.burst = Lag.burstFeed := Lag.run_burst
  have idle : Lag.reportedFeed.stage = .idle := rfl
  have live : Lag.reportedFeed.subscriber.connected = true := rfl
  constructor
  · refine lag_announced 1 "me" steps ?_ steps [] (List.append_nil _).symm
    refine Machine.everyStep_append_iff.mpr ⟨Machine.everyStep_append_iff.mpr ⟨?_, ?_⟩, ?_⟩
    · exact Machine.everyStep_append_iff.mpr
        ⟨Lag.undisturbed_pushes _ _ _, Lag.undisturbed_pushes _ _ 1⟩
    · rw [burst]
      exact undisturbed
    · rw [Machine.run_append, burst, reported]
      exact Lag.undisturbed_receives idle _
  · have whole : Lag.reportedFeed.subscriber.queue.length = CHANNEL_CAPACITY := by
      rw [Lag.reportedFeed, List.length_append, List.length_replicate]
      rfl
    rw [Lag.run, Machine.run_append, Machine.run_append, burst, reported, Lag.run_receives live]
    rw [List.take_of_length_le (Nat.le_of_eq whole), Lag.replicate_capacity]
    rfl

/-- A frame is taken after the lag notice found the channel full, and the message that
enters in its place is received before any notice. -/
theorem message_before_notice :
    ¬ ∀ (id : Nat) (consumer : String) (steps : List Lag.Step),
        Lag.Informed (Lag.run id consumer steps) := by
  intro informed
  have told := informed 1 "me" ((Lag.burst ++ [.push Lag.burstMsg, .flush]) ++
    (.receive :: .offer :: List.replicate CHANNEL_CAPACITY .receive))
  have before := Lag.balanced_run 1 "me" (Lag.burst ++ [.push Lag.burstMsg, .flush])
  have reached : Lag.run 1 "me" (Lag.burst ++ [.push Lag.burstMsg, .flush]) =
      { Lag.burstFeed with stage := .offering Lag.burstMsg } := by
    have burst := Lag.run_burst
    rw [Lag.run] at burst
    rw [Lag.run, Machine.run_append, burst]
    simp [Lag.burstFeed, Lag.step, Subscriber.flushLag, Subscriber.trySend]
  rw [Lag.run, Machine.run_append, ← Lag.run, reached] at told
  rw [reached] at before
  have length : Lag.burstFeed.subscriber.queue.length = CHANNEL_CAPACITY := by
    simp [Lag.burstFeed]
  have uninformed := Lag.not_informed_of_disturbed before rfl rfl (Nat.succ_pos 0) rfl
    (Nat.le_of_eq length)
  rw [length] at uninformed
  exact uninformed told

namespace Lag

/-! ## Dropped messages that nobody reports -/

/-- The message of a push finds the channel full. -/
def Drops (feed : Feed) (item : Step) : Prop :=
  item = .offer ∧ (∃ msg, feed.stage = .offering msg) ∧ feed.subscriber.connected = true ∧
    ¬ feed.Room

/-- A push begins while there is room in the channel. -/
def FindsRoom (feed : Feed) (item : Step) : Prop :=
  item = .flush ∧ (∃ msg, feed.stage = .flushing msg) ∧ feed.subscriber.connected = true ∧
    feed.Room

/-- Every message that found the channel full was followed by a push that began while there
was room. -/
def Followed (id : Nat) (consumer : String) (steps : List Step) : Prop :=
  Machine.Cleared step Drops FindsRoom (start id consumer) steps

theorem dropped_of_drops {feed : Feed} {item : Step} (drops : Drops feed item) :
    0 < (step feed item).subscriber.dropped := by
  obtain ⟨rfl, ⟨msg, offering⟩, live, full⟩ := drops
  have full : ¬ feed.subscriber.queue.length < CHANNEL_CAPACITY := full
  simp [step, offering, Subscriber.offer, Subscriber.trySend, live, full]

theorem dropped_of_findsRoom {feed : Feed} {item : Step} (finds : FindsRoom feed item) :
    (step feed item).subscriber.dropped = 0 := by
  obtain ⟨rfl, ⟨msg, flushing⟩, live, room⟩ := finds
  have room : feed.subscriber.queue.length < CHANNEL_CAPACITY := room
  by_cases dropped : 0 < feed.subscriber.dropped
  · simp [step, flushing, Subscriber.flushLag, Subscriber.trySend, live, room, dropped]
  · have undropped := Nat.eq_zero_of_not_pos dropped
    simp [step, flushing, Subscriber.flushLag, undropped]

theorem dropped_kept
    {feed : Feed} {item : Step} (drops : ¬ Drops feed item) (finds : ¬ FindsRoom feed item) :
    (step feed item).subscriber.dropped = feed.subscriber.dropped := by
  have effect := step_effect feed item
  generalize step feed item = later at effect
  cases effect with
  | reports msg flushing live dropped room =>
      exact absurd ⟨rfl, ⟨msg, flushing⟩, live, room⟩ finds
  | misses msg offering live full =>
      exact absurd ⟨rfl, ⟨msg, offering⟩, live, full⟩ drops
  | _ =>
      rfl

theorem followed_iff (id : Nat) (consumer : String) (steps : List Step) :
    Followed id consumer steps ↔ (run id consumer steps).subscriber.dropped = 0 := by
  have flag := @Machine.cleared_iff _ _ step (start id consumer) steps Drops FindsRoom
    (fun feed => 0 < feed.subscriber.dropped) (Nat.lt_irrefl 0)
    (fun _ _ => dropped_of_drops)
    (fun _ _ finds dropped => absurd (dropped_of_findsRoom finds) (Nat.ne_of_gt dropped))
    (fun _ _ drops finds => by rw [dropped_kept drops finds])
  exact flag.trans (Nat.not_lt.trans Nat.le_zero)

/-- A live subscriber that has received everything in its channel, with no push under way. -/
structure Drained (feed : Feed) : Prop where
  live : feed.subscriber.connected = true
  idle : feed.stage = .idle
  empty : feed.subscriber.queue = []

/-- A subscriber that has drained its channel has been told of every message it missed. -/
def NoSilentGap (feed : Feed) : Prop :=
  Drained feed → feed.subscriber.dropped = 0

end Lag

/-- A subscriber that has drained its channel has been told of every message it missed
exactly when each of them was followed by a push that began with room in the channel. -/
theorem no_silent_gap_iff (id : Nat) (consumer : String) (steps : List Lag.Step) :
    Lag.NoSilentGap (Lag.run id consumer steps) ↔
      (Lag.Drained (Lag.run id consumer steps) → Lag.Followed id consumer steps) :=
  imp_congr_right fun _ => (Lag.followed_iff id consumer steps).symm

/-- After a burst that fills the channel the subscriber receives everything and is never
told what it missed. -/
theorem burst_leaves_gap :
    ¬ ∀ (id : Nat) (consumer : String) (steps : List Lag.Step),
        Lag.NoSilentGap (Lag.run id consumer steps) := by
  intro told
  have reached : Lag.run 1 "me" (Lag.burst ++ List.replicate CHANNEL_CAPACITY .receive) =
      { Lag.burstFeed with
        subscriber := { Lag.burstFeed.subscriber with queue := [] }
        received := List.replicate CHANNEL_CAPACITY (.message Lag.burstMsg) } := by
    have burst := Lag.run_burst
    rw [Lag.run] at burst
    rw [Lag.run, Machine.run_append, burst, Lag.run_receives rfl]
    simp [Lag.burstFeed]
  have gap := told 1 "me" (Lag.burst ++ List.replicate CHANNEL_CAPACITY .receive)
  rw [reached] at gap
  exact absurd (gap ⟨rfl, rfl, rfl⟩) (by decide)

end AgentMsg
