import AgentMsg.Daemon
import AgentMsg.SendLimits

/-!
# A request sent over and over

Without a session each message is logged and queued, and nothing comes back for it.
-/

namespace AgentMsg

/-- Ids of one repeated letter differ in their length. -/
theorem eq_of_replicate_letter
    {letter : Char} {left right : Nat}
    (same : String.ofList (List.replicate left letter) =
      String.ofList (List.replicate right letter)) : left = right := by
  have length := congrArg String.length same
  simpa only [String.length_ofList, List.length_replicate] using length

theorem body_outboundRow_draft
    (identity : Identity) (p : SendParams) (draw : Draw) (topic : String) :
    (Store.outboundRow (draft identity draw (sendOpts p none none)) topic).body = p.body :=
  rfl

/-- The store holds the messages of some requests, with different draws, and nothing
else. -/
structure Repeated (identity : Identity) (p : SendParams) (draw : Nat → Draw) (start : World)
    (count : Nat) (world : World) : Prop where
  offline : world.mqtt = none
  config : world.configFile = start.configFile
  trust : world.trustFile = start.trustFile
  length : world.store.messages.rows.length = count
  rows : ∀ row ∈ world.store.messages.rows, ∃ index, index < count ∧ ∃ topic,
    row.2 = Store.outboundRow (draft identity (draw index) (sendOpts p none none)) topic

/-- The requests pass the checks of a send, and no two draw one id. -/
structure Repeats (P : Platform) (identity : Identity) (p : SendParams) (draw : Nat → Draw)
    (start : World) : Prop where
  sends : ∀ index, ∃ wrapper, Sends P identity (start.config P) (start.trust P) p (draw index)
    (draft identity (draw index) (sendOpts p none none)) wrapper
  distinct : ∀ left right, (draw left).id = (draw right).id → left = right

section Requests

variable {P : Platform} {identity : Identity} {p : SendParams} {draw : Nat → Draw}
  {start world : World} {count : Nat}

/-- The next request adds its row. -/
theorem Repeated.send
    (repeated : Repeated identity p draw start count world)
    (repeats : Repeats P identity p draw start) :
    Repeated identity p draw start (count + 1)
      ((AgentMsg.send P identity p (draw count)).exec (fun _ => {}) world).1 := by
  obtain ⟨wrapper, sends⟩ := repeats.sends count
  rw [World.config, World.trust, ← repeated.config, ← repeated.trust] at sends
  have fresh : world.store.messages.holds
      (draft identity (draw count) (sendOpts p none none)).id = false := by
    refine RowTable.holds_eq_false_iff.mpr fun row member same => ?_
    obtain ⟨index, below, topic, stored⟩ := repeated.rows row member
    rw [stored] at same
    exact Nat.ne_of_lt below (repeats.distinct index count same)
  obtain ⟨offline, config, trust, topic, rows⟩ :=
    exec_send_offline sends repeated.offline fresh rfl
  refine ⟨offline, config.trans repeated.config, trust.trans repeated.trust, ?_,
    fun row member => ?_⟩
  · rw [rows, List.length_append, repeated.length]
    rfl
  · rcases List.mem_append.mp (rows ▸ member) with old | new
    · obtain ⟨index, below, stored⟩ := repeated.rows row old
      exact ⟨index, Nat.lt_succ_of_lt below, stored⟩
    · rw [List.mem_singleton.mp new]
      exact ⟨count, Nat.lt_succ_self count, topic, rfl⟩

/-- Some run of the system sends the request any number of times. -/
theorem repeated_reached
    (repeats : Repeats P identity p draw start) (offline : start.mqtt = none)
    (empty : start.store.messages.rows = []) (count : Nat) :
    ∃ moves, Repeated identity p draw start count (System.after P identity start moves) := by
  induction count with
  | zero =>
      refine ⟨[], offline, rfl, rfl, congrArg List.length empty, fun row member => ?_⟩
      have absent : row ∉ start.store.messages.rows := by
        rw [empty]
        exact List.not_mem_nil
      exact absurd member absent
  | succ count inductionHypothesis =>
      obtain ⟨moves, repeated⟩ := inductionHypothesis
      obtain ⟨more, ran⟩ := System.after_alone P identity start moves
        (.request (.send p) (draw count) 0) fun _ => {}
      have final := exec_ignore (AgentMsg.send P identity p (draw count)) (fun _ => {})
        (System.after P identity start moves)
      exact ⟨moves ++ more, (ran.trans final) ▸ repeated.send repeats⟩

end Requests

end AgentMsg
