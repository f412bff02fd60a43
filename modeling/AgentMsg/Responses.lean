import AgentMsg.Frames
import AgentMsg.IpcReplies
import AgentMsg.PacketSize
import AgentMsg.Repeated

/-!
# Responses on the local connection

A response is written as one frame of JSON, however many messages it lists, and the command
line refuses frames above the limit.  The size of a list of messages is computed from the
fields of its rows, so that it is known before the request which answers can be read.
-/

namespace AgentMsg

open Document Ipc
open Json (printNumber escapedSize)

/-- What `handle_conn` writes for a response, and what `call` reads of it. -/
def Response.received (response : Response) : Except FrameError Bytes × Bytes :=
  Ipc.readFrame (Ipc.writeFrame (Response.bytes response))

/-! ## The size of a list of messages -/

/-- The bytes of a member that may be left out, with its key and punctuation. -/
def optionalSize (key : Nat) : Option String → Nat
  | some value => key + 6 + escapedSize value
  | none => 0

/-- The bytes of a message in a response, from its fields. -/
def StoredMsg.jsonSize (msg : StoredMsg) : Nat :=
  119 + (printNumber msg.seq).length + escapedSize msg.id + escapedSize msg.direction.text +
    escapedSize msg.sender + escapedSize msg.recipient + escapedSize msg.topic +
    escapedSize msg.ts + escapedSize msg.ctype + optionalSize 11 msg.inReplyTo +
    escapedSize msg.body + escapedSize msg.kind + optionalSize 14 msg.correlationId +
    optionalSize 10 msg.supersedes + (if msg.encrypted then 17 else 0) +
    escapedSize msg.deliveryState.text + optionalSize 13 msg.brokerAckTs +
    optionalSize 12 msg.deliveredTs + optionalSize 7 msg.readTs

theorem memberSize_text (key : String) (value : Option String) :
    memberSize key .text value = optionalSize (escapedSize key) value := by
  cases value with
  | none =>
      rfl
  | some value =>
      simp only [memberSize, Shape.text, size, optionalSize]
      omega

theorem StoredMsg.size_write (msg : StoredMsg) : (storedMsg.write msg).size = msg.jsonSize := by
  have keys : escapedSize "seq" = 3 ∧ escapedSize "id" = 2 ∧ escapedSize "direction" = 9 ∧
      escapedSize "from" = 4 ∧ escapedSize "to" = 2 ∧ escapedSize "topic" = 5 ∧
      escapedSize "ts" = 2 ∧ escapedSize "ctype" = 5 ∧ escapedSize "in_reply_to" = 11 ∧
      escapedSize "body" = 4 ∧ escapedSize "kind" = 4 ∧ escapedSize "correlation_id" = 14 ∧
      escapedSize "supersedes" = 10 ∧ escapedSize "encrypted" = 9 ∧
      escapedSize "delivery_state" = 14 ∧ escapedSize "broker_ack_ts" = 13 ∧
      escapedSize "delivered_ts" = 12 ∧ escapedSize "read_ts" = 7 := by
    decide
  have written : storedMsg.write msg = .object (membersOf storedMsgRecord.fields
      [.number msg.seq, .text msg.id, .text msg.direction.text, .text msg.sender,
        .text msg.recipient, .text msg.topic, .text msg.ts, .text msg.ctype,
        optText.write msg.inReplyTo, .text msg.body, .text msg.kind,
        optText.write msg.correlationId, optText.write msg.supersedes, .bool msg.encrypted,
        .text msg.deliveryState.text, optText.write msg.brokerAckTs,
        optText.write msg.deliveredTs, optText.write msg.readTs]) := rfl
  rw [written]
  simp only [storedMsgRecord, Record.and, Record.single, size_record, membersSize_plain, optText,
    membersSize_sparse, membersSize_sparseFlag, membersSize_nil, memberSize_text, size, keys,
    Nat.reduceAdd, StoredMsg.jsonSize]
  omega

/-- The bytes of a response that lists messages. -/
def messagesSize (msgs : List StoredMsg) : Nat :=
  24 + ((msgs.map fun msg => msg.jsonSize + 1).sum - 1)

theorem itemsSize_messages (msgs : List StoredMsg) :
    itemsSize (msgs.map storedMsg.write) = (msgs.map fun msg => msg.jsonSize + 1).sum := by
  induction msgs with
  | nil =>
      rfl
  | cons msg rest inductionHypothesis =>
      rw [List.map_cons, itemsSize, StoredMsg.size_write, inductionHypothesis, List.map_cons,
        List.sum_cons]

theorem length_bytes_messages (msgs : List StoredMsg) :
    (Response.bytes (.messages msgs none)).length = messagesSize msgs := by
  have keys : escapedSize "Messages" = 8 ∧ escapedSize "msgs" = 4 := by decide
  have written : Response.toDocument (.messages msgs none) =
      .object [("Messages", .object [("msgs", .list (msgs.map storedMsg.write))])] := rfl
  rw [Response.bytes, length_toVec, written]
  simp only [size, size_list, membersSize, itemsSize_messages, keys, messagesSize]
  omega

/-! ## Which answers can be read -/

/-- The requests of `read`, `browse` and `log` with the default limits. -/
inductive DefaultRequest : Request → Prop
  | read (consumer : String) : DefaultRequest (.read consumer 50)
  | browse (fromFilter toFilter : Option String) : DefaultRequest (.browse 20 fromFilter toFilter)
  | transcript (fromFilter toFilter peer : Option String) :
      DefaultRequest (.transcript 50 fromFilter toFilter peer)

/-- The rows of the store that a request asks for. -/
def Store.asked (store : Store) : Request → List (Int × MsgRow)
  | .read consumer limit =>
      limitRows limit (store.messages.rows.filter (unreadAfter (store.cursor consumer)))
  | .browse limit fromFilter toFilter =>
      limitRows limit (store.messages.rows.filter fun row =>
        row.2.direction == .inbound && admits fromFilter row.2.sender &&
          (admits toFilter row.2.recipient || row.2.recipient == "*")).reverse
  | .transcript limit fromFilter toFilter peer =>
      limitRows limit (store.messages.rows.filter fun row =>
        admits fromFilter row.2.sender && admits toFilter row.2.recipient &&
          (admits peer row.2.sender || admits peer row.2.recipient))
  | _ => []

/-- The response to a query that succeeds lists what it finds. -/
theorem exec_messagesResponse
    {inputs : Nat → Input} (succeeds : ∀ index, (inputs index).Succeeds) {world : World}
    {found : List StoredMsg} {read : Thread (Except Error (List StoredMsg))}
    (reads : Prog.Meets Input.Succeeds read world fun _ result => result = .ok found) :
    ((read >>= fun result => (return messagesResponse result)).exec inputs world).2 =
      .messages found none := by
  have responds : Prog.Meets Input.Succeeds
      (read >>= fun result => (return messagesResponse result)) world
      fun _ response => response = .messages found none := by
    refine Prog.meets_bind.mpr (reads.weaken fun _ result same => ?_)
    rw [same]
    exact rfl
  exact Prog.exec_of_meets responds succeeds

/-- The response lists the rows asked for. -/
theorem exec_handle_default
    {P : Platform} {identity : Identity} {draw : Draw} {nowSeq : Int} {request : Request}
    (usual : DefaultRequest request) {inputs : Nat → Input}
    (succeeds : ∀ index, (inputs index).Succeeds) (world : World) :
    ((handle P identity draw nowSeq request).exec inputs world).2 =
      .messages ((world.store.asked request).map rowToMsg) none := by
  cases usual with
  | read consumer =>
      refine exec_messagesResponse succeeds ?_
      refine Prog.meets_bind.mpr (meets_storeQuery_succeeds ?_)
      exact meets_storeQuery_succeeds rfl
  | browse fromFilter toFilter =>
      have inward (direction : Direction) :
          (("in" == "all") || direction.text == "in") = (direction == .inbound) := by
        cases direction <;> decide
      have shown := @exec_messagesResponse _ succeeds world
        (world.store.browse 20 fromFilter toFilter "in")
        (storeQuery fun store => store.browse 20 fromFilter toFilter "in")
        (meets_storeQuery_succeeds rfl)
      rw [Store.browse] at shown
      simp only [inward] at shown
      exact shown
  | transcript fromFilter toFilter peer =>
      exact @exec_messagesResponse _ succeeds world
        (world.store.transcript 50 fromFilter toFilter peer)
        (storeQuery fun store => store.transcript 50 fromFilter toFilter peer)
        (meets_storeQuery_succeeds rfl)

/-- In every state, the answer to a request with a default limit fits into a frame and is
read by the command line exactly when the rows asked for are small enough together. -/
theorem response_received_iff
    (P : Platform) (identity : Identity) (draw : Draw) (nowSeq : Int) (inputs : Nat → Input)
    (succeeds : ∀ index, (inputs index).Succeeds) (world : World) (request : Request)
    (usual : DefaultRequest request) :
    let response := ((handle P identity draw nowSeq request).exec inputs world).2
    ((Response.bytes response).length ≤ MAX_FRAME_LEN ∧
        response.received = (.ok (Response.bytes response), [])) ↔
      messagesSize ((world.store.asked request).map rowToMsg) ≤ MAX_FRAME_LEN := by
  intro response
  have size : (Response.bytes response).length =
      messagesSize ((world.store.asked request).map rowToMsg) := by
    rw [← length_bytes_messages, ← exec_handle_default usual succeeds world]
  rw [Response.received, readFrame_writeFrame, and_self, size]

/-- A text with characters that JSON escapes. -/
def quotedInner (id : String) : Inner :=
  { id, v := PROTOCOL_VERSION, sender := "bob", recipient := "alice", ts := "t0", nonce := ""
    ctype := CTYPE_TEXT, body := "a \"b\"\\\n\tc\u0001 \u00e9" }

/-- Three such messages, of which the client has acknowledged the first. -/
def quotedWorld : World where
  store := (((({} : Store).insertInbound (quotedInner "m1") "chat").1.insertInbound
    (quotedInner "m2") "chat").1.insertInbound (quotedInner "m3") "chat").1.ack "cli" 1 "t1"

/-- A message as the client is shown it. -/
def quotedMsg (seq : Int) (id : String) : StoredMsg :=
  rowToMsg (seq, Store.inboundRow (quotedInner id) "chat")

theorem jsonSize_quotedMsg :
    (quotedMsg 2 "m2").jsonSize = 182 ∧ (quotedMsg 3 "m3").jsonSize = 182 := by
  have second : printNumber (quotedMsg 2 "m2").seq = ['2'] :=
    Json.digits.eq_1 2
  have third : printNumber (quotedMsg 3 "m3").seq = ['3'] :=
    Json.digits.eq_1 3
  rw [StoredMsg.jsonSize, second, StoredMsg.jsonSize, third]
  decide

/-- The client is shown the two messages that it has not read. -/
theorem response_received_quoted :
    let response := ((handle (Reference.platform {}) Reference.alice Reference.draw 0
      (.read "cli" 50)).exec (fun _ => {}) quotedWorld).2
    response = .messages [quotedMsg 2 "m2", quotedMsg 3 "m3"] none ∧
      (Response.bytes response).length ≤ MAX_FRAME_LEN ∧
      response.received = (.ok (Response.bytes response), []) := by
  have asked : (quotedWorld.store.asked (.read "cli" 50)).map rowToMsg =
      [quotedMsg 2 "m2", quotedMsg 3 "m3"] := by
    decide
  have succeeds : ∀ _ : Nat, ({} : Input).Succeeds := fun _ => rfl
  refine ⟨?_, ?_⟩
  · exact (exec_handle_default (.read "cli") succeeds quotedWorld).trans (by rw [asked])
  · refine (response_received_iff (Reference.platform {}) Reference.alice Reference.draw 0
      (fun _ => {}) succeeds quotedWorld (.read "cli" 50) (.read "cli")).mpr ?_
    obtain ⟨second, third⟩ := jsonSize_quotedMsg
    rw [asked, messagesSize, List.map_cons, List.map_cons, List.map_nil, second, third]
    decide

/-! ## A transcript that cannot be read -/

abbrev blankPlatform : Platform :=
  Reference.platform (limited (256 * 1024))

/-- What is drawn for each memo. -/
def blankDraw (index : Nat) : Draw :=
  { Reference.draw with id := String.ofList (List.replicate index 'm') }

/-- The daemon before the first of them. -/
def blankStart : World where
  configFile := .text "config"

theorem blank_repeats :
    Repeats blankPlatform Reference.alice blankLines blankDraw blankStart where
  sends index := by
    have config : blankStart.config blankPlatform = limited (256 * 1024) := rfl
    rw [config]
    exact ⟨_, ⟨"chat", rfl⟩, Nat.le_of_eq utf8ByteSize_blankLines, none, none, rfl, rfl,
      build_plain rfl⟩
  distinct _ _ := eq_of_replicate_letter

/-- The transcript lists all of a few messages. -/
theorem Repeated.asked
    {identity : Identity} {p : SendParams} {draw : Nat → Draw} {start world : World}
    {count : Nat} (repeated : Repeated identity p draw start count world) (few : count ≤ 50) :
    world.store.asked (.transcript 50 none none none) = world.store.messages.rows := by
  have every : (world.store.messages.rows.filter fun row =>
      Store.admits none row.2.sender && Store.admits none row.2.recipient &&
        (Store.admits none row.2.sender || Store.admits none row.2.recipient)) =
      world.store.messages.rows := List.filter_eq_self.mpr fun _ _ => rfl
  rw [Store.asked, every]
  exact List.take_of_length_le (repeated.length.trans_le few)

/-- Rows with large bodies make a large response. -/
theorem le_messagesSize
    {size : Nat} {msgs : List StoredMsg} (large : ∀ msg ∈ msgs, size ≤ escapedSize msg.body)
    (some : msgs ≠ []) : msgs.length * size ≤ messagesSize msgs := by
  have total : msgs.length * size ≤ (msgs.map fun msg => msg.jsonSize + 1).sum - 1 := by
    have each : ∀ msg ∈ msgs, size + 1 ≤ msg.jsonSize := by
      intro msg member
      have body := large msg member
      rw [StoredMsg.jsonSize]
      omega
    clear large
    induction msgs with
    | nil =>
        exact absurd rfl some
    | cons msg rest inductionHypothesis =>
        have first := each msg List.mem_cons_self
        rw [List.length_cons, Nat.succ_mul, List.map_cons, List.sum_cons]
        cases rest with
        | nil =>
            simp
            omega
        | cons next rest =>
            have later := inductionHypothesis (List.cons_ne_nil _ _) fun other member =>
              each other (List.mem_cons_of_mem _ member)
            omega
  rw [messagesSize]
  omega

/-- After 33 memos of line feeds the transcript cannot be read. -/
theorem transcript_not_received :
    ¬ ∀ (P : Platform) (identity : Identity) (start : World) (moves : List (Move Input Job))
        (draw : Draw) (nowSeq : Int) (inputs : Nat → Input) (request : Request),
        start.store.messages.rows = [] → (∀ index, (inputs index).Succeeds) →
        ((System.after P identity start moves).config P).maxPayload = 256 * 1024 →
        DefaultRequest request →
        let response := ((handle P identity draw nowSeq request).exec inputs
          (System.after P identity start moves)).2
        (Response.bytes response).length ≤ MAX_FRAME_LEN ∧
          response.received = (.ok (Response.bytes response), []) := by
  intro received
  obtain ⟨moves, blanks⟩ := repeated_reached blank_repeats rfl rfl 33
  have default : ((System.after blankPlatform Reference.alice blankStart moves).config
      blankPlatform).maxPayload = 256 * 1024 := by
    rw [World.config, blanks.config]
    rfl
  have fits := (response_received_iff blankPlatform Reference.alice Reference.draw 0 (fun _ => {})
    (fun _ => rfl) _ _ (.transcript none none none)).mp
    (received blankPlatform Reference.alice blankStart moves Reference.draw 0 (fun _ => {})
      (.transcript 50 none none none) rfl (fun _ => rfl) default (.transcript none none none))
  rw [blanks.asked (by decide)] at fits
  have size : ∀ msg ∈ (System.after blankPlatform Reference.alice blankStart
      moves).store.messages.rows.map rowToMsg, 2 * (256 * 1024) ≤ escapedSize msg.body := by
    intro msg member
    obtain ⟨row, old, rfl⟩ := List.mem_map.mp member
    obtain ⟨index, _, topic, stored⟩ := blanks.rows row old
    have body : (rowToMsg row).body = blankLines.body :=
      (congrArg MsgRow.body stored).trans (body_outboundRow_draft _ _ _ _)
    rw [body, escapedSize_blankLines]
  have large := le_messagesSize size fun none => by
    have length := blanks.length
    rw [List.map_eq_nil_iff.mp none] at length
    cases length
  rw [List.length_map, blanks.length] at large
  rw [MAX_FRAME_LEN] at fits
  omega

end AgentMsg
