import AgentMsg.FollowStream
import AgentMsg.Frames
import AgentMsg.Daemon
import AgentMsg.IpcReplies
import AgentMsg.Reference

/-!
# A request from the client to the daemon and back

The client writes a request as one frame and reads one frame back.  The daemon answers a frame
that holds a request and closes the connection after any other.  A call is the handler of the
request with nothing added: the bytes between the two processes do not show, as long as both
documents fit into a frame.
-/

namespace AgentMsg

namespace Ipc

open Document

/-! ## Connections -/

/-- The text of an error of the connection. -/
def FrameError.text : FrameError → String
  | .unexpectedEof => "failed to fill whole buffer"
  | .invalidData message => message

section Connection

variable (P : Platform) (identity : Identity)

/-- Serve one connection: what is written back. -/
def handleConn (draw : Draw) (nowSeq : Int) (rounds : Nat) (draws : Nat → Draw)
    (stream : Bytes) : Thread Bytes :=
  match (readFrame stream).1 with
  | .error _ => return []
  | .ok bytes =>
      match (fromSlice bytes).bind Command.ofDocument with
      | none => return []
      | some (.subscribe consumer ack) => do
          serveSubscribe P identity consumer ack rounds draws
          return []
      | some (.single request) => do
          let response ← handle P identity draw nowSeq request
          return writeFrame (Response.bytes response)

variable (syntaxError : Bytes → String)

/-- The response in what the daemon has written back. -/
def readReply (reply : Bytes) : Except Error Response :=
  match (readFrame reply).1 with
  | .error e => .error (.ipc e.text)
  | .ok bytes =>
      match (fromSlice bytes).bind Response.ofDocument with
      | none => .error (.serde (syntaxError bytes))
      | some response => .ok response

/-- Send a request to the daemon and read its response. -/
def call (draw : Draw) (nowSeq : Int) (rounds : Nat) (draws : Nat → Draw) (request : Request) :
    Thread (Except Error Response) := do
  let reply ← handleConn P identity draw nowSeq rounds draws
    (writeFrame (Command.single request).bytes)
  return readReply syntaxError reply

end Connection

/-! ## Calls -/

theorem readFrame_of_small {data : Bytes} (small : data.length ≤ MAX_FRAME_LEN) :
    (readFrame (writeFrame data)).1 = .ok data := by
  rw [readFrame_writeFrame.mpr small]

/-- A frame above the limit is refused, when its length fits into four bytes. -/
theorem readFrame_of_large {data : Bytes} (large : MAX_FRAME_LEN < data.length)
    (bounded : data.length < 4294967296) :
    (readFrame (writeFrame data)).1 = .error (.invalidData ("frame length " ++
      toString data.length ++ " exceeds maximum " ++ toString MAX_FRAME_LEN)) := by
  have length : fromLeBytes ((writeFrame data).take 4) = data.length := by
    have front : (writeFrame data).take 4 = toLeBytes data.length := rfl
    rw [front, fromLeBytes_toLeBytes, Nat.mod_eq_of_lt bounded]
  have four : 4 ≤ (writeFrame data).length := by
    rw [length_writeFrame]
    exact Nat.le_add_right 4 _
  rw [readFrame_of_long four (by rw [length]; exact large), length]

section Calls

variable {P : Platform} {identity : Identity} {draw : Draw} {nowSeq : Int} {rounds : Nat}
  {draws : Nat → Draw}

theorem ofDocument_toDocument {command : Command} (fits : command.Fits) :
    Command.ofDocument command.toDocument = some command :=
  Command.ofDocument_of_shown fits command.shownBy_toDocument

/-- The daemon answers a request that fits into a frame. -/
theorem handleConn_request {request : Request} (fits : (Command.single request).Fits)
    (small : (Command.single request).bytes.length ≤ MAX_FRAME_LEN) :
    handleConn P identity draw nowSeq rounds draws
        (writeFrame (Command.single request).bytes) =
      (do
        let response ← handle P identity draw nowSeq request
        return writeFrame (Response.bytes response)) := by
  have read : (fromSlice (Command.single request).bytes).bind Command.ofDocument =
      some (.single request) := by
    rw [Command.bytes, fromSlice_toVec, Option.bind_some, ofDocument_toDocument fits]
  rw [handleConn, readFrame_of_small small]
  simp only [read]

theorem readReply_of_small {syntaxError : Bytes → String} {response : Response}
    (fits : Response.Fits response) (small : (Response.bytes response).length ≤ MAX_FRAME_LEN) :
    readReply syntaxError (writeFrame (Response.bytes response)) =
      .ok (Response.shown response) := by
  have read : (fromSlice (Response.bytes response)).bind Response.ofDocument =
      some (Response.shown response) := by
    rw [Response.bytes, fromSlice_toVec, Option.bind_some, Response.ofDocument_toDocument fits]
  rw [readReply, readFrame_of_small small]
  simp only [read]

theorem readReply_of_large {syntaxError : Bytes → String} {response : Response}
    (large : MAX_FRAME_LEN < (Response.bytes response).length)
    (bounded : (Response.bytes response).length < 4294967296) :
    readReply syntaxError (writeFrame (Response.bytes response)) =
      .error (.ipc ("frame length " ++ toString (Response.bytes response).length ++
        " exceeds maximum " ++ toString MAX_FRAME_LEN)) := by
  rw [readReply, readFrame_of_large large bounded]
  rfl

/-- The daemon closes the connection on a request above the limit. -/
theorem handleConn_of_large {command : Command} (large : MAX_FRAME_LEN < command.bytes.length)
    (bounded : command.bytes.length < 4294967296) :
    handleConn P identity draw nowSeq rounds draws (writeFrame command.bytes) = return [] := by
  rw [handleConn, readFrame_of_large large bounded]

end Calls

/-- A call whose request fits into a frame is the handler of the request: it takes the same
steps, and the client gets the response if that fits into a frame, and an error if it does not,
when the daemon has answered nevertheless.  A longer request is refused before any step. -/
theorem call_transparent (P : Platform) (identity : Identity) (syntaxError : Bytes → String)
    (draw : Draw) (nowSeq : Int) (rounds : Nat) (draws : Nat → Draw) (request : Request)
    (fits : (Command.single request).Fits) :
    ((Command.single request).bytes.length ≤ MAX_FRAME_LEN →
      ∃ outcome : Response → Except Error Response,
        call P identity syntaxError draw nowSeq rounds draws request =
          (do
            let response ← handle P identity draw nowSeq request
            return outcome response) ∧
        ∀ response, Response.Fits response →
          ((Response.bytes response).length ≤ MAX_FRAME_LEN →
            outcome response = .ok (Response.shown response)) ∧
          (MAX_FRAME_LEN < (Response.bytes response).length →
            (Response.bytes response).length < 4294967296 →
            outcome response = .error (.ipc ("frame length " ++
              toString (Response.bytes response).length ++ " exceeds maximum " ++
              toString MAX_FRAME_LEN)))) ∧
    (MAX_FRAME_LEN < (Command.single request).bytes.length →
      (Command.single request).bytes.length < 4294967296 →
      ∃ e, call P identity syntaxError draw nowSeq rounds draws request =
        return .error (.ipc e)) := by
  refine ⟨fun small =>
    ⟨fun response => readReply syntaxError (writeFrame (Response.bytes response)), ?_,
      fun response fit => ⟨readReply_of_small fit, readReply_of_large⟩⟩, fun large bounded => ?_⟩
  · rw [call, handleConn_request fits small]
    exact Prog.bind_assoc _ _ _
  · rw [call, handleConn_of_large large bounded]
    exact ⟨_, rfl⟩

theorem call_transparent_reply :
    ∃ outcome : Response → Except Error Response,
      call (Reference.platform {}) Reference.alice (fun _ => "") Reference.draw 0 0
          (fun _ => Reference.draw) (.reply "m1" "text/plain" "hi") =
        (do
          let response ← handle (Reference.platform {}) Reference.alice Reference.draw 0
            (.reply "m1" "text/plain" "hi")
          return outcome response) ∧
      ∀ response, Response.Fits response →
        ((Response.bytes response).length ≤ MAX_FRAME_LEN →
          outcome response = .ok (Response.shown response)) ∧
        (MAX_FRAME_LEN < (Response.bytes response).length →
          (Response.bytes response).length < 4294967296 →
          outcome response = .error (.ipc ("frame length " ++
            toString (Response.bytes response).length ++ " exceeds maximum " ++
            toString MAX_FRAME_LEN))) :=
  (call_transparent (Reference.platform {}) Reference.alice (fun _ => "") Reference.draw 0 0
    (fun _ => Reference.draw) (.reply "m1" "text/plain" "hi") ⟨trivial, trivial, trivial⟩).1
    (by decide)

/-! ## Streams -/

/-- The stream frame in the bytes of a frame. -/
def readStreamFrame (syntaxError : Bytes → String) (bytes : Bytes) : Except String StreamFrame :=
  match (fromSlice bytes).bind StreamFrame.ofDocument with
  | none => .error (syntaxError bytes)
  | some frame => .ok frame

/-- What the daemon writes to the connection of a subscription. -/
def streamBytes (frames : List StreamFrame) : Bytes :=
  frames.flatMap fun frame => writeFrame (StreamFrame.bytes frame)

section Streams

variable {syntaxError : Bytes → String}

theorem readStreamFrame_bytes {frame : StreamFrame} (fits : StreamFrame.Fits frame) :
    readStreamFrame syntaxError (StreamFrame.bytes frame) = .ok frame := by
  have read : (fromSlice (StreamFrame.bytes frame)).bind StreamFrame.ofDocument = some frame := by
    rw [StreamFrame.bytes, fromSlice_toVec, Option.bind_some,
      StreamFrame.ofDocument_toDocument fits]
  simp only [readStreamFrame, read]

theorem streamBytes_cons (frame : StreamFrame) (frames : List StreamFrame) :
    streamBytes (frame :: frames) =
      writeFrame (StreamFrame.bytes frame) ++ streamBytes frames := by
  simp only [streamBytes, List.flatMap_cons]

theorem length_streamBytes_cons (frame : StreamFrame) (frames : List StreamFrame) :
    (streamBytes (frame :: frames)).length =
      (writeFrame (StreamFrame.bytes frame)).length + (streamBytes frames).length := by
  rw [streamBytes_cons, List.length_append]

theorem streamBytes_nil : streamBytes [] = [] :=
  rfl

/-- A frame at the front is printed. -/
theorem followStream_cons {frame : StreamFrame} (fits : StreamFrame.Fits frame)
    (small : (StreamFrame.bytes frame).length ≤ MAX_FRAME_LEN) (left : Bytes) :
    followStream (readStreamFrame syntaxError)
        (writeFrame (StreamFrame.bytes frame) ++ left) =
      (frame :: (followStream (readStreamFrame syntaxError) left).1,
        (followStream (readStreamFrame syntaxError) left).2) := by
  have read : readFrame (writeFrame (StreamFrame.bytes frame) ++ left) =
      (.ok (StreamFrame.bytes frame), left) := readFrame_eq_ok.mpr ⟨small, rfl⟩
  rw [followStream, read]
  simp only [readStreamFrame_bytes fits]

/-- The stream ends well within a frame. -/
theorem followStream_torn {stream : Bytes} (torn : Torn stream) :
    followStream (readStreamFrame syntaxError) stream = ([], .ok ()) := by
  rw [followStream, readFrame_eq_unexpectedEof.mpr ⟨rfl, torn⟩]

end Streams

/-- Wherever the stream of a subscription is cut off, `read --follow` has printed the frames
that were written completely, in their order, and ends well. -/
theorem follow_prints_whole_frames (syntaxError : Bytes → String) (frames : List StreamFrame)
    (fits : ∀ frame ∈ frames, StreamFrame.Fits frame ∧
      (StreamFrame.bytes frame).length ≤ MAX_FRAME_LEN) (cut : Nat) :
    ∃ whole later, frames = whole ++ later ∧
      followStream (readStreamFrame syntaxError) ((streamBytes frames).take cut) =
        (whole, .ok ()) ∧
      (streamBytes whole).length ≤ cut ∧
      ∀ next ∈ later.head?, cut < (streamBytes (whole ++ [next])).length := by
  induction frames generalizing cut with
  | nil =>
      refine ⟨[], [], rfl, ?_, Nat.zero_le cut, ?_⟩
      · rw [streamBytes_nil, List.take_nil]
        exact followStream_torn torn_nil
      · intro next first
        cases first
  | cons frame frames inductionHypothesis =>
      obtain ⟨⟨fit, small⟩, others⟩ := List.forall_mem_cons.mp fits
      by_cases early : cut < (writeFrame (StreamFrame.bytes frame)).length
      · refine ⟨[], frame :: frames, rfl, ?_, ?_, ?_⟩
        · rw [streamBytes_cons, List.take_append_of_le_length (Nat.le_of_lt early)]
          refine followStream_torn
            ⟨StreamFrame.bytes frame, (writeFrame (StreamFrame.bytes frame)).drop cut, small, ?_,
              List.take_append_drop _ _⟩
          exact List.drop_eq_nil_iff.not.mpr (Nat.not_le.mpr early)
        · rw [streamBytes_nil]
          exact Nat.zero_le cut
        · rintro next ⟨⟩
          rw [List.nil_append, length_streamBytes_cons]
          exact Nat.lt_of_lt_of_le early (Nat.le_add_right _ _)
      · have enough := Nat.not_lt.mp early
        obtain ⟨whole, later, split, printed, within, next⟩ := inductionHypothesis others
          (cut - (writeFrame (StreamFrame.bytes frame)).length)
        refine ⟨frame :: whole, later, congrArg (List.cons frame) split, ?_, ?_, ?_⟩
        · rw [streamBytes_cons, List.take_append, List.take_of_length_le enough,
            followStream_cons fit small, printed]
        · rw [length_streamBytes_cons]
          omega
        · intro other first
          have longer := next other first
          rw [List.cons_append, length_streamBytes_cons]
          omega

/-- A message between two notices of lost frames. -/
def someFrames : List StreamFrame :=
  [.lagged 3,
    .message
      { seq := 7, id := "m1", direction := .inbound, sender := "alice", recipient := "bob",
        topic := "chat", ts := "2026-01-01T00:00:00Z", ctype := "text/plain",
        inReplyTo := none, body := "hello bob", kind := "message", correlationId := none,
        supersedes := none, encrypted := true },
    .lagged 1]

theorem someFrames_fit :
    ∀ frame ∈ someFrames, StreamFrame.Fits frame ∧
      (StreamFrame.bytes frame).length ≤ MAX_FRAME_LEN := by
  have lagged (dropped : Nat) (small : dropped < 18446744073709551616) :
      StreamFrame.Fits (.lagged dropped) := small
  have seq : i64.Fits 7 := ⟨by decide, by decide⟩
  intro frame member
  simp only [someFrames, List.mem_cons, List.not_mem_nil, or_false] at member
  rcases member with rfl | rfl | rfl
  · exact ⟨lagged 3 (by decide), by decide +kernel⟩
  · exact ⟨seq, by decide +kernel⟩
  · exact ⟨lagged 1 (by decide), by decide +kernel⟩

theorem follow_prints_whole_frames_cut :
    ∃ whole later, someFrames = whole ++ later ∧
      followStream (readStreamFrame fun _ => "") ((streamBytes someFrames).take 40) =
        (whole, .ok ()) ∧
      (streamBytes whole).length ≤ 40 ∧
      ∀ next ∈ later.head?, 40 < (streamBytes (whole ++ [next])).length :=
  follow_prints_whole_frames (fun _ => "") someFrames someFrames_fit 40

end Ipc

end AgentMsg
