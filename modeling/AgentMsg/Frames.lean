import AgentMsg.Data

/-!
# Frames of the local connection

A frame is the length of its data in four bytes, lowest first, and the data.  The length is
cut to 32 bits by the writer; the reader refuses lengths above `MAX_FRAME_LEN` before it
reads any data.  Frames that follow each other delimit themselves.
-/

namespace AgentMsg

namespace Ipc

/-- `(value as u32).to_le_bytes()` -/
def toLeBytes (value : Nat) : Bytes :=
  [UInt8.ofNat value, UInt8.ofNat (value / 256), UInt8.ofNat (value / 65536),
    UInt8.ofNat (value / 16777216)]

/-- `u32::from_le_bytes` -/
def fromLeBytes : Bytes → Nat
  | [] => 0
  | byte :: rest => byte.toNat + 256 * fromLeBytes rest

def writeFrame (data : Bytes) : Bytes :=
  toLeBytes data.length ++ data

/-- The largest accepted frame. -/
def MAX_FRAME_LEN : Nat := 16 * 1024 * 1024

/-- Why no frame is read. -/
inductive FrameError where
  | unexpectedEof
  | invalidData (message : String)
  deriving DecidableEq, Repr

/-- `read_exact` before the end of the stream: the bytes read, and what is left. -/
def readExact (count : Nat) (stream : Bytes) : Except FrameError Bytes × Bytes :=
  if count ≤ stream.length then (.ok (stream.take count), stream.drop count)
  else (.error .unexpectedEof, [])

/-- Read a frame, and what is left of the stream. -/
def readFrame (stream : Bytes) : Except FrameError Bytes × Bytes :=
  match readExact 4 stream with
  | (.error e, left) => (.error e, left)
  | (.ok len, left) =>
      if fromLeBytes len > MAX_FRAME_LEN then
        (.error (.invalidData ("frame length " ++ toString (fromLeBytes len) ++
          " exceeds maximum " ++ toString MAX_FRAME_LEN)), left)
      else readExact (fromLeBytes len) left

theorem fromLeBytes_toLeBytes (value : Nat) :
    fromLeBytes (toLeBytes value) = value % 4294967296 := by
  simp only [toLeBytes, fromLeBytes, UInt8.toNat_ofNat']
  omega

theorem toLeBytes_fromLeBytes {bytes : Bytes} (four : bytes.length = 4) :
    toLeBytes (fromLeBytes bytes) = bytes := by
  match bytes, four with
  | [first, second, third, fourth], _ =>
      have small (byte : UInt8) : byte.toNat < 256 := byte.toNat_lt
      have one := small first
      have two := small second
      have three := small third
      have last := small fourth
      simp only [toLeBytes, fromLeBytes, List.cons.injEq, and_true]
      refine ⟨?_, ?_, ?_, ?_⟩
      all_goals
        apply UInt8.toNat_inj.mp
        rw [UInt8.toNat_ofNat']
        omega

theorem readExact_append (data left : Bytes) :
    readExact data.length (data ++ left) = (.ok data, left) := by
  rw [readExact, if_pos (by simp), List.take_left, List.drop_left]

theorem readExact_eq_ok {count : Nat} {stream data left : Bytes} :
    readExact count stream = (.ok data, left) ↔ data.length = count ∧ stream = data ++ left := by
  constructor
  · intro read
    rw [readExact] at read
    split at read
    · next enough =>
        cases read
        exact ⟨List.length_take_of_le enough, (List.take_append_drop count stream).symm⟩
    · cases read
  · rintro ⟨rfl, rfl⟩
    exact readExact_append data left

/-- A frame is read exactly when it was written with data that is not too long. -/
theorem readFrame_eq_ok {stream data left : Bytes} :
    readFrame stream = (.ok data, left) ↔
      data.length ≤ MAX_FRAME_LEN ∧ stream = writeFrame data ++ left := by
  constructor
  · intro read
    rw [readFrame] at read
    split at read
    · cases read
    · next len rest begins =>
        obtain ⟨four, rfl⟩ := readExact_eq_ok.mp begins
        split at read
        · cases read
        · next small =>
            obtain ⟨length, rfl⟩ := readExact_eq_ok.mp read
            refine ⟨by omega, ?_⟩
            rw [writeFrame, length, toLeBytes_fromLeBytes four, List.append_assoc]
  · rintro ⟨small, rfl⟩
    have length : fromLeBytes (toLeBytes data.length) = data.length := by
      rw [fromLeBytes_toLeBytes]
      rw [MAX_FRAME_LEN] at small
      omega
    have begins : readExact 4 (writeFrame data ++ left) =
        (.ok (toLeBytes data.length), data ++ left) := by
      rw [writeFrame, List.append_assoc]
      exact readExact_append (toLeBytes data.length) _
    rw [readFrame, begins]
    simp only [length, if_neg (Nat.not_lt.mpr small)]
    exact readExact_append data left

/-- What is written is read back exactly when it is not too long. -/
theorem readFrame_writeFrame {data : Bytes} :
    readFrame (writeFrame data) = (.ok data, []) ↔ data.length ≤ MAX_FRAME_LEN := by
  rw [readFrame_eq_ok, List.append_nil]
  exact and_iff_left rfl

/-! ## Streams of frames -/

/-- Read so many frames, one after the other, and what is left of the stream. -/
def readFrames : Nat → Bytes → Except FrameError (List Bytes) × Bytes
  | 0, stream => (.ok [], stream)
  | count + 1, stream =>
      match readFrame stream with
      | (.error e, left) => (.error e, left)
      | (.ok data, left) =>
          match readFrames count left with
          | (.error e, rest) => (.error e, rest)
          | (.ok frames, rest) => (.ok (data :: frames), rest)

theorem readFrame_flatMap_cons {data : Bytes} (small : data.length ≤ MAX_FRAME_LEN)
    (frames : List Bytes) (left : Bytes) :
    readFrame ((data :: frames).flatMap writeFrame ++ left) =
      (.ok data, frames.flatMap writeFrame ++ left) := by
  rw [List.flatMap_cons, List.append_assoc]
  exact readFrame_eq_ok.mpr ⟨small, rfl⟩

/-- Frames are read exactly when they were written, one after the other, and none is too
long. -/
theorem readFrames_eq_ok {count : Nat} {stream left : Bytes} {frames : List Bytes} :
    readFrames count stream = (.ok frames, left) ↔
      frames.length = count ∧ (∀ data ∈ frames, data.length ≤ MAX_FRAME_LEN) ∧
        stream = frames.flatMap writeFrame ++ left := by
  induction count generalizing stream frames with
  | zero =>
      rw [readFrames]
      constructor
      · intro read
        cases read
        exact ⟨rfl, fun _ member => absurd member List.not_mem_nil, rfl⟩
      · rintro ⟨length, -, rfl⟩
        rw [List.length_eq_zero_iff.mp length]
        rfl
  | succ count inductionHypothesis =>
      rw [readFrames]
      constructor
      · intro read
        split at read
        · cases read
        · next data rest first =>
            split at read
            · cases read
            · next others last later =>
                cases read
                obtain ⟨small, rfl⟩ := readFrame_eq_ok.mp first
                obtain ⟨length, smaller, rfl⟩ := inductionHypothesis.mp later
                refine ⟨congrArg (· + 1) length, List.forall_mem_cons.mpr ⟨small, smaller⟩, ?_⟩
                rw [List.flatMap_cons, List.append_assoc]
      · rintro ⟨length, small, rfl⟩
        obtain ⟨data, others, rfl⟩ := List.exists_cons_of_length_eq_add_one length
        obtain ⟨first, smaller⟩ := List.forall_mem_cons.mp small
        have later :
            readFrames count (others.flatMap writeFrame ++ left) = (.ok others, left) :=
          inductionHypothesis.mpr ⟨Nat.succ.inj length, smaller, rfl⟩
        rw [readFrame_flatMap_cons first]
        simp only [later]

/-- A length above the limit is refused when four bytes have been read. -/
theorem readFrame_of_long {stream : Bytes} (four : 4 ≤ stream.length)
    (long : MAX_FRAME_LEN < fromLeBytes (stream.take 4)) :
    readFrame stream =
      (.error (.invalidData ("frame length " ++ toString (fromLeBytes (stream.take 4)) ++
        " exceeds maximum " ++ toString MAX_FRAME_LEN)), stream.drop 4) := by
  rw [readFrame, readExact, if_pos four]
  exact if_pos long

theorem length_writeFrame (data : Bytes) : (writeFrame data).length = 4 + data.length :=
  List.length_append

/-- The stream is a proper beginning of a frame that would be read. -/
def Torn (stream : Bytes) : Prop :=
  ∃ data missing : Bytes,
    data.length ≤ MAX_FRAME_LEN ∧ missing ≠ [] ∧ stream ++ missing = writeFrame data

theorem torn_nil : Torn [] :=
  ⟨[], writeFrame [], Nat.zero_le _, List.cons_ne_nil _ _, rfl⟩

/-- A length prefix can always be completed to one that is accepted. -/
theorem torn_of_short {stream : Bytes} (short : stream.length < 4) : Torn stream := by
  have four : (stream ++ List.replicate (4 - stream.length) 0).length = 4 := by
    rw [List.length_append, List.length_replicate]
    omega
  have small : fromLeBytes (stream ++ List.replicate (4 - stream.length) 0) ≤ MAX_FRAME_LEN := by
    have byte (value : UInt8) : value.toNat < 256 := value.toNat_lt
    match stream, short with
    | [], _ => decide
    | [first], _ =>
        have one := byte first
        simp [fromLeBytes, MAX_FRAME_LEN, List.replicate]
        omega
    | [first, second], _ =>
        have one := byte first
        have two := byte second
        simp [fromLeBytes, MAX_FRAME_LEN, List.replicate]
        omega
    | [first, second, third], _ =>
        have one := byte first
        have two := byte second
        have three := byte third
        simp [fromLeBytes, MAX_FRAME_LEN]
        omega
  refine ⟨List.replicate
      (fromLeBytes (stream ++ List.replicate (4 - stream.length) 0)) 0,
    List.replicate (4 - stream.length) 0 ++
      List.replicate (fromLeBytes (stream ++ List.replicate (4 - stream.length) 0)) 0,
    by rwa [List.length_replicate], ?_, ?_⟩
  · intro none
    have length := congrArg List.length none
    rw [List.length_append, List.length_replicate, List.length_nil] at length
    omega
  · rw [writeFrame, List.length_replicate, toLeBytes_fromLeBytes four, List.append_assoc]

/-- So can data that is shorter than announced. -/
theorem torn_of_data_short {stream : Bytes} (four : 4 ≤ stream.length)
    (small : fromLeBytes (stream.take 4) ≤ MAX_FRAME_LEN)
    (few : (stream.drop 4).length < fromLeBytes (stream.take 4)) : Torn stream := by
  have prefixLength : (stream.take 4).length = 4 := List.length_take_of_le four
  refine ⟨stream.drop 4 ++ List.replicate
      (fromLeBytes (stream.take 4) - (stream.drop 4).length) 0,
    List.replicate (fromLeBytes (stream.take 4) - (stream.drop 4).length) 0, ?_, ?_, ?_⟩
  · rw [List.length_append, List.length_replicate]
    omega
  · intro none
    have length := congrArg List.length none
    rw [List.length_replicate, List.length_nil] at length
    omega
  · have length : (stream.drop 4 ++ List.replicate
        (fromLeBytes (stream.take 4) - (stream.drop 4).length) 0).length =
        fromLeBytes (stream.take 4) := by
      rw [List.length_append, List.length_replicate]
      omega
    rw [writeFrame, length, toLeBytes_fromLeBytes prefixLength, ← List.append_assoc,
      List.take_append_drop]

theorem readFrame_of_torn {stream : Bytes} (torn : Torn stream) :
    readFrame stream = (.error .unexpectedEof, []) := by
  obtain ⟨data, missing, small, some, whole⟩ := torn
  have missed : 0 < missing.length := List.length_pos_iff.mpr some
  have length : stream.length + missing.length = 4 + data.length := by
    rw [← List.length_append, whole, length_writeFrame]
  by_cases four : 4 ≤ stream.length
  · have head : stream.take 4 = toLeBytes data.length := by
      rw [← @List.take_append_of_le_length _ stream missing 4 four, whole]
      exact List.take_left' rfl
    have value : fromLeBytes (stream.take 4) = data.length := by
      rw [head, fromLeBytes_toLeBytes]
      rw [MAX_FRAME_LEN] at small
      omega
    have few : ¬ data.length ≤ (stream.drop 4).length := by
      rw [List.length_drop]
      omega
    rw [readFrame, readExact, if_pos four]
    simp only [value, if_neg (Nat.not_lt.mpr small), readExact, if_neg few]
  · rw [readFrame, readExact, if_neg four]

/-- The end of the stream is met early exactly in a proper beginning of a frame. -/
theorem readFrame_eq_unexpectedEof {stream left : Bytes} :
    readFrame stream = (.error .unexpectedEof, left) ↔ left = [] ∧ Torn stream := by
  constructor
  · intro read
    by_cases short : stream.length < 4
    · rw [readFrame, readExact, if_neg (Nat.not_le.mpr short)] at read
      cases read
      exact ⟨rfl, torn_of_short short⟩
    · have four : 4 ≤ stream.length := Nat.le_of_not_lt short
      rw [readFrame, readExact, if_pos four] at read
      by_cases long : MAX_FRAME_LEN < fromLeBytes (stream.take 4)
      · simp only [if_pos long] at read
        cases read
      · simp only [if_neg long, readExact] at read
        split at read
        · cases read
        · next few =>
            cases read
            exact ⟨rfl, torn_of_data_short four (Nat.le_of_not_lt long) (Nat.lt_of_not_le few)⟩
  · rintro ⟨rfl, torn⟩
    exact readFrame_of_torn torn

/-- Frames delimit themselves: frames that are not too long are read back from their
concatenation whatever follows; a frame that is read was written at the beginning of the
stream; a length above the limit is refused before any data is read; a stream that ends
within a frame gives none. -/
theorem framing_self_delimiting :
    (∀ (frames : List Bytes) (left : Bytes),
        (∀ data ∈ frames, data.length ≤ MAX_FRAME_LEN) →
        readFrames frames.length (frames.flatMap writeFrame ++ left) = (.ok frames, left)) ∧
      (∀ stream : Bytes,
        (∃ data left, readFrame stream = (.ok data, left) ∧ data.length ≤ MAX_FRAME_LEN ∧
            stream = writeFrame data ++ left) ∨
          ∃ e left, readFrame stream = (.error e, left)) ∧
      (∀ stream : Bytes, 4 ≤ stream.length →
        MAX_FRAME_LEN < fromLeBytes (stream.take 4) →
        ∃ message, readFrame stream = (.error (.invalidData message), stream.drop 4)) ∧
      (∀ (count : Nat) (stream left : Bytes) (frames : List Bytes),
        readFrames count stream = (.ok frames, left) →
        frames.length = count ∧ (∀ data ∈ frames, data.length ≤ MAX_FRAME_LEN) ∧
          stream = frames.flatMap writeFrame ++ left) ∧
      ∀ stream : Bytes, Torn stream → readFrame stream = (.error .unexpectedEof, []) := by
  refine ⟨?_, ?_, ?_, ?_, ?_⟩
  · intro frames left small
    exact readFrames_eq_ok.mpr ⟨rfl, small, rfl⟩
  · intro stream
    cases read : readFrame stream with
    | mk result left =>
        cases result with
        | error e => exact .inr ⟨e, left, rfl⟩
        | ok data =>
            obtain ⟨small, written⟩ := readFrame_eq_ok.mp read
            exact .inl ⟨data, left, rfl, small, written⟩
  · intro stream four long
    exact ⟨_, readFrame_of_long four long⟩
  · intro count stream left frames read
    exact readFrames_eq_ok.mp read
  · intro stream torn
    exact readFrame_eq_unexpectedEof.mpr ⟨rfl, torn⟩

end Ipc

end AgentMsg
