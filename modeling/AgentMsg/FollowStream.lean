import AgentMsg.Frames
import AgentMsg.World

/-!
# The command line's end of a streamed subscription

`read --follow` prints the frames of its connection until the stream ends.  The end of the
stream is reported alike between two frames and within one, so that a stream the daemon
broke off in the middle of a frame counts as a normal end.
-/

namespace AgentMsg

open Ipc

section Stream

variable (fromSlice : Bytes → Except String StreamFrame)

/-- Print the frames of a connection until the daemon closes it: what is printed, and the
outcome. -/
def followStream (stream : Bytes) : List StreamFrame × Except Error Unit :=
  match _read : readFrame stream with
  | (.error .unexpectedEof, _) => ([], .ok ())
  | (.error (.invalidData e), _) =>
      ([], .error (.ipc ("follow stream ended unexpectedly: " ++ e)))
  | (.ok bytes, left) =>
      match fromSlice bytes with
      | .error e => ([], .error (.serde e))
      | .ok frame =>
          let (shown, outcome) := followStream left
          (frame :: shown, outcome)
termination_by stream.length
decreasing_by
  obtain ⟨-, rfl⟩ := readFrame_eq_ok.mp _read
  rw [List.length_append, length_writeFrame]
  omega

/-- Complete frames which all hold a frame of the subscription. -/
def Whole (frames : List Bytes) : Prop :=
  ∀ data ∈ frames, data.length ≤ MAX_FRAME_LEN ∧ ∃ frame, fromSlice data = .ok frame

/-- The stream is a concatenation of complete frames. -/
def Complete (stream : Bytes) : Prop :=
  ∃ frames, Whole fromSlice frames ∧ stream = frames.flatMap writeFrame

/-- The stream is a concatenation of complete frames and a beginning of another one. -/
def Ends (stream : Bytes) : Prop :=
  ∃ frames cut, Whole fromSlice frames ∧ Torn cut ∧ stream = frames.flatMap writeFrame ++ cut

/-- The stream breaks off within a frame, in its length or in its data. -/
def BrokenOff (stream : Bytes) : Prop :=
  ∃ frames cut, Whole fromSlice frames ∧ Torn cut ∧ cut ≠ [] ∧
    stream = frames.flatMap writeFrame ++ cut

variable {fromSlice}

/-- A stream that begins with a frame is complete up to a beginning when what follows is. -/
theorem ends_of_read {stream bytes left : Bytes} (read : readFrame stream = (.ok bytes, left)) :
    Ends fromSlice stream ↔ (∃ frame, fromSlice bytes = .ok frame) ∧ Ends fromSlice left := by
  constructor
  · rintro ⟨frames, cut, whole, torn, rfl⟩
    cases frames with
    | nil =>
        have early := readFrame_eq_unexpectedEof.mpr ⟨rfl, torn⟩
        cases early.symm.trans read
    | cons data others =>
        obtain ⟨⟨small, valid⟩, rest⟩ := List.forall_mem_cons.mp whole
        cases (readFrame_flatMap_cons small others cut).symm.trans read
        exact ⟨valid, others, cut, rest, torn, rfl⟩
  · rintro ⟨valid, frames, cut, whole, torn, rfl⟩
    obtain ⟨small, rfl⟩ := readFrame_eq_ok.mp read
    refine ⟨bytes :: frames, cut, List.forall_mem_cons.mpr ⟨⟨small, valid⟩, whole⟩, torn, ?_⟩
    rw [List.flatMap_cons, List.append_assoc]

/-- The outcome is good exactly at the end of complete frames or within a further frame. -/
theorem followStream_ok {stream : Bytes} :
    (followStream fromSlice stream).2 = .ok () ↔ Ends fromSlice stream := by
  induction stream using followStream.induct fromSlice with
  | case1 stream left read =>
      rw [followStream, read]
      obtain ⟨-, torn⟩ := readFrame_eq_unexpectedEof.mp read
      exact iff_of_true rfl ⟨[], stream, fun _ member => absurd member List.not_mem_nil, torn, rfl⟩
  | case2 stream e left read =>
      rw [followStream, read]
      refine iff_of_false (by rintro ⟨⟩) ?_
      rintro ⟨frames, cut, whole, torn, rfl⟩
      cases frames with
      | nil =>
          have early := readFrame_eq_unexpectedEof.mpr ⟨rfl, torn⟩
          cases early.symm.trans read
      | cons data others =>
          obtain ⟨⟨small, -⟩, -⟩ := List.forall_mem_cons.mp whole
          cases (readFrame_flatMap_cons small others cut).symm.trans read
  | case3 stream bytes left read e invalid =>
      rw [followStream, read, ends_of_read read]
      simp only [invalid]
      refine iff_of_false (by rintro ⟨⟩) ?_
      rintro ⟨⟨frame, valid⟩, -⟩
      cases valid
  | case4 stream bytes left read frame valid shown outcome rest inductionHypothesis =>
      rw [followStream, read, ends_of_read read]
      simp only [valid]
      rw [inductionHypothesis]
      exact (and_iff_right ⟨frame, rfl⟩).symm

/-- A stream ends after complete frames or breaks off. -/
theorem ends_iff {stream : Bytes} :
    Ends fromSlice stream ↔ Complete fromSlice stream ∨ BrokenOff fromSlice stream := by
  constructor
  · rintro ⟨frames, cut, whole, torn, rfl⟩
    by_cases none : cut = []
    · rw [none, List.append_nil]
      exact .inl ⟨frames, whole, rfl⟩
    · exact .inr ⟨frames, cut, whole, torn, none, rfl⟩
  · rintro (⟨frames, whole, rfl⟩ | ⟨frames, cut, whole, torn, -, rfl⟩)
    · exact ⟨frames, [], whole, torn_nil, (List.append_nil _).symm⟩
    · exact ⟨frames, cut, whole, torn, rfl⟩

/-- A stream that breaks off is not complete: the frames of both are read in the same
places. -/
theorem not_complete_of_brokenOff {stream : Bytes} (broken : BrokenOff fromSlice stream) :
    ¬ Complete fromSlice stream := by
  obtain ⟨frames, cut, whole, torn, some, rfl⟩ := broken
  rintro ⟨others, otherWhole, same⟩
  have early : readFrame cut = (.error .unexpectedEof, []) :=
    readFrame_eq_unexpectedEof.mpr ⟨rfl, torn⟩
  induction frames generalizing others with
  | nil =>
      cases others with
      | nil => exact some same
      | cons other more =>
          have first :=
            readFrame_flatMap_cons (List.forall_mem_cons.mp otherWhole).1.1 more []
          rw [List.append_nil, ← same] at first
          cases early.symm.trans first
  | cons data rest inductionHypothesis =>
      obtain ⟨⟨small, -⟩, restWhole⟩ := List.forall_mem_cons.mp whole
      have first := readFrame_flatMap_cons small rest cut
      rw [same] at first
      cases others with
      | nil =>
          have none := readFrame_eq_unexpectedEof.mpr ⟨rfl, torn_nil⟩
          cases none.symm.trans first
      | cons other more =>
          obtain ⟨⟨otherSmall, -⟩, moreWhole⟩ := List.forall_mem_cons.mp otherWhole
          have second := readFrame_flatMap_cons otherSmall more []
          rw [List.append_nil, first] at second
          rw [List.append_nil] at second
          exact inductionHypothesis restWhole more moreWhole (congrArg Prod.snd second)

/-- `read --follow` reports what it should of a stream exactly when the stream does not break
off within a frame. -/
theorem follow_stream_reports_iff (fromSlice : Bytes → Except String StreamFrame)
    (stream : Bytes) :
    (((followStream fromSlice stream).2 = .ok () ↔ Complete fromSlice stream) ∧
        (BrokenOff fromSlice stream → ∃ e, (followStream fromSlice stream).2 = .error e)) ↔
      ¬ BrokenOff fromSlice stream := by
  rw [followStream_ok, ends_iff]
  constructor
  · rintro ⟨reports, -⟩ broken
    exact not_complete_of_brokenOff broken (reports.mp (.inr broken))
  · intro unbroken
    exact ⟨or_iff_left unbroken, fun broken => absurd broken unbroken⟩

/-- A stream that breaks off within the length of its first frame ends well. -/
theorem torn_stream_accepted :
    ¬ ∀ (fromSlice : Bytes → Except String StreamFrame) (stream : Bytes),
      ((followStream fromSlice stream).2 = .ok () ↔ Complete fromSlice stream) ∧
        (BrokenOff fromSlice stream → ∃ e, (followStream fromSlice stream).2 = .error e) := by
  intro reports
  have torn : Torn [7] := torn_of_short (by decide)
  have broken : BrokenOff (fun _ => .ok (.lagged 1)) [7] :=
    ⟨[], [7], fun _ member => absurd member List.not_mem_nil, torn, List.cons_ne_nil 7 [], rfl⟩
  have good : (followStream (fun _ => .ok (.lagged 1)) [7]).2 = .ok () :=
    followStream_ok.mpr (ends_iff.mpr (.inr broken))
  obtain ⟨e, bad⟩ := (reports _ [7]).2 broken
  cases good.symm.trans bad

end Stream

end AgentMsg
