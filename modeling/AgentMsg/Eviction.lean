import AgentMsg.Lib.Utf8
import AgentMsg.Retention
import Mathlib.Data.List.TakeWhile

/-!
# What the bounds evict

Both phases of `enforceBounds` delete the oldest evictable rows, so that together they
delete a first part of them: the excess over the row cap, and then as many batches as the
byte budget takes.  The budget is measured by SQLite `LENGTH`, which is the number of bytes
for ASCII text only.
-/

namespace AgentMsg

namespace Store

/-! ## The deletions of a call are one deletion -/

section Prefix

variable (table : MessageTable)

theorem evictOldest_evictOldest (first second : Nat) :
    evictOldest (evictOldest table first) second = evictOldest table (first + second) :=
  table.deleteFirst_deleteFirst (fun row => evictable row.2) first second

theorem evictCount_eq (count : Nat) :
    evictCount table count = min count (evictableRows table).length :=
  List.length_take

theorem evictCount_add (first second : Nat) :
    evictCount table first + evictCount (evictOldest table first) second =
      evictCount table (first + second) := by
  rw [evictCount_eq, evictCount_eq, evictCount_eq, evictableRows_evictOldest, List.length_drop]
  omega

theorem length_evictOldest (count : Nat) :
    (evictOldest table count).rows.length + evictCount table count = table.rows.length :=
  table.length_deleteFirst (fun row => evictable row.2) count

theorem evictOldest_evictCount (count : Nat) :
    evictOldest table (evictCount table count) = evictOldest table count := by
  refine table.deleteFirst_congr (fun row => evictable row.2) ?_
  exact (List.prefix_iff_eq_take.mp (List.take_prefix count _)).symm

theorem totalBytes_evictOldest (count : Nat) :
    totalBytes (evictOldest table count) =
      bodyBytes (exemptRows table) + bodyBytes ((evictableRows table).drop count) := by
  rw [totalBytes_eq, exemptRows_evictOldest, evictableRows_evictOldest]

theorem evictableRows_evictOldest_eq_nil (count : Nat) :
    evictableRows (evictOldest table count) = [] ↔ (evictableRows table).length ≤ count := by
  rw [evictableRows_evictOldest, List.drop_eq_nil_iff]

end Prefix

/-! ## The rounds of the byte trim -/

/-- The trim goes on: the byte budget does not hold and an evictable row is left. -/
def Trims (maxBytes : Nat) (table : MessageTable) : Prop :=
  maxBytes < totalBytes table ∧ evictableRows table ≠ []

/-- What a trim leaves: whole batches are gone, it stopped, and it had to go on before. -/
def Trimmed (maxBytes : Nat) (table : MessageTable) (result : MessageTable × Nat) : Prop :=
  ∃ rounds,
    result = (evictOldest table (TRIM_BATCH * rounds), evictCount table (TRIM_BATCH * rounds)) ∧
    ¬ Trims maxBytes (evictOldest table (TRIM_BATCH * rounds)) ∧
    ∀ earlier < rounds, Trims maxBytes (evictOldest table (TRIM_BATCH * earlier))

theorem evictOldest_zero (table : MessageTable) : evictOldest table 0 = table :=
  table.deleteFirst_zero fun row => evictable row.2

theorem trimmed_of_stop {maxBytes : Nat} {table : MessageTable} (stops : ¬ Trims maxBytes table) :
    Trimmed maxBytes table (table, 0) := by
  refine ⟨0, ?_, ?_, fun _ early => absurd early (Nat.not_lt_zero _)⟩
  · rw [Nat.mul_zero, evictOldest_zero, evictCount_eq, Nat.zero_min]
  · rwa [Nat.mul_zero, evictOldest_zero]

/-- One round more in front. -/
theorem trimmed_of_round
    {maxBytes : Nat} {table : MessageTable} {rest : MessageTable × Nat}
    (trims : Trims maxBytes table) (later : Trimmed maxBytes (evictOldest table TRIM_BATCH) rest) :
    Trimmed maxBytes table (rest.1, evictCount table TRIM_BATCH + rest.2) := by
  obtain ⟨rounds, rfl, stops, continued⟩ := later
  have batches (count : Nat) : TRIM_BATCH + TRIM_BATCH * count = TRIM_BATCH * (count + 1) := by
    rw [Nat.mul_succ, Nat.add_comm]
  refine ⟨rounds + 1, ?_, ?_, ?_⟩
  · dsimp only
    rw [evictOldest_evictOldest, evictCount_add, batches]
  · rwa [evictOldest_evictOldest, batches] at stops
  · intro earlier early
    cases earlier with
    | zero =>
        rwa [Nat.mul_zero, evictOldest_zero]
    | succ before =>
        have goesOn := continued before (Nat.lt_of_succ_lt_succ early)
        rwa [evictOldest_evictOldest, batches] at goesOn

theorem trimLoop_trimmed
    (maxBytes : Nat) {fuel : Nat} (table : MessageTable) (enough : table.rows.length ≤ fuel) :
    Trimmed maxBytes table (trimLoop maxBytes fuel table) := by
  induction fuel generalizing table with
  | zero =>
      refine trimmed_of_stop fun trims => trims.2 ?_
      rw [evictableRows, List.length_eq_zero_iff.mp (Nat.le_zero.mp enough)]
      rfl
  | succ fuel inductionHypothesis =>
      rw [trimLoop]
      by_cases within : totalBytes table ≤ maxBytes
      · rw [if_pos within]
        exact trimmed_of_stop fun trims => absurd trims.1 (Nat.not_lt.mpr within)
      · rw [if_neg within]
        by_cases deletes : evictCount table TRIM_BATCH = 0
        · rw [if_pos deletes]
          refine trimmed_of_stop fun trims => ?_
          have length := List.length_pos_iff.mpr trims.2
          rw [evictCount_eq, TRIM_BATCH] at deletes
          omega
        · rw [if_neg deletes]
          have shorter := length_evictOldest_lt deletes
          refine trimmed_of_round ⟨Nat.lt_of_not_le within, fun none => deletes ?_⟩
            (inductionHypothesis (evictOldest table TRIM_BATCH) (by omega))
          rw [evictCount_eq, none]
          exact Nat.min_zero _

/-! ## The whole call -/

/-- What the bounds are for: the cap holds unless no evictable row is left, and the byte
budget does unless no evictable row is left. -/
def Bounded (maxMessages maxBytes : Nat) (table : MessageTable) : Prop :=
  (table.rows.length ≤ maxMessages ∨ evictableRows table = []) ∧
    (totalBytes table ≤ maxBytes ∨ evictableRows table = [])

/-- A call deletes the excess over the cap and as many batches as its trim takes. -/
theorem boundTable_rounds (table : MessageTable) (maxMessages maxBytes : Nat) :
    ∃ rounds, boundTable table maxMessages maxBytes =
        (evictOldest table (table.rows.length - maxMessages + TRIM_BATCH * rounds),
          evictCount table (table.rows.length - maxMessages + TRIM_BATCH * rounds)) ∧
      ¬ Trims maxBytes
        (evictOldest table (table.rows.length - maxMessages + TRIM_BATCH * rounds)) ∧
      ∀ earlier < rounds, Trims maxBytes
        (evictOldest table (table.rows.length - maxMessages + TRIM_BATCH * earlier)) := by
  rw [boundTable]
  by_cases exceeds : table.rows.length > maxMessages ∨ totalBytes table > maxBytes
  · obtain ⟨rounds, trimmed, stops, continued⟩ :=
      trimLoop_trimmed maxBytes (evictOldest table (table.rows.length - maxMessages))
        (Nat.le_succ _)
    refine ⟨rounds, ?_, ?_, ?_⟩
    · rw [if_pos exceeds]
      dsimp only
      rw [trimBytes, trimmed, evictOldest_evictOldest, evictCount_add]
    · rwa [evictOldest_evictOldest] at stops
    · intro earlier early
      have goesOn := continued earlier early
      rwa [evictOldest_evictOldest] at goesOn
  · have none : table.rows.length - maxMessages + TRIM_BATCH * 0 = 0 := by
      omega
    refine ⟨0, ?_, ?_, fun _ early => absurd early (Nat.not_lt_zero _)⟩
    · rw [if_neg exceeds, none, evictOldest_zero, evictCount_eq, Nat.zero_min]
    · rw [none, evictOldest_zero]
      exact fun trims => exceeds (.inr trims.1)

/-- After a call the bounds hold as far as they can. -/
theorem bounded_boundTable (table : MessageTable) (maxMessages maxBytes : Nat) :
    Bounded maxMessages maxBytes (boundTable table maxMessages maxBytes).1 := by
  obtain ⟨rounds, result, stops, -⟩ := boundTable_rounds table maxMessages maxBytes
  rw [result]
  refine ⟨?_, ?_⟩
  · have length := length_evictOldest table
      (table.rows.length - maxMessages + TRIM_BATCH * rounds)
    rw [evictCount_eq] at length
    dsimp only
    rw [evictableRows_evictOldest_eq_nil]
    omega
  · exact (Decidable.em _).imp id fun exceeds =>
      Decidable.not_not.mp fun some => stops ⟨Nat.lt_of_not_le exceeds, some⟩

/-- Fewer deletions establish the bounds at most one short of a batch earlier. -/
theorem evictCount_boundTable_le
    (table : MessageTable) {maxMessages maxBytes fewer : Nat}
    (bounded : Bounded maxMessages maxBytes (evictOldest table fewer)) :
    (boundTable table maxMessages maxBytes).2 ≤ fewer + 63 := by
  obtain ⟨rounds, result, -, continued⟩ := boundTable_rounds table maxMessages maxBytes
  obtain ⟨rows, bytes⟩ := bounded
  rw [result, evictCount_eq]
  rw [evictableRows_evictOldest_eq_nil] at rows bytes
  have length := length_evictOldest table fewer
  rw [evictCount_eq] at length
  cases rounds with
  | zero =>
      dsimp only
      omega
  | succ before =>
      obtain ⟨exceeds, some⟩ := continued before (Nat.lt_succ_self before)
      rw [Ne, evictableRows_evictOldest_eq_nil] at some
      have later : table.rows.length - maxMessages + TRIM_BATCH * before < fewer := by
        refine Nat.lt_of_not_le fun early => ?_
        have more := bodyBytes_drop_antitone (evictableRows table) early
        rw [totalBytes_evictOldest] at exceeds bytes
        omega
      dsimp only
      rw [TRIM_BATCH] at *
      omega

/-- A call deletes the oldest evictable rows and nothing else: as many as it reports, none
when the bounds hold, and at most 63 more than the bounds need. -/
theorem eviction_exact (store : Store) (maxMessages maxBytes : Nat) :
    (evictableRows store.messages).Pairwise (fun earlier later => earlier.1 < later.1) ∧
      (∀ count,
        (evictOldest store.messages count).rows.Sublist store.messages.rows ∧
          ∀ row, row ∈ (evictOldest store.messages count).rows ↔
            row ∈ store.messages.rows ∧ row ∉ (evictableRows store.messages).take count) ∧
      (∀ table fuel, table.rows.length < fuel →
        trimLoop maxBytes fuel table = trimBytes maxBytes table) ∧
      ∃ evicted ≤ (evictableRows store.messages).length,
        store.enforceBounds maxMessages maxBytes =
            ({ store with messages := evictOldest store.messages evicted }, evicted) ∧
          Bounded maxMessages maxBytes (evictOldest store.messages evicted) ∧
          (store.messages.rows.length ≤ maxMessages → totalBytes store.messages ≤ maxBytes →
            evicted = 0) ∧
          ∀ fewer, Bounded maxMessages maxBytes (evictOldest store.messages fewer) →
            evicted ≤ fewer + 63 := by
  obtain ⟨rounds, result, -, -⟩ := boundTable_rounds store.messages maxMessages maxBytes
  have evicted : (boundTable store.messages maxMessages maxBytes).2 =
      evictCount store.messages
        (store.messages.rows.length - maxMessages + TRIM_BATCH * rounds) :=
    congrArg Prod.snd result
  have left : (boundTable store.messages maxMessages maxBytes).1 =
      evictOldest store.messages (boundTable store.messages maxMessages maxBytes).2 := by
    rw [evicted, evictOldest_evictCount, result]
  refine ⟨store.messages.sorted.filter _, fun count => ⟨List.filter_sublist, fun row =>
    store.messages.mem_deleteFirst (fun row => evictable row.2) count⟩, ?_,
    (boundTable store.messages maxMessages maxBytes).2, ?_, ?_, ?_, ?_, ?_⟩
  · intro table fuel enough
    exact trimLoop_enough maxBytes table (Nat.le_of_lt enough)
  · rw [evicted, evictCount_eq]
    exact Nat.min_le_right _ _
  · rw [← left]
    rfl
  · rw [← left]
    exact bounded_boundTable store.messages maxMessages maxBytes
  · intro rows bytes
    rw [boundTable, if_neg (by omega)]
  · intro fewer bounded
    exact evictCount_boundTable_le store.messages bounded

/-! ## The byte budget in bytes -/

/-- The UTF-8 size of the bodies of rows. -/
def utf8Bytes (rows : List (Int × MsgRow)) : Nat :=
  measured String.utf8ByteSize rows

/-- The budget holds in bytes unless no evictable row is left. -/
def WithinBytes (maxBytes : Nat) (table : MessageTable) : Prop :=
  utf8Bytes table.rows ≤ maxBytes ∨ evictableRows table = []

/-- Whenever the excess over the cap and some batches are gone, evictable rows are left and
the budget holds by `LENGTH`, it holds in bytes. -/
def BudgetCountsBytes (maxMessages maxBytes : Nat) (table : MessageTable) : Prop :=
  ∀ batches,
    table.rows.length - maxMessages + TRIM_BATCH * batches < (evictableRows table).length →
    bodyBytes (exemptRows table) +
        bodyBytes ((evictableRows table).drop
          (table.rows.length - maxMessages + TRIM_BATCH * batches)) ≤ maxBytes →
    utf8Bytes (exemptRows table) +
        utf8Bytes ((evictableRows table).drop
          (table.rows.length - maxMessages + TRIM_BATCH * batches)) ≤ maxBytes

theorem utf8Bytes_evictOldest (table : MessageTable) (count : Nat) :
    utf8Bytes (evictOldest table count).rows =
      utf8Bytes (exemptRows table) + utf8Bytes ((evictableRows table).drop count) := by
  rw [← exemptRows_evictOldest table count, ← evictableRows_evictOldest]
  exact (measured_filter_add String.utf8ByteSize _ fun row => evictable row.2).symm

/-- The byte budget is kept in bytes exactly when the measure of the bodies that stay does
not let more bytes through. -/
theorem byte_budget_iff (store : Store) (maxMessages maxBytes : Nat) :
    WithinBytes maxBytes (store.enforceBounds maxMessages maxBytes).1.messages ↔
      BudgetCountsBytes maxMessages maxBytes store.messages := by
  obtain ⟨rounds, result, stops, continued⟩ :=
    boundTable_rounds store.messages maxMessages maxBytes
  have left : (store.enforceBounds maxMessages maxBytes).1.messages =
      evictOldest store.messages
        (store.messages.rows.length - maxMessages + TRIM_BATCH * rounds) :=
    congrArg Prod.fst result
  rw [left, WithinBytes, utf8Bytes_evictOldest, evictableRows_evictOldest_eq_nil]
  constructor
  · intro within batches some chars
    have later : rounds ≤ batches := by
      refine Nat.le_of_not_lt fun early => ?_
      obtain ⟨exceeds, -⟩ := continued batches early
      rw [totalBytes_evictOldest] at exceeds
      omega
    have gone : store.messages.rows.length - maxMessages + TRIM_BATCH * rounds ≤
        store.messages.rows.length - maxMessages + TRIM_BATCH * batches :=
      Nat.add_le_add_left (Nat.mul_le_mul_left TRIM_BATCH later) _
    have fewer : utf8Bytes _ ≤ utf8Bytes _ :=
      measured_drop_antitone String.utf8ByteSize (evictableRows store.messages) gone
    omega
  · intro counts
    by_cases none : (evictableRows store.messages).length ≤
        store.messages.rows.length - maxMessages + TRIM_BATCH * rounds
    · exact .inr none
    · refine .inl (counts rounds (Nat.lt_of_not_le none) ?_)
      rw [← totalBytes_evictOldest]
      refine Nat.le_of_not_lt fun exceeds => stops ⟨exceeds, ?_⟩
      rw [Ne, evictableRows_evictOldest_eq_nil]
      exact none

/-! ### Where `LENGTH` counts bytes -/

/-- ASCII without NUL. -/
def Ascii (text : String) : Prop :=
  ∀ letter ∈ text.toList, letter.toNat ≠ 0 ∧ letter.utf8Size = 1

/-- `LENGTH` counts the bytes of ASCII texts without NUL. -/
theorem sqlLength_of_ascii {text : String} (ascii : Ascii text) :
    sqlLength text = text.utf8ByteSize := by
  have whole : (text.toList.takeWhile fun letter => letter.toNat != 0) = text.toList :=
    List.takeWhile_eq_self_iff.mpr fun letter member => bne_iff_ne.mpr (ascii letter member).1
  rw [sqlLength, whole, Utf8.utf8ByteSize_eq,
    Utf8.size_of_ones fun letter member => (ascii letter member).2]

/-- The byte budget is kept in bytes for ASCII bodies without NUL. -/
theorem withinBytes_of_ascii
    {store : Store} (ascii : ∀ row ∈ store.messages.rows, Ascii row.2.body)
    (maxMessages maxBytes : Nat) :
    WithinBytes maxBytes (store.enforceBounds maxMessages maxBytes).1.messages := by
  have same {rows : List (Int × MsgRow)} (stored : rows ⊆ store.messages.rows) :
      utf8Bytes rows = bodyBytes rows :=
    congrArg List.sum (List.map_congr_left fun row member =>
      (sqlLength_of_ascii (ascii row (stored member))).symm)
  have exempt : utf8Bytes (exemptRows store.messages) = bodyBytes (exemptRows store.messages) :=
    same (List.filter_subset_self store.messages.rows)
  have left (count : Nat) : utf8Bytes ((evictableRows store.messages).drop count) =
      bodyBytes ((evictableRows store.messages).drop count) :=
    same (List.Subset.trans (List.drop_subset _ _)
      (List.filter_subset_self store.messages.rows))
  refine (byte_budget_iff store maxMessages maxBytes).mpr fun batches _ chars => ?_
  rwa [exempt, left]

/-- A message whose body is one character of two bytes. -/
def accented : Inner :=
  { id := "one", v := 2, sender := "peer", recipient := "me", ts := "", nonce := "",
    ctype := "text/plain", body := "é" }

/-- A store that holds it. -/
def oneAccented : Store :=
  (({} : Store).insertInbound accented "topic").1

/-- Two bytes stay in a budget of one. -/
theorem byte_budget_exceeded :
    ¬ ∀ (store : Store) (maxMessages maxBytes : Nat),
      WithinBytes maxBytes (store.enforceBounds maxMessages maxBytes).1.messages := by
  intro within
  have body : "é" = String.ofList ['é'] := rfl
  have chars : sqlLength "é" = 1 := by
    rw [sqlLength, body, String.toList_ofList]
    rfl
  have bytes : "é".utf8ByteSize = 2 := by
    rw [body, Utf8.utf8ByteSize_ofList]
    rfl
  have rows : oneAccented.messages.rows = [(1, inboundRow accented "topic")] := rfl
  have same : (oneAccented.enforceBounds 1 1).1.messages = oneAccented.messages := by
    rw [enforceBounds, boundTable, if_neg]
    rw [totalBytes, rows]
    simp [inboundRow, accented, chars]
  have kept := within oneAccented 1 1
  rw [same, WithinBytes, utf8Bytes, evictableRows, rows] at kept
  rcases kept with few | none
  · simp [measured, inboundRow, accented, bytes] at few
  · cases none

end Store

end AgentMsg
