import AgentMsg.Lib.Record
import AgentMsg.Lib.Utf8

/-!
# The size of compact documents

How many bytes a document takes that is written without white space, from the sizes of its
texts as they are escaped.
-/

namespace Json

/-! ## Texts and numbers -/

/-- The characters that are escaped with one letter. -/
def shortEscapes : List Char :=
  ['"', '\\', '\x08', '\x0c', '\n', '\r', '\t']

/-- The bytes of a character inside a text. -/
def charSize (letter : Char) : Nat :=
  if letter ∈ shortEscapes then 2 else if letter.toNat < 32 then 6 else letter.utf8Size

def charsSize : List Char → Nat
  | [] => 0
  | letter :: more => charSize letter + charsSize more

/-- The bytes of a text between its quotation marks. -/
def escapedSize (value : String) : Nat :=
  charsSize value.toList

@[simp]
theorem charsSize_append (front rest : List Char) :
    charsSize (front ++ rest) = charsSize front + charsSize rest := by
  induction front with
  | nil =>
      rw [List.nil_append, charsSize, Nat.zero_add]
  | cons letter more inductionHypothesis =>
      rw [List.cons_append, charsSize, charsSize, inductionHypothesis, Nat.add_assoc]

@[simp]
theorem escapedSize_append (front rest : String) :
    escapedSize (front ++ rest) = escapedSize front + escapedSize rest := by
  rw [escapedSize, String.toList_append, charsSize_append, escapedSize, escapedSize]

theorem size_escape (letter : Char) : Utf8.size (escape letter) = charSize letter := by
  by_cases short : letter ∈ shortEscapes
  · rw [charSize, if_pos short]
    simp only [shortEscapes, List.mem_cons, List.not_mem_nil, or_false] at short
    rcases short with rfl | rfl | rfl | rfl | rfl | rfl | rfl
    all_goals decide
  · rw [charSize, if_neg short]
    simp only [shortEscapes, List.mem_cons, List.not_mem_nil, or_false, not_or] at short
    obtain ⟨quotation, backslash, backspace, feed, newline, back, tab⟩ := short
    rw [escape, if_neg quotation, if_neg backslash, if_neg backspace, if_neg feed,
      if_neg newline, if_neg back, if_neg tab]
    by_cases control : letter.toNat < 32
    · have hexadecimal : ∀ digit : Fin 16, (hexDigit digit).utf8Size = 1 := by decide
      have upper := hexadecimal ⟨letter.toNat / 16, by omega⟩
      have lower := hexadecimal ⟨letter.toNat % 16, by omega⟩
      have front : Utf8.size ['\\', 'u', '0', '0'] = 4 := by decide
      rw [if_pos control, if_pos control]
      simp only [Utf8.size] at front ⊢
      simp only at upper lower
      omega
    · rw [if_neg control, if_neg control]
      rfl

theorem size_flatMap_escape (letters : List Char) :
    Utf8.size (letters.flatMap escape) = charsSize letters := by
  induction letters with
  | nil =>
      rfl
  | cons letter more inductionHypothesis =>
      rw [List.flatMap_cons, Utf8.size_append, size_escape, inductionHypothesis, charsSize]

theorem size_quote (value : String) : Utf8.size (quote value) = escapedSize value + 2 := by
  have mark : '"'.utf8Size = 1 := by decide
  simp only [quote, Utf8.size, Utf8.size_append, size_flatMap_escape, mark, escapedSize]
  omega

theorem size_printNumber (value : Int) :
    Utf8.size (printNumber value) = (printNumber value).length := by
  have ones (value : Nat) : ∀ letter ∈ digits value, letter.utf8Size = 1 := by
    intro letter member
    have digit := isDigit_of_mem_digits member
    rw [Char.isDigit, Bool.and_eq_true, decide_eq_true_eq, decide_eq_true_eq] at digit
    rw [Char.utf8Size_eq_one_iff]
    exact UInt32.le_trans digit.2 (by decide)
  apply Utf8.size_of_ones
  cases value with
  | ofNat value =>
      exact ones value
  | negSucc value =>
      intro letter member
      rcases List.mem_cons.mp member with rfl | digit
      · decide
      · exact ones _ letter digit

/-- Escaping takes at most six bytes for one. -/
theorem charsSize_le (letters : List Char) : charsSize letters ≤ 6 * Utf8.size letters := by
  induction letters with
  | nil =>
      exact Nat.le_refl _
  | cons letter more inductionHypothesis =>
      have positive := letter.utf8Size_pos
      have first : charSize letter ≤ 6 * letter.utf8Size := by
        unfold charSize
        split
        · omega
        · split <;> omega
      rw [charsSize, Utf8.size]
      omega

theorem escapedSize_le (value : String) : escapedSize value ≤ 6 * value.utf8ByteSize := by
  rw [escapedSize, Utf8.utf8ByteSize_eq]
  exact charsSize_le _

/-- A text without characters to escape keeps its size. -/
theorem charsSize_of_clear
    {letters : List Char} (clear : ∀ letter ∈ letters, charSize letter = 1) :
    charsSize letters = letters.length := by
  induction letters with
  | nil =>
      rfl
  | cons letter more inductionHypothesis =>
      have first := clear letter List.mem_cons_self
      have later := inductionHypothesis fun other member =>
        clear other (List.mem_cons_of_mem letter member)
      rw [charsSize, first, later, List.length_cons, Nat.add_comm]

end Json

namespace Document

open Json (printNumber escapedSize size_quote size_printNumber)

/-! ## Documents -/

mutual

/-- The bytes of a value. -/
def size : Document → Nat
  | .null => 4
  | .bool true => 4
  | .bool false => 5
  | .number value => (printNumber value).length
  | .text value => escapedSize value + 2
  | .list [] => 2
  | .list (item :: items) => item.size + 2 + itemsSize items
  | .object [] => 2
  | .object ((key, value) :: members) => escapedSize key + value.size + 5 + membersSize members
  | .skipped => 3

/-- The bytes of items, each with what separates it from the next. -/
def itemsSize : List Document → Nat
  | [] => 0
  | item :: items => item.size + 1 + itemsSize items

/-- The bytes of members, each with its colon and what separates it from the next. -/
def membersSize : List (String × Document) → Nat
  | [] => 0
  | (key, value) :: members => escapedSize key + value.size + 4 + membersSize members

end

/-- The bytes of the punctuation. -/
private theorem size_punctuation :
    ','.utf8Size = 1 ∧ ':'.utf8Size = 1 ∧ '['.utf8Size = 1 ∧ ']'.utf8Size = 1 ∧
      '\x7b'.utf8Size = 1 ∧ '\x7d'.utf8Size = 1 := by
  decide

mutual

/-- What is written has the size of the value. -/
theorem size_print (path : List Nat) : ∀ value : Document,
    Utf8.size (print .compact path value) = value.size
  | .null => by
      rfl
  | .bool true => by
      rfl
  | .bool false => by
      rfl
  | .number value => by
      rw [print, size_printNumber, size]
  | .text value => by
      rw [print, size_quote, size]
  | .list [] => by
      rfl
  | .list (item :: items) => by
      simp only [print, Layout.blanks_compact, Utf8.size, List.nil_append, Utf8.size_append,
        size_punctuation, size_print _ item, size_printItems path 1 items, size]
      omega
  | .object [] => by
      rfl
  | .object ((key, value) :: members) => by
      simp only [print, Layout.blanks_compact, Utf8.size, List.nil_append, List.append_nil,
        Utf8.size_append, size_punctuation, size_quote, size_print _ value,
        size_printMembers path 1 members, size]
      omega
  | .skipped => by
      rfl

theorem size_printItems (path : List Nat) : ∀ (index : Nat) (items : List Document),
    Utf8.size (printItems .compact path index items) = itemsSize items + 1
  | _, [] => by
      rfl
  | index, item :: items => by
      simp only [printItems, Layout.blanks_compact, Utf8.size, List.nil_append, Utf8.size_append,
        size_punctuation, size_print _ item, size_printItems path (index + 1) items, itemsSize]
      omega

theorem size_printMembers (path : List Nat) :
    ∀ (index : Nat) (members : List (String × Document)),
      Utf8.size (printMembers .compact path index members) = membersSize members + 1
  | _, [] => by
      rfl
  | index, (key, value) :: members => by
      simp only [printMembers, Layout.blanks_compact, Utf8.size, List.nil_append, List.append_nil,
        Utf8.size_append, size_punctuation, size_quote, size_print _ value,
        size_printMembers path (index + 1) members, membersSize]
      omega

end

theorem utf8ByteSize_encode (value : Document) :
    (encode .compact value).utf8ByteSize = value.size := by
  rw [Utf8.utf8ByteSize_eq, toList_encode_compact, size_print]

/-- A list has the size of its items and two brackets, of which one stands for a comma. -/
theorem size_list (items : List Document) :
    (list items).size = 2 + (itemsSize items - 1) := by
  cases items with
  | nil =>
      rfl
  | cons item items =>
      rw [size, itemsSize]
      omega

/-- An object with a member has the size of its members and a brace. -/
theorem size_object {members : List (String × Document)} (present : members ≠ []) :
    (object members).size = membersSize members + 1 := by
  cases members with
  | nil =>
      exact absurd rfl present
  | cons member rest =>
      rw [size, membersSize]
      omega

/-! ## Records -/

section Records

variable {α : Type} (key : String) (document : Document) (fields : List Field)
  (documents : List Document)

theorem membersSize_nil : membersSize (membersOf [] documents) = 0 := by
  rw [membersOf]
  · rfl
  · intro field fields document documents written
    cases written

theorem membersSize_written {field : Field} {document : Document}
    (written : field.skips document = false) :
    membersSize (membersOf (field :: fields) (document :: documents)) =
      escapedSize field.key + document.size + 4 + membersSize (membersOf fields documents) := by
  rw [membersOf, written, if_neg Bool.false_ne_true, membersSize]

theorem membersSize_plain :
    membersSize (membersOf (.plain key :: fields) (document :: documents)) =
      escapedSize key + document.size + 4 + membersSize (membersOf fields documents) :=
  membersSize_written fields documents rfl

theorem membersSize_defaulted (value : Document) :
    membersSize (membersOf (.defaulted key value :: fields) (document :: documents)) =
      escapedSize key + document.size + 4 + membersSize (membersOf fields documents) :=
  membersSize_written fields documents rfl

/-- The bytes of a member that is left out when there is no value. -/
def memberSize (shape : Shape α) : Option α → Nat
  | none => 0
  | some value => escapedSize key + (shape.write value).size + 4

theorem membersSize_sparse (shape : Shape α) (solid : shape.Solid) (value : Option α) :
    membersSize (membersOf (.sparse key :: fields)
        ((shape.optional solid).write value :: documents)) =
      memberSize key shape value + membersSize (membersOf fields documents) := by
  cases value with
  | none =>
      exact (Nat.zero_add _).symm
  | some value =>
      have written : (Field.sparse key).skips (shape.write value) = false := by
        rw [Field.sparse]
        dsimp only
        split
        · rename_i null
          exact absurd null (solid value)
        · rfl
      exact membersSize_written fields documents written

theorem membersSize_sparseFlag (set : Bool) :
    membersSize (membersOf (.sparseFlag key :: fields) (.bool set :: documents)) =
      (if set then escapedSize key + 8 else 0) + membersSize (membersOf fields documents) := by
  cases set with
  | false =>
      exact (Nat.zero_add _).symm
  | true =>
      exact membersSize_written fields documents rfl

/-- A record whose first field is always written is an object with a member. -/
theorem size_record :
    (object (membersOf (.plain key :: fields) (document :: documents))).size =
      membersSize (membersOf (.plain key :: fields) (document :: documents)) + 1 :=
  size_object (List.cons_ne_nil _ _)

end Records

end Document
