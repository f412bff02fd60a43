import Mathlib.Data.List.Basic
import Mathlib.Tactic.Common

/-!
# Sizes of texts

How many bytes the characters of a text take in UTF-8.
-/

namespace Utf8

/-- The bytes of a list of characters. -/
def size : List Char → Nat
  | [] => 0
  | letter :: more => letter.utf8Size + size more

@[simp]
theorem size_append (front rest : List Char) : size (front ++ rest) = size front + size rest := by
  induction front with
  | nil =>
      rw [List.nil_append, size, Nat.zero_add]
  | cons letter more inductionHypothesis =>
      rw [List.cons_append, size, size, inductionHypothesis, Nat.add_assoc]

/-- Characters of one byte each. -/
theorem size_of_ones
    {letters : List Char} (ones : ∀ letter ∈ letters, letter.utf8Size = 1) :
    size letters = letters.length := by
  induction letters with
  | nil =>
      rfl
  | cons letter more inductionHypothesis =>
      have first := ones letter List.mem_cons_self
      have later := inductionHypothesis fun other member =>
        ones other (List.mem_cons_of_mem letter member)
      rw [size, first, later, List.length_cons, Nat.add_comm]

/-- The bytes of a text are those of its characters. -/
theorem utf8ByteSize_ofList (letters : List Char) :
    (String.ofList letters).utf8ByteSize = size letters := by
  rw [← String.size_toByteArray, String.toByteArray_ofList]
  induction letters with
  | nil =>
      rfl
  | cons letter more inductionHypothesis =>
      rw [List.utf8Encode_cons, ByteArray.size_append, inductionHypothesis,
        List.utf8Encode_singleton, List.size_toByteArray, String.length_utf8EncodeChar, size]

theorem utf8ByteSize_eq (text : String) : text.utf8ByteSize = size text.toList := by
  rw [← utf8ByteSize_ofList, String.ofList_toList]

end Utf8
