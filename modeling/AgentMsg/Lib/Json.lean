import Mathlib.Data.List.Basic
import Mathlib.Data.List.TakeWhile
import Mathlib.Tactic.Common

/-!
# Numbers and texts in JSON

A text is written between quotation marks; the quotation mark, the backslash and the control
characters below the blank are escaped, and every other character stands for itself.  Of what
is read, some numbers and texts have no value here: those with a fraction or an exponent, the
negative zero, and those with half of a surrogate pair.  Reading undoes writing, and it is the
same when more follows.
-/

namespace Json

/-! ## Numbers -/

def digitChar (digit : Nat) : Char :=
  Char.ofNat (48 + digit)

/-- The decimal digits of a number. -/
def digits (value : Nat) : List Char :=
  if value < 10 then [digitChar value]
  else digits (value / 10) ++ [digitChar (value % 10)]

/-- The digits of an integer. -/
def printNumber : Int → List Char
  | .ofNat value => digits value
  | .negSucc value => '-' :: digits (value + 1)

/-- The value of decimal digits after those already read. -/
def valueOf (digits : List Char) : Nat :=
  digits.foldl (fun value digit => value * 10 + (digit.toNat - 48)) 0

/-- Split off the digits at the front, if there are any. -/
def takeDigits (chars : List Char) : Option (List Char × List Char) :=
  match chars.takeWhile Char.isDigit with
  | [] => none
  | first :: more => some (first :: more, chars.dropWhile Char.isDigit)

/-- A zero before another digit comes first. -/
def needlessZero : List Char → Bool
  | '0' :: next :: _ => next.isDigit
  | _ => false

/-- Read the digits of a number that has no needless zero. -/
def readNatural (chars : List Char) : Option (Nat × List Char) :=
  if needlessZero chars then none
  else (takeDigits chars).map fun (found, left) => (valueOf found, left)

/-- Leave out a fraction. -/
def skipFraction : List Char → Option (List Char)
  | [] => some []
  | first :: rest =>
      if first = '.' then (takeDigits rest).map Prod.snd else some (first :: rest)

/-- Leave out the sign of an exponent. -/
def skipSign : List Char → List Char
  | [] => []
  | first :: rest => if first = '+' ∨ first = '-' then rest else first :: rest

/-- Leave out an exponent. -/
def skipExponent : List Char → Option (List Char)
  | [] => some []
  | first :: rest =>
      if first = 'e' ∨ first = 'E' then (takeDigits (skipSign rest)).map Prod.snd
      else some (first :: rest)

/-- The character begins a fraction or an exponent. -/
def isReal (letter : Char) : Bool :=
  letter == '.' || letter == 'e' || letter == 'E'

/-- Read a number without a sign, which has a value if it is an integer. -/
def readMagnitude (chars : List Char) : Option (Option Nat × List Char) := do
  let (value, left) ← readNatural chars
  let behind ← skipFraction left
  let last ← skipExponent behind
  some (if left.head?.any isReal then none else some value, last)

/-- The negative of a number other than zero. -/
def negative : Nat → Option Int
  | 0 => none
  | value + 1 => some (.negSucc value)

/-- Read a number, which has a value if it is an integer other than the negative zero. -/
def readNumber : List Char → Option (Option Int × List Char)
  | '-' :: rest => (readMagnitude rest).map fun (value, left) => (value.bind negative, left)
  | chars => (readMagnitude chars).map fun (value, left) => (value.map .ofNat, left)

/-! ## Texts -/

def hexDigit (value : Nat) : Char :=
  if value < 10 then Char.ofNat (48 + value) else Char.ofNat (87 + value)

/-- How a character is written inside a text. -/
def escape (letter : Char) : List Char :=
  if letter = '"' then ['\\', '"']
  else if letter = '\\' then ['\\', '\\']
  else if letter = '\x08' then ['\\', 'b']
  else if letter = '\x0c' then ['\\', 'f']
  else if letter = '\n' then ['\\', 'n']
  else if letter = '\r' then ['\\', 'r']
  else if letter = '\t' then ['\\', 't']
  else if letter.toNat < 32 then
    ['\\', 'u', '0', '0', hexDigit (letter.toNat / 16), hexDigit (letter.toNat % 16)]
  else [letter]

/-- A text between quotation marks. -/
def quote (value : String) : List Char :=
  '"' :: (value.toList.flatMap escape ++ ['"'])

def hexValue (letter : Char) : Option Nat :=
  if letter.isDigit then some (letter.toNat - 48)
  else if 'a' ≤ letter ∧ letter ≤ 'f' then some (letter.toNat - 87)
  else if 'A' ≤ letter ∧ letter ≤ 'F' then some (letter.toNat - 55)
  else none

/-- The number that four hexadecimal digits stand for. -/
def hexUnit (first second third fourth : Char) : Option Nat := do
  let a ← hexValue first
  let b ← hexValue second
  let c ← hexValue third
  let d ← hexValue fourth
  some (((a * 16 + b) * 16 + c) * 16 + d)

/-- The character after a backslash, when it is a short escape. -/
def unescape (code : Char) : Option Char :=
  if code = '"' then some '"'
  else if code = '\\' then some '\\'
  else if code = '/' then some '/'
  else if code = 'b' then some '\x08'
  else if code = 'f' then some '\x0c'
  else if code = 'n' then some '\n'
  else if code = 'r' then some '\r'
  else if code = 't' then some '\t'
  else none

/-- What a text is made of: characters, and escaped halves of surrogate pairs. -/
inductive Piece where
  | letter (value : Char)
  | half (unit : Nat)

/-- What an escaped number stands for. -/
def Piece.ofUnit (unit : Nat) : Piece :=
  if unit < 0xD800 ∨ 0xE000 ≤ unit then .letter (Char.ofNat unit) else .half unit

/-- Read the pieces of a text up to the closing quotation mark. -/
def readPieces : List Char → Option (List Piece × List Char)
  | [] => none
  | '"' :: rest => some ([], rest)
  | '\\' :: 'u' :: a :: b :: c :: d :: rest => do
      let unit ← hexUnit a b c d
      let (pieces, left) ← readPieces rest
      some (.ofUnit unit :: pieces, left)
  | '\\' :: code :: rest => do
      let letter ← unescape code
      let (pieces, left) ← readPieces rest
      some (.letter letter :: pieces, left)
  | letter :: rest =>
      if letter.toNat < 32 then none
      else do
        let (pieces, left) ← readPieces rest
        some (.letter letter :: pieces, left)

/-- The characters of a text, when the halves are those of pairs. -/
def lettersOf : List Piece → Option (List Char)
  | [] => some []
  | .letter letter :: pieces => (lettersOf pieces).map (letter :: ·)
  | .half high :: .half low :: pieces =>
      if high < 0xDC00 ∧ 0xDC00 ≤ low then
        (lettersOf pieces).map
          (Char.ofNat (0x10000 + (high - 0xD800) * 0x400 + (low - 0xDC00)) :: ·)
      else none
  | .half _ :: _ => none

/-- Read a text up to the closing quotation mark, which has a value if no half is alone. -/
def readText (chars : List Char) : Option (Option String × List Char) := do
  let (pieces, left) ← readPieces chars
  some ((lettersOf pieces).map String.ofList, left)

/-! ## Reading numbers back -/

private theorem digitChar_isDigit {digit : Nat} (small : digit < 10) :
    (digitChar digit).isDigit = true := by
  have all : ∀ value : Fin 10, (digitChar value).isDigit = true := by decide
  exact all ⟨digit, small⟩

private theorem digitChar_value {digit : Nat} (small : digit < 10) :
    (digitChar digit).toNat - 48 = digit := by
  have all : ∀ value : Fin 10, (digitChar value).toNat - 48 = value.val := by decide
  exact all ⟨digit, small⟩

theorem valueOf_concat (front : List Char) (digit : Char) :
    valueOf (front ++ [digit]) = valueOf front * 10 + (digit.toNat - 48) := by
  rw [valueOf, List.foldl_append]
  rfl

theorem valueOf_digits (value : Nat) : valueOf (digits value) = value := by
  induction value using digits.induct with
  | case1 value small =>
      rw [digits, if_pos small]
      have read := digitChar_value small
      simpa [valueOf] using read
  | case2 value large inductionHypothesis =>
      rw [digits, if_neg large, valueOf_concat, inductionHypothesis,
        digitChar_value (Nat.mod_lt _ (by omega))]
      omega

theorem isDigit_of_mem_digits {value : Nat} {letter : Char} (member : letter ∈ digits value) :
    letter.isDigit = true := by
  induction value using digits.induct with
  | case1 value small =>
      rw [digits, if_pos small, List.mem_singleton] at member
      rw [member]
      exact digitChar_isDigit small
  | case2 value large inductionHypothesis =>
      rw [digits, if_neg large, List.mem_append, List.mem_singleton] at member
      rcases member with front | last
      · exact inductionHypothesis front
      · rw [last]
        exact digitChar_isDigit (Nat.mod_lt _ (by omega))

theorem digits_ne_nil (value : Nat) : digits value ≠ [] := by
  rw [digits]
  split
  · exact List.cons_ne_nil _ _
  · exact List.append_ne_nil_of_right_ne_nil _ (List.cons_ne_nil _ _)

theorem head_digits_ne_zero {value : Nat} (positive : 0 < value) {first : Char}
    {more : List Char} (written : digits value = first :: more) : first ≠ '0' := by
  induction value using digits.induct generalizing first more with
  | case1 value small =>
      rw [digits, if_pos small] at written
      have all : ∀ digit : Fin 10, 0 < digit.val → digitChar digit ≠ '0' := by decide
      rw [← (List.cons.inj written).1]
      exact all ⟨value, small⟩ positive
  | case2 value large inductionHypothesis =>
      obtain ⟨front, behind, first_eq⟩ :=
        List.exists_cons_of_ne_nil (digits_ne_nil (value / 10))
      rw [digits, if_neg large, first_eq, List.cons_append] at written
      rw [← (List.cons.inj written).1]
      exact inductionHypothesis (by omega) first_eq

/-- No character comes first that goes on with a number. -/
def Stops (rest : List Char) : Prop :=
  ∀ letter ∈ rest.head?, letter.isDigit = false ∧ isReal letter = false

theorem takeDigits_append_of_stops {found : List Char} (present : found ≠ [])
    (all : ∀ letter ∈ found, letter.isDigit = true) {rest : List Char} (stops : Stops rest) :
    takeDigits (found ++ rest) = some (found, rest) := by
  have left : rest.takeWhile Char.isDigit = [] ∧ rest.dropWhile Char.isDigit = rest := by
    cases rest with
    | nil =>
        exact ⟨rfl, rfl⟩
    | cons first more =>
        have other : first.isDigit = false := (stops first rfl).1
        simp [other]
  rw [takeDigits, List.takeWhile_append_of_pos all, List.dropWhile_append_of_pos all, left.1,
    left.2, List.append_nil]
  split
  · exact absurd rfl present
  · rfl

theorem readNatural_digits (value : Nat) {rest : List Char} (stops : Stops rest) :
    readNatural (digits value ++ rest) = some (value, rest) := by
  have plain : needlessZero (digits value ++ rest) = false := by
    rcases Nat.eq_zero_or_pos value with rfl | positive
    · have zero : digits 0 = ['0'] := by
        rw [digits, if_pos (by decide)]
        rfl
      rw [zero]
      cases rest with
      | nil =>
          rfl
      | cons next more =>
          exact (stops next rfl).1
    · obtain ⟨first, more, written⟩ := List.exists_cons_of_ne_nil (digits_ne_nil value)
      have nonzero := head_digits_ne_zero positive written
      rw [written, List.cons_append, needlessZero.eq_def]
      split
      · rename_i same
        exact absurd (List.cons.inj same).1 nonzero
      · rfl
  have taken := takeDigits_append_of_stops (digits_ne_nil value)
    (fun letter => isDigit_of_mem_digits) stops
  simp only [readNatural, plain, taken, Bool.false_eq_true, if_false, Option.map_some,
    valueOf_digits]

theorem skipFraction_of_stops {rest : List Char} (stops : Stops rest) :
    skipFraction rest = some rest := by
  cases rest with
  | nil =>
      rfl
  | cons first more =>
      refine if_neg ?_
      rintro rfl
      exact absurd (stops '.' rfl).2 (by decide)

theorem skipExponent_of_stops {rest : List Char} (stops : Stops rest) :
    skipExponent rest = some rest := by
  cases rest with
  | nil =>
      rfl
  | cons first more =>
      refine if_neg ?_
      rintro (rfl | rfl)
      · exact absurd (stops 'e' rfl).2 (by decide)
      · exact absurd (stops 'E' rfl).2 (by decide)

theorem readMagnitude_digits (value : Nat) {rest : List Char} (stops : Stops rest) :
    readMagnitude (digits value ++ rest) = some (some value, rest) := by
  have whole : rest.head?.any isReal = false := by
    cases rest with
    | nil =>
        rfl
    | cons first more =>
        exact (stops first rfl).2
  simp only [readMagnitude, readNatural_digits value stops, skipFraction_of_stops stops,
    skipExponent_of_stops stops, whole, Option.bind_eq_bind, Option.bind_some,
    Bool.false_eq_true, if_false]

/-- A number begins with a minus sign or a digit. -/
theorem printNumber_head (value : Int) :
    ∃ first more, printNumber value = first :: more ∧
      (first = '-' ∨ first.isDigit = true) := by
  cases value with
  | ofNat value =>
      obtain ⟨first, more, written⟩ := List.exists_cons_of_ne_nil (digits_ne_nil value)
      exact ⟨first, more, written, .inr (isDigit_of_mem_digits (written ▸ List.mem_cons_self))⟩
  | negSucc value =>
      exact ⟨'-', _, rfl, .inl rfl⟩

/-- A number without a sign is read as it is. -/
theorem readNumber_unsigned {chars : List Char} (unsigned : chars.head? ≠ some '-') :
    readNumber chars =
      (readMagnitude chars).map fun found => (found.1.map .ofNat, found.2) := by
  rw [readNumber.eq_def]
  split
  · exact absurd rfl unsigned
  · rfl

theorem readNumber_printNumber (value : Int) {rest : List Char} (stops : Stops rest) :
    readNumber (printNumber value ++ rest) = some (some value, rest) := by
  cases value with
  | ofNat value =>
      obtain ⟨first, more, written⟩ := List.exists_cons_of_ne_nil (digits_ne_nil value)
      have digit : first.isDigit = true :=
        isDigit_of_mem_digits (written ▸ List.mem_cons_self)
      have unsigned : (digits value ++ rest).head? ≠ some '-' := by
        rw [written]
        rintro ⟨⟩
        exact absurd digit (by decide)
      rw [printNumber, readNumber_unsigned unsigned, readMagnitude_digits value stops]
      rfl
  | negSucc value =>
      simp only [printNumber, List.cons_append, readNumber, readMagnitude_digits _ stops]
      rfl

/-! ## Reading texts back -/

private theorem hexValue_hexDigit {value : Nat} (small : value < 16) :
    hexValue (hexDigit value) = some value := by
  have all : ∀ digit : Fin 16, hexValue (hexDigit digit) = some digit.val := by decide
  exact all ⟨value, small⟩

theorem readPieces_escape (letter : Char) (rest : List Char) :
    readPieces (escape letter ++ rest) =
      (readPieces rest).map fun found => (.letter letter :: found.1, found.2) := by
  by_cases short : letter ∈ ['"', '\\', '\x08', '\x0c', '\n', '\r', '\t']
  · simp only [List.mem_cons, List.not_mem_nil, or_false] at short
    rcases short with rfl | rfl | rfl | rfl | rfl | rfl | rfl
    all_goals
      cases read : readPieces rest <;> simp [escape, readPieces, read, unescape]
  · simp only [List.mem_cons, List.not_mem_nil, or_false, not_or] at short
    obtain ⟨quotation, backslash, backspace, feed, newline, back, tab⟩ := short
    unfold escape
    rw [if_neg quotation, if_neg backslash, if_neg backspace, if_neg feed, if_neg newline,
      if_neg back, if_neg tab]
    by_cases control : letter.toNat < 32
    · have upper := hexValue_hexDigit (show letter.toNat / 16 < 16 by omega)
      have lower := hexValue_hexDigit (show letter.toNat % 16 < 16 by omega)
      have zero : hexValue '0' = some 0 := by decide
      have same : letter.toNat / 16 * 16 + letter.toNat % 16 = letter.toNat :=
        Nat.div_add_mod' _ _
      have unit : hexUnit '0' '0' (hexDigit (letter.toNat / 16))
          (hexDigit (letter.toNat % 16)) = some letter.toNat := by
        simp only [hexUnit, zero, upper, lower, Option.bind_eq_bind, Option.bind_some]
        simp only [Nat.zero_mul, Nat.zero_add, same]
      have low : letter.toNat < 0xD800 ∨ 0xE000 ≤ letter.toNat := .inl (by omega)
      rw [if_pos control]
      cases read : readPieces rest <;> simp [readPieces, unit, Piece.ofUnit, low, read]
    · rw [if_neg control, List.singleton_append, readPieces.eq_def]
      split
      case h_1 empty => cases empty
      case h_2 same => exact absurd (List.cons.inj same).1 quotation
      case h_3 same => exact absurd (List.cons.inj same).1 backslash
      case h_4 same => exact absurd (List.cons.inj same).1 backslash
      case h_5 same =>
        obtain ⟨rfl, rfl⟩ := List.cons.inj same
        rw [if_neg control]
        cases readPieces rest <;> rfl

theorem readPieces_quote (letters rest : List Char) :
    readPieces (letters.flatMap escape ++ '"' :: rest) =
      some (letters.map .letter, rest) := by
  induction letters with
  | nil =>
      rfl
  | cons letter more inductionHypothesis =>
      rw [List.flatMap_cons, List.append_assoc, readPieces_escape, inductionHypothesis]
      rfl

theorem lettersOf_letters (letters : List Char) :
    lettersOf (letters.map .letter) = some letters := by
  induction letters with
  | nil =>
      rfl
  | cons letter more inductionHypothesis =>
      rw [List.map_cons, lettersOf, inductionHypothesis]
      rfl

theorem readText_quote (value : String) (rest : List Char) :
    readText (value.toList.flatMap escape ++ '"' :: rest) = some (some value, rest) := by
  simp only [readText, readPieces_quote, lettersOf_letters, Option.bind_eq_bind, Option.bind_some,
    Option.map_some, String.ofList_toList]

/-! ## Texts that go on -/

theorem readPieces_append {chars left : List Char} {pieces : List Piece} (more : List Char)
    (read : readPieces chars = some (pieces, left)) :
    readPieces (chars ++ more) = some (pieces, left ++ more) := by
  induction chars using readPieces.induct generalizing pieces left with
  | case1 =>
      cases read
  | case2 rest =>
      cases read
      rfl
  | case3 a b c d rest inductionHypothesis =>
      simp only [readPieces, Option.bind_eq_bind, Option.bind_eq_some_iff, Option.some.injEq,
        Prod.mk.injEq] at read
      obtain ⟨unit, decoded, ⟨found, remaining⟩, inner, rfl, rfl⟩ := read
      simp only [List.cons_append, readPieces, decoded, inductionHypothesis inner,
        Option.bind_eq_bind, Option.bind_some]
  | case4 code rest short inductionHypothesis =>
      rw [readPieces.eq_4 code rest short] at read
      simp only [Option.bind_eq_bind, Option.bind_eq_some_iff, Option.some.injEq,
        Prod.mk.injEq] at read
      obtain ⟨letter, unescaped, ⟨found, remaining⟩, inner, rfl, rfl⟩ := read
      have other : code ≠ 'u' := by
        rintro rfl
        have none : unescape 'u' = none := by decide
        rw [none] at unescaped
        cases unescaped
      rw [List.cons_append, List.cons_append,
        readPieces.eq_4 code (rest ++ more) fun _ _ _ _ _ same _ => other same]
      simp only [unescaped, inductionHypothesis inner, Option.bind_eq_bind, Option.bind_some]
  | case5 letter rest quotation unicode backslash control =>
      rw [readPieces.eq_5 letter rest quotation unicode backslash, if_pos control] at read
      cases read
  | case6 letter rest quotation unicode backslash control inductionHypothesis =>
      rw [readPieces.eq_5 letter rest quotation unicode backslash, if_neg control] at read
      simp only [Option.bind_eq_bind, Option.bind_eq_some_iff, Option.some.injEq,
        Prod.mk.injEq] at read
      obtain ⟨⟨found, remaining⟩, inner, rfl, rfl⟩ := read
      have plain : letter ≠ '\\' := by
        rintro rfl
        cases rest with
        | nil =>
            cases inner
        | cons code rest =>
            exact backslash code rest rfl rfl
      rw [List.cons_append, readPieces.eq_5 letter (rest ++ more) quotation
        (fun _ _ _ _ _ same _ => plain same) (fun _ _ same _ => plain same), if_neg control]
      simp only [inductionHypothesis inner, Option.bind_eq_bind, Option.bind_some]

theorem readText_append {chars left : List Char} {value : Option String} (more : List Char)
    (read : readText chars = some (value, left)) :
    readText (chars ++ more) = some (value, left ++ more) := by
  simp only [readText, Option.bind_eq_bind, Option.bind_eq_some_iff, Option.some.injEq,
    Prod.mk.injEq] at read
  obtain ⟨⟨pieces, remaining⟩, inner, rfl, rfl⟩ := read
  simp only [readText, readPieces_append more inner, Option.bind_eq_bind, Option.bind_some]

theorem takeDigits_eq_some {chars found left : List Char}
    (taken : takeDigits chars = some (found, left)) :
    chars = found ++ left ∧ found ≠ [] ∧ (∀ letter ∈ found, letter.isDigit = true) ∧
      left = chars.dropWhile Char.isDigit := by
  rw [takeDigits] at taken
  split at taken
  · cases taken
  · rename_i first more split
    cases taken
    refine ⟨?_, List.cons_ne_nil _ _, fun letter member => ?_, rfl⟩
    · rw [← split, List.takeWhile_append_dropWhile]
    · rw [← split] at member
      exact List.mem_takeWhile_imp member

/-- Digits are read the same way when what is left of them goes on. -/
theorem takeDigits_append {chars found left : List Char} (more : List Char)
    (remains : left ≠ []) (taken : takeDigits chars = some (found, left)) :
    takeDigits (chars ++ more) = some (found, left ++ more) := by
  obtain ⟨whole, present, all, rest⟩ := takeDigits_eq_some taken
  have short : (chars.takeWhile Char.isDigit).length ≠ chars.length := by
    intro same
    have parts : chars.takeWhile Char.isDigit ++ chars.dropWhile Char.isDigit = chars :=
      List.takeWhile_append_dropWhile
    have length := congrArg List.length parts
    rw [List.length_append, ← rest] at length
    exact remains (List.length_eq_zero_iff.mp (by omega))
  have dropped : (chars ++ more).dropWhile Char.isDigit = left ++ more := by
    rw [List.dropWhile_append, ← rest, if_neg (by simpa using remains)]
  rw [takeDigits] at taken ⊢
  rw [List.takeWhile_append, if_neg short, dropped]
  split at taken
  · cases taken
  · rw [Option.some.injEq, Prod.mk.injEq] at taken
    rw [taken.1]

theorem readNatural_append {chars left : List Char} {value : Nat} (more : List Char)
    (remains : left ≠ []) (read : readNatural chars = some (value, left)) :
    readNatural (chars ++ more) = some (value, left ++ more) := by
  rw [readNatural, Option.ite_none_left_eq_some] at read
  obtain ⟨plain, found⟩ := read
  obtain ⟨⟨digits, remaining⟩, taken, same⟩ := Option.map_eq_some_iff.mp found
  cases same
  obtain ⟨whole, present, all, _⟩ := takeDigits_eq_some taken
  have kept : needlessZero (chars ++ more) = needlessZero chars := by
    obtain ⟨first, others, rfl⟩ := List.exists_cons_of_ne_nil present
    obtain ⟨next, last, behind⟩ : ∃ next last, others ++ left = next :: last :=
      List.exists_cons_of_ne_nil (List.append_ne_nil_of_right_ne_nil _ remains)
    rw [whole, List.cons_append, behind, List.cons_append, List.cons_append]
    by_cases zero : first = '0'
    · subst zero
      rfl
    · simp [needlessZero, zero]
  rw [readNatural, kept, if_neg plain, takeDigits_append more remains taken]
  rfl

theorem skipFraction_append {chars left : List Char} (more : List Char) (remains : left ≠ [])
    (skipped : skipFraction chars = some left) :
    skipFraction (chars ++ more) = some (left ++ more) := by
  cases chars with
  | nil =>
      cases skipped
      exact absurd rfl remains
  | cons first rest =>
      rw [skipFraction] at skipped
      rw [List.cons_append, skipFraction]
      split at skipped
      · rename_i point
        obtain ⟨⟨found, remaining⟩, taken, same⟩ := Option.map_eq_some_iff.mp skipped
        cases same
        rw [if_pos point, takeDigits_append more remains taken]
        rfl
      · rename_i other
        cases skipped
        exact if_neg other

theorem skipSign_append {chars : List Char} (more : List Char) (present : chars ≠ []) :
    skipSign (chars ++ more) = skipSign chars ++ more := by
  obtain ⟨first, others, rfl⟩ := List.exists_cons_of_ne_nil present
  rw [List.cons_append, skipSign, skipSign]
  split <;> rfl

theorem skipExponent_append {chars left : List Char} (more : List Char) (remains : left ≠ [])
    (skipped : skipExponent chars = some left) :
    skipExponent (chars ++ more) = some (left ++ more) := by
  cases chars with
  | nil =>
      cases skipped
      exact absurd rfl remains
  | cons first rest =>
      rw [skipExponent] at skipped
      rw [List.cons_append, skipExponent]
      split at skipped
      · rename_i exponent
        obtain ⟨⟨found, remaining⟩, taken, same⟩ := Option.map_eq_some_iff.mp skipped
        cases same
        have present : rest ≠ [] := by
          rintro rfl
          cases taken
        rw [if_pos exponent, skipSign_append more present, takeDigits_append more remains taken]
        rfl
      · rename_i other
        cases skipped
        exact if_neg other

theorem readMagnitude_append {chars left : List Char} {value : Option Nat} (more : List Char)
    (remains : left ≠ []) (read : readMagnitude chars = some (value, left)) :
    readMagnitude (chars ++ more) = some (value, left ++ more) := by
  simp only [readMagnitude, Option.bind_eq_bind, Option.bind_eq_some_iff, Option.some.injEq,
    Prod.mk.injEq] at read
  obtain ⟨⟨found, front⟩, taken, behind, fraction, last, exponent, rfl, rfl⟩ := read
  have behindRemains : behind ≠ [] := by
    rintro rfl
    cases exponent
    exact remains rfl
  have frontRemains : front ≠ [] := by
    rintro rfl
    cases fraction
    exact behindRemains rfl
  have head : (front ++ more).head? = front.head? :=
    List.head?_append_of_ne_nil front frontRemains
  simp only [readMagnitude, readNatural_append more frontRemains taken,
    skipFraction_append more behindRemains fraction, skipExponent_append more remains exponent,
    head, Option.bind_eq_bind, Option.bind_some]

/-- A number that is read begins with a minus sign or a digit. -/
theorem readNumber_leads {chars left : List Char} {value : Option Int}
    (read : readNumber chars = some (value, left)) :
    ∃ first rest, chars = first :: rest ∧ (first = '-' ∨ first.isDigit = true) := by
  rw [readNumber.eq_def] at read
  split at read
  · exact ⟨_, _, rfl, .inl rfl⟩
  · obtain ⟨found, inner, _⟩ := Option.map_eq_some_iff.mp read
    simp only [readMagnitude, Option.bind_eq_bind, Option.bind_eq_some_iff] at inner
    obtain ⟨natural, taken, _⟩ := inner
    rw [readNatural, Option.ite_none_left_eq_some] at taken
    obtain ⟨⟨digits, remaining⟩, digitsTaken, _⟩ := Option.map_eq_some_iff.mp taken.2
    obtain ⟨whole, present, all⟩ := takeDigits_eq_some digitsTaken
    obtain ⟨first, others, rfl⟩ := List.exists_cons_of_ne_nil present
    exact ⟨first, others ++ remaining, whole, .inr (all.1 first List.mem_cons_self)⟩

theorem readNumber_append {chars left : List Char} {value : Option Int} (more : List Char)
    (remains : left ≠ []) (read : readNumber chars = some (value, left)) :
    readNumber (chars ++ more) = some (value, left ++ more) := by
  obtain ⟨first, rest, rfl, _⟩ := readNumber_leads read
  by_cases signed : first = '-'
  · subst signed
    obtain ⟨⟨found, remaining⟩, inner, same⟩ := Option.map_eq_some_iff.mp read
    cases same
    simp only [List.cons_append, readNumber, readMagnitude_append more remains inner,
      Option.map_some]
  · have unsigned (others : List Char) : (first :: others).head? ≠ some '-' := by
      rintro ⟨⟩
      exact signed rfl
    rw [readNumber_unsigned (unsigned rest)] at read
    obtain ⟨⟨found, remaining⟩, inner, same⟩ := Option.map_eq_some_iff.mp read
    cases same
    rw [List.cons_append, readNumber_unsigned (unsigned _), ← List.cons_append,
      readMagnitude_append more remains inner]
    rfl

end Json
