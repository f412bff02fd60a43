import AgentMsg.Lib.Json

/-!
# JSON documents

The values of JSON, written in a layout of white space and read back whatever the white space
is.  A layout says what stands wherever white space may stand; the compact and the indented
layout are two of them.  What has no value here is read as a value of its own, so that it can be
left out.  Reading undoes writing in every layout.
-/

/-- The JSON values, with numbers that are integers.  A value that nothing is read from stands
for the other numbers, for texts with half of a surrogate pair, and for objects with such a
key. -/
inductive Document where
  | null
  | bool (value : Bool)
  | number (value : Int)
  | text (value : String)
  | list (items : List Document)
  | object (members : List (String × Document))
  | skipped

namespace Document

open Json (printNumber quote readText readNumber Stops)

/-! ## White space -/

def isBlank (letter : Char) : Bool :=
  letter == ' ' || letter == '\n' || letter == '\t' || letter == '\r'

/-- Leave out the white space at the front. -/
def skip (chars : List Char) : List Char :=
  chars.dropWhile isBlank

/-- Where white space may stand: around the whole text, before an item or a key, between the
brackets of an empty value, before a closing bracket, a comma and a colon, and after a colon. -/
inductive Gap where
  | front
  | item
  | empty
  | close
  | comma
  | colon
  | value
  | back

/-- The white space of a text, for each gap and the path to the value that it belongs to. -/
structure Layout where
  blanks : Gap → List Nat → List Char
  blank : ∀ gap path, ∀ letter ∈ blanks gap path, isBlank letter = true

/-- No white space at all. -/
def Layout.compact : Layout where
  blanks _ _ := []
  blank := nofun

@[simp]
theorem Layout.blanks_compact (gap : Gap) (path : List Nat) : compact.blanks gap path = [] :=
  rfl

/-- A line break, and two blanks for each depth. -/
def newLine (depth : Nat) : List Char :=
  '\n' :: List.replicate (2 * depth) ' '

theorem isBlank_newLine (depth : Nat) : ∀ letter ∈ newLine depth, isBlank letter = true := by
  intro letter member
  rcases List.mem_cons.mp member with rfl | blank
  · rfl
  · rw [List.eq_of_mem_replicate blank]
    rfl

/-- Every item on a line of its own. -/
def Layout.pretty : Layout where
  blanks
    | .item, path => newLine path.length
    | .close, path => newLine path.length
    | .value, _ => [' ']
    | _, _ => []
  blank gap path letter member := by
    cases gap with
    | item | close =>
        exact isBlank_newLine _ letter member
    | value =>
        rw [List.mem_singleton.mp member]
        rfl
    | _ =>
        cases member

/-! ## Writing -/

mutual

/-- Write a value. -/
def print (layout : Layout) : List Nat → Document → List Char
  | _, .null => ['n', 'u', 'l', 'l']
  | _, .bool true => ['t', 'r', 'u', 'e']
  | _, .bool false => ['f', 'a', 'l', 's', 'e']
  | _, .number value => printNumber value
  | _, .text value => quote value
  | path, .list [] => '[' :: (layout.blanks .empty path ++ [']'])
  | path, .list (item :: items) =>
      '[' :: (layout.blanks .item (0 :: path) ++ print layout (0 :: path) item ++
        printItems layout path 1 items)
  | path, .object [] => '{' :: (layout.blanks .empty path ++ ['}'])
  | path, .object ((key, value) :: members) =>
      '{' :: (layout.blanks .item (0 :: path) ++
        (quote key ++ layout.blanks .colon (0 :: path) ++
          ':' :: (layout.blanks .value (0 :: path) ++ print layout (0 :: path) value)) ++
        printMembers layout path 1 members)
  | _, .skipped => ['0', '.', '5']

/-- Write the items from a position on, and the closing bracket. -/
def printItems (layout : Layout) : List Nat → Nat → List Document → List Char
  | path, _, [] => layout.blanks .close path ++ [']']
  | path, index, item :: items =>
      layout.blanks .comma (index :: path) ++
        ',' :: (layout.blanks .item (index :: path) ++ print layout (index :: path) item ++
          printItems layout path (index + 1) items)

/-- Write the members from a position on, and the closing brace. -/
def printMembers (layout : Layout) : List Nat → Nat → List (String × Document) → List Char
  | path, _, [] => layout.blanks .close path ++ ['}']
  | path, index, (key, value) :: members =>
      layout.blanks .comma (index :: path) ++
        ',' :: (layout.blanks .item (index :: path) ++
          (quote key ++ layout.blanks .colon (index :: path) ++
            ':' :: (layout.blanks .value (index :: path) ++ print layout (index :: path) value)) ++
          printMembers layout path (index + 1) members)

end

/-- The text of a value in a layout. -/
def encode (layout : Layout) (value : Document) : String :=
  String.ofList (layout.blanks .front [] ++ print layout [] value ++ layout.blanks .back [])

theorem toList_encode_compact (value : Document) :
    (encode .compact value).toList = print .compact [] value := by
  rw [encode, String.toList_ofList]
  exact List.append_nil _

theorem toList_encode_pretty (value : Document) :
    (encode .pretty value).toList = print .pretty [] value := by
  rw [encode, String.toList_ofList]
  exact List.append_nil _

/-! ## Reading -/

/-- The value of a number or a text that is read. -/
def ofRead {α : Type} (make : α → Document) : Option α → Document
  | some value => make value
  | none => .skipped

/-- The members of an object, when all keys have values. -/
def named : List (Option String × Document) → Option (List (String × Document))
  | [] => some []
  | (key, value) :: members => do
      let name ← key
      let others ← named members
      some ((name, value) :: others)

mutual

/-- Read a value at the front. -/
def parse : Nat → List Char → Option (Document × List Char)
  | 0, _ => none
  | fuel + 1, chars =>
      match skip chars with
      | 'n' :: 'u' :: 'l' :: 'l' :: rest => some (.null, rest)
      | 't' :: 'r' :: 'u' :: 'e' :: rest => some (.bool true, rest)
      | 'f' :: 'a' :: 'l' :: 's' :: 'e' :: rest => some (.bool false, rest)
      | '"' :: rest => do
          let (value, left) ← readText rest
          some (ofRead .text value, left)
      | '[' :: rest =>
          match skip rest with
          | ']' :: left => some (.list [], left)
          | others => do
              let (item, left) ← parse fuel others
              let (items, last) ← parseItems fuel left
              some (.list (item :: items), last)
      | '{' :: rest =>
          match skip rest with
          | '}' :: left => some (.object [], left)
          | others => do
              let (member, left) ← parseMember fuel others
              let (members, last) ← parseMembers fuel left
              some (ofRead .object (named (member :: members)), last)
      | others => do
          let (value, left) ← readNumber others
          some (ofRead .number value, left)

def parseItems : Nat → List Char → Option (List Document × List Char)
  | 0, _ => none
  | fuel + 1, chars =>
      match skip chars with
      | ']' :: left => some ([], left)
      | ',' :: rest => do
          let (item, left) ← parse fuel rest
          let (items, last) ← parseItems fuel left
          some (item :: items, last)
      | _ => none

def parseMember : Nat → List Char → Option ((Option String × Document) × List Char)
  | 0, _ => none
  | fuel + 1, chars =>
      match skip chars with
      | '"' :: rest => do
          let (key, left) ← readText rest
          match skip left with
          | ':' :: valueText => do
              let (value, last) ← parse fuel valueText
              some ((key, value), last)
          | _ => none
      | _ => none

def parseMembers : Nat → List Char → Option (List (Option String × Document) × List Char)
  | 0, _ => none
  | fuel + 1, chars =>
      match skip chars with
      | '}' :: left => some ([], left)
      | ',' :: rest => do
          let (member, left) ← parseMember fuel rest
          let (members, last) ← parseMembers fuel left
          some (member :: members, last)
      | _ => none

end

/-- The value that a text is of, as a whole. -/
def decode (text : String) : Option Document :=
  match parse (text.toList.length + 1) text.toList with
  | some (value, rest) => if skip rest = [] then some value else none
  | none => none

/-! ## Leaving out white space -/

theorem skip_append {blanks : List Char} (blank : ∀ letter ∈ blanks, isBlank letter = true)
    (rest : List Char) : skip (blanks ++ rest) = skip rest :=
  List.dropWhile_append_of_pos blank

theorem skip_cons {first : Char} (solid : isBlank first = false) (rest : List Char) :
    skip (first :: rest) = first :: rest :=
  List.dropWhile_cons_of_neg (by simp [solid])

theorem isBlank_of_isDigit {letter : Char} (digit : letter.isDigit = true) :
    isBlank letter = false := by
  cases blank : isBlank letter with
  | false =>
      rfl
  | true =>
      simp only [isBlank, Bool.or_eq_true, beq_iff_eq] at blank
      rcases blank with ((rfl | rfl) | rfl) | rfl <;> exact absurd digit (by decide)

theorem parse_append {blanks : List Char} (blank : ∀ letter ∈ blanks, isBlank letter = true)
    (fuel : Nat) (rest : List Char) : parse fuel (blanks ++ rest) = parse fuel rest := by
  cases fuel with
  | zero =>
      rfl
  | succ fuel =>
      rw [parse, parse, skip_append blank]

theorem parseMember_append {blanks : List Char}
    (blank : ∀ letter ∈ blanks, isBlank letter = true) (fuel : Nat) (rest : List Char) :
    parseMember fuel (blanks ++ rest) = parseMember fuel rest := by
  cases fuel with
  | zero =>
      rfl
  | succ fuel =>
      rw [parseMember, parseMember, skip_append blank]

theorem parseItems_append {blanks : List Char}
    (blank : ∀ letter ∈ blanks, isBlank letter = true) (fuel : Nat) (rest : List Char) :
    parseItems fuel (blanks ++ rest) = parseItems fuel rest := by
  cases fuel with
  | zero =>
      rfl
  | succ fuel =>
      rw [parseItems, parseItems, skip_append blank]

theorem parseMembers_append {blanks : List Char}
    (blank : ∀ letter ∈ blanks, isBlank letter = true) (fuel : Nat) (rest : List Char) :
    parseMembers fuel (blanks ++ rest) = parseMembers fuel rest := by
  cases fuel with
  | zero =>
      rfl
  | succ fuel =>
      rw [parseMembers, parseMembers, skip_append blank]

theorem stops_cons {first : Char} (digit : first.isDigit = false)
    (real : Json.isReal first = false) (rest : List Char) : Stops (first :: rest) := by
  rintro letter ⟨⟩
  exact ⟨digit, real⟩

theorem stops_append {blanks : List Char} (blank : ∀ letter ∈ blanks, isBlank letter = true)
    {rest : List Char} (stops : Stops rest) : Stops (blanks ++ rest) := by
  cases blanks with
  | nil =>
      exact stops
  | cons first more =>
      have white := blank first List.mem_cons_self
      simp only [isBlank, Bool.or_eq_true, beq_iff_eq] at white
      rcases white with ((rfl | rfl) | rfl) | rfl <;>
        exact stops_cons (by decide) (by decide) _

theorem stops_printItems (layout : Layout) (path : List Nat) (index : Nat)
    (items : List Document) (rest : List Char) :
    Stops (printItems layout path index items ++ rest) := by
  cases items <;> rw [printItems, List.append_assoc] <;>
    exact stops_append (layout.blank _ _) (stops_cons (by decide) (by decide) _)

theorem stops_printMembers (layout : Layout) (path : List Nat) (index : Nat)
    (members : List (String × Document)) (rest : List Char) :
    Stops (printMembers layout path index members ++ rest) := by
  cases members with
  | nil =>
      rw [printMembers, List.append_assoc]
      exact stops_append (layout.blank _ _) (stops_cons (by decide) (by decide) _)
  | cons member more =>
      obtain ⟨key, value⟩ := member
      rw [printMembers, List.append_assoc]
      exact stops_append (layout.blank _ _) (stops_cons (by decide) (by decide) _)

/-! ## Reading values back -/

/-- A character that no written value starts with. -/
def Closes (letter : Char) : Prop :=
  isBlank letter = true ∨ letter = ']' ∨ letter = '\x7d'

instance (letter : Char) : Decidable (Closes letter) :=
  inferInstanceAs (Decidable (_ ∨ _ ∨ _))

theorem print_head (layout : Layout) (path : List Nat) (value : Document) :
    ∃ first more, print layout path value = first :: more ∧ ¬ Closes first := by
  cases value with
  | null =>
      exact ⟨_, _, rfl, by decide⟩
  | bool value =>
      cases value <;> exact ⟨_, _, rfl, by decide⟩
  | number value =>
      obtain ⟨first, more, written, leads⟩ := Json.printNumber_head value
      refine ⟨first, more, by rw [print, written], ?_⟩
      rcases leads with rfl | digit
      · decide
      · rintro (blank | rfl | rfl)
        · rw [isBlank_of_isDigit digit] at blank
          cases blank
        · exact absurd digit (by decide)
        · exact absurd digit (by decide)
  | text value =>
      exact ⟨_, _, rfl, by decide⟩
  | list items =>
      cases items <;> exact ⟨_, _, rfl, by decide⟩
  | object members =>
      cases members <;> exact ⟨_, _, rfl, by decide⟩
  | skipped =>
      exact ⟨_, _, rfl, by decide⟩

/-- A minus sign or a digit begins a number. -/
theorem parse_number (fuel : Nat) {first : Char} (leads : first = '-' ∨ first.isDigit = true)
    (rest : List Char) :
    parse (fuel + 1) (first :: rest) =
      (readNumber (first :: rest)).map fun found => (ofRead .number found.1, found.2) := by
  have solid : isBlank first = false := by
    rcases leads with rfl | digit
    · decide
    · exact isBlank_of_isDigit digit
  have other : ∀ letter : Char, letter ≠ '-' → letter.isDigit = false → first ≠ letter := by
    rintro letter signless digitless rfl
    rcases leads with minus | digit
    · exact signless minus
    · rw [digitless] at digit
      cases digit
  rw [parse, skip_cons solid]
  split
  case h_1 same => exact absurd (List.cons.inj same).1 (other _ (by decide) (by decide))
  case h_2 same => exact absurd (List.cons.inj same).1 (other _ (by decide) (by decide))
  case h_3 same => exact absurd (List.cons.inj same).1 (other _ (by decide) (by decide))
  case h_4 same => exact absurd (List.cons.inj same).1 (other _ (by decide) (by decide))
  case h_5 same => exact absurd (List.cons.inj same).1 (other _ (by decide) (by decide))
  case h_6 same => exact absurd (List.cons.inj same).1 (other _ (by decide) (by decide))
  case h_7 =>
    cases readNumber (first :: rest) <;> rfl

theorem parse_printNumber (fuel : Nat) (value : Int) {rest : List Char} (stops : Stops rest) :
    parse (fuel + 1) (printNumber value ++ rest) = some (.number value, rest) := by
  obtain ⟨first, more, written, leads⟩ := Json.printNumber_head value
  have read := Json.readNumber_printNumber value stops
  rw [written, List.cons_append] at read ⊢
  rw [parse_number fuel leads, read]
  rfl

/-- A fraction is left out. -/
theorem parse_fraction (fuel : Nat) {rest : List Char} (stops : Stops rest) :
    parse (fuel + 1) ('0' :: '.' :: '5' :: rest) = some (.skipped, rest) := by
  have taken : Json.takeDigits ('5' :: rest) = some (['5'], rest) :=
    @Json.takeDigits_append_of_stops ['5'] (List.cons_ne_nil _ _) (by simp) rest stops
  have read : readNumber ('0' :: '.' :: '5' :: rest) = some (none, rest) := by
    rw [Json.readNumber_unsigned (by simp), Json.readMagnitude]
    have zero : Json.readNatural ('0' :: '.' :: '5' :: rest) = some (0, '.' :: '5' :: rest) := rfl
    have fraction : Json.skipFraction ('.' :: '5' :: rest) = some rest := by
      rw [Json.skipFraction, if_pos rfl, taken]
      rfl
    simp only [zero, fraction, Json.skipExponent_of_stops stops, Option.bind_eq_bind,
      Option.bind_some]
    rfl
  rw [parse_number fuel (.inr rfl), read]
  rfl

theorem parse_text (fuel : Nat) (rest : List Char) :
    parse (fuel + 1) ('"' :: rest) = (do
      let (value, left) ← readText rest
      some (ofRead .text value, left)) := by
  rw [parse, skip_cons (by decide)]
  rfl

theorem parse_emptyList (fuel : Nat) {chars left : List Char} (found : skip chars = ']' :: left) :
    parse (fuel + 1) ('[' :: chars) = some (.list [], left) := by
  have start : isBlank '[' = false := by decide
  simp only [parse, skip_cons start, found]

theorem parse_emptyObject (fuel : Nat) {chars left : List Char}
    (found : skip chars = '\x7d' :: left) :
    parse (fuel + 1) ('\x7b' :: chars) = some (.object [], left) := by
  have start : isBlank '\x7b' = false := by decide
  simp only [parse, skip_cons start, found]

/-- A list with an item is read by its first item. -/
theorem parse_list (fuel : Nat) {chars more : List Char} {first : Char}
    (found : skip chars = first :: more) (continues : first ≠ ']') :
    parse (fuel + 1) ('[' :: chars) = (do
      let (item, left) ← parse fuel (skip chars)
      let (items, last) ← parseItems fuel left
      some (.list (item :: items), last)) := by
  have start : isBlank '[' = false := by decide
  simp only [parse, skip_cons start, found]
  split
  · rename_i same
    exact absurd (List.cons.inj same).1 continues
  · rfl

/-- An object with a member is read by its first member. -/
theorem parse_object (fuel : Nat) {chars more : List Char} {first : Char}
    (found : skip chars = first :: more) (continues : first ≠ '\x7d') :
    parse (fuel + 1) ('\x7b' :: chars) = (do
      let (member, left) ← parseMember fuel (skip chars)
      let (members, last) ← parseMembers fuel left
      some (ofRead .object (named (member :: members)), last)) := by
  have start : isBlank '\x7b' = false := by decide
  simp only [parse, skip_cons start, found]
  split
  · rename_i same
    exact absurd (List.cons.inj same).1 continues
  · rfl

/-- Members whose keys have values. -/
def plain (members : List (String × Document)) : List (Option String × Document) :=
  members.map fun member => (some member.1, member.2)

theorem named_plain (members : List (String × Document)) :
    named (plain members) = some members := by
  induction members with
  | nil =>
      rfl
  | cons member more inductionHypothesis =>
      have later : named (plain (member :: more)) = (do
          let others ← named (plain more)
          some ((member.1, member.2) :: others)) := rfl
      rw [later, inductionHypothesis]
      rfl

/-- The text of a member. -/
def printMember (layout : Layout) (path : List Nat) (key : String) (value : Document) :
    List Char :=
  quote key ++ layout.blanks .colon path ++
    ':' :: (layout.blanks .value path ++ print layout path value)

/-- The fuel reads back what was written, as long as the text is shorter than the fuel. -/
structure ReadsBack (layout : Layout) (fuel : Nat) : Prop where
  value : ∀ (path : List Nat) (value : Document) (rest : List Char),
    (print layout path value).length < fuel → Stops rest →
    parse fuel (print layout path value ++ rest) = some (value, rest)
  member : ∀ (path : List Nat) (key : String) (value : Document) (rest : List Char),
    (printMember layout path key value).length < fuel → Stops rest →
    parseMember fuel (printMember layout path key value ++ rest) =
      some ((some key, value), rest)
  items : ∀ (path : List Nat) (index : Nat) (items : List Document) (rest : List Char),
    (printItems layout path index items).length < fuel →
    parseItems fuel (printItems layout path index items ++ rest) = some (items, rest)
  members : ∀ (path : List Nat) (index : Nat) (members : List (String × Document))
    (rest : List Char), (printMembers layout path index members).length < fuel →
    parseMembers fuel (printMembers layout path index members ++ rest) =
      some (plain members, rest)

section OneMore

variable {layout : Layout} {fuel : Nat}

theorem ReadsBack.list
    (before : ReadsBack layout fuel) (path : List Nat) (items : List Document)
    (rest : List Char) (short : (print layout path (.list items)).length < fuel + 1) :
    parse (fuel + 1) (print layout path (.list items) ++ rest) = some (.list items, rest) := by
  cases items with
  | nil =>
      rw [print, List.cons_append, List.append_assoc]
      exact parse_emptyList fuel (skip_append (layout.blank .empty path) _)
  | cons item more =>
      simp only [print, List.length_cons, List.length_append] at short
      obtain ⟨first, others, written, opens⟩ := print_head layout (0 :: path) item
      have continues : first ≠ ']' := fun same => opens (.inr (.inl same))
      have solid : isBlank first = false :=
        Bool.eq_false_iff.mpr fun blank => opens (.inl blank)
      have found : skip (layout.blanks .item (0 :: path) ++ print layout (0 :: path) item ++
          printItems layout path 1 more ++ rest) =
          print layout (0 :: path) item ++ (printItems layout path 1 more ++ rest) := by
        rw [List.append_assoc, List.append_assoc, skip_append (layout.blank .item (0 :: path)),
          written, List.cons_append, skip_cons solid]
      have head := before.value (0 :: path) item (printItems layout path 1 more ++ rest)
        (by omega) (stops_printItems layout path 1 more rest)
      have tail := before.items path 1 more rest (by omega)
      rw [print, List.cons_append, parse_list fuel (found.trans (by
        rw [written, List.cons_append])) continues, found, head]
      simp only [Option.bind_eq_bind, Option.bind_some, tail]

theorem ReadsBack.object
    (before : ReadsBack layout fuel) (path : List Nat) (members : List (String × Document))
    (rest : List Char) (short : (print layout path (.object members)).length < fuel + 1) :
    parse (fuel + 1) (print layout path (.object members) ++ rest) =
      some (.object members, rest) := by
  cases members with
  | nil =>
      rw [print, List.cons_append, List.append_assoc]
      exact parse_emptyObject fuel (skip_append (layout.blank .empty path) _)
  | cons member more =>
      obtain ⟨key, value⟩ := member
      simp only [print, List.length_cons, List.length_append] at short
      have found : skip (layout.blanks .item (0 :: path) ++
          printMember layout (0 :: path) key value ++ printMembers layout path 1 more ++ rest) =
          printMember layout (0 :: path) key value ++
            (printMembers layout path 1 more ++ rest) := by
        rw [List.append_assoc, List.append_assoc, skip_append (layout.blank .item (0 :: path))]
        exact skip_cons (by decide) _
      have head := before.member (0 :: path) key value (printMembers layout path 1 more ++ rest)
        (by simp only [printMember, List.length_cons, List.length_append]; omega)
        (stops_printMembers layout path 1 more rest)
      have tail := before.members path 1 more rest (by omega)
      have whole := named_plain ((key, value) :: more)
      rw [plain, List.map_cons] at whole
      rw [printMember] at found head
      rw [print, List.cons_append, parse_object fuel (found.trans rfl) (by decide), found, head]
      simp only [Option.bind_eq_bind, Option.bind_some, tail, plain, whole, ofRead]

theorem ReadsBack.readsValue
    (before : ReadsBack layout fuel) (path : List Nat) (value : Document) (rest : List Char)
    (short : (print layout path value).length < fuel + 1) (stops : Stops rest) :
    parse (fuel + 1) (print layout path value ++ rest) = some (value, rest) := by
  cases value with
  | null =>
      rfl
  | bool value =>
      cases value <;> rfl
  | number value =>
      rw [print, parse_printNumber fuel value stops]
  | text value =>
      have read := Json.readText_quote value rest
      rw [print, quote, List.cons_append, List.append_assoc, List.singleton_append, parse_text]
      simp only [read, Option.bind_eq_bind, Option.bind_some]
      rfl
  | list items =>
      exact before.list path items rest short
  | object members =>
      exact before.object path members rest short
  | skipped =>
      exact parse_fraction fuel stops

theorem ReadsBack.readsMember
    (before : ReadsBack layout fuel) (path : List Nat) (key : String) (value : Document)
    (rest : List Char) (short : (printMember layout path key value).length < fuel + 1)
    (stops : Stops rest) :
    parseMember (fuel + 1) (printMember layout path key value ++ rest) =
      some ((some key, value), rest) := by
  have inside : (print layout path value).length < fuel := by
    simp only [printMember, List.length_cons, List.length_append] at short
    omega
  have read := Json.readText_quote key (layout.blanks .colon path ++
    ':' :: (layout.blanks .value path ++ print layout path value ++ rest))
  have colon : skip (layout.blanks .colon path ++
      ':' :: (layout.blanks .value path ++ print layout path value ++ rest)) =
      ':' :: (layout.blanks .value path ++ print layout path value ++ rest) := by
    rw [skip_append (layout.blank .colon path), skip_cons (by decide)]
  have inner := (parse_append (layout.blank .value path) fuel _).trans
    (before.value path value rest inside stops)
  rw [← List.append_assoc] at inner
  have text : printMember layout path key value ++ rest =
      '"' :: (key.toList.flatMap Json.escape ++ '"' :: (layout.blanks .colon path ++
        ':' :: (layout.blanks .value path ++ print layout path value ++ rest))) := by
    simp only [printMember, quote, List.cons_append, List.append_assoc, List.nil_append]
  rw [text, parseMember, skip_cons (by decide)]
  simp only [read, Option.bind_eq_bind, Option.bind_some, colon, inner]

theorem ReadsBack.readsItems
    (before : ReadsBack layout fuel) (path : List Nat) (index : Nat) (items : List Document)
    (rest : List Char) (short : (printItems layout path index items).length < fuel + 1) :
    parseItems (fuel + 1) (printItems layout path index items ++ rest) = some (items, rest) := by
  cases items with
  | nil =>
      rw [printItems, List.append_assoc, parseItems_append (layout.blank .close path)]
      rfl
  | cons item more =>
      simp only [printItems, List.length_cons, List.length_append] at short
      have head := before.value (index :: path) item
        (printItems layout path (index + 1) more ++ rest) (by omega)
        (stops_printItems layout path (index + 1) more rest)
      have tail := before.items path (index + 1) more rest (by omega)
      rw [printItems, List.append_assoc, parseItems_append (layout.blank .comma _),
        List.cons_append, parseItems, skip_cons (by decide)]
      simp only [List.append_assoc]
      rw [parse_append (layout.blank .item _), head]
      simp only [Option.bind_eq_bind, Option.bind_some, tail]

theorem ReadsBack.readsMembers
    (before : ReadsBack layout fuel) (path : List Nat) (index : Nat)
    (members : List (String × Document)) (rest : List Char)
    (short : (printMembers layout path index members).length < fuel + 1) :
    parseMembers (fuel + 1) (printMembers layout path index members ++ rest) =
      some (plain members, rest) := by
  cases members with
  | nil =>
      rw [printMembers, List.append_assoc, parseMembers_append (layout.blank .close path)]
      rfl
  | cons member more =>
      obtain ⟨key, value⟩ := member
      simp only [printMembers, List.length_cons, List.length_append] at short
      have head := (parseMember_append (layout.blank .item (index :: path)) fuel _).trans
        (before.member (index :: path) key value
          (printMembers layout path (index + 1) more ++ rest)
          (by simp only [printMember, List.length_cons, List.length_append]; omega)
          (stops_printMembers layout path (index + 1) more rest))
      have tail := before.members path (index + 1) more rest (by omega)
      rw [printMember] at head
      rw [printMembers, List.append_assoc, parseMembers_append (layout.blank .comma _),
        List.cons_append, parseMembers, skip_cons (by decide), List.append_assoc,
        List.append_assoc]
      simp only [head, Option.bind_eq_bind, Option.bind_some, tail, plain, List.map_cons]

end OneMore

theorem readsBack (layout : Layout) (fuel : Nat) : ReadsBack layout fuel := by
  induction fuel with
  | zero =>
      constructor
      · exact fun _ _ _ short => absurd short (Nat.not_lt_zero _)
      · exact fun _ _ _ _ short => absurd short (Nat.not_lt_zero _)
      · exact fun _ _ _ _ short => absurd short (Nat.not_lt_zero _)
      · exact fun _ _ _ _ short => absurd short (Nat.not_lt_zero _)
  | succ fuel inductionHypothesis =>
      constructor
      · exact inductionHypothesis.readsValue
      · exact inductionHypothesis.readsMember
      · exact inductionHypothesis.readsItems
      · exact inductionHypothesis.readsMembers

/-- Reading undoes writing, in every layout. -/
@[simp]
theorem decode_encode (layout : Layout) (value : Document) :
    decode (encode layout value) = some value := by
  have stops : Stops (layout.blanks .back []) := by
    rw [← List.append_nil (layout.blanks .back [])]
    exact stops_append (layout.blank .back []) nofun
  have nothing : skip (layout.blanks .back []) = [] :=
    List.dropWhile_eq_nil_iff.mpr (layout.blank .back [])
  have read := (readsBack layout ((layout.blanks .front [] ++ print layout [] value ++
    layout.blanks .back []).length + 1)).value [] value (layout.blanks .back [])
    (by simp only [List.length_append]; omega) stops
  rw [decode, encode, String.toList_ofList, List.append_assoc,
    parse_append (layout.blank .front []), ← List.append_assoc, read]
  exact if_pos nothing

/-! ## Texts that go on -/

/-- What is left after white space grows with the text. -/
theorem skip_grows {chars : List Char} (more : List Char) (solid : skip chars ≠ []) :
    skip (chars ++ more) = skip chars ++ more := by
  rw [skip, List.dropWhile_append, if_neg (by simpa [skip] using solid), skip]

theorem skip_skip (chars : List Char) : skip (skip chars) = skip chars := by
  induction chars with
  | nil =>
      rfl
  | cons first rest inductionHypothesis =>
      cases blank : isBlank first with
      | false =>
          rw [skip_cons blank, skip_cons blank]
      | true =>
          have shorter : skip (first :: rest) = skip rest := List.dropWhile_cons_of_pos blank
          rw [shorter, inductionHypothesis]

theorem parse_skip (fuel : Nat) (chars : List Char) :
    parse fuel (skip chars) = parse fuel chars := by
  cases fuel with
  | zero =>
      rfl
  | succ fuel =>
      rw [parse, parse, skip_skip]

theorem parse_nil (fuel : Nat) : parse fuel [] = none := by
  cases fuel <;> rfl

theorem parseMember_nil (fuel : Nat) : parseMember fuel [] = none := by
  cases fuel <;> rfl

/-- The end of a value is told by its first character or by what follows. -/
def Closed (chars left : List Char) : Prop :=
  left ≠ [] ∨ ∀ letter ∈ (skip chars).head?, letter ≠ '-' ∧ letter.isDigit = false

/-- What the fuel reads is read the same way when the text goes on after it. -/
structure Grows (more : List Char) (extra fuel : Nat) : Prop where
  value : ∀ (chars left : List Char) (value : Document), parse fuel chars = some (value, left) →
    Closed chars left → parse (fuel + extra) (chars ++ more) = some (value, left ++ more)
  member : ∀ (chars left : List Char) (member : Option String × Document),
    parseMember fuel chars = some (member, left) → left ≠ [] →
    parseMember (fuel + extra) (chars ++ more) = some (member, left ++ more)
  items : ∀ (chars left : List Char) (items : List Document),
    parseItems fuel chars = some (items, left) → chars ≠ [] ∧
    parseItems (fuel + extra) (chars ++ more) = some (items, left ++ more)
  members : ∀ (chars left : List Char) (members : List (Option String × Document)),
    parseMembers fuel chars = some (members, left) → chars ≠ [] ∧
    parseMembers (fuel + extra) (chars ++ more) = some (members, left ++ more)

section OneMore

variable {more : List Char} {extra fuel : Nat} {chars left : List Char} {value : Document}

theorem text_grows
    (read : (do
      let (value, left) ← readText chars
      some (ofRead .text value, left)) = some (value, left)) :
    parse (fuel + 1) ('"' :: (chars ++ more)) = some (value, left ++ more) := by
  simp only [Option.bind_eq_bind, Option.bind_eq_some_iff, Option.some.injEq,
    Prod.mk.injEq] at read
  obtain ⟨⟨letters, remaining⟩, inner, rfl, rfl⟩ := read
  rw [parse_text]
  simp only [Json.readText_append more inner, Option.bind_eq_bind, Option.bind_some]

theorem number_grows
    (read : (do
      let (value, left) ← readNumber chars
      some (ofRead .number value, left)) = some (value, left))
    (closed : left ≠ [] ∨ ∀ letter ∈ chars.head?, letter ≠ '-' ∧ letter.isDigit = false) :
    parse (fuel + 1) (chars ++ more) = some (value, left ++ more) := by
  simp only [Option.bind_eq_bind, Option.bind_eq_some_iff, Option.some.injEq,
    Prod.mk.injEq] at read
  obtain ⟨⟨number, remaining⟩, inner, rfl, rfl⟩ := read
  obtain ⟨first, rest, written, leads⟩ := Json.readNumber_leads inner
  have remains : remaining ≠ [] := closed.resolve_right fun other => by
    obtain ⟨unsigned, digitless⟩ := other first (by rw [written]; rfl)
    rcases leads with minus | digit
    · exact unsigned minus
    · rw [digitless] at digit
      cases digit
  have grown := Json.readNumber_append more remains inner
  rw [written, List.cons_append] at grown ⊢
  rw [parse_number _ leads, grown]
  rfl

theorem Grows.list
    (before : Grows more extra fuel)
    (read : parse (fuel + 1) ('[' :: chars) = some (value, left)) :
    parse (fuel + extra + 1) ('[' :: (chars ++ more)) = some (value, left ++ more) := by
  have start : isBlank '[' = false := by decide
  simp only [parse, skip_cons start] at read
  split at read
  · rename_i remaining empty
    cases read
    have there : skip chars ≠ [] := by simp [empty]
    exact parse_emptyList _ (by rw [skip_grows more there, empty, List.cons_append])
  · rename_i continues
    simp only [Option.bind_eq_bind, Option.bind_eq_some_iff, Option.some.injEq,
      Prod.mk.injEq] at read
    obtain ⟨⟨item, middle⟩, first, ⟨items, last⟩, later, rfl, rfl⟩ := read
    have there : skip chars ≠ [] := by
      intro empty
      rw [empty, parse_nil] at first
      cases first
    obtain ⟨remains, grown⟩ := before.items middle last items later
    have head := before.value (skip chars) middle item first (.inl remains)
    obtain ⟨opening, behind, written⟩ := List.exists_cons_of_ne_nil there
    have other : opening ≠ ']' := by
      rintro rfl
      exact continues behind written
    have found : skip (chars ++ more) = opening :: (behind ++ more) := by
      rw [skip_grows more there, written, List.cons_append]
    rw [parse_list _ found other, skip_grows more there, head]
    simp only [grown, Option.bind_eq_bind, Option.bind_some]

theorem Grows.object
    (before : Grows more extra fuel)
    (read : parse (fuel + 1) ('\x7b' :: chars) = some (value, left)) :
    parse (fuel + extra + 1) ('\x7b' :: (chars ++ more)) = some (value, left ++ more) := by
  have start : isBlank '\x7b' = false := by decide
  simp only [parse, skip_cons start] at read
  split at read
  · rename_i remaining empty
    cases read
    have there : skip chars ≠ [] := by simp [empty]
    exact parse_emptyObject _ (by rw [skip_grows more there, empty, List.cons_append])
  · rename_i continues
    simp only [Option.bind_eq_bind, Option.bind_eq_some_iff, Option.some.injEq,
      Prod.mk.injEq] at read
    obtain ⟨⟨member, middle⟩, first, ⟨members, last⟩, later, rfl, rfl⟩ := read
    have there : skip chars ≠ [] := by
      intro empty
      rw [empty, parseMember_nil] at first
      cases first
    obtain ⟨remains, grown⟩ := before.members middle last members later
    have head := before.member (skip chars) middle member first remains
    obtain ⟨opening, behind, written⟩ := List.exists_cons_of_ne_nil there
    have other : opening ≠ '\x7d' := by
      rintro rfl
      exact continues behind written
    have found : skip (chars ++ more) = opening :: (behind ++ more) := by
      rw [skip_grows more there, written, List.cons_append]
    rw [parse_object _ found other, skip_grows more there, head]
    simp only [grown, Option.bind_eq_bind, Option.bind_some]

theorem Grows.growsValue
    (before : Grows more extra fuel) (read : parse (fuel + 1) chars = some (value, left))
    (closed : Closed chars left) :
    parse (fuel + extra + 1) (chars ++ more) = some (value, left ++ more) := by
  rw [← parse_skip] at read
  have solid : skip chars ≠ [] := by
    intro empty
    rw [empty, parse_nil] at read
    cases read
  have whole := read
  rw [← parse_skip, skip_grows more solid]
  rw [parse, skip_skip] at read
  split at read
  · rename_i same
    cases read
    rw [same]
    rfl
  · rename_i same
    cases read
    rw [same]
    rfl
  · rename_i same
    cases read
    rw [same]
    rfl
  · rename_i rest same
    rw [same, List.cons_append]
    exact text_grows read
  · rename_i rest same
    rw [same] at whole ⊢
    exact before.list whole
  · rename_i rest same
    rw [same] at whole ⊢
    exact before.object whole
  · exact number_grows read closed

theorem Grows.growsMember
    {member : Option String × Document} (before : Grows more extra fuel)
    (read : parseMember (fuel + 1) chars = some (member, left)) (remains : left ≠ []) :
    parseMember (fuel + extra + 1) (chars ++ more) = some (member, left ++ more) := by
  rw [parseMember] at read ⊢
  split at read
  · rename_i rest same
    have solid : skip chars ≠ [] := by simp [same]
    simp only [Option.bind_eq_bind, Option.bind_eq_some_iff] at read
    obtain ⟨⟨letters, middle⟩, inner, last⟩ := read
    rw [skip_grows more solid, same, List.cons_append]
    simp only [Json.readText_append more inner, Option.bind_eq_bind, Option.bind_some]
    split at last
    · rename_i valueText colon
      have there : skip middle ≠ [] := by simp [colon]
      simp only [Option.bind_eq_some_iff, Option.some.injEq, Prod.mk.injEq] at last
      obtain ⟨⟨value, after⟩, read, rfl, rfl⟩ := last
      rw [skip_grows more there, colon, List.cons_append]
      simp only [before.value valueText after value read (.inl remains), Option.bind_some]
    · cases last
  · cases read

theorem Grows.growsItems
    {items : List Document} (before : Grows more extra fuel)
    (read : parseItems (fuel + 1) chars = some (items, left)) :
    chars ≠ [] ∧ parseItems (fuel + extra + 1) (chars ++ more) = some (items, left ++ more) := by
  rw [parseItems] at read ⊢
  split at read
  · rename_i remaining same
    cases read
    have solid : skip chars ≠ [] := by simp [same]
    refine ⟨fun empty => solid (by rw [empty]; rfl), ?_⟩
    rw [skip_grows more solid, same]
    rfl
  · rename_i rest same
    have solid : skip chars ≠ [] := by simp [same]
    simp only [Option.bind_eq_bind, Option.bind_eq_some_iff, Option.some.injEq,
      Prod.mk.injEq] at read
    obtain ⟨⟨item, middle⟩, first, ⟨others, last⟩, later, rfl, rfl⟩ := read
    obtain ⟨remains, grown⟩ := before.items middle last others later
    have head := before.value rest middle item first (.inl remains)
    refine ⟨fun empty => solid (by rw [empty]; rfl), ?_⟩
    rw [skip_grows more solid, same, List.cons_append]
    simp only [head, grown, Option.bind_eq_bind, Option.bind_some]
  · cases read

theorem Grows.growsMembers
    {members : List (Option String × Document)} (before : Grows more extra fuel)
    (read : parseMembers (fuel + 1) chars = some (members, left)) :
    chars ≠ [] ∧
      parseMembers (fuel + extra + 1) (chars ++ more) = some (members, left ++ more) := by
  rw [parseMembers] at read ⊢
  split at read
  · rename_i remaining same
    cases read
    have solid : skip chars ≠ [] := by simp [same]
    refine ⟨fun empty => solid (by rw [empty]; rfl), ?_⟩
    rw [skip_grows more solid, same]
    rfl
  · rename_i rest same
    have solid : skip chars ≠ [] := by simp [same]
    simp only [Option.bind_eq_bind, Option.bind_eq_some_iff, Option.some.injEq,
      Prod.mk.injEq] at read
    obtain ⟨⟨member, middle⟩, first, ⟨others, last⟩, later, rfl, rfl⟩ := read
    obtain ⟨remains, grown⟩ := before.members middle last others later
    have head := before.member rest middle member first remains
    refine ⟨fun empty => solid (by rw [empty]; rfl), ?_⟩
    rw [skip_grows more solid, same, List.cons_append]
    simp only [head, grown, Option.bind_eq_bind, Option.bind_some]
  · cases read

end OneMore

theorem grows (more : List Char) (extra fuel : Nat) : Grows more extra fuel := by
  induction fuel with
  | zero =>
      constructor
      · intro chars left value read
        cases read
      · intro chars left member read
        cases read
      · intro chars left items read
        cases read
      · intro chars left members read
        cases read
  | succ fuel inductionHypothesis =>
      constructor <;> rw [Nat.add_right_comm fuel 1 extra]
      · exact fun _ _ _ => inductionHypothesis.growsValue
      · exact fun _ _ _ => inductionHypothesis.growsMember
      · exact fun _ _ _ => inductionHypothesis.growsItems
      · exact fun _ _ _ => inductionHypothesis.growsMembers

/-- A beginning of a written object is not a document. -/
theorem decode_cut {layout : Layout} {members : List (String × Document)}
    {front missing : List Char} (whole : front ++ missing = print layout [] (.object members))
    (cut : missing ≠ []) : decode (String.ofList front) = none := by
  cases found : decode (String.ofList front) with
  | none =>
      rfl
  | some value =>
      rw [decode, String.toList_ofList] at found
      split at found
      · rename_i read left parsed
        cases front with
        | nil =>
            rw [parse_nil] at parsed
            cases parsed
        | cons first rest =>
            have opens : first = '\x7b' := by
              cases members <;> exact (List.cons.inj whole).1
            subst opens
            have closed : Closed ('\x7b' :: rest) left := by
              refine .inr fun letter leads => ?_
              rw [skip_cons (by decide)] at leads
              cases leads
              decide
            have grown := (grows missing missing.length _).value _ left _ parsed closed
            have complete := (readsBack layout
              (('\x7b' :: rest).length + 1 + missing.length)).value [] (.object members) []
              (by rw [← whole, List.length_append]; omega) nofun
            rw [List.append_nil, ← whole, grown] at complete
            have none : left ++ missing = [] := (Prod.mk.inj (Option.some.inj complete)).2
            exact absurd (List.append_eq_nil_iff.mp none).2 cut
      · cases found

end Document
