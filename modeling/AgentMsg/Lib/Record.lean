import AgentMsg.Lib.Document
import Mathlib.Data.List.Forall2

/-!
# Typed values in documents

A shape writes the values of a type as documents and reads them back.  A record is a list of
named fields, each with a shape.  It is written as an object whose members are in the order of
the fields, and it is read from every object that carries the fields: in any order, among any
other members, and with what stands for a field that is absent.
-/

namespace Document

/-! ## Shapes -/

/-- How the values of a type are written and read. -/
structure Shape (α : Type) where
  write : α → Document
  read : Document → Option α
  Fits : α → Prop
  reads : ∀ value, Fits value → read (write value) = some value

variable {α β : Type}

namespace Shape

/-- Nothing is read but what is written. -/
def Exact (shape : Shape α) : Prop :=
  ∀ document value, shape.read document = some value →
    shape.Fits value ∧ document = shape.write value

/-- No value is written as `null`. -/
def Solid (shape : Shape α) : Prop :=
  ∀ value, shape.write value ≠ .null

def text : Shape String where
  write := .text
  read
    | .text value => some value
    | _ => none
  Fits _ := True
  reads _ _ := rfl

def flag : Shape Bool where
  write := .bool
  read
    | .bool value => some value
    | _ => none
  Fits _ := True
  reads _ _ := rfl

/-- The integers between two bounds. -/
def integer (low high : Int) : Shape Int where
  write := .number
  read
    | .number value => if low ≤ value ∧ value ≤ high then some value else none
    | _ => none
  Fits value := low ≤ value ∧ value ≤ high
  reads _ fits := if_pos fits

/-- The natural numbers below a bound. -/
def natural (bound : Nat) : Shape Nat where
  write value := .number (.ofNat value)
  read
    | .number (.ofNat value) => if value < bound then some value else none
    | _ => none
  Fits value := value < bound
  reads _ fits := if_pos fits

/-- A value that may be absent, which is written as `null`. -/
def optional (shape : Shape α) (solid : shape.Solid) : Shape (Option α) where
  write
    | none => .null
    | some value => shape.write value
  read
    | .null => some none
    | document => (shape.read document).map some
  Fits value := ∀ found ∈ value, shape.Fits found
  reads value fits := by
    cases value with
    | none =>
        rfl
    | some value =>
        dsimp only
        split
        · rename_i null
          exact absurd null (solid value)
        · rw [shape.reads value (fits value rfl)]
          rfl

/-- Read every item. -/
def readItems (shape : Shape α) : List Document → Option (List α)
  | [] => some []
  | item :: items => do
      let value ← shape.read item
      let values ← readItems shape items
      some (value :: values)

def listed (shape : Shape α) : Shape (List α) where
  write values := .list (values.map shape.write)
  read
    | .list items => readItems shape items
    | _ => none
  Fits values := ∀ value ∈ values, shape.Fits value
  reads values fits := by
    dsimp only
    induction values with
    | nil =>
        rfl
    | cons value values inductionHypothesis =>
        have first := shape.reads value (fits value List.mem_cons_self)
        have later := inductionHypothesis fun other member =>
          fits other (List.mem_cons_of_mem value member)
        simp only [List.map_cons, readItems, first, later, Option.bind_eq_bind,
          Option.bind_some]

/-- Read the value of every member. -/
def readEntries (shape : Shape α) : List (String × Document) → Option (List (String × α))
  | [] => some []
  | (key, item) :: members => do
      let value ← shape.read item
      let values ← readEntries shape members
      some ((key, value) :: values)

/-- Values under keys of any kind. -/
def entries (shape : Shape α) : Shape (List (String × α)) where
  write values := .object (values.map fun entry => (entry.1, shape.write entry.2))
  read
    | .object members => readEntries shape members
    | _ => none
  Fits values := ∀ entry ∈ values, shape.Fits entry.2
  reads values fits := by
    dsimp only
    induction values with
    | nil =>
        rfl
    | cons entry values inductionHypothesis =>
        have first := shape.reads entry.2 (fits entry List.mem_cons_self)
        have later := inductionHypothesis fun other member =>
          fits other (List.mem_cons_of_mem entry member)
        simp only [List.map_cons, readEntries, first, later, Option.bind_eq_bind,
          Option.bind_some]

/-- Write the values of another type as values of this one, where they can be told apart. -/
def via (shape : Shape α) (toShape : β → α) (ofShape : α → Option β) : Shape β where
  write value := shape.write (toShape value)
  read document := (shape.read document).bind ofShape
  Fits value := shape.Fits (toShape value) ∧ ofShape (toShape value) = some value
  reads value fits := by
    rw [shape.reads _ fits.1, Option.bind_some, fits.2]

theorem exact_text : text.Exact := by
  intro document value found
  cases document with
  | text written =>
      cases found
      exact ⟨trivial, rfl⟩
  | _ =>
      cases found

theorem exact_flag : flag.Exact := by
  intro document value found
  cases document with
  | bool written =>
      cases found
      exact ⟨trivial, rfl⟩
  | _ =>
      cases found

theorem exact_integer (low high : Int) : (integer low high).Exact := by
  intro document value found
  cases document with
  | number written =>
      simp only [integer, Option.ite_none_right_eq_some, Option.some.injEq] at found
      obtain ⟨fits, rfl⟩ := found
      exact ⟨fits, rfl⟩
  | _ =>
      cases found

theorem exact_natural (bound : Nat) : (natural bound).Exact := by
  intro document value found
  cases document with
  | number written =>
      cases written with
      | ofNat written =>
          simp only [natural, Option.ite_none_right_eq_some, Option.some.injEq] at found
          obtain ⟨fits, rfl⟩ := found
          exact ⟨fits, rfl⟩
      | negSucc written =>
          cases found
  | _ =>
      cases found

theorem exact_optional {shape : Shape α} (exact' : shape.Exact) (solid : shape.Solid) :
    (shape.optional solid).Exact := by
  intro document value found
  cases document with
  | null =>
      cases found
      exact ⟨nofun, rfl⟩
  | _ =>
      obtain ⟨inner, read, rfl⟩ := Option.map_eq_some_iff.mp found
      obtain ⟨fits, written⟩ := exact' _ inner read
      refine ⟨fun other same => ?_, written⟩
      cases same
      exact fits

theorem solid_text : text.Solid :=
  nofun

theorem solid_integer (low high : Int) : (integer low high).Solid :=
  nofun

end Shape

/-! ## Fields -/

/-- A named field: what stands for it in an object that does not have it, what stands for it in
a list that ends before it, and which values are not written. -/
structure Field where
  key : String
  absent : Option Document := none
  short : Option Document := none
  skips : Document → Bool := fun _ => false
  absent_of_skips : ∀ document, skips document = true → absent = some document := by
    exact nofun

namespace Field

/-- A field that every object has. -/
def plain (key : String) : Field where
  key

/-- A field that is `null` when an object does not have it. -/
def optional (key : String) : Field where
  key
  absent := some .null

/-- A field with a default. -/
def defaulted (key : String) (value : Document) : Field where
  key
  absent := some value
  short := some value

/-- A field that is written unless it is `null`. -/
def sparse (key : String) : Field where
  key
  absent := some .null
  short := some .null
  skips
    | .null => true
    | _ => false
  absent_of_skips document skipped := by
    cases document with
    | null =>
        rfl
    | _ =>
        cases skipped

/-- A table that is written unless it is empty. -/
def sparseTable (key : String) : Field where
  key
  absent := some (.object [])
  short := some (.object [])
  skips
    | .object [] => true
    | _ => false
  absent_of_skips document skipped := by
    cases document with
    | object members =>
        cases members with
        | nil =>
            rfl
        | cons member members =>
            cases skipped
    | _ =>
        cases skipped

/-- A flag that is written when it is set. -/
def sparseFlag (key : String) : Field where
  key
  absent := some (.bool false)
  short := some (.bool false)
  skips
    | .bool value => !value
    | _ => false
  absent_of_skips document skipped := by
    cases document with
    | bool value =>
        cases value with
        | false =>
            rfl
        | true =>
            cases skipped
    | _ =>
        cases skipped

end Field

/-- The value under a key, when it is given at most once. -/
def lookup (key : String) (members : List (String × Document)) : Option (Option Document) :=
  match members.filter fun member => member.1 == key with
  | [] => some none
  | [member] => some (some member.2)
  | _ => none

def Field.take (field : Field) (members : List (String × Document)) : Option Document :=
  match lookup field.key members with
  | some (some document) => some document
  | some none => field.absent
  | none => none

/-- The values of the fields in an object. -/
def gatherMembers : List Field → List (String × Document) → Option (List Document)
  | [], _ => some []
  | field :: fields, members => do
      let document ← field.take members
      let documents ← gatherMembers fields members
      some (document :: documents)

/-- The values of the fields in a list. -/
def gatherItems : List Field → List Document → Option (List Document)
  | [], [] => some []
  | [], _ :: _ => none
  | field :: fields, [] => do
      let document ← field.short
      let documents ← gatherItems fields []
      some (document :: documents)
  | _ :: fields, item :: items => do
      let documents ← gatherItems fields items
      some (item :: documents)

def gather (fields : List Field) : Document → Option (List Document)
  | .object members => gatherMembers fields members
  | .list items => gatherItems fields items
  | _ => none

/-- The members that are written for the values of the fields. -/
def membersOf : List Field → List Document → List (String × Document)
  | field :: fields, document :: documents =>
      if field.skips document then membersOf fields documents
      else (field.key, document) :: membersOf fields documents
  | _, _ => []

/-! ## What carries the fields -/

/-- The members give the field this value. -/
def Field.Stands (field : Field) (members : List (String × Document)) (document : Document) :
    Prop :=
  (members.filter fun member => member.1 == field.key) = [(field.key, document)] ∨
    ((∀ member ∈ members, member.1 ≠ field.key) ∧ field.absent = some document)

/-- The document gives the fields these values. -/
def Carries (fields : List Field) (documents : List Document) : Document → Prop
  | .object members => List.Forall₂ (fun field => field.Stands members) fields documents
  | .list items => items.length ≤ fields.length ∧ ∃ rest, documents = items ++ rest ∧
      List.Forall₂ (fun field document => field.short = some document)
        (fields.drop items.length) rest
  | _ => False

theorem Field.take_eq_some {field : Field} {members : List (String × Document)}
    {document : Document} :
    field.take members = some document ↔ field.Stands members document := by
  have none_iff : (members.filter fun member => member.1 == field.key) = [] ↔
      ∀ member ∈ members, member.1 ≠ field.key := by
    simp [List.filter_eq_nil_iff]
  rw [Field.take, lookup, Field.Stands, ← none_iff]
  cases found : members.filter fun member => member.1 == field.key with
  | nil =>
      simp
  | cons first rest =>
      have named : first.1 = field.key := by
        have member : first ∈ members.filter fun member => member.1 == field.key := by
          rw [found]
          exact List.mem_cons_self
        simpa using (List.mem_filter.mp member).2
      cases rest with
      | nil =>
          obtain ⟨key, value⟩ := first
          have same : key = field.key := named
          simp [same]
      | cons second rest =>
          simp

theorem gatherMembers_eq_some {members : List (String × Document)} {fields : List Field}
    {documents : List Document} :
    gatherMembers fields members = some documents ↔
      List.Forall₂ (fun field => field.Stands members) fields documents := by
  induction fields generalizing documents with
  | nil =>
      simp [gatherMembers, eq_comm]
  | cons field fields inductionHypothesis =>
      simp only [gatherMembers, Option.bind_eq_bind, Option.bind_eq_some_iff,
        Field.take_eq_some, inductionHypothesis, Option.some.injEq, List.forall₂_cons_left_iff]
      constructor
      · rintro ⟨document, stands, rest, later, rfl⟩
        exact ⟨document, rest, stands, later, rfl⟩
      · rintro ⟨document, rest, stands, later, rfl⟩
        exact ⟨document, stands, rest, later, rfl⟩

theorem gatherItems_nil {fields : List Field} {documents : List Document} :
    gatherItems fields [] = some documents ↔
      List.Forall₂ (fun field document => field.short = some document) fields documents := by
  induction fields generalizing documents with
  | nil =>
      simp [gatherItems, eq_comm]
  | cons field fields inductionHypothesis =>
      simp only [gatherItems, Option.bind_eq_bind, Option.bind_eq_some_iff,
        inductionHypothesis, Option.some.injEq, List.forall₂_cons_left_iff]
      constructor
      · rintro ⟨document, stands, rest, later, rfl⟩
        exact ⟨document, rest, stands, later, rfl⟩
      · rintro ⟨document, rest, stands, later, rfl⟩
        exact ⟨document, stands, rest, later, rfl⟩

theorem gatherItems_eq_some {fields : List Field} {items documents : List Document} :
    gatherItems fields items = some documents ↔ items.length ≤ fields.length ∧
      ∃ rest, documents = items ++ rest ∧
        List.Forall₂ (fun field document => field.short = some document)
          (fields.drop items.length) rest := by
  induction items generalizing fields documents with
  | nil =>
      simp [gatherItems_nil]
  | cons item items inductionHypothesis =>
      cases fields with
      | nil =>
          simp [gatherItems]
      | cons field fields =>
          simp only [gatherItems, Option.bind_eq_bind, Option.bind_eq_some_iff,
            inductionHypothesis, Option.some.injEq, List.length_cons, List.drop_succ_cons,
            Nat.add_le_add_iff_right, List.cons_append]
          constructor
          · rintro ⟨rest, ⟨short, last, rfl, stands⟩, rfl⟩
            exact ⟨short, last, rfl, stands⟩
          · rintro ⟨short, last, rfl, stands⟩
            exact ⟨_, ⟨short, last, rfl, stands⟩, rfl⟩

theorem gather_eq_some {fields : List Field} {documents : List Document} {body : Document} :
    gather fields body = some documents ↔ Carries fields documents body := by
  cases body with
  | object members =>
      exact gatherMembers_eq_some
  | list items =>
      exact gatherItems_eq_some
  | _ =>
      exact ⟨nofun, nofun⟩

/-! ## Writing and reading records -/

theorem key_of_mem_membersOf {fields : List Field} {documents : List Document}
    {member : String × Document} (written : member ∈ membersOf fields documents) :
    member.1 ∈ fields.map Field.key := by
  induction fields generalizing documents with
  | nil =>
      cases written
  | cons field fields inductionHypothesis =>
      cases documents with
      | nil =>
          cases written
      | cons document documents =>
          rw [membersOf] at written
          split at written
          · exact List.mem_cons_of_mem _ (inductionHypothesis written)
          · rcases List.mem_cons.mp written with rfl | later
            · exact List.mem_cons_self
            · exact List.mem_cons_of_mem _ (inductionHypothesis later)

theorem Field.Stands.cons {field : Field} {members : List (String × Document)}
    {document : Document} (stands : field.Stands members document) {key : String}
    (different : key ≠ field.key) (other : Document) :
    field.Stands ((key, other) :: members) document := by
  rcases stands with only | ⟨missing, absent⟩
  · refine .inl ?_
    rw [List.filter_cons_of_neg (by simpa using different), only]
  · refine .inr ⟨fun member found => ?_, absent⟩
    rcases List.mem_cons.mp found with rfl | later
    · exact different
    · exact missing member later

theorem stands_cons {fields : List Field} {documents : List Document}
    {members : List (String × Document)} {key : String} (other : Document)
    (unused : key ∉ fields.map Field.key)
    (stands : List.Forall₂ (fun field => field.Stands members) fields documents) :
    List.Forall₂ (fun field => field.Stands ((key, other) :: members)) fields documents := by
  induction stands with
  | nil =>
      exact .nil
  | cons first _ inductionHypothesis =>
      rw [List.map_cons, List.mem_cons, not_or] at unused
      exact .cons (first.cons unused.1 other) (inductionHypothesis unused.2)

/-- What is written for a record carries its fields. -/
theorem stands_membersOf {fields : List Field} {documents : List Document}
    (distinct : (fields.map Field.key).Nodup) (sized : documents.length = fields.length) :
    List.Forall₂ (fun field => field.Stands (membersOf fields documents)) fields documents := by
  induction fields generalizing documents with
  | nil =>
      rw [List.length_eq_zero_iff.mp sized]
      exact .nil
  | cons field fields inductionHypothesis =>
      obtain ⟨document, documents, rfl⟩ := List.exists_cons_of_length_eq_add_one sized
      obtain ⟨unused, others⟩ := List.nodup_cons.mp distinct
      have later := inductionHypothesis others (Nat.succ_inj.mp sized)
      have missing : ∀ member ∈ membersOf fields documents, member.1 ≠ field.key := by
        rintro member written same
        exact unused (same ▸ key_of_mem_membersOf written)
      rw [membersOf]
      split
      · rename_i skipped
        exact .cons (.inr ⟨missing, field.absent_of_skips document skipped⟩) later
      · refine .cons (.inl ?_) (stands_cons document unused later)
        rw [List.filter_cons_of_pos (by simp), List.filter_eq_nil_iff.mpr]
        intro member written
        simpa using missing member written

theorem gather_membersOf {fields : List Field} {documents : List Document}
    (distinct : (fields.map Field.key).Nodup) (sized : documents.length = fields.length) :
    gather fields (.object (membersOf fields documents)) = some documents :=
  gather_eq_some.mpr (stands_membersOf distinct sized)

/-- A list of named fields with the shapes of their values. -/
structure Record (α : Type) where
  fields : List Field
  write : α → List Document
  read : List Document → Option α
  Fits : α → Prop
  sized : ∀ value, (write value).length = fields.length
  reads : ∀ value, Fits value → read (write value) = some value

namespace Record

/-- A record of one field. -/
def single (field : Field) (shape : Shape α) : Record α where
  fields := [field]
  write value := [shape.write value]
  read
    | [document] => shape.read document
    | _ => none
  Fits := shape.Fits
  sized _ := rfl
  reads := shape.reads

/-- A field before those of a record. -/
def and (field : Field) (shape : Shape α) (rest : Record β) : Record (α × β) where
  fields := field :: rest.fields
  write value := shape.write value.1 :: rest.write value.2
  read
    | document :: documents => do
        let first ← shape.read document
        let later ← rest.read documents
        some (first, later)
    | [] => none
  Fits value := shape.Fits value.1 ∧ rest.Fits value.2
  sized value := congrArg Nat.succ (rest.sized value.2)
  reads value fits := by
    simp only [shape.reads _ fits.1, rest.reads _ fits.2, Option.bind_eq_bind, Option.bind_some]

/-- Nothing is read but what is written. -/
def Exact (record : Record α) : Prop :=
  ∀ documents value, record.read documents = some value →
    record.Fits value ∧ documents = record.write value

theorem exact_single (field : Field) {shape : Shape α} (exact' : shape.Exact) :
    (single field shape).Exact := by
  intro documents value found
  match documents with
  | [document] =>
      obtain ⟨fits, written⟩ := exact' document value found
      exact ⟨fits, congrArg (fun document => [document]) written⟩
  | [] =>
      cases found
  | _ :: _ :: _ =>
      cases found

theorem exact_and (field : Field) {shape : Shape α} {rest : Record β} (exact' : shape.Exact)
    (others : rest.Exact) : (rest.and field shape).Exact := by
  intro documents value found
  cases documents with
  | nil =>
      cases found
  | cons document documents =>
      simp only [Record.and, Option.bind_eq_bind, Option.bind_eq_some_iff,
        Option.some.injEq] at found
      obtain ⟨first, read, later, readLater, rfl⟩ := found
      obtain ⟨fits, written⟩ := exact' document first read
      obtain ⟨fitsLater, writtenLater⟩ := others documents later readLater
      exact ⟨⟨fits, fitsLater⟩, congrArg₂ List.cons written writtenLater⟩

/-- A record as an object. -/
def shape (record : Record α) (distinct : (record.fields.map Field.key).Nodup) : Shape α where
  write value := .object (membersOf record.fields (record.write value))
  read document := (gather record.fields document).bind record.read
  Fits := record.Fits
  reads value fits := by
    rw [gather_membersOf distinct (record.sized value), Option.bind_some,
      record.reads value fits]

/-- What is read as a record is what carries the values that are written for it. -/
theorem read_shape {record : Record α} {distinct : (record.fields.map Field.key).Nodup}
    (exact' : record.Exact) {body : Document} {value : α} :
    (record.shape distinct).read body = some value ↔
      record.Fits value ∧ Carries record.fields (record.write value) body := by
  constructor
  · intro found
    obtain ⟨documents, gathered, read⟩ := Option.bind_eq_some_iff.mp found
    obtain ⟨fits, written⟩ := exact' documents value read
    exact ⟨fits, written ▸ gather_eq_some.mp gathered⟩
  · rintro ⟨fits, carried⟩
    exact Option.bind_eq_some_iff.mpr
      ⟨_, gather_eq_some.mpr carried, record.reads value fits⟩

end Record

/-! ## Variants -/

/-- An object with one member. -/
def tagged (name : String) (body : Document) : Document :=
  .object [(name, body)]

/-- A variant, and the fields with their values when it has fields. -/
structure Variant where
  name : String
  content : Option (List Field × List Document)
  Fits : Prop

namespace Variant

/-- A variant without fields. -/
def bare (name : String) : Variant where
  name
  content := none
  Fits := True

def struct (name : String) (record : Record α) (value : α) : Variant where
  name
  content := some (record.fields, record.write value)
  Fits := record.Fits value

def toDocument (variant : Variant) : Document :=
  match variant.content with
  | none => .text variant.name
  | some (fields, documents) => tagged variant.name (.object (membersOf fields documents))

/-- The document is one of those that are read as the variant. -/
def ShownBy (variant : Variant) (document : Document) : Prop :=
  match variant.content with
  | none => document = .text variant.name ∨ document = tagged variant.name .null
  | some (fields, documents) =>
      ∃ body, document = tagged variant.name body ∧ Carries fields documents body

end Variant

/-- The name of a variant, and its body when it has one. -/
def variantOf : Document → Option (String × Option Document)
  | .text name => some (name, none)
  | .object [(name, body)] => some (name, some body)
  | _ => none

/-- The body of a variant that holds nothing. -/
def isBare : Option Document → Bool
  | none => true
  | some .null => true
  | some _ => false

/-- A value of an enumeration, whose variants have no fields. -/
def Shape.variant (nameOf : α → String) (ofName : String → Option α) : Shape α where
  write value := .text (nameOf value)
  read document := (variantOf document).bind fun (name, body) =>
    if isBare body then ofName name else none
  Fits value := ofName (nameOf value) = some value
  reads _ fits := fits

/-- Read a variant without fields. -/
def readBare (value : α) (body : Option Document) : Option α :=
  if isBare body then some value else none

/-- Read a variant with a body. -/
def readBody (shape : Shape α) (make : α → β) (body : Option Document) : Option β :=
  body.bind fun document => (shape.read document).map make

theorem variantOf_eq_some {document : Document} {name : String} {body : Option Document} :
    variantOf document = some (name, body) ↔
      (body = none ∧ document = .text name) ∨
        ∃ inner, body = some inner ∧ document = tagged name inner := by
  constructor
  · intro found
    rw [variantOf.eq_def] at found
    split at found
    · cases found
      exact .inl ⟨rfl, rfl⟩
    · cases found
      exact .inr ⟨_, rfl, rfl⟩
    · cases found
  · rintro (⟨rfl, rfl⟩ | ⟨inner, rfl, rfl⟩) <;> rfl

theorem shownBy_of_bare {document : Document} {name : String} {body : Option Document}
    {value found : α} (named : variantOf document = some (name, body))
    (read : readBare value body = some found) :
    value = found ∧ (Variant.bare name).ShownBy document := by
  rw [readBare, Option.ite_none_right_eq_some, Option.some.injEq] at read
  obtain ⟨empty, same⟩ := read
  refine ⟨same, ?_⟩
  rcases variantOf_eq_some.mp named with ⟨_, written⟩ | ⟨inner, rfl, written⟩
  · exact .inl written
  · cases inner with
    | null =>
        exact .inr written
    | _ =>
        cases empty

theorem shownBy_of_body {record : Record α} {distinct : (record.fields.map Field.key).Nodup}
    (exact' : record.Exact) {document : Document} {name : String} {body : Option Document}
    {make : α → β} {found : β} (named : variantOf document = some (name, body))
    (read : readBody (record.shape distinct) make body = some found) :
    ∃ value, make value = found ∧ (Variant.struct name record value).Fits ∧
      (Variant.struct name record value).ShownBy document := by
  obtain ⟨inner, given, taken⟩ := Option.bind_eq_some_iff.mp read
  obtain ⟨value, gathered, made⟩ := Option.map_eq_some_iff.mp taken
  obtain ⟨fits, carried⟩ := (Record.read_shape exact').mp gathered
  rcases variantOf_eq_some.mp named with ⟨none, _⟩ | ⟨other, some, written⟩
  · rw [none] at given
    cases given
  · rw [some] at given
    cases given
    exact ⟨value, made, fits, inner, written, carried⟩

theorem shownBy_bare (name : String) :
    (Variant.bare name).ShownBy (Variant.bare name).toDocument :=
  .inl rfl

theorem shownBy_struct {record : Record α} (distinct : (record.fields.map Field.key).Nodup)
    (name : String) (value : α) :
    (Variant.struct name record value).ShownBy (Variant.struct name record value).toDocument :=
  ⟨_, rfl, stands_membersOf distinct (record.sized value)⟩

/-- What shows a variant has its name. -/
theorem variantOf_of_shownBy {variant : Variant} {document : Document}
    (shown : variant.ShownBy document) :
    ∃ body, variantOf document = some (variant.name, body) := by
  rw [Variant.ShownBy.eq_def] at shown
  split at shown
  · rcases shown with rfl | rfl
    · exact ⟨_, rfl⟩
    · exact ⟨_, rfl⟩
  · obtain ⟨body, rfl, _⟩ := shown
    exact ⟨_, rfl⟩

theorem readBare_of_shownBy {document : Document} {name : String} {body : Option Document}
    (shown : (Variant.bare name).ShownBy document)
    (named : variantOf document = some (name, body)) (value : α) :
    readBare value body = some value := by
  rcases shown with rfl | rfl
  · cases named
    rfl
  · cases named
    rfl

theorem readBody_of_shownBy {record : Record α}
    {distinct : (record.fields.map Field.key).Nodup} (exact' : record.Exact)
    {document : Document} {name : String} {body : Option Document} {value : α}
    (fits : record.Fits value) (shown : (Variant.struct name record value).ShownBy document)
    (named : variantOf document = some (name, body)) (make : α → β) :
    readBody (record.shape distinct) make body = some (make value) := by
  obtain ⟨inner, rfl, carried⟩ := shown
  cases named
  have read := (@Record.read_shape _ _ distinct exact' _ _).mpr ⟨fits, carried⟩
  rw [readBody, Option.bind_some, read, Option.map_some]

end Document
