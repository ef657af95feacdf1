import Montage.Json.Basic
import Montage.Json.Outline
import Montage.Vocabulary

/-!
# Reading values out of an outline

A reader takes the outline of a value and gives what it describes, or the first
fault in the order of the text.  Readers are put together from small ones; the
one for structures, `Schema.read`, works from a list of named fields.

A structure is written as an object, or as an array of its fields in order.  In
an object, members that name no field are passed over, a field may stand only
once, and one that is required must stand.  An array may leave out fields at
its end if they are not required.
-/

namespace Montage

namespace Json

/-- What a reader knows of the place where it reads. -/
structure Place where
  /-- How many containers may still be opened. -/
  levels : Nat
  /-- What makes the text malformed where its outline is cut. -/
  stop : Malformed

/-- Reads a value of an outline. -/
abbrev Reader (β : Type) := Place → Outline → Except Fault β

/-- The text is malformed. -/
def malformed {β : Type} (cause : Malformed) : Except Fault β := .error (.malformed cause)

/-- The text is unfit. -/
def unfit {β : Type} (cause : Unfit) : Except Fault β := .error (.unfit cause)

/-- The place one container deeper. -/
def Place.enter (place : Place) : Except Fault Place :=
  match place.levels with
  | 0 => malformed .tooDeep
  | levels + 1 => .ok { place with levels }

/-- The text is malformed where the outline is cut. -/
def Place.cutHere {β : Type} (place : Place) : Except Fault β := malformed place.stop

/-- What a numeral is to a reader that did not ask for a number. -/
def foundNumber (numeral : Numeral) : Except Fault Found :=
  match numeral.value with
  | .integer value => .ok (.integer value)
  | .real value => .ok (.floating value)
  | .tooLarge => malformed .numberOutOfRange

/-- What a string is to a reader that did not ask for one. -/
def foundString : Option String → Except Fault Found
  | some text => .ok (.string text)
  | none => malformed .loneSurrogate

/-- What an outline is to a reader that did not ask for it. -/
def found (place : Place) : Outline → Except Fault Found
  | .cut => place.cutHere
  | .null => .ok .null
  | .boolean value => .ok (.boolean value)
  | .number numeral => foundNumber numeral
  | .string text => foundString text
  | .array _ _ => .ok .sequence
  | .object _ _ => .ok .map

/-- The fault of a value of the wrong kind. -/
def mismatch {β : Type} (expected : String) (place : Place) (outline : Outline) :
    Except Fault β := do
  unfit (.invalidType (← found place outline) expected)

/-! ## Single values -/

/-- A text, called `what` in faults. -/
def readText (what : String) : Reader String
  | _, .string (some text) => .ok text
  | _, .string none => malformed .loneSurrogate
  | place, outline => mismatch what place outline

/-- A truth value. -/
def readBool : Reader Bool
  | _, .boolean value => .ok value
  | place, outline => mismatch "a boolean" place outline

/-- A real number; whole numbers count. -/
def readReal : Reader Float
  | _, .number numeral =>
    match numeral.toFloat? with
    | some x => .ok x
    | none => malformed .numberOutOfRange
  | place, outline => mismatch "f64" place outline

/-- A whole number of 32 bits. -/
def readCount : Reader Nat
  | place, .number numeral =>
    match numeral.value with
    | .integer value =>
      if 0 ≤ value ∧ value < UInt32.size then .ok value.toNat
      else unfit (.invalidValue (.integer value) "u32")
    | _ => mismatch "u32" place (.number numeral)
  | place, outline => mismatch "u32" place outline

/-- A value or `null`. -/
def readOptional {β : Type} (read : Reader β) : Reader (Option β)
  | _, .null => .ok none
  | place, outline => return some (← read place outline)

/-- The items of a list, in order. -/
def readItems {β : Type} (read : Reader β) (place : Place) :
    List Outline → Except Fault (List β)
  | [] => .ok []
  | item :: items => do
    let first ← read place item
    return first :: (← readItems read place items)

/-- A list. -/
def readList {β : Type} (read : Reader β) : Reader (List β)
  | place, .array items closed => do
    let values ← readItems read (← place.enter) items
    if closed then return values else place.cutHere
  | place, outline => mismatch "a sequence" place outline

/-! ## Words -/

/-- The word of a vocabulary that a text spells. -/
def wordOf {β : Type} [Vocabulary β] (text : String) : Except Fault β :=
  match Vocabulary.find? text with
  | some word => .ok word
  | none => unfit (.unknownWord text ((Vocabulary.all (α := β)).map Vocabulary.word))

/-- A word of a vocabulary: a string, or an object whose only member has the
word for its key and `null` for its value. -/
def readWord {β : Type} [Vocabulary β] : Reader β
  | _, .string (some text) => wordOf text
  | _, .string none => malformed .loneSurrogate
  | place, .object members closed => do
    let inner ← place.enter
    match members with
    | [] => if closed then malformed .expectedValue else place.cutHere
    | (none, _) :: _ => malformed .loneSurrogate
    | (some key, value) :: rest =>
      let word ← wordOf key
      match value with
      | .null => pure ()
      | other => mismatch "unit" inner other
      if rest.isEmpty then if closed then return word else place.cutHere
      else malformed .expectedValue
  | place, .cut => place.cutHere
  | _, _ => malformed .expectedValue

/-! ## Any value -/

mutual

/-- Any value.  The members of an object are sorted by key, and of members with
one key the last counts. -/
def readAny (place : Place) : Outline → Except Fault (Json Float)
  | .cut => place.cutHere
  | .null => .ok .null
  | .boolean value => .ok (.bool value)
  | .number numeral =>
    match numeral.value with
    | .integer value => .ok (.int value)
    | .real value => .ok (.real value)
    | .tooLarge => malformed .numberOutOfRange
  | .string (some text) => .ok (.str text)
  | .string none => malformed .loneSurrogate
  | .array items closed => do
    let values ← readAnyItems (← place.enter) items
    if closed then return .arr values else place.cutHere
  | .object members closed => do
    let values ← readAnyMembers (← place.enter) [] members
    if closed then return .obj values else place.cutHere

/-- The items of an array of any values. -/
def readAnyItems (place : Place) : List Outline → Except Fault (List (Json Float))
  | [] => .ok []
  | item :: items => do
    let first ← readAny place item
    return first :: (← readAnyItems place items)

/-- The members of an object of any values, put into those read before. -/
def readAnyMembers (place : Place) (before : List (String × Json Float)) :
    List (Option String × Outline) → Except Fault (List (String × Json Float))
  | [] => .ok before
  | (none, _) :: _ => malformed .loneSurrogate
  | (some key, value) :: members => do
    let value ← readAny place value
    readAnyMembers place (insertSorted key value before) members

end

/-! ## Structures -/

/-- A named part of a structure, and how its value is put in place. -/
structure Field (σ : Type) where
  name : String
  required : Bool
  read : Place → Outline → σ → Except Fault σ

/-- A field whose value is read by a reader and stored by `store`. -/
def Field.of {σ β : Type} (name : String) (required : Bool) (read : Reader β)
    (store : β → σ → σ) : Field σ :=
  ⟨name, required, fun place outline whole => return store (← read place outline) whole⟩

/-- A structure: its name in faults, the value before any field is read, and
the fields in the order in which an array gives them. -/
structure Schema (σ : Type) where
  title : String
  blank : σ
  fields : List (Field σ)

namespace Schema

variable {σ : Type} (schema : Schema σ)

/-- The field with a name. -/
def field? (name : String) : Option (Field σ) := schema.fields.find? (·.name == name)

/-- Reads the members of an object.  `seen` holds the names of the fields that
have been read. -/
def readMembers (place : Place) (seen : List String) (whole : σ) :
    List Member → Except Fault (List String × σ)
  | [] => .ok (seen, whole)
  | (none, _) :: _ => malformed .loneSurrogate
  | (some key, value) :: members =>
    match schema.field? key with
    | none =>
      if value.complete then readMembers place seen whole members else place.cutHere
    | some field =>
      if seen.contains key then unfit (.duplicateField key)
      else do
        let whole ← field.read place value whole
        readMembers place (key :: seen) whole members

/-- The first required field that has not been read. -/
def missing? (seen : List String) : Option (Field σ) :=
  schema.fields.find? fun field => field.required && !seen.contains field.name

/-- Reads the items of an array into the fields.  `index` counts the fields
that have been read. -/
def readElements (place : Place) (closed : Bool) (index : Nat) (whole : σ) :
    List (Field σ) → List Outline → Except Fault σ
  | [], [] => if closed then .ok whole else place.cutHere
  | [], _ :: _ => malformed .trailingCharacters
  | field :: fields, item :: items => do
    let whole ← field.read place item whole
    readElements place closed (index + 1) whole fields items
  | fields, [] =>
    if closed then
      match fields.findIdx? (·.required) with
      | some i => unfit (.tooShort (index + i) schema.title schema.fields.length)
      | none => .ok whole
    else place.cutHere

/-- Reads a structure. -/
def read : Reader σ
  | place, .object members closed => do
    let (seen, whole) ← schema.readMembers (← place.enter) [] schema.blank members
    if closed then
      match schema.missing? seen with
      | some field => unfit (.missingField field.name)
      | none => return whole
    else place.cutHere
  | place, .array items closed => do
    schema.readElements (← place.enter) closed 0 schema.blank schema.fields items
  | place, outline => mismatch ("struct " ++ schema.title) place outline

end Schema

/-! ## Whole texts -/

/-- How many containers may stand inside one another. -/
def deepest : Nat := 127

/-- Reads a whole text. -/
def parse {β : Type} (read : Reader β) (text : String) : Except Fault β := do
  let draft := outline text
  let stop := draft.stop.getD .expectedValue
  let value ← read ⟨deepest, stop⟩ draft.root
  if draft.stop.isSome then malformed stop else return value

end Json

end Montage
