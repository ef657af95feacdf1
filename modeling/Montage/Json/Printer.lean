import Montage.Json.Basic
import Montage.Decimal.Text

/-!
# JSON text

`Json.render` writes a value in one of two spacings: `Spacing.compact` has no
blank at all, `Spacing.pretty` puts every item on a line of its own, indented
by two blanks a level.  The characters that are not blank are the same in both.

A string is written with as few escapes as the format allows: the quote, the
backslash and the control characters below the blank.  A real number that is
not finite has no JSON text; `null` stands in its place.
-/

namespace Montage

namespace Json

/-- The blanks between the parts of a value. -/
structure Spacing where
  /-- In front of an item at a level of nesting, and in front of the closing
  bracket. -/
  line : Nat → List Char
  /-- Between the colon and the value of a member. -/
  afterColon : List Char

/-- No blanks. -/
def Spacing.compact : Spacing := ⟨fun _ => [], []⟩

/-- A line for every item. -/
def Spacing.pretty : Spacing :=
  ⟨fun level => '\n' :: List.replicate (2 * level) ' ', [' ']⟩

/-- A digit of base sixteen, in lower case. -/
def hexDigit (n : Nat) : Char := Nat.digitChar (n % 16)

/-- A character inside a string. -/
def escape (c : Char) : List Char :=
  if c = '"' then ['\\', '"']
  else if c = '\\' then ['\\', '\\']
  else if c.toNat = 8 then ['\\', 'b']
  else if c = '\t' then ['\\', 't']
  else if c = '\n' then ['\\', 'n']
  else if c.toNat = 12 then ['\\', 'f']
  else if c = '\r' then ['\\', 'r']
  else if c.toNat < 32 then ['\\', 'u', '0', '0', hexDigit (c.toNat / 16), hexDigit c.toNat]
  else [c]

/-- A string in quotes. -/
def quote (s : String) : List Char := '"' :: s.toList.flatMap escape ++ ['"']

/-- A real number. -/
def realChars (x : Float) : List Char :=
  match Binary64.ofFloat? x with
  | some parts => NumberStyle.json.chars parts
  | none => ['n', 'u', 'l', 'l']

/-- A whole number. -/
def intChars (i : Int) : List Char :=
  if i < 0 then '-' :: Nat.toDigits 10 i.natAbs else Nat.toDigits 10 i.natAbs

mutual

/-- The text of a value that stands at a level of nesting. -/
def chars (spacing : Spacing) (level : Nat) : Json Float → List Char
  | .null => ['n', 'u', 'l', 'l']
  | .bool true => ['t', 'r', 'u', 'e']
  | .bool false => ['f', 'a', 'l', 's', 'e']
  | .int i => intChars i
  | .real x => realChars x
  | .str s => quote s
  | .arr [] => ['[', ']']
  | .arr (item :: items) =>
    '[' :: spacing.line (level + 1) ++ chars spacing (level + 1) item
      ++ itemChars spacing (level + 1) items ++ spacing.line level ++ [']']
  | .obj [] => ['{', '}']
  | .obj ((key, value) :: members) =>
    '{' :: spacing.line (level + 1) ++ quote key ++ ':' :: spacing.afterColon
      ++ chars spacing (level + 1) value ++ memberChars spacing (level + 1) members
      ++ spacing.line level ++ ['}']

/-- The items after the first, each behind a comma. -/
def itemChars (spacing : Spacing) (level : Nat) : List (Json Float) → List Char
  | [] => []
  | item :: items =>
    ',' :: spacing.line level ++ chars spacing level item ++ itemChars spacing level items

/-- The members after the first, each behind a comma. -/
def memberChars (spacing : Spacing) (level : Nat) : List (String × Json Float) → List Char
  | [] => []
  | (key, value) :: members =>
    ',' :: spacing.line level ++ quote key ++ ':' :: spacing.afterColon
      ++ chars spacing level value ++ memberChars spacing level members

end

/-- The text of a value. -/
def render (spacing : Spacing) (value : Json Float) : String :=
  String.ofList (value.chars spacing 0)

/-- The text without blanks. -/
def compact (value : Json Float) : String := value.render .compact

/-- The text with a line for every item. -/
def pretty (value : Json Float) : String := value.render .pretty

end Json

end Montage
