import Montage.Json.Fault

/-!
# Tokens of a JSON text

`tokens` cuts a text into tokens from left to right.  Each rule looks ahead and
says how far its token reaches; the loop then passes over that many characters.
The cutting never gives up: a character that begins no token becomes
`Token.stray`, and a token that starts well and then fails becomes
`Token.broken`, behind which nothing is read.

A string token keeps the text that its escapes spell.  Escapes name UTF-16
units, so half of a surrogate pair can stand alone; such a string has no text.
-/

namespace Montage

namespace Json

/-- A number as it is spelled: the digits without the point, and the power of
ten that they are multiplied with. -/
structure Numeral where
  negative : Bool
  digits : Nat
  exponent : Int
  /-- Whether it has neither a point nor an exponent. -/
  integral : Bool
  deriving DecidableEq

inductive Token
  | openArray
  | closeArray
  | openObject
  | closeObject
  | comma
  | colon
  | null
  | boolean (value : Bool)
  | number (numeral : Numeral)
  /-- A string; `none` if it holds half of a surrogate pair. -/
  | string (text : Option String)
  /-- A character that begins no token. -/
  | stray
  /-- A token that fails, and whether it began as a string. -/
  | broken (cause : Malformed) (inString : Bool)
  deriving DecidableEq

/-- The blanks between tokens. -/
def isGap (c : Char) : Bool := c = ' ' || c = '\n' || c = '\t' || c = '\r'

/-! ## Strings -/

/-- A part of a string: a character, or a unit of UTF-16 given by an escape. -/
inductive Piece
  | char (c : Char)
  | unit (code : Nat)

/-- The value of a digit of base sixteen, in either case. -/
def hexValue? (c : Char) : Option Nat :=
  if c.isDigit then some (c.toNat - '0'.toNat)
  else if 'a' ≤ c ∧ c ≤ 'f' then some (c.toNat - 'a'.toNat + 10)
  else if 'A' ≤ c ∧ c ≤ 'F' then some (c.toNat - 'A'.toNat + 10)
  else none

/-- The unit named by four digits of base sixteen. -/
def unitOf? (a b c d : Char) : Option Nat := do
  let a ← hexValue? a
  let b ← hexValue? b
  let c ← hexValue? c
  let d ← hexValue? d
  return ((a * 16 + b) * 16 + c) * 16 + d

/-- The character of an escape of one letter. -/
def escaped? (c : Char) : Option Char :=
  if c = '"' then some '"'
  else if c = '\\' then some '\\'
  else if c = '/' then some '/'
  else if c = 'b' then some (Char.ofNat 8)
  else if c = 'f' then some (Char.ofNat 12)
  else if c = 'n' then some '\n'
  else if c = 'r' then some '\r'
  else if c = 't' then some '\t'
  else none

/-- The pieces of a string behind its opening quote, and the number of
characters up to and with the closing quote.  `width` and `before` count and
collect what has been passed. -/
def stringPieces (width : Nat) (before : List Piece) :
    List Char → Except Malformed (List Piece × Nat)
  | [] => .error .endInString
  | '"' :: _ => .ok (before.reverse, width + 1)
  | ['\\'] => .error .endInString
  | '\\' :: 'u' :: a :: b :: c :: d :: rest =>
    match unitOf? a b c d with
    | some unit => stringPieces (width + 6) (.unit unit :: before) rest
    | none => .error .invalidEscape
  | '\\' :: 'u' :: _ => .error .endInString
  | '\\' :: c :: rest =>
    match escaped? c with
    | some e => stringPieces (width + 2) (.char e :: before) rest
    | none => .error .invalidEscape
  | c :: rest =>
    if c.toNat < 32 then .error .controlCharacter
    else stringPieces (width + 1) (.char c :: before) rest

/-- Whether a unit begins a surrogate pair. -/
def isLeading (code : Nat) : Bool := decide (0xD800 ≤ code) && decide (code < 0xDC00)

/-- Whether a unit ends a surrogate pair. -/
def isTrailing (code : Nat) : Bool := decide (0xDC00 ≤ code) && decide (code < 0xE000)

/-- The character of a surrogate pair. -/
def pairChar (leading trailing : Nat) : Char :=
  Char.ofNat ((leading - 0xD800) * 0x400 + (trailing - 0xDC00) + 0x10000)

/-- The text that pieces spell, unless half of a pair stands alone. -/
def spell : List Piece → Option (List Char)
  | [] => some []
  | .char c :: rest => (spell rest).map (c :: ·)
  | .unit u :: .unit v :: rest =>
    if isLeading u then
      if isTrailing v then (spell rest).map (pairChar u v :: ·) else none
    else if isTrailing u then none
    else (spell (.unit v :: rest)).map (Char.ofNat u :: ·)
  | .unit u :: rest =>
    if isLeading u || isTrailing u then none else (spell rest).map (Char.ofNat u :: ·)

/-! ## Numbers -/

/-- The value of decimal digits. -/
def digitsValue (digits : List Char) : Nat :=
  digits.foldl (fun n c => 10 * n + (c.toNat - '0'.toNat)) 0

/-- What is wrong where a digit is missing. -/
def missingDigit : List Char → Malformed
  | [] => .endInValue
  | _ => .invalidNumber

/-- The digits behind a point, if there is a point. -/
def fractionDigits : List Char → Except Malformed (List Char)
  | '.' :: rest =>
    match rest.takeWhile Char.isDigit with
    | [] => .error (missingDigit rest)
    | digits => .ok digits
  | _ => .ok []

/-- The sign of an exponent, whether it is written, and what follows. -/
def exponentSign : List Char → Bool × Nat × List Char
  | '-' :: rest => (true, 1, rest)
  | '+' :: rest => (false, 1, rest)
  | rest => (false, 0, rest)

/-- The exponent, if there is one, and the number of its characters. -/
def exponentPart : List Char → Except Malformed (Option Int × Nat)
  | c :: rest =>
    if c = 'e' ∨ c = 'E' then
      let (negative, width, rest) := exponentSign rest
      match rest.takeWhile Char.isDigit with
      | [] => .error (missingDigit rest)
      | digits =>
        let power : Int := digitsValue digits
        .ok (some (if negative then -power else power), 1 + width + digits.length)
    else .ok (none, 0)
  | [] => .ok (none, 0)

/-- The number at the start of `body`, which follows the sign, and the number
of its characters.  A number does not begin with a zero that has a digit
behind it. -/
def unsignedNumeral (negative : Bool) (body : List Char) : Except Malformed (Numeral × Nat) :=
  match body.takeWhile Char.isDigit with
  | [] => .error (missingDigit body)
  | '0' :: _ :: _ => .error .invalidNumber
  | whole => do
    let rest := body.drop whole.length
    let fraction ← fractionDigits rest
    let point := if fraction.isEmpty then 0 else 1 + fraction.length
    let (power, width) ← exponentPart (rest.drop point)
    return (⟨negative, digitsValue (whole ++ fraction), power.getD 0 - fraction.length,
      fraction.isEmpty && power.isNone⟩, whole.length + point + width)

/-- What a numeral stands for: a whole number of at most 64 bits, a real
number, or nothing if it is beyond every double. -/
inductive NumberValue
  | integer (value : Int)
  | real (value : Float)
  | tooLarge

/-- The double nearest to a numeral. -/
def Numeral.toFloat? (n : Numeral) : Option Float :=
  (Decimal.toFloat? ⟨n.digits, n.exponent⟩).map fun x => if n.negative then -x else x

/-- What a numeral stands for.  Minus zero is a real number. -/
def Numeral.value (n : Numeral) : NumberValue :=
  if n.integral && !n.negative && decide (n.digits < UInt64.size) then .integer n.digits
  else if n.integral && n.negative && decide (0 < n.digits) &&
      decide (n.digits ≤ UInt64.size / 2) then
    .integer (-n.digits)
  else match n.toFloat? with
    | some x => .real x
    | none => .tooLarge

/-! ## The cutting -/

/-- The token that a bare word spells, if `rest` goes on with it. -/
def wordToken (token : Token) : List Char → List Char → Token
  | [], _ => token
  | _ :: _, [] => .broken .endInValue false
  | w :: word, c :: rest =>
    if w = c then wordToken token word rest else .broken .expectedIdentifier false

/-- A number token, `sign` characters behind the start. -/
def numberToken (sign : Nat) (body : List Char) : Token × Nat :=
  match unsignedNumeral (decide (sign = 1)) body with
  | .ok (numeral, width) => (.number numeral, sign + width - 1)
  | .error cause => (.broken cause false, 0)

/-- The token that begins with `c`, and how many characters of `rest` belong to
it. -/
def tokenAt (c : Char) (rest : List Char) : Token × Nat :=
  if c = '[' then (.openArray, 0)
  else if c = ']' then (.closeArray, 0)
  else if c = '{' then (.openObject, 0)
  else if c = '}' then (.closeObject, 0)
  else if c = ',' then (.comma, 0)
  else if c = ':' then (.colon, 0)
  else if c = 'n' then (wordToken .null ['u', 'l', 'l'] rest, 3)
  else if c = 't' then (wordToken (.boolean true) ['r', 'u', 'e'] rest, 3)
  else if c = 'f' then (wordToken (.boolean false) ['a', 'l', 's', 'e'] rest, 4)
  else if c = '-' then numberToken 1 rest
  else if c.isDigit then numberToken 0 (c :: rest)
  else if c = '"' then
    match stringPieces 0 [] rest with
    | .ok (pieces, width) => (.string ((spell pieces).map String.ofList), width)
    | .error cause => (.broken cause true, 0)
  else (.stray, 0)

/-- Whether nothing is read behind a token. -/
def Token.isLast : Token → Bool
  | .stray => true
  | .broken _ _ => true
  | _ => false

/-- The tokens behind `before`; `skip` characters still belong to the last of
them. -/
def tokensBehind (before : List Token) : Nat → List Char → List Token
  | _, [] => before.reverse
  | skip + 1, _ :: rest => tokensBehind before skip rest
  | 0, c :: rest =>
    if isGap c then tokensBehind before 0 rest
    else
      let (token, width) := tokenAt c rest
      if token.isLast then (token :: before).reverse
      else tokensBehind (token :: before) width rest

/-- The tokens of a text. -/
def tokens (text : String) : List Token := tokensBehind [] 0 text.toList

end Json

end Montage
