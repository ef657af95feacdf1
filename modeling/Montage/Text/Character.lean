import Montage.Text.Joining
import Montage.Text.Unassigned

/-!
# Kinds of characters

Blanks are taken off both ends of a word before it is looked up.

A message that repeats a text puts it in double quotes.  Quotes, backslashes
and characters that cannot be read on their own are written as escapes, so the
message shows exactly which characters the text had.  Four tables name the
characters that cannot be read on their own.

* `invisible`: control and format characters, separators other than the blank,
  and characters for private use;
* `fillers`: letters that are drawn as nothing;
* `joining`: marks that attach themselves to the character in front;
* `unassigned`: code points without a character.

A table is a list of ranges of code points, first and last included.
-/

namespace Montage

/-! ## Blanks -/

/-- The 25 characters that count as blank. -/
def isBlank (c : Char) : Bool :=
  let code := c.toNat
  (decide (9 ≤ code) && decide (code ≤ 13)) || code == 0x20 || code == 0x85 || code == 0xA0
    || code == 0x1680 || (decide (0x2000 ≤ code) && decide (code ≤ 0x200A)) || code == 0x2028
    || code == 0x2029 || code == 0x202F || code == 0x205F || code == 0x3000

/-- Characters without the blanks at both ends. -/
def trimBlanks (cs : List Char) : List Char :=
  ((cs.dropWhile isBlank).reverse.dropWhile isBlank).reverse

namespace Character

/-! ## Characters that cannot be read on their own -/

/-- Whether a code point lies in one of the ranges. -/
def within (ranges : List (Nat × Nat)) (code : Nat) : Bool :=
  ranges.any fun (first, last) => decide (first ≤ code) && decide (code ≤ last)

/-- The general categories Cc, Cf, Co, Zl, Zp and Zs without the blank. -/
def invisible : List (Nat × Nat) :=
  [(0x0, 0x1F), (0x7F, 0xA0), (0xAD, 0xAD), (0x600, 0x605), (0x61C, 0x61C), (0x6DD, 0x6DD),
   (0x70F, 0x70F), (0x890, 0x891), (0x8E2, 0x8E2), (0x1680, 0x1680), (0x180E, 0x180E),
   (0x2000, 0x200F), (0x2028, 0x202F), (0x205F, 0x2064), (0x2066, 0x206F), (0x3000, 0x3000),
   (0xE000, 0xF8FF), (0xFEFF, 0xFEFF), (0xFFF9, 0xFFFB), (0x110BD, 0x110BD), (0x110CD, 0x110CD),
   (0x13430, 0x1343F), (0x1BCA0, 0x1BCA3), (0x1D173, 0x1D17A), (0xE0001, 0xE0001),
   (0xE0020, 0xE007F), (0xF0000, 0xFFFFD), (0x100000, 0x10FFFD)]

/-- The Hangul letters that hold an empty place: letters with the Unicode
property Default_Ignorable_Code_Point. -/
def fillers : List (Nat × Nat) := [(0x115F, 0x1160), (0x3164, 0x3164), (0xFFA0, 0xFFA0)]

/-- Whether a character can stand in a message on its own. -/
def standsAlone (c : Char) : Bool :=
  let code := c.toNat
  !within invisible code && !within fillers code && !within joining code
    && !within unassigned code

end Character

/-! ## Quoted text -/

/-- A character inside the quotes. -/
def escapeForMessage (c : Char) : List Char :=
  if c = '"' then ['\\', '"']
  else if c = '\\' then ['\\', '\\']
  else if c = '\t' then ['\\', 't']
  else if c = '\r' then ['\\', 'r']
  else if c = '\n' then ['\\', 'n']
  else if c.toNat = 0 then ['\\', '0']
  else if Character.standsAlone c then [c]
  else '\\' :: 'u' :: '{' :: Nat.toDigits 16 c.toNat ++ ['}']

/-- A text in quotes. -/
def quoteForMessage (s : String) : String :=
  String.ofList ('"' :: s.toList.flatMap escapeForMessage ++ ['"'])

end Montage
