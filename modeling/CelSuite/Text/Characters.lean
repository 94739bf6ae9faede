/-! # Blanks and digits

The classes of characters that readers go by: blanks, and the digits of a base with the numbers they write. Blank are
the controls from tab to carriage return, every space separator, the line and paragraph separators and the byte order
mark; U+0085, U+180E and U+200B are not. -/

namespace CelSuite.Text

/-! ### Blanks -/

/-- Whether a character is blank. -/
def isBlank (c : Char) : Bool :=
  let n := c.toNat
  (0x9 ≤ n && n ≤ 0xD) || n == 0x20 || n == 0xA0 || n == 0x1680 || (0x2000 ≤ n && n ≤ 0x200A) ||
    n == 0x2028 || n == 0x2029 || n == 0x202F || n == 0x205F || n == 0x3000 || n == 0xFEFF

/-- Drops the blanks at both ends. -/
def trimChars (cs : List Char) : List Char :=
  ((cs.dropWhile isBlank).reverse.dropWhile isBlank).reverse

/-- Drops the blanks at both ends of a text. -/
def trim (s : String) : String :=
  String.ofList (trimChars s.toList)

/-! ### Digits

ASCII digits only. `Nat.repr` writes a number in decimal digits and `ofDigits` reads it. -/

/-- Whether a character is an ASCII decimal digit. -/
def isDigit (c : Char) : Bool :=
  '0' ≤ c && c ≤ '9'

/-- The value of an ASCII decimal digit. -/
def digitValue (c : Char) : Nat :=
  c.toNat - 48

/-- The number that decimal digits write, most significant first. -/
def ofDigits (cs : List Char) : Nat :=
  cs.foldl (fun n c => 10 * n + digitValue c) 0

/-- The value of an ASCII hexadecimal digit of either case. -/
def hexValue? (c : Char) : Option Nat :=
  if '0' ≤ c && c ≤ '9' then some (c.toNat - 48)
  else if 'a' ≤ c && c ≤ 'f' then some (c.toNat - 87)
  else if 'A' ≤ c && c ≤ 'F' then some (c.toNat - 55)
  else none

/-- The value of an octal digit. -/
def octalValue? (c : Char) : Option Nat :=
  if '0' ≤ c && c ≤ '7' then some (c.toNat - 48) else none

/-- The number that hexadecimal digits write; other characters count as zero. -/
def ofHexDigits (cs : List Char) : Nat :=
  cs.foldl (fun n c => 16 * n + (hexValue? c).getD 0) 0

/-- An optional sign and at least one decimal digit: the integer they write. -/
def signedInteger? : List Char → Option Int
  | '-' :: ds => if ds ≠ [] ∧ ds.all isDigit then some (-(ofDigits ds : Int)) else none
  | '+' :: ds => if ds ≠ [] ∧ ds.all isDigit then some (ofDigits ds : Int) else none
  | ds => if ds ≠ [] ∧ ds.all isDigit then some (ofDigits ds : Int) else none

end CelSuite.Text
