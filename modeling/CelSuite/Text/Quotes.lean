import CelSuite.Text.Units

/-! # Quotes

Text that is put between quotes, and text that is taken from between them. -/

namespace CelSuite.Text

/-! ### Displayed text

How messages and displays quote text: between double quotes, with a backslash before a double quote or a backslash, a
letter escape for the five controls that have one, four hexadecimal digits for the other controls, and every other
character as it is. -/

/-- A hexadecimal digit in lower case. -/
def hexDigit (n : Nat) : Char :=
  if n < 10 then Char.ofNat (48 + n) else Char.ofNat (87 + n)

/-- The four lower-case hexadecimal digits of a number below 65536. -/
def hex4 (n : Nat) : List Char :=
  [hexDigit (n / 4096 % 16), hexDigit (n / 256 % 16), hexDigit (n / 16 % 16), hexDigit (n % 16)]

/-- A character as it stands between the quotes. -/
def quoteChar (c : Char) : List Char :=
  if c = '"' then ['\\', '"']
  else if c = '\\' then ['\\', '\\']
  else if c = '\x08' then ['\\', 'b']
  else if c = '\x0c' then ['\\', 'f']
  else if c = '\n' then ['\\', 'n']
  else if c = '\r' then ['\\', 'r']
  else if c = '\t' then ['\\', 't']
  else if c.toNat < 0x20 then '\\' :: 'u' :: hex4 c.toNat
  else [c]

/-- Text between double quotes. -/
def quoteChars (cs : List Char) : List Char :=
  '"' :: (cs.flatMap quoteChar ++ ['"'])

/-- Text between double quotes. -/
def quote (s : String) : String :=
  String.ofList (quoteChars s.toList)

/-- The display of the first unit of a character. A half of a pair has no character of its own and
    shows as its four hexadecimal digits. -/
def quoteFirstUnit (c : Char) : String :=
  if c.toNat < 0x10000 then quote (String.singleton c)
  else String.ofList ('"' :: '\\' :: 'u' :: (hex4 (0xD800 + (c.toNat - 0x10000) / 0x400) ++ ['"']))

/-! ### Escaped quotes

The text of an expression that stands between quotes has its own quote escaped by a backslash. Undoing that drops
exactly those backslashes; a backslash that is itself escaped never pairs with a quote after it. -/

/-- The two quotes an expression can stand between. -/
inductive Quote where
  | single
  | double
  deriving DecidableEq

def Quote.char : Quote → Char
  | .single => '\x27'
  | .double => '"'

def Quote.ofString? (s : String) : Option Quote :=
  if s = "'" then some .single else if s = "\"" then some .double else none

/-- Replaces each backslash with a quote after it by the quote alone; two backslashes stay as they
    are. -/
def unescapeQuote (q : Quote) : List Char → List Char
  | '\\' :: c :: cs =>
    if c = q.char then c :: unescapeQuote q cs
    else if c = '\\' then '\\' :: '\\' :: unescapeQuote q cs
    else '\\' :: unescapeQuote q (c :: cs)
  | c :: cs => c :: unescapeQuote q cs
  | [] => []

/-- The text without the backslashes that escape its quote. -/
def expandEscapes (q : Quote) (s : String) : String :=
  String.ofList (unescapeQuote q s.toList)

end CelSuite.Text
