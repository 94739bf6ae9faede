import CelSuite.Decimal.Shortest
import CelSuite.Text.Characters

/-! # The text of numbers

Writing a double as text and reading text as a double or as an integer of any size. Numbers from a
millionth up to 10^21 are written with a plain point, the others with an exponent; the digits are the
shortest that read back. Reading takes a decimal, an infinity, or a hexadecimal, octal or binary integer,
with blanks around it. -/

namespace CelSuite.Decimal

/-- A plain point from 10^-6 on and below 10^21. -/
def layout : Layout := ⟨-6, 21⟩

/-- The text of a finite double without its sign. -/
def writeMagnitude (x : Double) : List Char :=
  if x.magnitude = 0 then ['0']
  else
    let (digits, point) := shortest x
    layout.write digits point

/-- The text of a double. Both zeros are `0`. -/
def write (x : Double) : String :=
  if x.isNaN then "NaN"
  else if x.isInfinite then (if x.isNegative then "-Infinity" else "Infinity")
  else String.ofList
    ((if x.isNegative && x.magnitude != 0 then ['-'] else []) ++ writeMagnitude x)

/-- A decimal as it is written: digits before and after the point, and the exponent. -/
structure Numeral where
  whole : List Char
  fraction : List Char
  exponent : Int

/-- The double nearest to a decimal. -/
def Numeral.toDouble (d : Numeral) (negative : Bool) : Double :=
  Double.ofDecimal negative (Text.ofDigits (d.whole ++ d.fraction)) (d.exponent - d.fraction.length)

/-- An exponent, if the text is one or is empty: `e`, an optional sign and digits. -/
def exponent? : List Char → Option Int
  | [] => some 0
  | c :: cs => if c = 'e' ∨ c = 'E' then Text.signedInteger? cs else none

/-- A decimal without a sign: digits with at most one point among or beside them, and an optional
    exponent. -/
def decimal? (cs : List Char) : Option Numeral :=
  let whole := cs.takeWhile Text.isDigit
  match cs.dropWhile Text.isDigit with
  | '.' :: rest =>
    let fraction := rest.takeWhile Text.isDigit
    if whole = [] ∧ fraction = [] then none
    else (exponent? (rest.dropWhile Text.isDigit)).map (⟨whole, fraction, ·⟩)
  | rest => if whole = [] then none else (exponent? rest).map (⟨whole, [], ·⟩)

/-- Splits an optional sign off: whether it is a minus, and the rest. -/
def splitSign : List Char → Bool × List Char
  | '-' :: cs => (true, cs)
  | '+' :: cs => (false, cs)
  | cs => (false, cs)

/-- A decimal with an optional sign. -/
def signedDecimal? (cs : List Char) : Option Double :=
  let (negative, rest) := splitSign cs
  (decimal? rest).map (·.toDouble negative)

/-- The number that digits of a base write. -/
def inBase? (base : Nat) (cs : List Char) : Option Nat :=
  if cs = [] then none
  else cs.foldlM (fun n c => (Text.hexValue? c).bind fun d => if d < base then some (base * n + d) else none) 0

/-- The base that a mark at the start of a text names, and the digits after the mark. -/
def base? : List Char → Option (Nat × List Char)
  | '0' :: c :: ds =>
    if c = 'x' ∨ c = 'X' then some (16, ds)
    else if c = 'o' ∨ c = 'O' then some (8, ds)
    else if c = 'b' ∨ c = 'B' then some (2, ds)
    else none
  | _ => none

/-- Reads a number, with blanks around it. -/
def read? (s : String) : Option Double :=
  let cs := Text.trimChars s.toList
  match base? cs with
  | some (base, ds) => (inBase? base ds).map (Double.ofRatio false · 1)
  | none =>
    let (negative, rest) := splitSign cs
    if rest = "Infinity".toList then some (Double.infinity negative)
    else (decimal? rest).map (·.toDouble negative)

/-- The number of a text. A blank text is zero, and what is no number is NaN. -/
def number (s : String) : Double :=
  if Text.trimChars s.toList = [] then Double.ofMagnitude false 0 else (read? s).getD Double.nan

/-- Reads an integer of any size, with blanks around it. A blank text is zero. -/
def integer? (s : String) : Option Int :=
  let cs := Text.trimChars s.toList
  if cs = [] then some 0
  else
    match base? cs with
    | some (base, ds) => (inBase? base ds).map Int.ofNat
    | none => Text.signedInteger? cs

end CelSuite.Decimal
