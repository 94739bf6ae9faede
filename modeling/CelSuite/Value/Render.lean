import CelSuite.Decimal.Number
import CelSuite.Duration
import CelSuite.Text.Quotes
import CelSuite.Value.Map

/-! # The text of values

Values in the notation of expressions, for messages and logs. A double that is an integer keeps a zero
after the point; a duration is a number of seconds without trailing zeros; bytes are hexadecimal
escapes. -/

namespace CelSuite

/-- A double with at least one place after the point, unless it takes an exponent. -/
def Double.render (x : Double) : String :=
  if x.isNaN then "NaN"
  else if x.isInfinite then (if x.isNegative then "-inf" else "+inf")
  else if x.isInteger && x.truncate.natAbs < 1000000000000000000000 then s!"{x.truncate}.0"
  else Decimal.write x

/-- A byte as a hexadecimal escape. -/
def renderByte (b : UInt8) : List Char :=
  ['\\', 'x', Text.hexDigit (b.toNat / 16), Text.hexDigit (b.toNat % 16)]

/-- Nanoseconds below a second as the digits of a fraction, without trailing zeros. -/
def renderFraction (nanos : Nat) : List Char :=
  let digits := nanos.repr.toList
  ((List.replicate (9 - digits.length) '0' ++ digits).reverse.dropWhile (· == '0')).reverse

/-- A number of nanoseconds as seconds. -/
def renderNanos (total : Int) : List Char :=
  let seconds := (total.natAbs / Duration.nanosPerSecond).repr.toList
  let nanos := total.natAbs % Duration.nanosPerSecond
  (if total < 0 then ['-'] else []) ++ seconds ++
    (if nanos = 0 then [] else '.' :: renderFraction nanos) ++ ['s']

namespace Value

/-- Joins texts with a comma and a space. -/
def joinComma : List (List Char) → List Char
  | [] => []
  | [t] => t
  | t :: ts => t ++ ',' :: ' ' :: joinComma ts

/-- The characters of a key's text. -/
def renderKey : MapKey → List Char
  | .int n => n.repr.toList
  | .uint n => n.repr.toList ++ ['u']
  | .bool b => (if b then "true" else "false").toList
  | .string s => Text.quoteChars s.toList

mutual

/-- The characters of a value's text. -/
def renderChars : Value → List Char
  | .int n => n.repr.toList
  | .uint n => n.repr.toList ++ ['u']
  | .double x => x.render.toList
  | .string s => Text.quoteChars s.toList
  | .bytes bs => 'b' :: '"' :: (bs.flatMap renderByte ++ ['"'])
  | .bool b => (if b then "true" else "false").toList
  | .null => "null".toList
  | .list items => '[' :: (joinComma (renderItems items) ++ [']'])
  | .map entries => '\x7b' :: (joinComma (renderEntries entries) ++ ['\x7d'])
  | .duration n => "duration(\"".toList ++ renderNanos n ++ "\")".toList
  | .type name => name.toList
  | .message _ t _ => '<' :: (t.name.toList ++ ['>'])

def renderItems : List Value → List (List Char)
  | [] => []
  | v :: vs => renderChars v :: renderItems vs

def renderEntries : Entries → List (List Char)
  | [] => []
  | (k, v) :: r => (renderKey k ++ ':' :: ' ' :: renderChars v) :: renderEntries r

end

/-- The text of a value. -/
def render (v : Value) : String :=
  String.ofList v.renderChars

end Value

end CelSuite
