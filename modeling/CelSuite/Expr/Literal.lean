import CelSuite.Decimal.Number
import CelSuite.Expr.Basic
import CelSuite.Expr.Token
import CelSuite.Text.BytesLiteral

/-! # Literals

What the literal tokens of an expression denote. In a string a backslash begins an escape: one
character, or two, four or eight hexadecimal digits for a code point. An escape may write half a pair;
two that write both halves make one character. -/

namespace CelSuite.Literal

/-- The code point of a one-character escape. -/
def simpleEscape? : Char → Option Nat
  | 'a' => some 0x07
  | 'b' => some 0x08
  | 'f' => some 0x0C
  | 'n' => some 0x0A
  | 'r' => some 0x0D
  | 't' => some 0x09
  | 'v' => some 0x0B
  | '\\' => some 0x5C
  | '\x27' => some 0x27
  | '"' => some 0x22
  | '?' => some 0x3F
  | '\x60' => some 0x60
  | _ => none

/-- How many hexadecimal digits an escape takes. -/
def escapeWidth? (c : Char) : Option Nat :=
  if c = 'x' ∨ c = 'X' then some 2 else if c = 'u' then some 4 else if c = 'U' then some 8 else none

/-- The escape after a backslash: its code point and how many characters it takes. -/
def stringEscape : List Char → Except SyntaxError (Nat × Nat)
  | [] => .error (.invalidEscape none)
  | c :: cs =>
    match simpleEscape? c with
    | some n => .ok (n, 1)
    | none =>
      match escapeWidth? c with
      | none => .error (.invalidEscape (some c))
      | some w =>
        let digits := cs.take w
        if digits.length = w ∧ digits.all (fun d => (Text.hexValue? d).isSome) then
          if 0x10FFFF < Text.ofHexDigits digits then .error (.invalidCodePoint (Text.ofHexDigits digits))
          else .ok (Text.ofHexDigits digits, 1 + w)
        else .error (.invalidEscape (some c))

/-- The code points of a string literal's body; halves of pairs are still apart. -/
def codePoints (cs : List Char) : Except SyntaxError (List Nat) :=
  match cs with
  | [] => .ok []
  | '\\' :: rest =>
    match stringEscape rest with
    | .error e => .error e
    | .ok (n, k) => (codePoints (rest.drop k)).map (n :: ·)
  | c :: rest => (codePoints rest).map (c.toNat :: ·)
termination_by cs.length
decreasing_by
  · simp only [List.length_drop, List.length_cons]; omega
  · simp

/-- The units of a string literal's body. -/
def string (body : String) : Except SyntaxError (List Nat) :=
  (codePoints body.toList).map fun ns => ns.flatMap Text.unitsOfCodePoint

/-- The value of a bytes literal's body. -/
def bytes (body : String) : Except SyntaxError Value :=
  match Text.decodeBytes body.toList with
  | .ok bs => .ok (.bytes bs)
  | .error e => .error (.invalidBytes e)

/-- The text of a number with a minus before it if asked. -/
def signed (negate : Bool) (text : String) : String :=
  if negate then "-" ++ text else text

/-- The value of a number token, negated if asked. An integer has to be in its range. -/
def number (t : Token) (negate : Bool) : Except SyntaxError Value :=
  match t.kind with
  | .double => .ok (.double (Decimal.number (signed negate t.text)))
  | kind => do
    let n ← (Integer.ofText (signed negate t.text)).mapError .exception
    let value := if kind = .uint then Value.ofUint n else Value.ofInt n
    Exception.catching .rangeError (.outOfRange t.pos) .exception (value.mapError .value)

end CelSuite.Literal
