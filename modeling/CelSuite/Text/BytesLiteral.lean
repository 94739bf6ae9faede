import CelSuite.Text.Characters
import CelSuite.Text.Utf8

/-! # Bytes literals

The body of a bytes literal. A character stands for its UTF-8 bytes; a backslash begins an escape for
one byte: a letter, quote or backslash, one to three octal digits, or `x` and one or two hexadecimal
digits. As many digits as are there belong to the escape. -/

namespace CelSuite.Text

/-- What is wrong with a bytes literal. -/
inductive BytesDefect where
  | trailingBackslash
  | octalTooLarge (digits : String)
  | noHexDigits
  | unknownEscape (c : Char)
  deriving DecidableEq

/-- The first unit of a character as text; a half of a pair shows as the replacement character. -/
def firstUnitText (c : Char) : String :=
  if c.toNat < 0x10000 then String.singleton c else "\uFFFD"

/-- The text of a defect. -/
def BytesDefect.message : BytesDefect → String
  | .trailingBackslash => "trailing backslash"
  | .octalTooLarge digits => "octal escape \\" ++ digits ++ " exceeds 0377"
  | .noHexDigits => "\\x escape without hex digits"
  | .unknownEscape c => "unknown escape \\" ++ firstUnitText c

/-- The byte of a one-character escape. -/
def simpleEscape? : Char → Option UInt8
  | 'a' => some 0x07
  | 'b' => some 0x08
  | 'f' => some 0x0C
  | 'n' => some 0x0A
  | 'r' => some 0x0D
  | 't' => some 0x09
  | 'v' => some 0x0B
  | '\\' => some 0x5C
  | '\x27' => some 0x27
  | '"' => some 0x22
  | '?' => some 0x3F
  | _ => none

/-- The longest run of at most `n` characters that satisfy `p`. -/
def takeUpTo (p : Char → Bool) : Nat → List Char → List Char
  | 0, _ => []
  | _, [] => []
  | n + 1, c :: cs => if p c then c :: takeUpTo p n cs else []

/-- The number that octal digits write. -/
def ofOctalDigits (cs : List Char) : Nat :=
  cs.foldl (fun n c => 8 * n + digitValue c) 0

/-- The escape after a backslash: its byte and how many characters it takes. -/
def byteEscape : List Char → Except BytesDefect (UInt8 × Nat)
  | [] => .error .trailingBackslash
  | c :: cs =>
    match simpleEscape? c with
    | some b => .ok (b, 1)
    | none =>
      let octal := takeUpTo (fun c => (octalValue? c).isSome) 3 (c :: cs)
      if octal ≠ [] then
        if 0xFF < ofOctalDigits octal then .error (.octalTooLarge (String.ofList octal))
        else .ok ((ofOctalDigits octal).toUInt8, octal.length)
      else if c = 'x' ∨ c = 'X' then
        let hex := takeUpTo (fun c => (hexValue? c).isSome) 2 cs
        if hex = [] then .error .noHexDigits
        else .ok ((ofHexDigits hex).toUInt8, 1 + hex.length)
      else .error (.unknownEscape c)

/-- The bytes of a bytes literal's body. -/
def decodeBytes (cs : List Char) : Except BytesDefect (List UInt8) :=
  match cs with
  | [] => .ok []
  | '\\' :: rest =>
    match byteEscape rest with
    | .error e => .error e
    | .ok (b, n) => (decodeBytes (rest.drop n)).map (b :: ·)
  | c :: rest => (decodeBytes rest).map (utf8OfChar c ++ ·)
termination_by cs.length
decreasing_by
  · simp only [List.length_drop, List.length_cons]; omega
  · simp

end CelSuite.Text
