import CelSuite.Decimal.Number
import CelSuite.Text.BytesLiteral
import CelSuite.Text.Quotes
import CelSuite.Value.Basic

/-! # Payloads

The raw payload of a fixture scalar, and how it is read as a kind. A reader takes the forms that carry
its kind without loss and refuses every other: a number is an integer only up to 2^53 - 1, larger ones
have to be written as text. -/

namespace CelSuite

/-- What a scalar holds as written. -/
inductive Payload where
  | null
  | bool (b : Bool)
  | number (x : Double)
  | integer (n : Int)
  | string (s : String)
  | bytes (bs : List UInt8)
  deriving DecidableEq

/-- A payload as messages show it. -/
def Payload.describe : Payload → String
  | .null => "null"
  | .bool b => if b then "boolean true" else "boolean false"
  | .number x => "number " ++ Decimal.write x
  | .integer n => s!"bigint {n}"
  | .string s => Text.quote s
  | .bytes bs => s!"{bs.length} raw bytes"

/-- What is wrong with a payload, or with the fields of an object. -/
inductive PayloadFault where
  | unsafeInteger (x : Double)
  | notInteger (p : Payload)
  | notDecimal (p : Payload)
  | notString (p : Payload)
  | notBool (p : Payload)
  | notBytes (p : Payload)
  | badLiteral (e : Text.BytesDefect)
  | outOfRange (e : ValueError)
  | fieldNames (names : List String)
  | nanosOutside (n : Int)
  | signsDiffer
  deriving DecidableEq

/-- The text of a fault. -/
def PayloadFault.message : PayloadFault → String
  | .unsafeInteger x => Decimal.write x ++ " is not a safe integer; quote large values"
  | .notInteger p => "expected an integer, got " ++ p.describe
  | .notDecimal p => "expected a decimal number, got " ++ p.describe
  | .notString p => "expected a string, got " ++ p.describe
  | .notBool p => "expected a boolean, got " ++ p.describe
  | .notBytes p => "expected a bytes literal, got " ++ p.describe
  | .badLiteral e => e.message
  | .outOfRange e => e.message
  | .fieldNames names => "expected fields [seconds, nanos], got [" ++ ", ".intercalate names ++ "]"
  | .nanosOutside n => s!"{n} is outside ±999999999"
  | .signsDiffer => "seconds and nanos must have the same sign"

/-- Why a fixture literal has no value. -/
inductive Defect where
  | unknownKind (kind : String)
  | unknownTypeName (name : String)
  | unsupportedNamespace (typeUrl : String) (registered : List String)
  | invalidPayload (kind : String) (fault : PayloadFault)
  | invalidMapKey (type : String)
  | unbuildable (e : ValueError)
  deriving DecidableEq

namespace Payload

/-- Whether a double is an integer that no other integer rounds to. -/
def isSafeInteger (x : Double) : Bool :=
  x.isInteger && x.truncate.natAbs < 2 * Double.hiddenBit

/-- A text is read as an optional sign and digits, with blanks around them. -/
def readInteger (kind : String) : Payload → Except Defect Int
  | .integer n => .ok n
  | .number x =>
    if isSafeInteger x then .ok x.truncate else .error (.invalidPayload kind (.unsafeInteger x))
  | .string s =>
    match Text.signedInteger? (Text.trimChars s.toList) with
    | some n => .ok n
    | none => .error (.invalidPayload kind (.notInteger (.string s)))
  | p => .error (.invalidPayload kind (.notInteger p))

/-- Besides decimals only `inf` and `-inf` are read. -/
def readDouble (kind : String) : Payload → Except Defect Double
  | .number x => .ok x
  | .string s =>
    if s = "inf" then .ok (Double.infinity false)
    else if s = "-inf" then .ok (Double.infinity true)
    else
      match Decimal.signedDecimal? (Text.trimChars s.toList) with
      | some x => .ok x
      | none => .error (.invalidPayload kind (.notDecimal (.string s)))
  | p => .error (.invalidPayload kind (.notDecimal p))

/-- Only a text is a string. -/
def readString (kind : String) : Payload → Except Defect String
  | .string s => .ok s
  | p => .error (.invalidPayload kind (.notString p))

/-- Besides booleans the texts `true` and `false` are read. -/
def readBool (kind : String) : Payload → Except Defect Bool
  | .bool b => .ok b
  | .string s =>
    if s = "true" then .ok true
    else if s = "false" then .ok false
    else .error (.invalidPayload kind (.notBool (.string s)))
  | p => .error (.invalidPayload kind (.notBool p))

/-- The bytes of a literal's body. -/
def decodeLiteral (s : String) : Except Defect (List UInt8) :=
  match Text.decodeBytes s.toList with
  | .ok bs => .ok bs
  | .error e => .error (.invalidPayload "bytes_value" (.badLiteral e))

/-- A text is read as the body of a bytes literal. -/
def readBytes (kind : String) : Payload → Except Defect (List UInt8)
  | .bytes bs => .ok bs
  | .string s => decodeLiteral s
  | p => .error (.invalidPayload kind (.notBytes p))

end Payload

end CelSuite
