import CelSuite.Duration
import CelSuite.Expr.Operators
import CelSuite.Text.Utf8

/-! # Functions

The functions of the language: the size and the type of a value, and conversions. A conversion to an
integer truncates a double toward zero and reads decimal digits; what leaves the range overflows, and
any other text has no conversion. -/

namespace CelSuite.Functions

open Operators (checkedInt checkedUint)

def size : Value → Except EvalError Value
  | .string s => checkedInt s.length
  | .bytes bs => checkedInt bs.length
  | .list items => checkedInt items.length
  | .map entries => checkedInt entries.length
  | _ => .error .noSuchOverload

def toInt : Value → Except EvalError Value
  | .int n => .ok (.int n)
  | .uint n => checkedInt n
  | .double x =>
    if x.isFinite then do checkedInt (← (Integer.ofDouble x.trunc).mapError .exception)
    else .error .overflow
  | .string s =>
    if (Text.signedInteger? s.toList).isSome then do
      checkedInt (← (Integer.ofText s).mapError .exception)
    else .error .noSuchOverload
  | _ => .error .noSuchOverload

/-- A natural number in decimal digits, with an optional plus. -/
def natural? : List Char → Option Int
  | '-' :: _ => none
  | cs => Text.signedInteger? cs

def toUint : Value → Except EvalError Value
  | .uint n => .ok (.uint n)
  | .int n => checkedUint n
  | .double x =>
    if x.isFinite then do checkedUint (← (Integer.ofDouble x.trunc).mapError .exception)
    else .error .overflow
  | .string s =>
    if (natural? s.toList).isSome then do
      checkedUint (← (Integer.ofText s).mapError .exception)
    else .error .noSuchOverload
  | _ => .error .noSuchOverload

def toDouble : Value → Except EvalError Value
  | .double x => .ok (.double x)
  | .int n => .ok (.double (Double.ofInt n))
  | .uint n => .ok (.double (Double.ofInt n))
  | .string s =>
    match Decimal.read? s with
    | some x => .ok (.double x)
    | none => .error .noSuchOverload
  | _ => .error .noSuchOverload

/-- The text of bytes, which have to be well-formed UTF-8; a byte order mark at their start is dropped. -/
def decode (bs : List UInt8) : Except Exception String :=
  match Text.decodeUtf8 (Text.dropMark bs) with
  | some cs => .ok (String.ofList cs)
  | none => .error .malformedBytes

/-- The text of a value. -/
def toText : Value → Except EvalError Value
  | .string s => .ok (.string s)
  | .int n => .ok (.string n.repr)
  | .uint n => .ok (.string n.repr)
  | .double x => .ok (.string (Decimal.write x))
  | .bool b => .ok (.string (if b then "true" else "false"))
  | .bytes bs =>
    Exception.catching .typeError (fun _ => .invalidUtf8) .exception ((decode bs).map .string)
  | _ => .error .noSuchOverload

/-- What the decoder throws is caught. -/
theorem toText_bytes (bs : List UInt8) : toText (.bytes bs) =
    match Text.decodeUtf8 (Text.dropMark bs) with
    | some cs => .ok (.string (String.ofList cs))
    | none => .error .invalidUtf8 := by
  rw [toText, decode]
  cases Text.decodeUtf8 (Text.dropMark bs) <;> rfl

def toDuration : Value → Except EvalError Value
  | .string s =>
    match Duration.parse s.toList with
    | .ok n => .ok (.duration n)
    | .error .malformed => .error (.invalidDuration s)
    | .error (.exception x) => .error (.exception x)
  | _ => .error .noSuchOverload

/-- The value of a function of one argument. -/
def apply (function : String) (v : Value) : Except EvalError Value :=
  if function = "size" then size v
  else if function = "type" then .ok (.type v.typeName)
  else if function = "dyn" then .ok v
  else if function = "int" then toInt v
  else if function = "uint" then toUint v
  else if function = "double" then toDouble v
  else if function = "string" then toText v
  else toDuration v

/-- The value of a call. Every function takes exactly one argument. -/
def call (container function : String) (args : List Value) : Except EvalError Value :=
  if functionNames.contains function then
    match args with
    | [v] => apply function v
    | _ => .error .noSuchOverload
  else .error (.undeclared function container)

end CelSuite.Functions
