import CelSuite.Environment
import CelSuite.Exception
import CelSuite.Expr.Basic
import CelSuite.Text.Quotes

/-! # Names

What the names of an expression can refer to: variables of an activation, built-in types, functions, and
message types, which are looked for in the container first and then outward. -/

namespace CelSuite

/-- Why an evaluation has no value: an evaluation error, which may pass on an exception that was caught, or an
    exception that went on. -/
inductive EvalError where
  | noSuchOverload
  | undeclared (name container : String)
  | unknownVariable
  | overflow
  | divisionByZero
  | modulusByZero
  | noSuchKey
  | noSuchKeyNamed (field : String)
  | noSuchField (field : String)
  | indexOutOfRange (i : Int)
  | invalidUtf8
  | invalidDuration (text : String)
  | caught (x : Exception)
  | exception (x : Exception)
  deriving DecidableEq

/-- The text of an evaluation error. -/
def EvalError.message : EvalError → String
  | .noSuchOverload => "no such overload"
  | .undeclared name container =>
    "undeclared reference to '" ++ name ++ "' (in container '" ++ container ++ "')"
  | .unknownVariable => "unknown variable"
  | .overflow => "return error for overflow"
  | .divisionByZero => "division by zero"
  | .modulusByZero => "modulus by zero"
  | .noSuchKey => "no such key"
  | .noSuchKeyNamed field => "no such key: " ++ field
  | .noSuchField field => "no such field: " ++ field
  | .indexOutOfRange i => s!"index out of range: {i}"
  | .invalidUtf8 => "invalid UTF-8 in bytes"
  | .invalidDuration text => "invalid duration: " ++ Text.quote text
  | .caught x | .exception x => x.message

/-- Values of variables by name. -/
abbrev Activation := List (String × Value)

/-- The built-in type names. -/
def typeNames : List String :=
  ["bool", "bytes", "double", "int", "list", "map", "null_type", "string", "type", "uint",
    "google.protobuf.Duration", "google.protobuf.Timestamp"]

/-- The value of a built-in type name. -/
def builtinType? (name : String) : Option Value :=
  if name ∈ typeNames then some (.type name) else none

/-- The functions. -/
def functionNames : List String :=
  ["size", "type", "int", "uint", "double", "string", "duration", "dyn"]

/-- The value a name stands for: a variable, or else a built-in type. -/
def Activation.resolve? (act : Activation) (name : String) : Option Value :=
  match Assoc.get? name act with
  | some v => some v
  | none => builtinType? name

/-- The declarations of an expression and the container its names are looked for in. -/
structure Scope where
  declarations : Declarations
  container : String

namespace Scope

/-- Whether a name is declared. -/
def declares (s : Scope) (name : String) : Bool :=
  Assoc.contains name s.declarations

/-- Whether a name is declared or is a built-in type. -/
def knows (s : Scope) (name : String) : Bool :=
  s.declares name || typeNames.contains name

/-- The containers around an expression, innermost first. -/
def containers (s : Scope) : List String :=
  if s.container = "" then []
  else
    let parts := s.container.splitOn "."
    (List.range parts.length).reverse.map fun n => ".".intercalate (parts.take (n + 1))

/-- The full names that a name may mean, innermost container first. -/
def candidates (s : Scope) (name : String) : List String :=
  s.containers.map (· ++ "." ++ name) ++ [name]

/-- The message type declared under a name. -/
def messageAt? (s : Scope) (name : String) : Option MessageType :=
  match Assoc.get? name s.declarations with
  | some (.message t) => some t
  | _ => none

/-- The message type that a name means. -/
def messageType? (s : Scope) (name : String) : Option MessageType :=
  (s.candidates name).findSome? s.messageAt?

end Scope

end CelSuite
