import CelSuite.Decimal.Double

/-! # Runtime values

What expressions evaluate to. Integers are unbounded numbers here and the constructors of the library
(`Value.ofInt`, `Value.ofUint`) check the sixty-four-bit ranges. A map is a list of entries in the order
of first insertion. A message is an instance of a message type: a name, the fields it was made with, and
its origin, which tells it apart from every other instance. -/

namespace CelSuite

/-- A key of a map. -/
inductive MapKey where
  | int (n : Int)
  | uint (n : Nat)
  | bool (b : Bool)
  | string (s : String)
  deriving DecidableEq

/-- Where a message instance comes from: it was handed in, with a number of its own, or the expression
    under evaluation made it, at the node on this path. An evaluation makes at most one instance at a
    node, so two instances with one origin are the same instance. -/
inductive Origin where
  | given (n : Nat)
  | made (path : List Nat)
  deriving DecidableEq

/-- What a field answers when the instance was made without it: a scalar, or a new instance of a message
    type of the same schema. -/
inductive FieldDefault where
  | int (n : Int)
  | string (s : String)
  | bool (b : Bool)
  | message (type : String)
  deriving DecidableEq

/-- Message types by name, each with the defaults of its fields. -/
abbrev Schema := List (String × List (String × FieldDefault))

/-- A message type of a schema. -/
structure MessageType where
  name : String
  schema : Schema
  deriving DecidableEq

/-- A runtime value. -/
inductive Value where
  | int (n : Int)
  | uint (n : Nat)
  | double (x : Double)
  | string (s : String)
  | bytes (bs : List UInt8)
  | bool (b : Bool)
  | null
  | list (items : List Value)
  | map (entries : List (MapKey × Value))
  | duration (nanos : Int)
  | type (name : String)
  | message (origin : Origin) (type : MessageType) (fields : List (String × Value))
  deriving Inhabited

/-- Why a value cannot be built. -/
inductive ValueError where
  | intOutOfRange (n : Int)
  | uintOutOfRange (n : Int)
  | unsupportedKey (type : String)
  deriving DecidableEq

/-- The text of a value error. -/
def ValueError.message : ValueError → String
  | .intOutOfRange n => s!"int value {n} is outside the signed 64-bit range"
  | .uintOutOfRange n => s!"uint value {n} is outside the unsigned 64-bit range"
  | .unsupportedKey t => s!"unsupported map key type: {t}"

/-- A key as a value. -/
def MapKey.toValue : MapKey → Value
  | .int n => .int n
  | .uint n => .uint n
  | .bool b => .bool b
  | .string s => .string s

namespace Value

/-- The value as a map key, if it is of a kind that can be one. -/
def key? : Value → Option MapKey
  | .int n => some (.int n)
  | .uint n => some (.uint n)
  | .bool b => some (.bool b)
  | .string s => some (.string s)
  | _ => none

/-- The signed sixty-four-bit range. -/
def InIntRange (n : Int) : Prop := -0x8000000000000000 ≤ n ∧ n < 0x8000000000000000

instance (n : Int) : Decidable (InIntRange n) := inferInstanceAs (Decidable (_ ∧ _))

/-- The unsigned sixty-four-bit range. -/
def InUintRange (n : Int) : Prop := 0 ≤ n ∧ n < 0x10000000000000000

instance (n : Int) : Decidable (InUintRange n) := inferInstanceAs (Decidable (_ ∧ _))

/-- An int, if it is in range. -/
def ofInt (n : Int) : Except ValueError Value :=
  if InIntRange n then .ok (.int n) else .error (.intOutOfRange n)

/-- A uint, if it is in range. -/
def ofUint (n : Int) : Except ValueError Value :=
  if InUintRange n then .ok (.uint n.toNat) else .error (.uintOutOfRange n)

/-- The name of the type of a value. -/
def typeName : Value → String
  | .int _ => "int"
  | .uint _ => "uint"
  | .double _ => "double"
  | .string _ => "string"
  | .bytes _ => "bytes"
  | .bool _ => "bool"
  | .null => "null_type"
  | .list _ => "list"
  | .map _ => "map"
  | .duration _ => "google.protobuf.Duration"
  | .type _ => "type"
  | .message _ t _ => t.name

end Value

end CelSuite
