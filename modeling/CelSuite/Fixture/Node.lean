import CelSuite.Fixture.Payload

/-! # Fixture literals

A literal of a fixture is a scalar, a list, a map in groups of entries, or an object of a namespace. A
scalar keeps its kind as written; whether the kind is known shows when its value is asked for. -/

namespace CelSuite

/-- A named field of an object literal. It wraps a scalar. -/
structure ObjectField where
  name : String
  kind : String
  payload : Payload
  deriving DecidableEq

/-- A literal of a fixture. -/
inductive Node where
  | scalar (kind : String) (payload : Payload)
  | list (items : List Node)
  | map (groups : List (List (Node × Node)))
  | object (typeUrl : String) (fields : List ObjectField)
  deriving Inhabited

/-- The kinds of scalars. -/
inductive ScalarKind where
  | int64
  | uint64
  | double
  | string
  | bytes
  | bool
  | null
  | enum
  | type
  deriving DecidableEq

/-- The name of a kind in documents. -/
def ScalarKind.name : ScalarKind → String
  | .int64 => "int64_value"
  | .uint64 => "uint64_value"
  | .double => "double_value"
  | .string => "string_value"
  | .bytes => "bytes_value"
  | .bool => "bool_value"
  | .null => "null_value"
  | .enum => "enum_value"
  | .type => "type_value"

/-- Every kind of scalar. -/
def ScalarKind.all : List ScalarKind :=
  [.int64, .uint64, .double, .string, .bytes, .bool, .null, .enum, .type]

/-- The kind of a name, if there is one. -/
def ScalarKind.ofName? (name : String) : Option ScalarKind :=
  all.find? (·.name == name)

end CelSuite
