import CelSuite.Fixture.Registry
import CelSuite.Value.Map

/-! # The values of fixture literals

A literal is turned into a value depth first and from left to right; the first defect is the answer. The
key of a map entry comes before its value, and a key of the wrong type is a defect of its own between the
two. -/

namespace CelSuite

/-- The types that fixtures name, by name. -/
def fixtureTypes : List (String × String) :=
  [("bool", "bool"), ("bytes", "bytes"), ("double", "double"),
    ("duration", "google.protobuf.Duration"), ("int", "int"), ("list", "list"), ("map", "map"),
    ("null_type", "null_type"), ("string", "string"), ("timestamp", "google.protobuf.Timestamp"),
    ("uint", "uint"), ("type", "type"), ("google.protobuf.Duration", "google.protobuf.Duration"),
    ("google.protobuf.Timestamp", "google.protobuf.Timestamp")]

/-- The type of a type name. -/
def resolveTypeName (name : String) : Except Defect String :=
  match Assoc.get? name fixtureTypes with
  | some t => .ok t
  | none => .error (.unknownTypeName name)

/-- The names that `resolveTypeName` accepts, in order. -/
def knownTypeNames : List String :=
  Text.sorted (fixtureTypes.map (·.1))

/-- The text of a defect. -/
def Defect.message : Defect → String
  | .unknownKind kind =>
    "unknown value kind: \"" ++ kind ++ "\" (known: " ++
      ", ".intercalate (Text.sorted (ScalarKind.all.map (·.name))) ++ ")"
  | .unknownTypeName name => "unknown type name: \"" ++ name ++ "\""
  | .unsupportedNamespace typeUrl registered =>
    "unsupported object namespace: \"" ++ typeUrl ++
      if registered.isEmpty then "\" (no object namespaces are registered)"
      else "\" (registered: " ++ ", ".intercalate registered ++ ")"
  | .invalidPayload kind fault => "invalid " ++ kind ++ " payload: " ++ fault.message
  | .invalidMapKey type => (ValueError.unsupportedKey type).message
  | .unbuildable e => e.message

namespace Node

/-- An integer of a kind, which has to be in range. -/
def inRange (kind : String) : Except ValueError Value → Except Defect Value
  | .ok v => .ok v
  | .error e => .error (.invalidPayload kind (.outOfRange e))

/-- The value of a scalar of a known kind. -/
def scalarValue (kind : ScalarKind) (p : Payload) : Except Defect Value :=
  match kind with
  | .int64 | .enum => do inRange kind.name (Value.ofInt (← p.readInteger kind.name))
  | .uint64 => do inRange kind.name (Value.ofUint (← p.readInteger kind.name))
  | .double => (p.readDouble kind.name).map .double
  | .string => (p.readString kind.name).map .string
  | .bytes => (p.readBytes kind.name).map .bytes
  | .bool => (p.readBool kind.name).map .bool
  | .null => .ok .null
  | .type => do return .type (← resolveTypeName (← p.readString kind.name))

/-- The value of a scalar. -/
def scalarToValue (kind : String) (p : Payload) : Except Defect Value :=
  match ScalarKind.ofName? kind with
  | some k => scalarValue k p
  | none => .error (.unknownKind kind)

/-- A value as a map key. -/
def asKey (v : Value) : Except Defect MapKey :=
  match v.key? with
  | some k => .ok k
  | none => .error (.invalidMapKey v.typeName)

mutual

/-- The value of a literal. -/
def toValue (r : Registry) : Node → Except Defect Value
  | .scalar kind p => scalarToValue kind p
  | .list items => (toValues r items).map .list
  | .map groups => (groupsToEntries r groups).map fun es => .map (Assoc.putAll [] es)
  | .object typeUrl fields => r.create typeUrl fields

/-- The values of literals in turn, up to the first defect. -/
def toValues (r : Registry) : List Node → Except Defect (List Value)
  | [] => .ok []
  | n :: ns => do
    let v ← toValue r n
    let vs ← toValues r ns
    return v :: vs

/-- The entries of all groups, one group after the other. -/
def groupsToEntries (r : Registry) : List (List (Node × Node)) → Except Defect Entries
  | [] => .ok []
  | g :: gs => do
    let es ← toEntries r g
    let rest ← groupsToEntries r gs
    return es ++ rest

/-- The entries of one group; a key is read before its value. -/
def toEntries (r : Registry) : List (Node × Node) → Except Defect Entries
  | [] => .ok []
  | (k, n) :: es => do
    let k ← asKey (← toValue r k)
    let v ← toValue r n
    let rest ← toEntries r es
    return (k, v) :: rest

end

end Node

end CelSuite
