import CelSuite.Assoc
import CelSuite.Value.Basic

/-! # Messages

An instance of a message type answers for the fields it was made with, and for the other fields of its
type by their defaults. A default that is a message is a new instance every time it is asked for, so a
type may hold itself. -/

namespace CelSuite

/-- The defaults of a message type's fields. -/
def MessageType.defaults (t : MessageType) : List (String × FieldDefault) :=
  (Assoc.get? t.name t.schema).getD []

/-- An instance of a message type with some fields. -/
def MessageType.create (t : MessageType) (origin : Origin) (fields : List (String × Value)) : Value :=
  .message origin t fields

/-- The value of a default in a schema; `origin` is that of a new instance. -/
def FieldDefault.value (schema : Schema) (origin : Origin) : FieldDefault → Value
  | .int n => .int n
  | .string s => .string s
  | .bool b => .bool b
  | .message name => .message origin ⟨name, schema⟩ []

/-- What an instance of `t` made with `fields` answers for a field. -/
def MessageType.answer (t : MessageType) (fields : List (String × Value)) (origin : Origin)
    (name : String) : Option Value :=
  match Assoc.get? name fields with
  | some v => some v
  | none => (Assoc.get? name t.defaults).map (·.value t.schema origin)

/-- What a value answers for a field: a message by its fields and defaults, any other value nothing. -/
def Value.field? (origin : Origin) : Value → String → Option Value
  | .message _ t fields, name => t.answer fields origin name
  | _, _ => none

/-- How message types behave: what a type makes from some fields, and what an instance answers for a field.
    The origin is that of a new instance. -/
class MessageSystem where
  create : MessageType → Origin → List (String × Value) → Value
  field? : Origin → Value → String → Option Value

/-- Message types behave as their schemas say, unless it is told otherwise. -/
instance MessageSystem.ofSchemas : MessageSystem := ⟨MessageType.create, Value.field?⟩

/-- What a value answers for a path of field names, each asked of the answer before it. -/
def Value.follow? (origin : Origin) (v : Value) : List String → Option Value
  | [] => some v
  | name :: path => (v.field? origin name).bind fun w => Value.follow? origin w path

/-- An origin as the parent of the `i`-th operand sees it. -/
def Origin.under (i : Nat) : Origin → Origin
  | .given n => .given n
  | .made path => .made (i :: path)

namespace Value

mutual

/-- A value as the parent of the `i`-th operand sees it. Instances made in different operands stay
    different, and instances that were handed in stay the same. -/
def under (i : Nat) : Value → Value
  | .list items => .list (underItems i items)
  | .map entries => .map (underEntries i entries)
  | .message origin t fields => .message (origin.under i) t (underFields i fields)
  | v => v

def underItems (i : Nat) : List Value → List Value
  | [] => []
  | v :: vs => under i v :: underItems i vs

def underEntries (i : Nat) : List (MapKey × Value) → List (MapKey × Value)
  | [] => []
  | (k, v) :: r => (k, under i v) :: underEntries i r

def underFields (i : Nat) : List (String × Value) → List (String × Value)
  | [] => []
  | (k, v) :: r => (k, under i v) :: underFields i r

end

end Value

end CelSuite
