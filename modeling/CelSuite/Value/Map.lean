import CelSuite.Assoc
import CelSuite.Value.Basic

/-! # Maps and equality

A map is built from entries in turn: a repeated key takes the later value and keeps its place. The keys
of a map built so are distinct.

Values of different kinds differ: an int is no uint and no double. Lists are equal item by item, maps
when they have as many entries and equal values for equal keys, whatever the order. A NaN differs from
every value, itself too. Messages are equal when they are the same instance. -/

namespace CelSuite

/-- The entries of a map. -/
abbrev Entries := List (MapKey × Value)

namespace Value

/-- Adds entries to a map in turn, up to the first key of a kind that cannot be one. -/
def addEntries (m : Entries) : List (Value × Value) → Except ValueError Entries
  | [] => .ok m
  | (k, v) :: r =>
    match k.key? with
    | some k => addEntries (Assoc.put k v m) r
    | none => .error (.unsupportedKey k.typeName)

/-- The map of some entries. -/
def ofEntries (entries : List (Value × Value)) : Except ValueError Value :=
  (addEntries [] entries).map .map

/-- The value of a key of a map; a value that cannot be a key has none. -/
def lookup (m : Entries) (k : Value) : Option Value :=
  k.key?.bind fun k => Assoc.get? k m

mutual

/-- Whether two values are equal. -/
def equal : Value → Value → Bool
  | .int a, .int b => a == b
  | .uint a, .uint b => a == b
  | .double a, .double b => a.equal b
  | .string a, .string b => a == b
  | .bytes a, .bytes b => a == b
  | .bool a, .bool b => a == b
  | .null, .null => true
  | .list as, .list bs => equalItems as bs
  | .map as, .map bs => as.length == bs.length && equalEntries as bs
  | .duration a, .duration b => a == b
  | .type a, .type b => a == b
  | .message a _ _, .message b _ _ => a == b
  | _, _ => false

/-- Whether two lists have equal items at every place. -/
def equalItems : List Value → List Value → Bool
  | [], [] => true
  | a :: as, b :: bs => equal a b && equalItems as bs
  | _, _ => false

/-- Whether every entry of the first map has an equal value in the second. -/
def equalEntries : Entries → Entries → Bool
  | [], _ => true
  | (k, a) :: as, bs =>
    (match Assoc.get? k bs with
      | some b => equal a b
      | none => false) && equalEntries as bs

end

end Value

/-! ### Slots

The same map as a table that finds a key by a text of its own. -/

/-- The text of the slot that a key takes. -/
def MapKey.slot : MapKey → String
  | .int n => "int:" ++ n.repr
  | .uint n => "uint:" ++ n.repr
  | .bool b => "bool:" ++ if b then "true" else "false"
  | .string s => "string:" ++ s

/-- A table of entries, each in the slot of its key. -/
abbrev Slots := List (String × MapKey × Value)

namespace Slots

/-- Gives a key a value. A slot keeps the key that took it first. -/
def put (k : MapKey) (v : Value) (t : Slots) : Slots :=
  Assoc.put k.slot (((Assoc.get? k.slot t).map (·.1)).getD k, v) t

/-- Adds entries to a table in turn, up to the first key of a kind that cannot be one. -/
def add (t : Slots) : List (Value × Value) → Except ValueError Slots
  | [] => .ok t
  | (k, v) :: r =>
    match k.key? with
    | some k => add (put k v t) r
    | none => .error (.unsupportedKey k.typeName)

/-- The value in the slot of a key; a value that cannot be a key has none. -/
def lookup (t : Slots) (k : Value) : Option Value :=
  k.key?.bind fun k => (Assoc.get? k.slot t).map (·.2)

/-- The entries of a table. -/
def entries (t : Slots) : Entries := t.map (·.2)

/-- The table of some entries. -/
def ofEntries (m : Entries) : Slots := m.map fun e => (e.1.slot, e)

end Slots

end CelSuite
