import CelSuite.Document.Error
import CelSuite.Environment
import CelSuite.Fixture.Node

/-! # Fixture documents

How plain data is read as fixture literals, variable bindings, type bindings and expectations. A literal
is an object with exactly one key, its kind; `list_value`, `map_value` and `object_value` hold further
literals, every other kind holds a scalar payload. -/

namespace CelSuite

namespace Document

/-- The payload of a scalar kind. -/
def toPayload (kind : String) : Document → Except DocumentError Payload
  | .null => .ok .null
  | .bool b => .ok (.bool b)
  | .number x => .ok (.number x)
  | .string s => .ok (.string s)
  | d => .error (.notScalar kind d)

/-- Whether an element of a map literal is a group of entries. Binary data answers to the name too,
    though not with an array. -/
def isGroup : Document → Bool
  | .object .binary _ => true
  | .object _ fields => Assoc.contains "entries" fields
  | _ => false

mutual

/-- A fixture literal. -/
def toNode (d : Document) : Except DocumentError Node :=
  match d with
  | .object _ [(kind, body)] =>
    if kind = "list_value" then
      match body with
      | .array items => (toNodes items).map .list
      | body => .error (.notArray "list_value" body)
    else if kind = "map_value" then
      match body with
      | .array items =>
        if items.any isGroup then (toGroups items).map .map
        else (toEntries items).map fun es => .map [es]
      | body => .error (.notArray "map_value" body)
    else if kind = "object_value" then
      match body with
      | .object _ fields =>
        match Assoc.get? "type_url" fields with
        | some (.string typeUrl) =>
          match _h : Assoc.get? "fields" fields with
          | none | some .undefined | some .null => .ok (.object typeUrl [])
          | some (.array items) => (toFields items).map (.object typeUrl)
          | some found => .error (.notArray "object_value fields" found)
        | found => .error (.notString "object_value type_url" (found.getD .undefined))
      | body => .error (.notObject "object_value" body)
    else (body.toPayload kind).map (.scalar kind)
  | .object _ fields => .error (.kindKeys (fields.map (·.1)))
  | d => .error (.notObject "value" d)
termination_by sizeOf d
decreasing_by
  all_goals (try have := sizeOf_get?_lt _h); simp_all; try omega

def toNodes (ds : List Document) : Except DocumentError (List Node) :=
  match ds with
  | [] => .ok []
  | d :: ds => do
    let n ← toNode d
    let ns ← toNodes ds
    return n :: ns
termination_by sizeOf ds

/-- An entry of a map literal. -/
def toEntry (d : Document) : Except DocumentError (Node × Node) :=
  match d with
  | .object _ fields =>
    match _hk : Assoc.get? "key" fields with
    | none => .error (.missingField "map entry" "key")
    | some k =>
      match _hv : Assoc.get? "value" fields with
      | none => .error (.missingField "map entry" "value")
      | some v => do
        let k ← toNode k
        let v ← toNode v
        return (k, v)
  | d => .error (.notObject "map entry" d)
termination_by sizeOf d
decreasing_by
  · have := sizeOf_get?_lt _hk; simp_all; omega
  · have := sizeOf_get?_lt _hv; simp_all; omega

def toEntries (ds : List Document) : Except DocumentError (List (Node × Node)) :=
  match ds with
  | [] => .ok []
  | d :: ds => do
    let e ← toEntry d
    let es ← toEntries ds
    return e :: es
termination_by sizeOf ds

/-- A group of entries of a map literal. -/
def toGroup (d : Document) : Except DocumentError (List (Node × Node)) :=
  match d with
  | .object shape fields =>
    match _h : Assoc.get? "entries" fields with
    | some (.array items) => toEntries items
    | some found => .error (.entriesNotArray (some found))
    | none => .error (.entriesNotArray (if shape = .binary then none else some .undefined))
  | d => .error (.notObject "map_value group" d)
termination_by sizeOf d
decreasing_by
  have := sizeOf_get?_lt _h; simp_all; omega

def toGroups (ds : List Document) : Except DocumentError (List (List (Node × Node))) :=
  match ds with
  | [] => .ok []
  | d :: ds => do
    let g ← toGroup d
    let gs ← toGroups ds
    return g :: gs
termination_by sizeOf ds

/-- A field of an object literal. -/
def toField (d : Document) : Except DocumentError ObjectField :=
  match d with
  | .object _ fields =>
    match Assoc.get? "name" fields with
    | some (.string name) =>
      match _h : Assoc.get? "value" fields with
      | none => .error (.notObject "value" .undefined)
      | some v => do
        match ← toNode v with
        | .scalar kind p => return ⟨name, kind, p⟩
        | _ => .error (.wrapsNoScalar name)
    | found => .error (.notString "object field name" (found.getD .undefined))
  | d => .error (.notObject "object field" d)
termination_by sizeOf d
decreasing_by
  have := sizeOf_get?_lt _h; simp_all; omega

def toFields (ds : List Document) : Except DocumentError (List ObjectField) :=
  match ds with
  | [] => .ok []
  | d :: ds => do
    let f ← toField d
    let fs ← toFields ds
    return f :: fs
termination_by sizeOf ds

end

end Document

/-- A variable and its literal. -/
structure Binding where
  key : String
  value : Node

/-- What a case expects. -/
inductive Expectation where
  | value (node : Node)
  | null
  | error (text : String)
  | noError

namespace Document

/-- Applies a reader to each item, in order. -/
def readAll {α : Type} (read : Document → Except DocumentError α) :
    List Document → Except DocumentError (List α)
  | [] => .ok []
  | d :: ds => do
    let a ← read d
    let as ← readAll read ds
    return a :: as

/-- A variable binding. -/
def toBinding : Document → Except DocumentError Binding
  | .object _ fields =>
    match Assoc.get? "key" fields with
    | some (.string key) =>
      match Assoc.get? "value" fields with
      | some v => (toNode v).map (⟨key, ·⟩)
      | none => .error (.missingField ("binding '" ++ key ++ "'") "value")
    | found => .error (.notString "binding key" (found.getD .undefined))
  | d => .error (.notObject "binding" d)

/-- A list of variable bindings. -/
def toBindings : Document → Except DocumentError (List Binding)
  | .array items => readAll toBinding items
  | d => .error (.notArray "bindings" d)

/-- The texts of a list of strings. -/
def strings? : List Document → Option (List String)
  | [] => some []
  | .string s :: ds => (strings? ds).map (s :: ·)
  | _ => none

/-- The identifiers of a type binding. -/
def typeIdent? : Document → Option TypeIdent
  | .string s => some (.single s)
  | .array items => (strings? items).map .several
  | _ => none

/-- The kind of a type binding, primitive when none is given. -/
def typeKind? : Document → Option TypeKind
  | .undefined | .null => some .primitive
  | .string s => TypeKind.ofName? s
  | _ => none

/-- A type binding. -/
def toTypeBinding : Document → Except DocumentError TypeBinding
  | .object shape fields =>
    let d : Document := .object shape fields
    match d.get "name" with
    | .string name =>
      match typeKind? (d.get "kind") with
      | none => .error (.unknownTypeKind (TypeKind.known.map (·.name)) (d.get "kind"))
      | some kind =>
        match typeIdent? (d.get "type") with
        | none => .error (.badTypeIdent name (d.get "type"))
        | some ident => .ok ⟨name, kind, ident⟩
    | found => .error (.notString "type binding name" found)
  | d => .error (.notObject "type binding" d)

/-- The expectation of a case: a value or an error. A null value expects null, a null error expects that
    there is none. -/
def toExpectation : Document → Except DocumentError Expectation
  | .object _ fields =>
    match Assoc.get? "value" fields, Assoc.get? "eval_error" fields with
    | some _, some _ => .error .bothExpectations
    | some .null, none => .ok .null
    | some v, none => (toNode v).map .value
    | none, some .null => .ok .noError
    | none, some (.string text) => .ok (.error text)
    | none, some found => .error (.badErrorText found)
    | none, none => .error .noExpectation
  | d => .error (.notObject "case" d)

end Document

end CelSuite
