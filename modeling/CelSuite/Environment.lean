import CelSuite.Assoc
import CelSuite.Value.Basic

/-! # The type environment

What the names of an expression are declared as: a type identifier, or a message type that is handed in
ready. A fixture declares a name by a binding of a kind; the identifiers of a binding have to fit its
kind. Of several declarations of a name the last one holds, at the place of the first. -/

namespace CelSuite

/-- What a name is declared as. -/
inductive Declaration where
  | ident (type : String)
  | message (type : MessageType)
  deriving DecidableEq

/-- The text of a declaration, for logs. -/
def Declaration.describe : Declaration → String
  | .ident type => type
  | .message type => "<opaque " ++ type.name ++ ">"

/-- Declarations by name, in order of first appearance. -/
abbrev Declarations := List (String × Declaration)

/-- The kind of a type binding. -/
inductive TypeKind where
  | primitive
  | messageType
  | mapType
  | other (name : String)
  deriving DecidableEq

/-- The name of a kind in documents. -/
def TypeKind.name : TypeKind → String
  | .primitive => "primitive"
  | .messageType => "message_type"
  | .mapType => "map_type"
  | .other name => name

/-- The kinds a fixture may name. -/
def TypeKind.known : List TypeKind := [.primitive, .messageType, .mapType]

/-- The known kind of a name. -/
def TypeKind.ofName? (name : String) : Option TypeKind :=
  known.find? (·.name == name)

/-- The identifiers of a type binding: one, or a list. -/
inductive TypeIdent where
  | single (name : String)
  | several (names : List String)
  deriving DecidableEq

/-- A declared variable or type. -/
structure TypeBinding where
  name : String
  kind : TypeKind
  ident : TypeIdent
  deriving DecidableEq

/-- An entry of a type environment: a binding, or a message type under a name. -/
inductive EnvEntry where
  | type (b : TypeBinding)
  | message (name : String) (type : MessageType)
  deriving DecidableEq

/-- A type binding whose identifiers do not fit its kind. -/
structure TypeBindingError where
  name : String
  kind : TypeKind
  deriving DecidableEq

/-- The text of a type binding error. -/
def TypeBindingError.message (e : TypeBindingError) : String :=
  "invalid type binding \"" ++ e.name ++ "\": " ++
    match e.kind with
    | .mapType => "map_type needs exactly two identifiers [key, value]"
    | kind => kind.name ++ " needs a single identifier"

/-- What a binding declares: a map type has two identifiers, every other kind has one. -/
def TypeBinding.declaration (b : TypeBinding) : Except TypeBindingError Declaration :=
  match b.kind, b.ident with
  | .mapType, .several [k, v] => .ok (.ident ("Map[" ++ k ++ ", " ++ v ++ "]"))
  | .mapType, _ => .error ⟨b.name, b.kind⟩
  | _, .single name => .ok (.ident name)
  | _, .several _ => .error ⟨b.name, b.kind⟩

/-- The name that an entry declares. -/
def EnvEntry.name : EnvEntry → String
  | .type b => b.name
  | .message name _ => name

/-- What an entry declares under its name. -/
def EnvEntry.declaration : EnvEntry → Except TypeBindingError Declaration
  | .type b => b.declaration
  | .message _ t => .ok (.message t)

/-- Adds the declarations of entries in turn, up to the first binding that does not fit. -/
def Declarations.add (ds : Declarations) : List EnvEntry → Except TypeBindingError Declarations
  | [] => .ok ds
  | e :: es =>
    match e.declaration with
    | .ok d => Declarations.add (Assoc.put e.name d ds) es
    | .error err => .error err

/-- The declarations of a type environment. -/
def Declarations.ofEntries (es : List EnvEntry) : Except TypeBindingError Declarations :=
  Declarations.add [] es

end CelSuite
