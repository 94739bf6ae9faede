import CelSuite.Environment
import CelSuite.Value.Message

/-! # Stand-in messages

Cases with a container expect two message types in it. Their instances answer six scalar fields with
zero, the empty text or false; the nested type also holds itself as `child` and the flat type as
`payload`. -/

namespace CelSuite.StandIns

/-- The scalar fields and their defaults. -/
def scalars : List (String × FieldDefault) :=
  [("single_int32", .int 0), ("single_int64", .int 0), ("single_sint32", .int 0),
    ("single_sint64", .int 0), ("single_string", .string ""), ("single_bool", .bool false)]

def flatName (container : String) : String := container ++ ".TestAllTypes"

def nestedName (container : String) : String := container ++ ".NestedTestAllTypes"

/-- Both types of a container. -/
def schema (container : String) : Schema :=
  [(flatName container, scalars),
    (nestedName container,
      ("child", .message (nestedName container)) :: ("payload", .message (flatName container)) ::
        scalars)]

def flatType (container : String) : MessageType := ⟨flatName container, schema container⟩

def nestedType (container : String) : MessageType := ⟨nestedName container, schema container⟩

/-- The entries that declare the types of a container. -/
def entries (container : String) : List EnvEntry :=
  [.message (flatName container) (flatType container),
    .message (nestedName container) (nestedType container)]

end CelSuite.StandIns
