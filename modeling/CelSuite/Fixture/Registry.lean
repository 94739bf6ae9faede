import CelSuite.Assoc
import CelSuite.Duration
import CelSuite.Fixture.Node
import CelSuite.Text.Units

/-! # Object namespaces

An object literal names a namespace; a registry has a factory for each namespace it supports, which
builds the value from the fields. A registry is what a builder holds when it is built, and a later
registration does not reach it. -/

namespace CelSuite

/-- Builds the value of an object literal from its fields. -/
abbrev Factory := List ObjectField → Except Defect Value

/-- Factories by namespace. -/
structure Registry where
  factories : List (String × Factory)

namespace Registry

/-- A registry in the making. -/
structure Builder where
  factories : List (String × Factory)

/-- Without factories. -/
def Builder.empty : Builder := ⟨[]⟩

/-- Registers a factory for a namespace, in place of an earlier one. -/
def Builder.object (b : Builder) (typeUrl : String) (factory : Factory) : Builder :=
  ⟨Assoc.put typeUrl factory b.factories⟩

/-- The registry of the factories so far. -/
def Builder.build (b : Builder) : Registry := ⟨b.factories⟩

/-- Whether a namespace has a factory. -/
def contains (r : Registry) (typeUrl : String) : Bool :=
  Assoc.contains typeUrl r.factories

/-- The supported namespaces, in order. -/
def namespaces (r : Registry) : List String :=
  Text.sorted (r.factories.map (·.1))

/-- The number of namespaces with a factory. -/
def size (r : Registry) : Nat := r.factories.length

/-- The value of an object literal. -/
def create (r : Registry) (typeUrl : String) (fields : List ObjectField) : Except Defect Value :=
  match Assoc.get? typeUrl r.factories with
  | some factory => factory fields
  | none => .error (.unsupportedNamespace typeUrl r.namespaces)

end Registry

/-- The namespace of durations. -/
def durationNamespace : String := "type.googleapis.com/google.protobuf.Duration"

/-- A duration from exactly two fields, `seconds` and `nanos` in this order. The nanoseconds are fewer
    than a second and do not have the other sign. -/
def durationOfFields : Factory
  | [s, n] =>
    if s.name = "seconds" ∧ n.name = "nanos" then do
      let seconds ← s.payload.readInteger "seconds"
      let nanos ← n.payload.readInteger "nanos"
      if 999999999 < nanos ∨ nanos < -999999999 then
        .error (.invalidPayload "nanos" (.nanosOutside nanos))
      else if (0 < seconds ∧ nanos < 0) ∨ (seconds < 0 ∧ 0 < nanos) then
        .error (.invalidPayload "nanos" .signsDiffer)
      else .ok (.duration (Duration.ofParts seconds nanos))
    else .error (.invalidPayload durationNamespace (.fieldNames [s.name, n.name]))
  | fields => .error (.invalidPayload durationNamespace (.fieldNames (fields.map (·.name))))

/-- Registers the well-known object types. -/
def Registry.Builder.wellKnown (b : Registry.Builder) : Registry.Builder :=
  b.object durationNamespace durationOfFields

/-- The registry of the well-known object types. -/
def Registry.standard : Registry :=
  Registry.Builder.empty.wellKnown.build

end CelSuite
