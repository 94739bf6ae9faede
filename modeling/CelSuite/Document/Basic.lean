import CelSuite.Assoc
import CelSuite.Decimal.Number
import CelSuite.Text.Quotes

/-! # Documents

Plain data as a fixture file or a table holds it. The fields of an object have distinct names. Names
that are array indices come first, in ascending order; the others follow in order of appearance. A field
that is not there is `undefined`, which differs from null. Binary data and dates are objects too: binary
data has a field for each byte, a date has none. -/

namespace CelSuite

/-- What an object stands for. -/
inductive Shape where
  | mapping
  | binary
  | date (text : String)
  deriving DecidableEq

/-- Plain data. An absent value is apart from null, and an object keeps the order of its fields. -/
inductive Document where
  | undefined
  | null
  | bool (b : Bool)
  | number (x : Double)
  | string (s : String)
  | array (items : List Document)
  | object (shape : Shape) (fields : List (String × Document))
  deriving Inhabited

namespace Document

/-- The index that a name spells, if it spells one without leading zeros. -/
def arrayIndex? (name : String) : Option Nat :=
  let cs := name.toList
  if cs ≠ [] ∧ cs.all Text.isDigit ∧ (cs.head? ≠ some '0' ∨ cs.length = 1) then
    let n := Text.ofDigits cs
    if n < 4294967295 then some n else none
  else none

/-- Puts the fields whose names are array indices first, in ascending order. -/
def arrange (fields : List (String × Document)) : List (String × Document) :=
  let indexed := fields.filter fun f => (arrayIndex? f.1).isSome
  let others := fields.filter fun f => (arrayIndex? f.1).isNone
  indexed.mergeSort (fun a b => (arrayIndex? a.1).getD 0 ≤ (arrayIndex? b.1).getD 0) ++ others

/-- Arranging changes the order alone. -/
theorem arrange_perm (fields : List (String × Document)) : (arrange fields).Perm fields := by
  have hothers : fields.filter (fun f => (arrayIndex? f.1).isNone) =
      fields.filter (fun f => !(arrayIndex? f.1).isSome) := by
    simp
  rw [arrange, hothers]
  exact ((List.mergeSort_perm _ _).append_right _).trans (List.filter_append_perm _ _)

/-- The object of some fields. A repeated name takes the later value. -/
def ofFields (fields : List (String × Document)) : Document :=
  .object .mapping (arrange (Assoc.putAll [] fields))

/-- Binary data. -/
def ofBytes (bs : List UInt8) : Document :=
  .object .binary (bs.zipIdx.map fun b => (b.2.repr, .number (Double.ofInt b.1.toNat)))

/-- The value of a field, `undefined` when there is none. -/
def get (name : String) : Document → Document
  | .object _ fields => (Assoc.get? name fields).getD .undefined
  | _ => .undefined

/-- What is said to have been found when something else was expected: strings with their text, all else
    by kind alone. -/
def describe : Document → String
  | .undefined => "undefined"
  | .null => "null"
  | .bool _ => "boolean"
  | .number _ => "number"
  | .string s => Text.quote s
  | .array _ => "array"
  | .object _ _ => "object"

mutual

/-- The text of a document as a plain string: lists join their items with commas, and null or missing
    items are empty. -/
def plainText : Document → String
  | .undefined => "undefined"
  | .null => "null"
  | .bool b => if b then "true" else "false"
  | .number x => Decimal.write x
  | .string s => s
  | .array items => ",".intercalate (plainItems items)
  | .object .mapping _ => "[object Object]"
  | .object .binary fields => ",".intercalate (plainFields fields)
  | .object (.date text) _ => text

/-- The text of each item; null and absent ones have none. -/
def plainItems : List Document → List String
  | [] => []
  | .null :: r => "" :: plainItems r
  | .undefined :: r => "" :: plainItems r
  | d :: r => plainText d :: plainItems r

/-- The text of each field's value. -/
def plainFields : List (String × Document) → List String
  | [] => []
  | (_, d) :: r => plainText d :: plainFields r

end

/-- A field is smaller than the fields it is found in. -/
theorem sizeOf_get?_lt {name : String} {d : Document} {fields : List (String × Document)}
    (h : Assoc.get? name fields = some d) : sizeOf d < sizeOf fields := by
  induction fields with
  | nil => simp [Assoc.get?] at h
  | cons f r ih =>
    obtain ⟨k, a⟩ := f
    simp only [Assoc.get?] at h
    split at h
    · simp only [Option.some.injEq] at h
      subst h
      simp only [List.cons.sizeOf_spec, Prod.mk.sizeOf_spec]
      omega
    · have := ih h
      simp only [List.cons.sizeOf_spec]
      omega

end Document

end CelSuite
