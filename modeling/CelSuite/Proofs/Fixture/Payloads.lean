import CelSuite.Fixture.Value
import CelSuite.Proofs.Assoc
import CelSuite.Proofs.Except

/-! # What payloads stand for

A payload stands for an integer, a double, a boolean or bytes in a few forms each, said here form by form. A
scalar has a value when its kind is known, its payload stands for a thing of that kind and an integer is in
the range of the kind. -/

namespace CelSuite

/-- A defect of a literal, and not a value that its constructor refuses. -/
def Defect.OfLiteral : Defect → Prop
  | .unbuildable _ => False
  | _ => True

namespace Payload

variable {p : Payload} {kind : String}

/-- The integer that a payload stands for. -/
inductive IsInteger : Payload → Int → Prop
  | integer (n : Int) : IsInteger (.integer n) n
  | number {x : Double} (h : isSafeInteger x = true) : IsInteger (.number x) x.truncate
  | text {s : String} {n : Int} (h : Text.signedInteger? (Text.trimChars s.toList) = some n) : IsInteger (.string s) n

/-- The double that a payload stands for. -/
inductive IsDouble : Payload → Double → Prop
  | number (x : Double) : IsDouble (.number x) x
  | infinity : IsDouble (.string "inf") (.infinity false)
  | negativeInfinity : IsDouble (.string "-inf") (.infinity true)
  | text {s : String} {x : Double} (h : Decimal.signedDecimal? (Text.trimChars s.toList) = some x) :
      IsDouble (.string s) x

/-- The boolean that a payload stands for. -/
inductive IsBool : Payload → Bool → Prop
  | bool (b : Bool) : IsBool (.bool b) b
  | true : IsBool (.string "true") true
  | false : IsBool (.string "false") false

/-- The bytes that a payload stands for. -/
inductive IsBytes : Payload → List UInt8 → Prop
  | bytes (bs : List UInt8) : IsBytes (.bytes bs) bs
  | text {s : String} {bs : List UInt8} (h : Text.decodeBytes s.toList = .ok bs) : IsBytes (.string s) bs

theorem readInteger_eq_ok {n : Int} : p.readInteger kind = .ok n ↔ p.IsInteger n := by
  constructor
  · intro h
    unfold readInteger at h
    split at h
    · cases h
      exact .integer _
    · split at h
      · rename_i hsafe
        cases h
        exact .number hsafe
      · cases h
    · split at h
      · rename_i hread
        cases h
        exact .text hread
      · cases h
    · cases h
  · intro h
    cases h with
    | integer => rfl
    | number h => rw [readInteger, if_pos h]
    | text h => rw [readInteger, h]

theorem readInteger_eq_error {e : Defect} (h : p.readInteger kind = .error e) :
    ∃ fault, e = .invalidPayload kind fault := by
  unfold readInteger at h
  split at h
  · cases h
  · split at h
    · cases h
    · cases h
      exact ⟨_, rfl⟩
  · split at h
    · cases h
    · cases h
      exact ⟨_, rfl⟩
  · cases h
    exact ⟨_, rfl⟩

theorem readDouble_eq_ok {x : Double} : p.readDouble kind = .ok x ↔ p.IsDouble x := by
  constructor
  · intro h
    unfold readDouble at h
    split at h
    · cases h
      exact .number _
    · split at h
      · rename_i hinf
        cases h
        exact hinf ▸ .infinity
      split at h
      · rename_i hinf
        cases h
        exact hinf ▸ .negativeInfinity
      split at h
      · rename_i hread
        cases h
        exact .text hread
      · cases h
    · cases h
  · intro h
    cases h with
    | number => rfl
    | infinity => rfl
    | negativeInfinity => rfl
    | text h =>
      have hinf : Decimal.signedDecimal? (Text.trimChars "inf".toList) = none := by decide
      have hneg : Decimal.signedDecimal? (Text.trimChars "-inf".toList) = none := by decide
      rw [readDouble, if_neg, if_neg, h]
      · rintro rfl
        rw [hneg] at h
        cases h
      · rintro rfl
        rw [hinf] at h
        cases h

theorem readString_eq_ok {s : String} : p.readString kind = .ok s ↔ p = .string s := by
  cases p <;> simp [readString]

theorem readBool_eq_ok {b : Bool} : p.readBool kind = .ok b ↔ p.IsBool b := by
  constructor
  · intro h
    unfold readBool at h
    split at h
    · cases h
      exact .bool _
    · split at h
      · rename_i htrue
        cases h
        exact htrue ▸ .true
      split at h
      · rename_i hfalse
        cases h
        exact hfalse ▸ .false
      · cases h
    · cases h
  · intro h
    cases h <;> rfl

theorem readBytes_eq_ok {bs : List UInt8} : p.readBytes kind = .ok bs ↔ p.IsBytes bs := by
  constructor
  · intro h
    unfold readBytes decodeLiteral at h
    split at h
    · cases h
      exact .bytes _
    · split at h
      · rename_i hdecode
        cases h
        exact .text hdecode
      · cases h
    · cases h
  · intro h
    cases h with
    | bytes => rfl
    | text h => rw [readBytes, decodeLiteral, h]

/-! ### Payloads that cannot be read -/

theorem readInteger_ofLiteral (kind : String) (p : Payload) : Refuses Defect.OfLiteral (p.readInteger kind) := by
  unfold readInteger
  split
  · exact refuses_ok
  · split
    · exact refuses_ok
    · exact refuses_error trivial
  · split
    · exact refuses_ok
    · exact refuses_error trivial
  · exact refuses_error trivial

theorem readDouble_ofLiteral (kind : String) (p : Payload) : Refuses Defect.OfLiteral (p.readDouble kind) := by
  unfold readDouble
  split
  · exact refuses_ok
  · split
    · exact refuses_ok
    split
    · exact refuses_ok
    split
    · exact refuses_ok
    · exact refuses_error trivial
  · exact refuses_error trivial

theorem readString_ofLiteral (kind : String) (p : Payload) : Refuses Defect.OfLiteral (p.readString kind) := by
  unfold readString
  split
  · exact refuses_ok
  · exact refuses_error trivial

theorem readBool_ofLiteral (kind : String) (p : Payload) : Refuses Defect.OfLiteral (p.readBool kind) := by
  unfold readBool
  split
  · exact refuses_ok
  · split
    · exact refuses_ok
    split
    · exact refuses_ok
    · exact refuses_error trivial
  · exact refuses_error trivial

theorem readBytes_ofLiteral (kind : String) (p : Payload) : Refuses Defect.OfLiteral (p.readBytes kind) := by
  unfold readBytes decodeLiteral
  split
  · exact refuses_ok
  · split
    · exact refuses_ok
    · exact refuses_error trivial
  · exact refuses_error trivial

end Payload

theorem ScalarKind.ofName?_eq_some {name : String} {k : ScalarKind} : ofName? name = some k ↔ name = k.name := by
  constructor
  · intro h
    have hname : (k.name == name) = true := List.find?_some (p := fun k : ScalarKind => k.name == name) h
    exact (beq_iff_eq.mp hname).symm
  · rintro rfl
    cases k <;> decide

theorem resolveTypeName_eq_ok {name t : String} : resolveTypeName name = .ok t ↔ (name, t) ∈ fixtureTypes := by
  have hdistinct : (fixtureTypes.map (·.1)).Nodup := by decide
  have hget : Assoc.get? name fixtureTypes = some t ↔ (name, t) ∈ fixtureTypes :=
    ⟨Assoc.mem_of_get?, Assoc.get?_of_mem hdistinct⟩
  rw [← hget, resolveTypeName]
  cases Assoc.get? name fixtureTypes <;> simp

/-- The value of a payload of a kind. Null takes any payload. -/
inductive Reads : ScalarKind → Payload → Value → Prop
  | int64 {p : Payload} {n : Int} (h : p.IsInteger n) (range : Value.InIntRange n) : Reads .int64 p (.int n)
  | enum {p : Payload} {n : Int} (h : p.IsInteger n) (range : Value.InIntRange n) : Reads .enum p (.int n)
  | uint64 {p : Payload} {n : Nat} (h : p.IsInteger n) (range : Value.InUintRange n) : Reads .uint64 p (.uint n)
  | double {p : Payload} {x : Double} (h : p.IsDouble x) : Reads .double p (.double x)
  | string (s : String) : Reads .string (.string s) (.string s)
  | bytes {p : Payload} {bs : List UInt8} (h : p.IsBytes bs) : Reads .bytes p (.bytes bs)
  | bool {p : Payload} {b : Bool} (h : p.IsBool b) : Reads .bool p (.bool b)
  | null (p : Payload) : Reads .null p .null
  | type {name t : String} (h : (name, t) ∈ fixtureTypes) : Reads .type (.string name) (.type t)

namespace Node

variable {k : ScalarKind} {kind : String} {p : Payload} {v : Value}

theorem inRange_ofInt {n : Int} : inRange kind (Value.ofInt n) = .ok v ↔ Value.InIntRange n ∧ v = .int n := by
  unfold Value.ofInt
  split
  · rename_i h
    simp [inRange, h, eq_comm]
  · rename_i h
    simp [inRange, h]

theorem inRange_ofUint {n : Int} :
    inRange kind (Value.ofUint n) = .ok v ↔ Value.InUintRange n ∧ v = .uint n.toNat := by
  unfold Value.ofUint
  split
  · rename_i h
    simp [inRange, h, eq_comm]
  · rename_i h
    simp [inRange, h]

theorem scalarValue_eq_ok : scalarValue k p = .ok v ↔ Reads k p v := by
  constructor
  · intro h
    cases k with
    | int64 =>
      obtain ⟨n, hn, hv⟩ := bind_eq_ok.mp h
      obtain ⟨range, rfl⟩ := inRange_ofInt.mp hv
      exact .int64 (Payload.readInteger_eq_ok.mp hn) range
    | enum =>
      obtain ⟨n, hn, hv⟩ := bind_eq_ok.mp h
      obtain ⟨range, rfl⟩ := inRange_ofInt.mp hv
      exact .enum (Payload.readInteger_eq_ok.mp hn) range
    | uint64 =>
      obtain ⟨n, hn, hv⟩ := bind_eq_ok.mp h
      obtain ⟨range, rfl⟩ := inRange_ofUint.mp hv
      have hnat : (n.toNat : Int) = n := Int.toNat_of_nonneg range.1
      exact .uint64 (hnat.symm ▸ Payload.readInteger_eq_ok.mp hn) (hnat.symm ▸ range)
    | double =>
      obtain ⟨x, hx, rfl⟩ := map_eq_ok.mp h
      exact .double (Payload.readDouble_eq_ok.mp hx)
    | string =>
      obtain ⟨s, hs, rfl⟩ := map_eq_ok.mp h
      cases Payload.readString_eq_ok.mp hs
      exact .string s
    | bytes =>
      obtain ⟨bs, hbs, rfl⟩ := map_eq_ok.mp h
      exact .bytes (Payload.readBytes_eq_ok.mp hbs)
    | bool =>
      obtain ⟨b, hb, rfl⟩ := map_eq_ok.mp h
      exact .bool (Payload.readBool_eq_ok.mp hb)
    | null =>
      cases h
      exact .null p
    | type =>
      obtain ⟨s, hs, h⟩ := bind_eq_ok.mp h
      obtain ⟨t, ht, hv⟩ := bind_eq_ok.mp h
      cases Payload.readString_eq_ok.mp hs
      cases hv
      exact .type (resolveTypeName_eq_ok.mp ht)
  · intro h
    cases h with
    | int64 h range | enum h range =>
      exact bind_eq_ok.mpr ⟨_, Payload.readInteger_eq_ok.mpr h, inRange_ofInt.mpr ⟨range, rfl⟩⟩
    | uint64 h range =>
      exact bind_eq_ok.mpr ⟨_, Payload.readInteger_eq_ok.mpr h, inRange_ofUint.mpr ⟨range, rfl⟩⟩
    | double h => exact map_eq_ok.mpr ⟨_, Payload.readDouble_eq_ok.mpr h, rfl⟩
    | string s => rfl
    | bytes h => exact map_eq_ok.mpr ⟨_, Payload.readBytes_eq_ok.mpr h, rfl⟩
    | bool h => exact map_eq_ok.mpr ⟨_, Payload.readBool_eq_ok.mpr h, rfl⟩
    | null => rfl
    | type h => exact bind_eq_ok.mpr ⟨_, rfl, bind_eq_ok.mpr ⟨_, resolveTypeName_eq_ok.mpr h, rfl⟩⟩

/-- A scalar has a value exactly when its kind is known and its payload is read as that kind. -/
theorem scalarToValue_eq_ok : scalarToValue kind p = .ok v ↔ ∃ k : ScalarKind, kind = k.name ∧ Reads k p v := by
  unfold scalarToValue
  constructor
  · intro h
    split at h
    · rename_i k hk
      exact ⟨k, ScalarKind.ofName?_eq_some.mp hk, scalarValue_eq_ok.mp h⟩
    · cases h
  · rintro ⟨k, hk, h⟩
    rw [ScalarKind.ofName?_eq_some.mpr hk]
    exact scalarValue_eq_ok.mpr h

theorem inRange_ofLiteral (kind : String) (x : Except ValueError Value) :
    Refuses Defect.OfLiteral (inRange kind x) := by
  cases x with
  | ok v => exact refuses_ok
  | error e => exact refuses_error trivial

theorem resolveTypeName_ofLiteral (name : String) : Refuses Defect.OfLiteral (resolveTypeName name) := by
  unfold resolveTypeName
  split
  · exact refuses_ok
  · exact refuses_error trivial

theorem scalarValue_ofLiteral (k : ScalarKind) (p : Payload) : Refuses Defect.OfLiteral (scalarValue k p) := by
  cases k with
  | int64 | enum | uint64 =>
    exact (Payload.readInteger_ofLiteral _ p).bind fun n => inRange_ofLiteral _ _
  | double => exact (Payload.readDouble_ofLiteral _ p).map _
  | string => exact (Payload.readString_ofLiteral _ p).map _
  | bytes => exact (Payload.readBytes_ofLiteral _ p).map _
  | bool => exact (Payload.readBool_ofLiteral _ p).map _
  | null => exact refuses_ok
  | type =>
    exact (Payload.readString_ofLiteral _ p).bind fun name =>
      (resolveTypeName_ofLiteral name).bind fun t => refuses_ok

/-- A scalar that has no value has a defect of its own. An integer out of range is an invalid payload. -/
theorem scalarToValue_ofLiteral (kind : String) (p : Payload) : Refuses Defect.OfLiteral (scalarToValue kind p) := by
  unfold scalarToValue
  split
  · exact scalarValue_ofLiteral _ p
  · exact refuses_error trivial

end Node

end CelSuite
