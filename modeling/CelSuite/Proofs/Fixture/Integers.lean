import CelSuite.Proofs.Fixture.Walk
import CelSuite.Proofs.Operators.Integers
import CelSuite.Proofs.Text.Integers
import CelSuite.Proofs.Values.Doubles
import CelSuite.Value.Map

/-! # Integers in every notation

An integer is denoted by itself, by a double that it is, or by its digits in a text. The reader answers the integer
that is denoted and refuses a payload that denotes none, so a double is never read as an integer near it. A scalar of
an integer kind has that integer for its value if it is in the range of the kind; which notation it came in does not
show. -/

namespace CelSuite

/-! ### Payloads -/

namespace Payload

/-- The integer that a payload denotes. A double denotes the integer that it is, as far as no other one is rounded to
    it, and a text what it writes, with or without blanks around. -/
inductive DenotesInteger : Payload → Int → Prop
  | integer (z : Int) : DenotesInteger (.integer z) z
  | number {x : Double} {z : Int} (finite : x.isFinite = true) (value : x.value = z) (safe : z.natAbs ≤ 2 ^ 53 - 1) :
      DenotesInteger (.number x) z
  | text {s : String} {ds : List Char} {z : Int} (writes : Text.WritesInteger ds z) (around : Text.Around ds s.toList) :
      DenotesInteger (.string s) z

variable {p : Payload} {kind : String} {z : Int}

theorem isInteger_iff : p.IsInteger z ↔ p.DenotesInteger z := by
  constructor
  · intro h
    cases h with
    | integer => exact .integer z
    | number hsafe =>
      obtain ⟨finite, value, safe⟩ := Double.isSafeInteger_and_truncate_iff.mp ⟨hsafe, rfl⟩
      exact .number finite value safe
    | text hread =>
      obtain ⟨ds, writes, around⟩ := Text.signedInteger?_trimChars.mp hread
      exact .text writes around
  · intro h
    cases h with
    | integer => exact .integer z
    | number finite value safe =>
      obtain ⟨hsafe, htruncate⟩ := Double.isSafeInteger_and_truncate_iff.mpr ⟨finite, value, safe⟩
      exact htruncate ▸ .number hsafe
    | text writes around => exact .text (Text.signedInteger?_trimChars.mpr ⟨_, writes, around⟩)

theorem readInteger_iff : p.readInteger kind = .ok z ↔ p.DenotesInteger z := readInteger_eq_ok.trans isInteger_iff

theorem readInteger_refused (kind : String) (h : ¬∃ z, p.DenotesInteger z) :
    ∃ fault, p.readInteger kind = .error (.invalidPayload kind fault) := by
  cases hread : p.readInteger kind with
  | ok z => exact absurd ⟨z, readInteger_iff.mp hread⟩ h
  | error e =>
    obtain ⟨fault, rfl⟩ := readInteger_eq_error hread
    exact ⟨fault, rfl⟩

end Payload

/-! ### Scalars -/

/-- The kinds of scalars that hold ints, and the one that holds uints. -/
inductive ScalarKind.Holds : ScalarKind → IntegerKind → Prop
  | int64 : Holds .int64 .int
  | enum : Holds .enum .int
  | uint64 : Holds .uint64 .uint

namespace IntegerKind

def build : IntegerKind → Int → Except ValueError Value
  | .int => Value.ofInt
  | .uint => Value.ofUint

def excess : IntegerKind → Int → ValueError
  | .int => .intOutOfRange
  | .uint => .uintOutOfRange

variable {j : IntegerKind} {z : Int}

theorem build_ok (range : j.InRange z) : j.build z = .ok (j.value z) := by
  cases j with
  | int => exact if_pos range
  | uint => exact if_pos range

theorem build_excess (range : ¬j.InRange z) : j.build z = .error (j.excess z) := by
  cases j with
  | int => exact if_neg range
  | uint => exact if_neg range

theorem value_equal_self (j : IntegerKind) (z : Int) : (j.value z).equal (j.value z) = true := by
  cases j with
  | int => exact beq_self_eq_true z
  | uint => exact beq_self_eq_true z.toNat

end IntegerKind

namespace Node

variable {r : Registry} {k : ScalarKind} {j : IntegerKind} {p : Payload} {z : Int}

theorem toValue_integer (r : Registry) (hk : k.Holds j) (p : Payload) : (scalar k.name p).toValue r =
    p.readInteger k.name >>= fun z => inRange k.name (j.build z) := by
  rw [toValue, scalarToValue, ScalarKind.ofName?_eq_some.mpr rfl]
  cases hk <;> rfl

theorem toValue_of_denotes (r : Registry) (hk : k.Holds j) (h : p.DenotesInteger z) :
    (scalar k.name p).toValue r = inRange k.name (j.build z) := by
  rw [toValue_integer r hk, Payload.readInteger_iff.mpr h]
  rfl

theorem toValue_inRange (r : Registry) (hk : k.Holds j) (h : p.DenotesInteger z) (range : j.InRange z) :
    (scalar k.name p).toValue r = .ok (j.value z) := by
  rw [toValue_of_denotes r hk h, IntegerKind.build_ok range]
  rfl

theorem toValue_outOfRange (r : Registry) (hk : k.Holds j) (h : p.DenotesInteger z) (range : ¬j.InRange z) :
    (scalar k.name p).toValue r = .error (.invalidPayload k.name (.outOfRange (j.excess z))) := by
  rw [toValue_of_denotes r hk h, IntegerKind.build_excess range]
  rfl

theorem toValue_undenoted (r : Registry) (hk : k.Holds j) (h : ¬∃ z, p.DenotesInteger z) :
    ∃ fault, (scalar k.name p).toValue r = .error (.invalidPayload k.name fault) := by
  obtain ⟨fault, hread⟩ := Payload.readInteger_refused k.name h
  rw [toValue_integer r hk, hread]
  exact ⟨fault, rfl⟩

theorem toValue_integer_refused (r : Registry) (hk : k.Holds j) (h : ¬∃ z, p.DenotesInteger z ∧ j.InRange z) :
    ∃ fault, (scalar k.name p).toValue r = .error (.invalidPayload k.name fault) := by
  by_cases hp : ∃ z, p.DenotesInteger z
  · obtain ⟨z, hz⟩ := hp
    exact ⟨_, toValue_outOfRange r hk hz fun range => h ⟨z, hz, range⟩⟩
  · exact toValue_undenoted r hk hp

theorem toValue_integer_eq_ok (r : Registry) (hk : k.Holds j) {v : Value} :
    (scalar k.name p).toValue r = .ok v ↔ ∃ z, p.DenotesInteger z ∧ j.InRange z ∧ v = j.value z := by
  constructor
  · intro hv
    by_cases h : ∃ z, p.DenotesInteger z ∧ j.InRange z
    · obtain ⟨z, hz, range⟩ := h
      exact ⟨z, hz, range, Except.ok.inj (hv.symm.trans (toValue_inRange r hk hz range))⟩
    · obtain ⟨fault, hfault⟩ := toValue_integer_refused r hk h
      cases hv.symm.trans hfault
  · rintro ⟨z, hz, range, rfl⟩
    exact toValue_inRange r hk hz range

/-- An integer is read exactly from any payload that denotes it, and from other payloads nothing is read. A scalar of
    an integer kind has the int or the uint that its payload denotes if there is one in the range, and else it is an
    invalid payload. Two notations of one integer have equal values, or they are invalid for the same reason. -/
theorem integers_read_exactly (r : Registry) :
    (∀ kind (p : Payload) z, p.readInteger kind = .ok z ↔ p.DenotesInteger z) ∧
    (∀ kind (p : Payload), (¬∃ z, p.DenotesInteger z) →
      ∃ fault, p.readInteger kind = .error (.invalidPayload kind fault)) ∧
    (∀ k j, ScalarKind.Holds k j → ∀ (p : Payload) v, (scalar k.name p).toValue r = .ok v ↔
      ∃ z, p.DenotesInteger z ∧ (j.least ≤ z ∧ z ≤ j.greatest) ∧ v = j.value z) ∧
    (∀ k j, ScalarKind.Holds k j → ∀ p : Payload, (¬∃ z, p.DenotesInteger z ∧ j.least ≤ z ∧ z ≤ j.greatest) →
      ∃ fault, (scalar k.name p).toValue r = .error (.invalidPayload k.name fault)) ∧
    ∀ k k' j, ScalarKind.Holds k j → ScalarKind.Holds k' j →
      ∀ (p p' : Payload) z, p.DenotesInteger z → p'.DenotesInteger z →
        (∃ v v', (scalar k.name p).toValue r = .ok v ∧ (scalar k'.name p').toValue r = .ok v' ∧ v.equal v' = true) ∨
        ∃ fault, (scalar k.name p).toValue r = .error (.invalidPayload k.name fault) ∧
          (scalar k'.name p').toValue r = .error (.invalidPayload k'.name fault) := by
  simp only [← IntegerKind.inRange_iff]
  refine ⟨fun kind p z => Payload.readInteger_iff, fun kind p => Payload.readInteger_refused kind,
    fun k j hk p v => toValue_integer_eq_ok r hk, fun k j hk p => toValue_integer_refused r hk, ?notations⟩
  case notations =>
    intro k k' j hk hk' p p' z hz hz'
    by_cases range : j.InRange z
    · exact Or.inl ⟨j.value z, j.value z, toValue_inRange r hk hz range, toValue_inRange r hk' hz' range,
        j.value_equal_self z⟩
    · exact Or.inr ⟨.outOfRange (j.excess z), toValue_outOfRange r hk hz range, toValue_outOfRange r hk' hz' range⟩

/-- The greatest int as a text with blanks and a plus around and as an integer, and the double `2 ^ 53`, which `2 ^
    53 + 1` is rounded to. -/
theorem greatest_int_in_two_notations :
    let text : Payload := .string "\u00A0+9223372036854775807 "
    let big : Payload := .integer 9223372036854775807
    let rounded : Payload := .number ⟨0x4340000000000000⟩
    (text.DenotesInteger 9223372036854775807 ∧ big.DenotesInteger 9223372036854775807) ∧
      (∃ v v', (scalar "int64_value" text).toValue .standard = .ok v ∧
        (scalar "enum_value" big).toValue .standard = .ok v' ∧ v.equal v' = true) ∧
      (¬∃ z, rounded.DenotesInteger z) ∧
      ∃ fault, (scalar "uint64_value" rounded).toValue .standard = .error (.invalidPayload "uint64_value" fault) := by
  intro text big rounded
  obtain ⟨hread, -, hvalue, hinvalid, hnotations⟩ := integers_read_exactly .standard
  have htext : text.DenotesInteger 9223372036854775807 := (hread "" text _).mp (by decide)
  have hbig : big.DenotesInteger 9223372036854775807 := .integer _
  have hrounded : ¬∃ z, rounded.DenotesInteger z := by
    rintro ⟨z, hz⟩
    have hrefused : rounded.readInteger "" = .error (.invalidPayload "" (.unsafeInteger ⟨0x4340000000000000⟩)) := by
      decide
    cases hrefused.symm.trans ((hread "" rounded z).mpr hz)
  refine ⟨⟨htext, hbig⟩, ?_, hrounded, hinvalid .uint64 .uint .uint64 rounded fun ⟨z, hz, _⟩ => hrounded ⟨z, hz⟩⟩
  rcases hnotations .int64 .enum .int .int64 .enum text big _ htext hbig with hequal | ⟨fault, herror, -⟩
  · exact hequal
  · have hok := (hvalue .int64 .int .int64 text _).mpr ⟨_, htext, by decide, rfl⟩
    cases hok.symm.trans herror

end Node

end CelSuite
