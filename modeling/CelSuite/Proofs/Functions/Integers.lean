import CelSuite.Proofs.Functions.Bytes
import CelSuite.Proofs.Operators.Integers
import CelSuite.Proofs.Safety.Exceptions
import CelSuite.Proofs.Text.Integers

/-! # Conversions of integers

A conversion to a kind of integers keeps the integer. It overflows when the integer is not in the range of the kind,
and a text has no conversion unless it writes an integer with a sign that the kind knows. So what is converted there
and back, or to text and back, is what it was before. -/

namespace CelSuite

namespace IntegerKind
open Text

def function : IntegerKind → String
  | .int => "int"
  | .uint => "uint"

def convert : IntegerKind → Value → Except EvalError Value
  | .int => Functions.toInt
  | .uint => Functions.toUint

/-- The texts that write integers of a kind. A uint has no minus. -/
def Writes : IntegerKind → List Char → Int → Prop
  | .int, cs, z => WritesInteger cs z
  | .uint, cs, z => ∃ n : Nat, WritesNatural cs n ∧ z = n

/-- What the conversion of a text to a kind comes to. -/
inductive Reads (k : IntegerKind) (cs : List Char) : Except EvalError Value → Prop
  | exact {z : Int} (writes : k.Writes cs z) (range : k.InRange z) : Reads k cs (.ok (k.value z))
  | overflow {z : Int} (writes : k.Writes cs z) (range : ¬k.InRange z) : Reads k cs (.error .overflow)
  | other (unwritten : ∀ z, ¬k.Writes cs z) : Reads k cs (.error .noSuchOverload)

variable {j k : IntegerKind} {z : Int} {t : String} {result : Except EvalError Value}

/-! ### Numbers -/

theorem convert_under (k : IntegerKind) (v : Value) (i : Nat) : k.convert (v.under i) = k.convert v := by
  cases k <;> cases v <;> rfl

/-- An integer is kept by any conversion, or it overflows. -/
theorem convert_value (hk : k.InRange z) : j.convert (k.value z) = j.checked z := by
  cases k with
  | int =>
    cases j with
    | int => exact (checked_ok (k := .int) hk).symm
    | uint => rfl
  | uint =>
    have hz : (z.toNat : Int) = z := Int.toNat_of_nonneg hk.1
    cases j with
    | int => rw [convert, checked, value, Functions.toInt, hz]
    | uint => exact (checked_ok (k := .uint) hk).symm

/-! ### Texts -/

theorem toText_value (hk : k.InRange z) : Functions.toText (k.value z) = .ok (.string z.repr) := by
  cases k with
  | int => rfl
  | uint =>
    have hz : (z.toNat : Int) = z := Int.toNat_of_nonneg hk.1
    rw [← hz]
    rfl

theorem writes_repr (hk : k.InRange z) : k.Writes z.repr.toList z := by
  cases k with
  | int => exact writesInteger_repr z
  | uint =>
    have hz : (z.toNat : Int) = z := Int.toNat_of_nonneg hk.1
    refine ⟨z.toNat, ?_, hz.symm⟩
    rw [← hz]
    exact writesNatural_repr z.toNat

theorem convert_written (h : k.Writes t.toList z) : k.convert (.string t) = k.checked z := by
  cases k with
  | int =>
    have hread := signedInteger?_eq_some.mpr h
    rw [convert, Functions.toInt, hread, Functions.ofText_of_signedInteger? hread]
    rfl
  | uint =>
    have hread := natural?_eq_some.mpr h
    rw [convert, Functions.toUint, hread, Functions.ofText_of_natural? hread]
    rfl

theorem convert_unwritten (h : ∀ z, ¬k.Writes t.toList z) : k.convert (.string t) = .error .noSuchOverload := by
  cases k with
  | int =>
    have hread : signedInteger? t.toList = none :=
      Option.eq_none_iff_forall_ne_some.mpr fun z hz => h z (signedInteger?_eq_some.mp hz)
    rw [convert, Functions.toInt, hread]
    rfl
  | uint =>
    have hread : Functions.natural? t.toList = none :=
      Option.eq_none_iff_forall_ne_some.mpr fun z hz => h z (natural?_eq_some.mp hz)
    rw [convert, Functions.toUint, hread]
    rfl

theorem convert_text : k.convert (.string t) = result ↔ k.Reads t.toList result := by
  constructor
  · rintro rfl
    by_cases h : ∃ z, k.Writes t.toList z
    · obtain ⟨z, hz⟩ := h
      rw [convert_written hz]
      by_cases range : k.InRange z
      · exact checked_ok range ▸ .exact hz range
      · exact checked_overflow range ▸ .overflow hz range
    · have unwritten := not_exists.mp h
      exact convert_unwritten unwritten ▸ .other unwritten
  · intro h
    cases h with
    | exact writes range => exact (convert_written writes).trans (checked_ok range)
    | overflow writes range => exact (convert_written writes).trans (checked_overflow range)
    | other unwritten => exact convert_unwritten unwritten

end IntegerKind

/-- The two ways to write the conversion of a value to a kind of integers. -/
inductive Expr.AsInteger (k : IntegerKind) (e : Expr) : Expr → Prop
  | call : AsInteger k e (.call k.function [e])
  | method : AsInteger k e (.methodCall e k.function [])

namespace Expr
open IntegerKind

variable [MessageSystem] {s : Scope} {act : Activation} {e f g : Expr} {j k : IntegerKind} {v : Value} {z : Int}

theorem eval_asInteger (hf : e.AsInteger k f) (he : e.eval s act = .ok v) : f.eval s act = k.convert v := by
  cases hf with
  | call =>
    rw [eval, evalAll, he, evalAll, ← convert_under k v 0]
    cases k <;> rfl
  | method =>
    rw [eval, he, evalAll]
    cases k <;> rfl

theorem eval_text_of_integer (hf : e.AsText f) (range : k.InRange z) (he : e.eval s act = .ok (k.value z)) :
    f.eval s act = .ok (.string z.repr) := by
  rw [← toText_value range]
  cases hf with
  | call =>
    rw [eval, evalAll, he, evalAll]
    cases k <;> rfl
  | method =>
    rw [eval, he, evalAll]
    cases k <;> rfl

theorem eval_integer_of_text (hf : e.AsInteger k f) {t : String} (he : e.eval s act = .ok (.string t))
    (result : Except EvalError Value) : f.eval s act = result ↔ k.Reads t.toList result := by
  rw [eval_asInteger hf he, convert_text]

/-- An integer that is written as text is read from it again. -/
theorem eval_text_and_back (hf : e.AsText f) (hg : f.AsInteger k g) (range : k.InRange z)
    (he : e.eval s act = .ok (k.value z)) : g.eval s act = .ok (k.value z) :=
  (eval_integer_of_text hg (eval_text_of_integer hf range he) _).mpr (.exact (writes_repr range) range)

theorem eval_integer (hf : e.AsInteger j f) (range : k.InRange z) (he : e.eval s act = .ok (k.value z)) :
    f.eval s act = j.checked z := by
  rw [eval_asInteger hf he, convert_value range]

theorem eval_asInteger_error (hf : e.AsInteger k f) {err : EvalError} (he : e.eval s act = .error err) :
    f.eval s act = .error err := by
  cases hf with
  | call =>
    rw [eval, evalAll, he]
    rfl
  | method =>
    rw [eval, he]
    rfl

/-- An integer that is converted there and back is what it was, if it could be converted at all. -/
theorem eval_there_and_back (hf : e.AsInteger j f) (hg : f.AsInteger k g) (range : k.InRange z)
    (he : e.eval s act = .ok (k.value z)) : g.eval s act = .ok v ↔ j.InRange z ∧ v = k.value z := by
  by_cases hj : j.InRange z
  · have hthere := (eval_integer hf range he).trans (checked_ok hj)
    have hback := (eval_integer hg hj hthere).trans (checked_ok range)
    rw [hback, Except.ok.injEq, and_iff_right hj, eq_comm]
  · -- What overflows on the way there is still an error on the way back.
    have hthere := (eval_integer hf range he).trans (checked_overflow hj)
    have hback := eval_asInteger_error hg hthere
    rw [hback, iff_false_left nofun]
    exact fun h => hj h.1

/-- Conversions between ints, uints and decimal text are exact or fail. An integer comes back from its text, a uint
    is an int and an int a uint when it lies in the other range, and what comes back is what it was. A text is
    converted when it writes an integer of the kind. -/
theorem integer_conversions_exact_or_fail :
    (∀ k z, k.least ≤ z → z ≤ k.greatest → e.eval s act = .ok (k.value z) →
      ∀ f g, e.AsText f → f.AsInteger k g → g.eval s act = .ok (k.value z)) ∧
    (∀ u : Nat, u ≤ 2 ^ 64 - 1 → e.eval s act = .ok (.uint u) → ∀ f, e.AsInteger .int f →
      f.eval s act = if u ≤ 2 ^ 63 - 1 then .ok (.int u) else .error .overflow) ∧
    (∀ x : Int, -2 ^ 63 ≤ x → x ≤ 2 ^ 63 - 1 → e.eval s act = .ok (.int x) → ∀ f, e.AsInteger .uint f →
      f.eval s act = if 0 ≤ x then .ok (.uint x.toNat) else .error .overflow) ∧
    (∀ j k z, k.least ≤ z → z ≤ k.greatest → e.eval s act = .ok (k.value z) →
      ∀ f g, e.AsInteger j f → f.AsInteger k g →
        ∀ v, g.eval s act = .ok v ↔ (j.least ≤ z ∧ z ≤ j.greatest) ∧ v = k.value z) ∧
    (∀ k t, e.eval s act = .ok (.string t) → ∀ f, e.AsInteger k f →
      ∀ result, f.eval s act = result ↔ k.Reads t.toList result) ∧
    EvalError.overflow.message = "return error for overflow" ∧
    EvalError.noSuchOverload.message = "no such overload" := by
  refine ⟨?textAndBack, ?toInt, ?toUint, ?thereAndBack, ?fromText, rfl, rfl⟩
  case textAndBack =>
    intro k z hleast hgreatest he f g hf hg
    exact eval_text_and_back hf hg (inRange_iff.mpr ⟨hleast, hgreatest⟩) he
  case toInt =>
    intro u hu he f hf
    have range : IntegerKind.uint.InRange (u : Int) := ⟨Int.natCast_nonneg u, by omega⟩
    rw [eval_integer hf range he]
    split
    case isTrue h => exact checked_ok ⟨by omega, by omega⟩
    case isFalse h => exact checked_overflow fun hint => h (by have := hint.2; omega)
  case toUint =>
    intro x hleast hgreatest he f hf
    have range : IntegerKind.int.InRange x := inRange_iff.mpr ⟨hleast, hgreatest⟩
    rw [eval_integer hf range he]
    split
    case isTrue h => exact checked_ok ⟨h, by omega⟩
    case isFalse h => exact checked_overflow fun huint => h huint.1
  case thereAndBack =>
    intro j k z hleast hgreatest he f g hf hg v
    rw [eval_there_and_back hf hg (inRange_iff.mpr ⟨hleast, hgreatest⟩) he, inRange_iff]
  case fromText =>
    intro k t he f hf result
    exact eval_integer_of_text hf he result

/-- The least int comes back from its text, and minus one has no conversion to a uint, neither as an int nor as a
    text. -/
theorem least_int_through_text :
    let least : Expr := .literal (.int (-2 ^ 63))
    let minusOne : Expr := .literal (.int (-1))
    let text : Expr := .literal (.string "-1")
    (Expr.call "int" [.call "string" [least]]).eval ⟨[], ""⟩ [] = .ok (.int (-2 ^ 63)) ∧
      (Expr.methodCall minusOne "uint" []).eval ⟨[], ""⟩ [] = .error .overflow ∧
      (Expr.call "uint" [text]).eval ⟨[], ""⟩ [] = .error .noSuchOverload ∧
      (Expr.call "int" [text]).eval ⟨[], ""⟩ [] = .ok (.int (-1)) := by
  intro least minusOne text
  have hwrites : Text.WritesInteger "-1".toList (-1) := Text.signedInteger?_eq_some.mp (by decide)
  have hunread : Functions.natural? "-1".toList = none := by decide
  have hconversions (e : Expr) := @integer_conversions_exact_or_fail _ ⟨[], ""⟩ [] e
  obtain ⟨hback, -⟩ := hconversions least
  obtain ⟨-, -, huint, -⟩ := hconversions minusOne
  obtain ⟨-, -, -, -, htext, -⟩ := hconversions text
  refine ⟨?_, ?_, ?_, ?_⟩
  · exact hback .int (-2 ^ 63) (by decide) (by decide) rfl _ _ .call .call
  · exact huint (-1) (by decide) (by decide) rfl _ .method
  · refine (htext .uint "-1" rfl _ .call _).mpr (.other fun z hz => ?_)
    cases hunread.symm.trans (Text.natural?_eq_some.mpr hz)
  · exact (htext .int "-1" rfl _ .call _).mpr (.exact hwrites (inRange_iff.mpr (by decide)))

end Expr

end CelSuite
