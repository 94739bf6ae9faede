import CelSuite.Classify.Classifier
import CelSuite.Expr.Eval
import CelSuite.Proofs.Except
import Mathlib.Tactic.Linarith

/-! # Integer arithmetic

Ints and uints are the integers of two ranges. An operation on two integers of one kind comes to its exact result
when that lies in the range, and overflows when it does not; only a division or a remainder by zero has no exact
result. So nothing ever wraps around. Integers of different kinds have no arithmetic. -/

namespace CelSuite

inductive IntegerKind where
  | int
  | uint
  deriving DecidableEq

namespace Operators

/-- The operator that stands for an arithmetic operation. -/
def Arith.operator : Arith → BinaryOp
  | .add => .add
  | .sub => .sub
  | .mul => .mul
  | .div => .div
  | .mod => .mod

/-- The exact result of an operation on integers. A quotient is rounded toward zero, and a remainder is what the sizes
    leave, with the sign of the dividend. -/
inductive Arith.Gives : Arith → Int → Int → Int → Prop
  | add (a b : Int) : Gives .add a b (a + b)
  | sub (a b : Int) : Gives .sub a b (a - b)
  | mul (a b : Int) : Gives .mul a b (a * b)
  | div {a b q : Int} (hb : b ≠ 0) (size : q.natAbs = a.natAbs / b.natAbs) (sign : 0 ≤ q * (a * b)) : Gives .div a b q
  | mod {a b r : Int} (hb : b ≠ 0) (size : r.natAbs = a.natAbs % b.natAbs) (sign : 0 ≤ r * a) : Gives .mod a b r

end Operators

open Operators

namespace IntegerKind

/-- The integers of a kind. -/
def InRange : IntegerKind → Int → Prop
  | .int => Value.InIntRange
  | .uint => Value.InUintRange

/-- The least integer of a kind. -/
def least : IntegerKind → Int
  | .int => -2 ^ 63
  | .uint => 0

/-- The greatest integer of a kind. -/
def greatest : IntegerKind → Int
  | .int => 2 ^ 63 - 1
  | .uint => 2 ^ 64 - 1

/-- An integer of a kind as a value. -/
def value : IntegerKind → Int → Value
  | .int, n => .int n
  | .uint, n => .uint n.toNat

/-- What an operation on two integers of a kind comes to. -/
inductive Comes (k : IntegerKind) (op : Arith) (a b : Int) : Except EvalError Value → Prop
  | exact {z : Int} (gives : op.Gives a b z) (range : k.InRange z) : Comes k op a b (.ok (k.value z))
  | overflow {z : Int} (gives : op.Gives a b z) (range : ¬k.InRange z) : Comes k op a b (.error .overflow)
  | divisionByZero (hop : op = .div) (hb : b = 0) : Comes k op a b (.error .divisionByZero)
  | modulusByZero (hop : op = .mod) (hb : b = 0) : Comes k op a b (.error .modulusByZero)

/-- An integer as a value of a kind, or overflow. -/
def checked : IntegerKind → Int → Except EvalError Value
  | .int => checkedInt
  | .uint => checkedUint

variable {k : IntegerKind} {a b z : Int}

theorem inRange_iff : k.InRange z ↔ k.least ≤ z ∧ z ≤ k.greatest := by
  cases k with
  | int => exact and_congr_right fun _ => Int.le_sub_one_iff.symm
  | uint => exact and_congr_right fun _ => Int.le_sub_one_iff.symm

theorem checked_ok (range : k.InRange z) : k.checked z = .ok (k.value z) := by
  cases k with
  | int => exact (checkedInt_eq z).trans (if_pos range)
  | uint => exact (checkedUint_eq z).trans (if_pos range)

theorem checked_overflow (range : ¬k.InRange z) : k.checked z = .error .overflow := by
  cases k with
  | int => exact (checkedInt_eq z).trans (if_neg range)
  | uint => exact (checkedUint_eq z).trans (if_neg range)

theorem value_under (k : IntegerKind) (a : Int) (i : Nat) : (k.value a).under i = k.value a := by
  cases k <;> rfl

end IntegerKind

namespace Operators

variable {op : Arith} {j k : IntegerKind} {a b c q r z : Int} {e : EvalError} {result : Except EvalError Value}

/-! ### Exact results -/

/-- Integers of one size are equal if neither has the other sign of some integer that tells a sign. -/
theorem eq_of_natAbs_eq (h : q.natAbs = r.natAbs) (hq : 0 ≤ q * c) (hr : 0 ≤ r * c) (hc : c = 0 → q = 0) : q = r := by
  rcases Int.natAbs_eq_natAbs_iff.mp h with heq | hneg
  · exact heq
  · have hzero : r * c = 0 := by
      rw [hneg] at hq
      linarith
    rcases mul_eq_zero.mp hzero with hr0 | hc0
    · rw [hneg, hr0, neg_zero]
    · have hq0 := hc hc0
      omega

theorem tdiv_mul_sign (a b : Int) : 0 ≤ a.tdiv b * (a * b) := by
  rw [← Int.sign_nonneg_iff, Int.sign_mul, Int.sign_mul, Int.sign_tdiv]
  split
  · rw [zero_mul]
  · exact mul_self_nonneg _

theorem tmod_mul_sign (a b : Int) : 0 ≤ a.tmod b * a := by
  rw [← Int.sign_nonneg_iff, Int.sign_mul, Int.sign_tmod]
  split
  · rw [zero_mul]
  · exact mul_self_nonneg _

theorem tdiv_eq_iff (hb : b ≠ 0) : a.tdiv b = q ↔ Arith.div.Gives a b q := by
  constructor
  · rintro rfl
    exact .div hb (Int.natAbs_tdiv a b) (tdiv_mul_sign a b)
  · intro h
    cases h with
    | div hb size sign =>
      refine eq_of_natAbs_eq ((Int.natAbs_tdiv a b).trans size.symm) (tdiv_mul_sign a b) sign fun hzero => ?_
      rw [(mul_eq_zero_iff_right hb).mp hzero, Int.zero_tdiv]

theorem tmod_eq_iff (hb : b ≠ 0) : a.tmod b = r ↔ Arith.mod.Gives a b r := by
  constructor
  · rintro rfl
    exact .mod hb (Int.natAbs_tmod a b) (tmod_mul_sign a b)
  · intro h
    cases h with
    | mod hb size sign =>
      refine eq_of_natAbs_eq ((Int.natAbs_tmod a b).trans size.symm) (tmod_mul_sign a b) sign fun hzero => ?_
      rw [hzero, Int.zero_tmod]

theorem Arith.Gives.divisor_ne_zero (h : op.Gives a b z) (hop : op = .div ∨ op = .mod) : b ≠ 0 := by
  cases h with
  | add | sub | mul => simp at hop
  | div hb => exact hb
  | mod hb => exact hb

theorem integer_eq_ok : integer op a b = .ok z ↔ op.Gives a b z := by
  cases op with
  | add | sub | mul =>
    constructor
    · intro h
      cases h
      constructor
    · intro h
      cases h
      rfl
  | div =>
    rw [integer_div]
    split
    · rename_i hb
      exact iff_of_false nofun fun h => h.divisor_ne_zero (Or.inl rfl) hb
    · rename_i hb
      rw [Except.ok.injEq, tdiv_eq_iff hb]
  | mod =>
    rw [integer_mod]
    split
    · rename_i hb
      exact iff_of_false nofun fun h => h.divisor_ne_zero (Or.inr rfl) hb
    · rename_i hb
      rw [Except.ok.injEq, tmod_eq_iff hb]

theorem integer_eq_error (h : integer op a b = .error e) :
    op = .div ∧ b = 0 ∧ e = .divisionByZero ∨ op = .mod ∧ b = 0 ∧ e = .modulusByZero := by
  cases op with
  | add | sub | mul => cases h
  | div =>
    rw [integer_div] at h
    split at h
    · rename_i hb
      cases h
      exact Or.inl ⟨rfl, hb, rfl⟩
    · cases h
  | mod =>
    rw [integer_mod] at h
    split at h
    · rename_i hb
      cases h
      exact Or.inr ⟨rfl, hb, rfl⟩
    · cases h

/-- Quotient and remainder make up the dividend. -/
theorem quotient_remainder (hq : Arith.div.Gives a b q) (hr : Arith.mod.Gives a b r) :
    a = q * b + r ∧ r.natAbs < b.natAbs := by
  have hb := hq.divisor_ne_zero (Or.inl rfl)
  have hq := (tdiv_eq_iff hb).mpr hq
  have hr := (tmod_eq_iff hb).mpr hr
  refine ⟨?_, ?_⟩
  · rw [← hq, ← hr, Int.tdiv_mul_add_tmod]
  · rw [← hr, Int.natAbs_tmod]
    exact Nat.mod_lt _ (Int.natAbs_pos.mpr hb)

/-! ### Ranges -/

/-- A quotient of ints is an int, but for that of the least int and minus one. -/
theorem quotient_inRange_iff (ha : Value.InIntRange a) (hq : Arith.div.Gives a b q) :
    ¬Value.InIntRange q ↔ a = -0x8000000000000000 ∧ b = -1 := by
  unfold Value.InIntRange at ha ⊢
  cases hq with
  | div hb size sign =>
    have hdiv := (tdiv_eq_iff hb).mpr (.div hb size sign)
    -- A divisor of two or more at least halves the dividend, so only a change of sign can leave the range.
    have hcases : b = 1 ∨ b = -1 ∨ 2 ≤ b.natAbs := by omega
    rcases hcases with rfl | rfl | hlarge
    · rw [Int.tdiv_one] at hdiv
      omega
    · rw [Int.tdiv_neg, Int.tdiv_one] at hdiv
      omega
    · have hhalf : q.natAbs ≤ a.natAbs / 2 := by
        rw [size]
        exact Nat.div_le_div_left hlarge (by decide)
      omega

/-- A remainder is smaller than the divisor and does not have the other sign of the dividend. -/
theorem remainder_inRange (ha : k.InRange a) (hb : k.InRange b) (hr : Arith.mod.Gives a b r) : k.InRange r := by
  cases hr with
  | mod hne size sign =>
    have hmod := (tmod_eq_iff hne).mpr (.mod hne size sign)
    have hbelow : r.natAbs < b.natAbs := by
      rw [size]
      exact Nat.mod_lt _ (Int.natAbs_pos.mpr hne)
    cases k with
    | int =>
      have hb : Value.InIntRange b := hb
      show Value.InIntRange r
      unfold Value.InIntRange at hb ⊢
      omega
    | uint =>
      have hb : Value.InUintRange b := hb
      have hpos : 0 ≤ r := hmod ▸ Int.tmod_nonneg b ha.1
      show Value.InUintRange r
      unfold Value.InUintRange at hb ⊢
      omega

/-! ### Values -/

/-- An operation on two integers of a kind comes to what it can come to. -/
theorem integer_comes : integer op a b >>= k.checked = result ↔ k.Comes op a b result := by
  constructor
  · rintro rfl
    cases h : integer op a b with
    | ok z =>
      have gives := integer_eq_ok.mp h
      show k.Comes op a b (k.checked z)
      by_cases range : k.InRange z
      · rw [IntegerKind.checked_ok range]
        exact .exact gives range
      · rw [IntegerKind.checked_overflow range]
        exact .overflow gives range
    | error e =>
      rcases integer_eq_error h with ⟨hop, hb, rfl⟩ | ⟨hop, hb, rfl⟩
      · exact .divisionByZero hop hb
      · exact .modulusByZero hop hb
  · intro h
    cases h with
    | exact gives range =>
      rw [integer_eq_ok.mpr gives]
      exact IntegerKind.checked_ok range
    | overflow gives range =>
      rw [integer_eq_ok.mpr gives]
      exact IntegerKind.checked_overflow range
    | divisionByZero hop hb =>
      rw [hop, hb]
      rfl
    | modulusByZero hop hb =>
      rw [hop, hb]
      rfl

theorem arithmetic_value (ha : k.InRange a) (hb : k.InRange b) :
    arithmetic op (k.value a) (k.value b) = integer op a b >>= k.checked := by
  cases k with
  | int => rfl
  | uint =>
    rw [IntegerKind.value, IntegerKind.value, arithmetic, Int.toNat_of_nonneg ha.1, Int.toNat_of_nonneg hb.1]
    rfl

theorem arithmetic_mixed (h : j ≠ k) : arithmetic op (j.value a) (k.value b) = .error .noSuchOverload := by
  cases j <;> cases k
  · exact absurd rfl h
  · rfl
  · rfl
  · exact absurd rfl h

/-! ### Expressions -/

theorem eval_arithmetic [MessageSystem] {s : Scope} {act : Activation} {l r : Expr}
    (hl : l.eval s act = .ok (j.value a)) (hr : r.eval s act = .ok (k.value b)) :
    (Expr.binary op.operator l r).eval s act = arithmetic op (j.value a) (k.value b) := by
  cases op
  all_goals
    rw [Arith.operator, Expr.eval, hl, hr]
    · simp only [bind, Except.bind, IntegerKind.value_under, binary]
    all_goals rintro ⟨⟩

theorem eval_minus [MessageSystem] {s : Scope} {act : Activation} {e : Expr} (he : e.eval s act = .ok (.int a)) :
    (Expr.unary .minus e).eval s act = checkedInt (-a) := by
  rw [Expr.eval, he]
  rfl

theorem values_quotient_remainder {v w : Value} (hv : k.Comes .div a b (.ok v)) (hw : k.Comes .mod a b (.ok w)) :
    ∃ q r, v = k.value q ∧ w = k.value r ∧ k.InRange q ∧ k.InRange r ∧ a = q * b + r ∧ r.natAbs < b.natAbs := by
  cases hv with
  | exact hq hqrange =>
    cases hw with
    | exact hr hrrange => exact ⟨_, _, rfl, rfl, hqrange, hrrange, quotient_remainder hq hr⟩

/-- Arithmetic on two ints, or on two uints, comes to the exact result when that is in the range, to a division or a
    modulus by zero when there is none, and else to an overflow; so does the negation of an int. A quotient and a
    remainder that are values make up the dividend, the remainder being smaller than the divisor. The one quotient of
    ints that overflows is that of the least int and minus one, and no remainder overflows. There is no arithmetic on an
    int and a uint. The three errors have categories of their own. -/
theorem integer_arithmetic_exact [MessageSystem] {s : Scope} {act : Activation} {l r : Expr} (ha : j.InRange a)
    (hb : k.InRange b) (hl : l.eval s act = .ok (j.value a)) (hr : r.eval s act = .ok (k.value b)) :
    (j = k → ∀ op result, (Expr.binary (Arith.operator op) l r).eval s act = result ↔ k.Comes op a b result) ∧
    (j = .int →
      (Value.InIntRange (-a) → (Expr.unary .minus l).eval s act = .ok (.int (-a))) ∧
      (¬Value.InIntRange (-a) → (Expr.unary .minus l).eval s act = .error .overflow)) ∧
    (j = k → ∀ v w, (Expr.binary .div l r).eval s act = .ok v → (Expr.binary .mod l r).eval s act = .ok w →
      ∃ q m, v = k.value q ∧ w = k.value m ∧ k.InRange q ∧ k.InRange m ∧ a = q * b + m ∧ m.natAbs < b.natAbs) ∧
    (j = .int → k = .int →
      ((Expr.binary .div l r).eval s act = .error .overflow ↔ a = -0x8000000000000000 ∧ b = -1) ∧
      (Expr.binary .mod l r).eval s act ≠ .error .overflow) ∧
    (j ≠ k → ∀ op, (Expr.binary (Arith.operator op) l r).eval s act = .error .noSuchOverload) ∧
    (EvalError.divisionByZero.message = "division by zero" ∧
      Classifier.standard.classify EvalError.divisionByZero.message = "divide_by_zero") ∧
    (EvalError.modulusByZero.message = "modulus by zero" ∧
      Classifier.standard.classify EvalError.modulusByZero.message = "modulus_by_zero") ∧
    (EvalError.overflow.message = "return error for overflow" ∧
      Classifier.standard.classify EvalError.overflow.message = "integer_overflow") ∧
    EvalError.noSuchOverload.message = "no such overload" := by
  have hcomes (hjk : j = k) (op : Arith) (result : Except EvalError Value) :
      (Expr.binary op.operator l r).eval s act = result ↔ k.Comes op a b result := by
    subst hjk
    rw [eval_arithmetic hl hr, arithmetic_value ha hb, integer_comes]
  refine ⟨hcomes, ?negation, ?division, ?overflow, ?mixed, ⟨rfl, rfl⟩, ⟨rfl, rfl⟩, ⟨rfl, rfl⟩, rfl⟩
  case negation =>
    rintro rfl
    rw [eval_minus hl]
    exact ⟨fun range => IntegerKind.checked_ok (k := .int) range,
      fun range => IntegerKind.checked_overflow (k := .int) range⟩
  case division =>
    intro hjk v w hv hw
    exact values_quotient_remainder ((hcomes hjk .div _).mp hv) ((hcomes hjk .mod _).mp hw)
  case overflow =>
    rintro rfl rfl
    refine ⟨(hcomes rfl .div _).trans ⟨fun h => ?_, fun hleast => ?_⟩, fun h => ?_⟩
    · cases h with
      | overflow gives range => exact (quotient_inRange_iff ha gives).mp range
    · have hne : b ≠ 0 := by omega
      have gives : Arith.div.Gives a b (a.tdiv b) := (tdiv_eq_iff hne).mp rfl
      exact .overflow gives ((quotient_inRange_iff ha gives).mpr hleast)
    · cases (hcomes rfl .mod _).mp h with
      | overflow gives range => exact range (remainder_inRange (k := .int) ha hb gives)
  case mixed =>
    intro hjk op
    rw [eval_arithmetic hl hr, arithmetic_mixed hjk]

/-- The least int over minus one, and one less two as uints. -/
theorem least_int_over_minus_one :
    let least : Int := -0x8000000000000000
    (IntegerKind.int.InRange least ∧ IntegerKind.int.InRange (-1)) ∧
      (Expr.binary .div (.literal (.int least)) (.literal (.int (-1)))).eval ⟨[], ""⟩ [] = .error .overflow ∧
      (Expr.binary .mod (.literal (.int least)) (.literal (.int (-1)))).eval ⟨[], ""⟩ [] = .ok (.int 0) ∧
      (Expr.unary .minus (.literal (.int least))).eval ⟨[], ""⟩ [] = .error .overflow ∧
      (IntegerKind.uint.InRange 1 ∧ IntegerKind.uint.InRange 2) ∧
      (Expr.binary .sub (.literal (.uint 1)) (.literal (.uint 2))).eval ⟨[], ""⟩ [] = .error .overflow := by
  intro least
  have hleast : Value.InIntRange least := by decide
  have hminus : Value.InIntRange (-1) := by decide
  have hone : Value.InUintRange 1 := by decide
  have htwo : Value.InUintRange 2 := by decide
  obtain ⟨hcomes, hnegation, -, hoverflow, -⟩ := integer_arithmetic_exact (j := .int) (k := .int) (s := ⟨[], ""⟩)
    (l := .literal (.int least)) (r := .literal (.int (-1))) hleast hminus rfl rfl
  obtain ⟨hcomes', -⟩ := integer_arithmetic_exact (j := .uint) (k := .uint) (s := ⟨[], ""⟩)
    (l := .literal (.uint 1)) (r := .literal (.uint 2)) hone htwo rfl rfl
  refine ⟨⟨hleast, hminus⟩, (hoverflow rfl rfl).1.mpr ⟨rfl, rfl⟩, ?_, (hnegation rfl).2 (by decide), ⟨hone, htwo⟩, ?_⟩
  · exact (hcomes rfl .mod _).mpr (.exact (.mod (by decide) (by decide) (by decide)) (by decide : Value.InIntRange 0))
  · exact (hcomes' rfl .sub _).mpr (.overflow (.sub 1 2) (by decide : ¬Value.InUintRange (1 - 2)))

end Operators

end CelSuite
