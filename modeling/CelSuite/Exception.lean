import CelSuite.Decimal.Number
import CelSuite.Value.Basic

/-! # Exceptions

What an operation throws that has no result. An exception is of a class; a handler catches one class and turns its
exceptions into errors of its own, and the others go on to the next handler. Integers of any size are read, divided
and raised to powers here, since that throws where it has no result. -/

namespace CelSuite

/-- The classes of exceptions. -/
inductive ExceptionClass where
  | rangeError
  | typeError
  | syntaxError
  deriving DecidableEq

/-- Why an operation has no result. The bound on nested calls and on the turns of a loop that a definition passes may
    be used up as well; that is an exception of its own, to tell it from every other end. -/
inductive Exception where
  | value (e : ValueError)
  | invalidCodePoint (n : Nat)
  | noIntegerText (text : String)
  | noInteger (x : Double)
  | zeroDivisor
  | negativeExponent
  | malformedBytes
  | exhausted
  deriving DecidableEq

namespace Exception

/-- The class of an exception. -/
def cls : Exception → ExceptionClass
  | .value (.unsupportedKey _) | .malformedBytes => .typeError
  | .noIntegerText _ => .syntaxError
  | _ => .rangeError

/-- The text of an exception. -/
def message : Exception → String
  | .value e => e.message
  | .invalidCodePoint n => s!"Invalid code point {n}"
  | .noIntegerText text => "Cannot convert " ++ text ++ " to a BigInt"
  | .noInteger x =>
    "The number " ++ Decimal.write x ++ " cannot be converted to a BigInt because it is not an integer"
  | .zeroDivisor => "Division by zero"
  | .negativeExponent => "Exponent must be non-negative"
  | .malformedBytes => "The encoded data was not valid for encoding utf-8"
  | .exhausted => "Maximum call stack size exceeded"

/-- A step under a handler: an exception of the class becomes an error of the handler, any other goes on. -/
def catching {ε α : Type} (c : ExceptionClass) (handle onward : Exception → ε) (x : Except Exception α) : Except ε α :=
  x.mapError fun e => if e.cls = c then handle e else onward e

section
variable {ε α : Type} {c : ExceptionClass} {handle onward : Exception → ε} {x : Except Exception α} {e : Exception}
  {a : α}

theorem catching_of_cls (h : e.cls = c) :
    catching c handle onward (.error e : Except Exception α) = .error (handle e) :=
  congrArg Except.error (if_pos h)

theorem catching_eq_ok : catching c handle onward x = .ok a ↔ x = .ok a := by
  cases x with
  | ok b =>
    show (.ok b : Except ε α) = .ok a ↔ _
    rw [Except.ok.injEq, Except.ok.injEq]
  | error e =>
    show (.error _ : Except ε α) = .ok a ↔ _
    exact iff_of_false nofun nofun

end

end Exception

/-! ### Integers of any size -/

namespace Integer

/-- The integer that a text writes. -/
def ofText (s : String) : Except Exception Int :=
  match Decimal.integer? s with
  | some n => .ok n
  | none => .error (.noIntegerText s)

/-- The integer that a double is. -/
def ofDouble (x : Double) : Except Exception Int :=
  if x.isInteger then .ok x.truncate else .error (.noInteger x)

/-- The quotient, truncated toward zero. -/
def quotient (a b : Int) : Except Exception Int :=
  if b = 0 then .error .zeroDivisor else .ok (a.tdiv b)

/-- The remainder, with the sign of the dividend. -/
def remainder (a b : Int) : Except Exception Int :=
  if b = 0 then .error .zeroDivisor else .ok (a.tmod b)

/-- A power. -/
def power (a n : Int) : Except Exception Int :=
  if n < 0 then .error .negativeExponent else .ok (Int.pow a n.toNat)

theorem ofText_eq_ok {s : String} {n : Int} : ofText s = .ok n ↔ Decimal.integer? s = some n := by
  unfold ofText
  cases Decimal.integer? s <;> simp

theorem quotient_of_ne {b : Int} (h : b ≠ 0) (a : Int) : quotient a b = .ok (a.tdiv b) := if_neg h

theorem remainder_of_ne {b : Int} (h : b ≠ 0) (a : Int) : remainder a b = .ok (a.tmod b) := if_neg h

theorem power_natCast (a : Int) (n : Nat) : power a n = .ok (Int.pow a n) := by
  rw [power, if_neg (Int.not_lt.mpr (Int.natCast_nonneg n)), Int.toNat_natCast]

end Integer

end CelSuite
