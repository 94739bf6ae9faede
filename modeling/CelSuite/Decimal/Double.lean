/-! # Doubles

A double is its sixty-four bits: a sign, eleven bits of exponent and fifty-two of fraction. Equality
and order are defined on the bits, so that both zeros are equal and NaN equals and precedes nothing.
A finite double is `±m · 2^e` with `m < 2^53`; rounding a ratio of naturals to the nearest double,
ties to even, is the one way in. -/

namespace CelSuite

/-- A double-precision number, by its bits. -/
structure Double where
  bits : UInt64
  deriving DecidableEq, Inhabited

namespace Double

/-- The bit of the sign, `2^63`. -/
def signBit : Nat := 0x8000000000000000

/-- The least significand that is not subnormal, `2^52`. -/
def hiddenBit : Nat := 0x10000000000000

/-- The bits without the sign. -/
def magnitude (x : Double) : Nat :=
  x.bits.toNat % signBit

/-- Whether the sign bit is set. -/
def isNegative (x : Double) : Bool :=
  signBit ≤ x.bits.toNat

/-- The bits of infinity without the sign. -/
def infinityBits : Nat := 0x7FF0000000000000

def isNaN (x : Double) : Bool :=
  infinityBits < x.magnitude

def isInfinite (x : Double) : Bool :=
  x.magnitude == infinityBits

def isFinite (x : Double) : Bool :=
  x.magnitude < infinityBits

/-- A double from its sign and its other bits. -/
def ofMagnitude (negative : Bool) (m : Nat) : Double :=
  ⟨(if negative then signBit + m else m).toUInt64⟩

def infinity (negative : Bool) : Double :=
  ofMagnitude negative infinityBits

def nan : Double := ⟨0x7FF8000000000000⟩

/-- The place of a double among the others: it grows with the number, and both zeros have one place. -/
def rank (x : Double) : Int :=
  if x.isNegative then -(x.magnitude : Int) else x.magnitude

/-- Equality of numbers. -/
def equal (x y : Double) : Bool :=
  !x.isNaN && !y.isNaN && x.rank == y.rank

/-- Order of numbers. -/
def less (x y : Double) : Bool :=
  !x.isNaN && !y.isNaN && decide (x.rank < y.rank)

/-- The significand of a finite double. -/
def significand (x : Double) : Nat :=
  if x.magnitude < hiddenBit then x.magnitude else hiddenBit + x.magnitude % hiddenBit

/-- The exponent of a finite double: the number is `significand · 2 ^ exponent`. -/
def exponent (x : Double) : Int :=
  if x.magnitude < hiddenBit then -1074 else (x.magnitude / hiddenBit : Nat) - 1075

/-- The integer part of a finite double, toward zero. -/
def truncate (x : Double) : Int :=
  let m := if 0 ≤ x.exponent then x.significand <<< x.exponent.toNat
    else x.significand >>> (-x.exponent).toNat
  if x.isNegative then -(m : Int) else m

/-- Whether a double is an integer. -/
def isInteger (x : Double) : Bool :=
  x.isFinite && (0 ≤ x.exponent || x.significand % (1 <<< (-x.exponent).toNat) == 0)

/-- The double without what it has after the point: the bits below those of the integers are cleared. The sign
    stays, also that of a zero. -/
def trunc (x : Double) : Double :=
  if 0 ≤ x.exponent then x
  else
    let places := (-x.exponent).toNat
    ofMagnitude x.isNegative (if 52 < places then 0 else x.magnitude >>> places <<< places)

/-- The quotient rounded to the nearest integer, a half to the even neighbour. -/
def roundQuotient (num den : Nat) : Nat :=
  let q := num / den
  let r := num % den
  if 2 * r < den then q else if den < 2 * r then q + 1 else q + q % 2

/-- The quotient of `num` and `den · 2 ^ e`, rounded. -/
def roundScaled (num den : Nat) (e : Int) : Nat :=
  if 0 ≤ e then roundQuotient num (den <<< e.toNat) else roundQuotient (num <<< (-e).toNat) den

/-- The exponent of the double nearest to `num / den`: as small as fifty-three bits allow, and never
    below that of the smallest double. -/
def scaleOf (num den : Nat) : Int :=
  let e : Int := max ((num.log2 : Int) - den.log2 - 53) (-1074)
  let fits := if 0 ≤ e then num / (den <<< e.toNat) < 2 * hiddenBit
    else (num <<< (-e).toNat) / den < 2 * hiddenBit
  if fits then e else e + 1

/-- The double nearest to `num / den`, for a positive `den`; a tie goes to the even significand, and
    what is too large becomes infinite. -/
def ofRatio (negative : Bool) (num den : Nat) : Double :=
  if num = 0 then ofMagnitude negative 0
  else
    let e := scaleOf num den
    let m := roundScaled num den e
    let bits := if m < hiddenBit then m else (e + 1074).toNat * hiddenBit + m
    ofMagnitude negative (min bits infinityBits)

/-- The double nearest to an integer. -/
def ofInt (n : Int) : Double :=
  ofRatio (decide (n < 0)) n.natAbs 1

/-- The double nearest to `m · 10 ^ e`. Beyond four hundred places from the leading digit the answer is
    infinite or zero, whatever the digits are. -/
def ofDecimal (negative : Bool) (m : Nat) (e : Int) : Double :=
  if m = 0 then ofMagnitude negative 0
  else
    let places : Int := (m.log2 * 30103 / 100000 : Nat)
    if 400 < places + e then infinity negative
    else if places + e < -400 then ofMagnitude negative 0
    else if 0 ≤ e then ofRatio negative (m * Nat.pow 10 e.toNat) 1
    else ofRatio negative m (Nat.pow 10 (-e).toNat)

def toFloat (x : Double) : Float := Float.ofBits x.bits

def ofFloat (x : Float) : Double := ⟨x.toBits⟩

def add (x y : Double) : Double := ofFloat (x.toFloat + y.toFloat)

def sub (x y : Double) : Double := ofFloat (x.toFloat - y.toFloat)

def mul (x y : Double) : Double := ofFloat (x.toFloat * y.toFloat)

def div (x y : Double) : Double := ofFloat (x.toFloat / y.toFloat)

/-- The number with its sign turned over. -/
def neg (x : Double) : Double :=
  ofMagnitude (!x.isNegative) x.magnitude

end Double

end CelSuite
