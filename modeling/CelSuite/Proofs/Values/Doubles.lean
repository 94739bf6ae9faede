import CelSuite.Fixture.Payload
import Mathlib.Algebra.Order.Field.Rat
import Mathlib.Data.Rat.Cast.Defs

/-! # Doubles that are integers

A finite double is a number, `±m · 2 ^ e`. It is an integer when `e` takes no bit of `m` away, and then its integer part
is all of it. So an integer is taken from a double exactly when the double is that integer, and nothing is rounded.
Cutting a double off at its point leaves an integer with the same integer part. -/

namespace CelSuite.Double

/-- The sign as a factor. -/
def unit (x : Double) : Int := if x.isNegative then -1 else 1

/-- The number that a finite double is. -/
def value (x : Double) : ℚ := x.unit * (x.significand * 2 ^ x.exponent)

/-- The size of the integer part. -/
def wholeMagnitude (x : Double) : Nat :=
  if 0 ≤ x.exponent then x.significand * 2 ^ x.exponent.toNat else x.significand / 2 ^ (-x.exponent).toNat

variable {x : Double} {z : Int} {e : Int}

theorem truncate_eq (x : Double) : x.truncate = x.unit * x.wholeMagnitude := by
  have hsize : (if 0 ≤ x.exponent then x.significand <<< x.exponent.toNat
      else x.significand >>> (-x.exponent).toNat) = x.wholeMagnitude := by
    rw [wholeMagnitude, Nat.shiftLeft_eq, Nat.shiftRight_eq_div_pow]
  rw [truncate, hsize, unit]
  cases x.isNegative <;> simp

theorem isInteger_iff : x.isInteger = true ↔
    x.isFinite = true ∧ (x.exponent < 0 → 2 ^ (-x.exponent).toNat ∣ x.significand) := by
  rw [isInteger, Nat.one_shiftLeft, Bool.and_eq_true, Bool.or_eq_true, decide_eq_true_eq, beq_iff_eq,
    ← Nat.dvd_iff_mod_eq_zero, ← not_lt]
  exact and_congr_right fun _ => Decidable.imp_iff_not_or.symm

/-! ### Powers of two -/

theorem two_zpow_of_nonneg (h : 0 ≤ e) : (2 : ℚ) ^ e = (2 ^ e.toNat : Nat) := by
  have hexponent : (e.toNat : Int) = e := Int.toNat_of_nonneg h
  rw [Nat.cast_pow, Nat.cast_ofNat, ← zpow_natCast, hexponent]

theorem two_zpow_mul_of_neg (h : e < 0) : (2 : ℚ) ^ e * (2 ^ (-e).toNat : Nat) = 1 := by
  have hne : (2 : ℚ) ≠ 0 := two_ne_zero
  rw [← two_zpow_of_nonneg (by omega), ← zpow_add₀ hne, add_neg_cancel, zpow_zero]

/-! ### Integers -/

/-- An integer is all of its integer part. -/
theorem value_of_isInteger (h : x.isInteger = true) : x.value = x.truncate := by
  have hsize : (x.significand : ℚ) * 2 ^ x.exponent = x.wholeMagnitude := by
    rw [wholeMagnitude]
    split
    · rename_i hpos
      rw [two_zpow_of_nonneg hpos, Nat.cast_mul]
    · rename_i hneg
      obtain ⟨q, hq⟩ := (isInteger_iff.mp h).2 (by omega)
      rw [hq, Nat.mul_div_cancel_left q (Nat.two_pow_pos _), Nat.cast_mul, mul_comm, ← mul_assoc,
        two_zpow_mul_of_neg (by omega), one_mul]
  rw [value, hsize, truncate_eq, Int.cast_mul, Int.cast_natCast]

/-- A finite double that is an integer is known to be one. -/
theorem isInteger_of_value (hfinite : x.isFinite = true) (h : x.value = z) : x.isInteger = true := by
  refine isInteger_iff.mpr ⟨hfinite, fun hneg => ?_⟩
  have hscaled : x.unit * (x.significand : Int) = z * (2 ^ (-x.exponent).toNat : Nat) := by
    have hrat : (x.unit : ℚ) * x.significand = z * (2 ^ (-x.exponent).toNat : Nat) := by
      rw [← h, value, mul_assoc, mul_assoc, two_zpow_mul_of_neg hneg, mul_one]
    exact_mod_cast hrat
  have hdvd : ((2 ^ (-x.exponent).toNat : Nat) : Int) ∣ x.unit * x.significand := hscaled ▸ Dvd.intro_left z rfl
  have hunit : IsUnit x.unit := by
    unfold unit
    split
    · exact isUnit_one.neg
    · exact isUnit_one
  exact Int.natCast_dvd_natCast.mp (hunit.dvd_mul_left.mp hdvd)

theorem isInteger_and_truncate_iff :
    x.isInteger = true ∧ x.truncate = z ↔ x.isFinite = true ∧ x.value = z := by
  constructor
  · rintro ⟨hinteger, rfl⟩
    exact ⟨(isInteger_iff.mp hinteger).1, value_of_isInteger hinteger⟩
  · rintro ⟨hfinite, hvalue⟩
    have hinteger := isInteger_of_value hfinite hvalue
    rw [value_of_isInteger hinteger] at hvalue
    exact ⟨hinteger, Int.cast_injective hvalue⟩

/-- The integers that are read from doubles are the integers that doubles are, up to the last one that no other integer
    is rounded to. -/
theorem isSafeInteger_and_truncate_iff : Payload.isSafeInteger x = true ∧ x.truncate = z ↔
    x.isFinite = true ∧ x.value = z ∧ z.natAbs ≤ 2 ^ 53 - 1 := by
  rw [Payload.isSafeInteger, Bool.and_eq_true, decide_eq_true_eq, ← and_assoc, ← isInteger_and_truncate_iff,
    and_right_comm]
  refine and_congr_right fun h => ?_
  rw [h.2]
  exact Nat.lt_iff_le_pred (by decide)

/-! ### Cutting off what stands after the point -/

theorem ofMagnitude_parts {negative : Bool} {m : Nat} (h : m < signBit) :
    (ofMagnitude negative m).magnitude = m ∧ (ofMagnitude negative m).isNegative = negative := by
  have hsign : signBit = 9223372036854775808 := rfl
  have hbits : (ofMagnitude negative m).bits.toNat = if negative then signBit + m else m := by
    rw [ofMagnitude, Nat.toUInt64, UInt64.toNat_ofNat']
    refine Nat.mod_eq_of_lt ?_
    split <;> omega
  rw [magnitude, isNegative, hbits]
  cases negative with
  | true =>
    rw [if_pos rfl, Nat.add_mod_left, Nat.mod_eq_of_lt h]
    exact ⟨rfl, decide_eq_true (Nat.le_add_right _ _)⟩
  | false =>
    rw [if_neg Bool.false_ne_true, Nat.mod_eq_of_lt h]
    exact ⟨rfl, decide_eq_false (Nat.not_le.mpr h)⟩

theorem significand_lt (x : Double) : x.significand < 2 ^ 53 := by
  have hhidden : hiddenBit = 2 ^ 52 := rfl
  have hmod := Nat.mod_lt x.magnitude (show 0 < hiddenBit by decide)
  unfold significand
  split <;> omega

/-- In a number with `p` binary places, at most fifty-two, the last `p` bits are those after the point. -/
theorem clear_places {x y : Double} {p : Nat} (hp : p ≤ 52) (hx : x.exponent = -p)
    (hy : y.magnitude = x.magnitude / 2 ^ p * 2 ^ p) :
    y.exponent = -p ∧ y.significand = x.significand / 2 ^ p * 2 ^ p := by
  obtain ⟨k, hk⟩ : 2 ^ p ∣ 2 ^ 52 := Nat.pow_dvd_pow 2 hp
  have hhidden : hiddenBit = 2 ^ p * k := hk
  have hpos : 0 < 2 ^ p := Nat.two_pow_pos p
  have hnormal : ¬x.magnitude < hiddenBit := by
    intro h
    rw [exponent, if_pos h] at hx
    omega
  have hquotient : y.magnitude / hiddenBit = x.magnitude / hiddenBit := by
    rw [hy, hhidden, Nat.mul_comm (2 ^ p) k, Nat.mul_div_mul_right _ _ hpos, Nat.div_div_eq_div_mul,
      Nat.mul_comm k]
  have hremainder : y.magnitude % hiddenBit = x.magnitude % hiddenBit / 2 ^ p * 2 ^ p := by
    rw [hy, hhidden, Nat.mod_mul_right_div_self, Nat.mul_comm (2 ^ p) k, Nat.mul_mod_mul_right]
  have hnormal' : ¬y.magnitude < hiddenBit := by
    rw [← Nat.div_eq_zero_iff_lt (by decide), hquotient, Nat.div_eq_zero_iff_lt (by decide)]
    exact hnormal
  constructor
  · rw [← hx, exponent, exponent, if_neg hnormal, if_neg hnormal', hquotient]
  · rw [significand, significand, if_neg hnormal, if_neg hnormal', hremainder, hhidden, Nat.mul_add_div hpos,
      Nat.add_mul, Nat.mul_comm k]

theorem magnitude_lt (x : Double) : x.magnitude < signBit := Nat.mod_lt _ (by decide)

/-- A number with more than fifty-two binary places is less than one. -/
theorem trunc_small {p : Nat} (hp : 52 < p) (hx : x.exponent = -p) (negative : Bool) :
    (ofMagnitude negative 0).isInteger = true ∧ (ofMagnitude negative 0).truncate = x.truncate := by
  have hmagnitude : (ofMagnitude negative 0).magnitude = 0 := (ofMagnitude_parts (by decide)).1
  have hsignificand : (ofMagnitude negative 0).significand = 0 := by
    rw [significand, hmagnitude]
    rfl
  have hplaces : (-x.exponent).toNat = p := by omega
  have hneg : ¬0 ≤ x.exponent := by omega
  have hzero : x.significand / 2 ^ p = 0 :=
    Nat.div_eq_of_lt (Nat.lt_of_lt_of_le x.significand_lt (Nat.pow_le_pow_right (by decide) hp))
  constructor
  · refine isInteger_iff.mpr ⟨?_, fun _ => ?_⟩
    · rw [isFinite, hmagnitude]
      rfl
    · rw [hsignificand]
      exact Nat.dvd_zero _
  · rw [truncate_eq, truncate_eq, wholeMagnitude, wholeMagnitude, hsignificand, if_neg hneg, hplaces, hzero]
    simp

/-- With fewer places the bits after the point are cleared. -/
theorem trunc_large {p : Nat} (hp : p ≤ 52) (hx : x.exponent = -p) (hneg : ¬0 ≤ x.exponent)
    (hfinite : x.isFinite = true) {y : Double} (hy : y = ofMagnitude x.isNegative (x.magnitude / 2 ^ p * 2 ^ p)) :
    y.isInteger = true ∧ y.truncate = x.truncate := by
  have hle : x.magnitude / 2 ^ p * 2 ^ p ≤ x.magnitude := Nat.div_mul_le_self _ _
  obtain ⟨hmagnitude, hsign⟩ : y.magnitude = x.magnitude / 2 ^ p * 2 ^ p ∧ y.isNegative = x.isNegative :=
    hy ▸ ofMagnitude_parts (Nat.lt_of_le_of_lt hle x.magnitude_lt)
  obtain ⟨hexponent, hsignificand⟩ := clear_places hp hx hmagnitude
  have hplaces : (-y.exponent).toNat = p := by omega
  constructor
  · refine isInteger_iff.mpr ⟨?_, fun _ => ?_⟩
    · rw [isFinite, decide_eq_true_eq] at hfinite ⊢
      rw [hmagnitude]
      exact Nat.lt_of_le_of_lt hle hfinite
    · rw [hplaces, hsignificand]
      exact Nat.dvd_mul_left _ _
  · have hwhole : y.wholeMagnitude = x.wholeMagnitude := by
      rw [wholeMagnitude, wholeMagnitude, hexponent, ← hx, if_neg hneg, if_neg hneg, hsignificand, hx, neg_neg,
        Int.toNat_natCast, Nat.mul_div_cancel _ (Nat.two_pow_pos p)]
    rw [truncate_eq, truncate_eq, unit, unit, hsign, hwhole]

/-- What is left before the point is an integer, the integer part. -/
theorem trunc_eq (h : x.isFinite = true) : x.trunc.isInteger = true ∧ x.trunc.truncate = x.truncate := by
  unfold trunc
  split
  · rename_i hpos
    exact ⟨isInteger_iff.mpr ⟨h, fun hneg => absurd hpos (not_le.mpr hneg)⟩, rfl⟩
  · rename_i hneg
    obtain ⟨p, hp⟩ : ∃ p : Nat, x.exponent = -p := ⟨(-x.exponent).toNat, by omega⟩
    have hplaces : (-x.exponent).toNat = p := by omega
    rw [hplaces]
    dsimp only
    split
    · rename_i hmany
      exact trunc_small hmany hp _
    · rename_i hfew
      refine trunc_large (Nat.not_lt.mp hfew) hp hneg h ?_
      rw [Nat.shiftRight_eq_div_pow, Nat.shiftLeft_eq]

end CelSuite.Double
