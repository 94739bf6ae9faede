import CelSuite.Proofs.Functions.Durations
import CelSuite.Text.Characters
import CelSuite.Value.Render
import Mathlib.Algebra.Group.Nat.Defs

/-! # Numbers read back

The digits of a number read as the number, and behind a minus as the negative one. A number of nanoseconds is written
as one segment of seconds with the zeros at the end of its fraction left out, and reads as the same duration: nine
digits always suffice, and a zero that is left out weighs nothing. -/

namespace CelSuite.Text

variable {cs ds : List Char} {c : Char}

/-! ### Integers -/

/-- An integer reads back from its text. -/
theorem signedInteger?_repr (n : Int) : signedInteger? (trimChars n.repr.toList) = some n := by
  have hblank (m : Nat) : ∀ c ∈ m.repr.toList, isBlank c = false := fun c hc =>
    isBlank_of_isDigit (isDigit_repr m c hc)
  rw [Int.repr_eq_if]
  split
  · rename_i hpos
    rw [trimChars_eq_self (hblank _), signedInteger?_digits (isDigit_repr _) (repr_ne_nil _), ofDigits_repr,
      Int.toNat_of_nonneg hpos]
  · rename_i hneg
    have hminus : ∀ c ∈ '-' :: (-n).toNat.repr.toList, isBlank c = false :=
      List.forall_mem_cons.mpr ⟨rfl, hblank _⟩
    have hall : (-n).toNat.repr.toList.all isDigit = true := List.all_eq_true.mpr (isDigit_repr _)
    have htext : ("-" ++ (-n).toNat.repr).toList = '-' :: (-n).toNat.repr.toList := String.toList_append
    rw [htext, trimChars_eq_self hminus, signedInteger?, if_pos ⟨repr_ne_nil _, hall⟩, ofDigits_repr,
      Int.toNat_of_nonneg (by omega), Int.neg_neg]

end CelSuite.Text

namespace CelSuite
open Text

/-! ### Fractions -/

/-- Nine digits for a number of nanoseconds. -/
def paddedNanos (nanos : Nat) : List Char :=
  List.replicate (9 - nanos.repr.toList.length) '0' ++ nanos.repr.toList

theorem paddedNanos_length {nanos : Nat} (h : nanos < Duration.nanosPerSecond) :
    (paddedNanos nanos).length = 9 := by
  have hlen : nanos.repr.toList.length ≤ 9 := by
    rw [Nat.toList_repr]
    exact (Nat.length_toDigits_le_iff (by decide) (by decide)).mpr h
  rw [paddedNanos, List.length_append, List.length_replicate]
  omega

theorem ofDigits_paddedNanos (nanos : Nat) : ofDigits (paddedNanos nanos) = nanos := by
  rw [paddedNanos, ofDigits_append, ofDigits_zeros, ofDigits_repr, Nat.zero_mul, Nat.zero_add]

/-- A text is what its zeros at the end leave, and these zeros. -/
theorem dropWhile_zeros (ds : List Char) :
    ∃ k, (ds.reverse.dropWhile (· == '0')).reverse ++ List.replicate k '0' = ds := by
  have hzeros : ∀ c ∈ ds.reverse.takeWhile (· == '0'), c = '0' := fun c hc =>
    beq_iff_eq.mp (List.all_eq_true.mp List.all_takeWhile c hc)
  refine ⟨(ds.reverse.takeWhile (· == '0')).length, ?_⟩
  rw [← List.reverse_replicate, ← List.eq_replicate_of_mem hzeros, ← List.reverse_append,
    List.takeWhile_append_dropWhile, List.reverse_reverse]

/-- A fraction is nine digits without the zeros at the end. -/
theorem renderFraction_append (nanos : Nat) :
    ∃ k, renderFraction nanos ++ List.replicate k '0' = paddedNanos nanos :=
  dropWhile_zeros (paddedNanos nanos)

/-- A fraction without the zeros at its end weighs as much as with them. -/
theorem renderFraction_weight {nanos : Nat} (h : nanos < Duration.nanosPerSecond) :
    ofDigits (renderFraction nanos) * Duration.nanosPerSecond / 10 ^ (renderFraction nanos).length = nanos := by
  obtain ⟨k, hfraction⟩ := renderFraction_append nanos
  have hlen : (renderFraction nanos).length + k = 9 := by
    rw [← paddedNanos_length h, ← hfraction, List.length_append, List.length_replicate]
  have hvalue := ofDigits_paddedNanos nanos
  rw [← hfraction, ofDigits_append, ofDigits_zeros, List.length_replicate, Nat.add_zero] at hvalue
  have hsecond : Duration.nanosPerSecond = 10 ^ k * 10 ^ (renderFraction nanos).length := by
    rw [← Nat.pow_add, Nat.add_comm, hlen]
    rfl
  rw [hsecond, ← Nat.mul_assoc, hvalue, Nat.mul_div_cancel _ (Nat.pow_pos (by decide))]

theorem isDigit_renderFraction (nanos : Nat) : ∀ c ∈ renderFraction nanos, isDigit c = true := by
  obtain ⟨k, hfraction⟩ := renderFraction_append nanos
  intro c hc
  have hmem : c ∈ paddedNanos nanos := hfraction ▸ List.mem_append_left _ hc
  rcases List.mem_append.mp hmem with hmem | hmem
  · rw [List.eq_of_mem_replicate hmem]
    rfl
  · exact isDigit_repr nanos c hmem

theorem renderFraction_ne_nil {nanos : Nat} (hne : nanos ≠ 0) : renderFraction nanos ≠ [] := by
  obtain ⟨k, hfraction⟩ := renderFraction_append nanos
  intro hnil
  rw [hnil, List.nil_append] at hfraction
  have hvalue := ofDigits_paddedNanos nanos
  rw [← hfraction, ofDigits_zeros] at hvalue
  exact hne hvalue.symm

namespace Duration

def Number.ofNat (n : Nat) : Number := ⟨n.repr.toList, repr_ne_nil n, isDigit_repr n⟩

theorem Number.value_ofNat (n : Nat) : (Number.ofNat n).value = n :=
  (Number.ofDigits (.ofNat n)).symm.trans (ofDigits_repr n)

/-- The one segment that a number of nanoseconds is written as. -/
def inSeconds (n : Nat) : Segment where
  whole := .ofNat (n / nanosPerSecond)
  fraction :=
    if h : n % nanosPerSecond = 0 then none
    else some ⟨renderFraction (n % nanosPerSecond), renderFraction_ne_nil h, isDigit_renderFraction _⟩
  unit := .second

theorem inSeconds_nanos (n : Nat) : (inSeconds n).nanos = n := by
  have hsmall : n % nanosPerSecond < nanosPerSecond := Nat.mod_lt n (by decide)
  have hunit : TimeUnit.second.nanos = nanosPerSecond := rfl
  rw [inSeconds, Segment.nanos, Number.value_ofNat, hunit]
  dsimp only
  split
  · rename_i hzero
    rw [Option.elim_none, ← hzero, Nat.div_add_mod']
  · rw [Option.elim_some, ← Number.ofDigits, renderFraction_weight hsmall, Nat.div_add_mod']

theorem renderNanos_eq (n : Int) :
    renderNanos n = (if n < 0 then ['-'] else []) ++ (inSeconds n.natAbs).text := by
  unfold renderNanos inSeconds Segment.text
  dsimp only
  split <;> split <;> simp [Number.ofNat, TimeUnit.name, *]

/-- A duration reads back from its text. -/
theorem parse_renderNanos (n : Int) : parse (renderNanos n) = .ok n := by
  have hne : [inSeconds n.natAbs] ≠ [] := List.cons_ne_nil _ _
  have htext : [inSeconds n.natAbs].flatMap Segment.text = (inSeconds n.natAbs).text :=
    List.flatMap_singleton _ _
  have hsum : ([inSeconds n.natAbs].map Segment.nanos).sum = n.natAbs := by simp [inSeconds_nanos]
  rw [parse_eq_ok, renderNanos_eq, ← htext]
  split
  · have hdenotes := Denotes.negative hne
    rw [hsum] at hdenotes
    have habs : -(n.natAbs : Int) = n := by omega
    rwa [habs] at hdenotes
  · have hdenotes := Denotes.unsigned hne
    rw [hsum] at hdenotes
    have habs : (n.natAbs : Int) = n := by omega
    rwa [habs] at hdenotes

end Duration

end CelSuite
