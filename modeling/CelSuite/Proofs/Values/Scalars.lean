import CelSuite.Expr.Functions
import CelSuite.Proofs.Except
import CelSuite.Proofs.Rendering.Values

/-! # Scalars

A scalar is equal to itself only. What a conversion makes is a scalar in its range, whatever it is given, and
so is what a comparison or a membership test answers. -/

namespace CelSuite

namespace Value

/-- A value that is equal to itself only. -/
def IsScalar : Value → Prop
  | .double _ | .list _ | .map _ | .message _ _ _ => False
  | _ => True

/-- What a value on its own has to keep: a number is in its range, and the keys of a map are distinct and in
    their ranges. -/
def Sound : Value → Prop
  | .int n => InIntRange n
  | .uint n => InUintRange n
  | .map entries => (∀ e ∈ entries, e.1.InRange) ∧ (entries.map (·.1)).Nodup
  | _ => True

/-- A scalar in its range. -/
structure SoundScalar (v : Value) : Prop where
  scalar : v.IsScalar
  sound : v.Sound

end Value

open Value

namespace Operators

theorem checkedInt_scalar (n : Int) : Yields SoundScalar (checkedInt n) := by
  rw [checkedInt_eq]
  split
  · rename_i range
    exact yields_ok ⟨trivial, range⟩
  · exact yields_error

theorem checkedUint_scalar (n : Int) : Yields SoundScalar (checkedUint n) := by
  rw [checkedUint_eq]
  split
  · rename_i range
    have hn : (n.toNat : Int) = n := Int.toNat_of_nonneg range.1
    exact yields_ok ⟨trivial, hn.symm ▸ range⟩
  · exact yields_error

theorem int_arithmetic_scalar (op : Arith) (a b : Int) : Yields SoundScalar (integer op a b >>= checkedInt) :=
  Yields.bind_last checkedInt_scalar

theorem uint_arithmetic_scalar (op : Arith) (a b : Int) : Yields SoundScalar (integer op a b >>= checkedUint) :=
  Yields.bind_last checkedUint_scalar

theorem contains_scalar (l r : Value) : Yields SoundScalar (contains l r) := by
  unfold contains
  split
  · exact yields_ok ⟨trivial, trivial⟩
  · exact yields_ok ⟨trivial, trivial⟩
  · exact yields_error

theorem ordered_scalar (l r : Value) (f : Ordering → Bool) :
    Yields SoundScalar ((compare l r).map fun o => .bool (f o)) := fun v h => by
  obtain ⟨o, -, rfl⟩ := map_eq_ok.mp h
  exact ⟨trivial, trivial⟩

end Operators

namespace Functions
open Operators

theorem size_scalar (v : Value) : Yields SoundScalar (size v) := by
  unfold size
  split
  · exact checkedInt_scalar _
  · exact checkedInt_scalar _
  · exact checkedInt_scalar _
  · exact checkedInt_scalar _
  · exact yields_error

/-- A conversion to an int gives its operand back or makes a scalar. -/
theorem toInt_scalar (v : Value) : Yields (fun u => u = v ∨ u.SoundScalar) (toInt v) := by
  have hchecked (n : Int) : Yields (fun u => u = v ∨ u.SoundScalar) (checkedInt n) :=
    (checkedInt_scalar n).mono fun _ => Or.inr
  unfold toInt
  split
  · exact yields_ok (Or.inl rfl)
  · exact hchecked _
  · split
    · exact .bind_last hchecked
    · exact yields_error
  · split
    · exact .bind_last hchecked
    · exact yields_error
  · exact yields_error

theorem toUint_scalar (v : Value) : Yields (fun u => u = v ∨ u.SoundScalar) (toUint v) := by
  have hchecked (n : Int) : Yields (fun u => u = v ∨ u.SoundScalar) (checkedUint n) :=
    (checkedUint_scalar n).mono fun _ => Or.inr
  unfold toUint
  split
  · exact yields_ok (Or.inl rfl)
  · exact hchecked _
  · split
    · exact .bind_last hchecked
    · exact yields_error
  · split
    · exact .bind_last hchecked
    · exact yields_error
  · exact yields_error

theorem toText_scalar (v : Value) : Yields SoundScalar (toText v) := by
  have htext (s : String) : Yields SoundScalar (.ok (.string s) : Except EvalError Value) :=
    yields_ok ⟨trivial, trivial⟩
  unfold toText
  split
  · exact htext _
  · exact htext _
  · exact htext _
  · exact htext _
  · exact htext _
  · intro v h
    obtain ⟨s, -, rfl⟩ := map_eq_ok.mp (Exception.catching_eq_ok.mp h)
    exact ⟨trivial, trivial⟩
  · exact yields_error

theorem toDuration_scalar (v : Value) : Yields SoundScalar (toDuration v) := by
  unfold toDuration
  split
  · split
    · exact yields_ok ⟨trivial, trivial⟩
    · exact yields_error
    · exact yields_error
  · exact yields_error

end Functions

end CelSuite
