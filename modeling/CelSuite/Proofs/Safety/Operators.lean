import CelSuite.Expr.Eval
import CelSuite.Proofs.Safety.Values

/-! # Operators and functions give well-formed values

What an operator or a function makes is a scalar in its range or a double. What an operator takes out of a
well-formed operand is well formed, and so is what it puts together from well-formed operands. -/

namespace CelSuite

variable [MessageSystem] {v l r : Value}

open Value

theorem wellFormed_of_scalar {x : Except EvalError Value} (h : Yields SoundScalar x) : Yields WellFormed x :=
  h.mono fun _ => SoundScalar.wellFormed

namespace Operators

theorem unary_wellFormed (op : UnaryOp) (v : Value) : Yields WellFormed (unary op v) := by
  unfold unary
  split
  · exact yields_ok (SoundScalar.wellFormed ⟨trivial, trivial⟩)
  · exact wellFormed_of_scalar (checkedInt_scalar _)
  · exact yields_ok (wellFormed_double _)
  · exact yields_ok (SoundScalar.wellFormed ⟨trivial, trivial⟩)
  · exact yields_error

theorem floating_wellFormed (op : Arith) (a b : Double) : Yields WellFormed (floating op a b) := by
  cases op with
  | mod => exact yields_error
  | add | sub | mul | div => exact yields_ok (wellFormed_double _)

theorem list_append_wellFormed {xs ys : List Value} (hxs : (Value.list xs).WellFormed)
    (hys : (Value.list ys).WellFormed) : (Value.list (xs ++ ys)).WellFormed := by
  refine wellFormed_list_iff.mpr fun v hv => ?_
  rcases List.mem_append.mp hv with hv | hv
  · exact hxs.inside hv
  · exact hys.inside hv

theorem arithmetic_wellFormed (op : Arith) (hl : l.WellFormed) (hr : r.WellFormed) :
    Yields WellFormed (arithmetic op l r) := by
  unfold arithmetic
  split
  · exact wellFormed_of_scalar (int_arithmetic_scalar op _ _)
  · exact wellFormed_of_scalar (uint_arithmetic_scalar op _ _)
  · exact floating_wellFormed op _ _
  · split
    · exact yields_ok (SoundScalar.wellFormed ⟨trivial, trivial⟩)
    · exact yields_error
  · split
    · exact yields_ok (SoundScalar.wellFormed ⟨trivial, trivial⟩)
    · exact yields_error
  · split
    · exact yields_ok (list_append_wellFormed hl hr)
    · exact yields_error
  · split
    · exact yields_ok (SoundScalar.wellFormed ⟨trivial, trivial⟩)
    · exact yields_ok (SoundScalar.wellFormed ⟨trivial, trivial⟩)
    · exact yields_error
  · exact yields_error

theorem binary_wellFormed (op : BinaryOp) (hl : l.WellFormed) (hr : r.WellFormed) :
    Yields WellFormed (binary op l r) := by
  cases op with
  | equal | notEqual => exact yields_ok (SoundScalar.wellFormed ⟨trivial, trivial⟩)
  | less | lessEqual | greater | greaterEqual => exact wellFormed_of_scalar (ordered_scalar l r _)
  | member => exact wellFormed_of_scalar (contains_scalar r l)
  | add | sub | mul | div | mod => exact arithmetic_wellFormed _ hl hr
  | and | or => exact yields_error

theorem logical_wellFormed (decisive : Bool) (x y : Except EvalError Value) :
    Yields WellFormed (logical decisive x y) := by
  have hbool (b : Bool) : Yields WellFormed (.ok (.bool b) : Except EvalError Value) :=
    yields_ok (SoundScalar.wellFormed ⟨trivial, trivial⟩)
  unfold logical
  refine .bind_last fun l => ?_
  split
  · exact hbool _
  refine .bind_last fun r => ?_
  split
  · exact hbool _
  refine .bind_last fun a => .bind_last fun b => ?_
  split
  · exact hbool _
  · exact yields_error

theorem select_wellFormed (hv : v.WellFormed) (field : String) : Yields WellFormed (select v field) := by
  unfold select
  split
  · split
    · rename_i hlookup
      exact yields_ok (hv.lookup hlookup)
    · exact yields_error
  · split
    · rename_i hfield
      exact yields_ok (hv.field hfield)
    · exact yields_error
  · exact yields_error

theorem index_wellFormed (hv : v.WellFormed) (i : Value) : Yields WellFormed (index v i) := by
  unfold index
  split
  · split
    · rename_i hitem
      split at hitem
      · exact yields_ok (hv.inside (List.mem_of_getElem? hitem))
      · cases hitem
    · exact yields_error
  · exact yields_error
  · split
    · rename_i hlookup
      exact yields_ok (hv.lookup hlookup)
    · exact yields_error
  · exact yields_error

end Operators

namespace Functions

theorem toDouble_wellFormed (v : Value) : Yields WellFormed (toDouble v) := by
  unfold toDouble
  split
  · exact yields_ok (wellFormed_double _)
  · exact yields_ok (wellFormed_double _)
  · exact yields_ok (wellFormed_double _)
  · split
    · exact yields_ok (wellFormed_double _)
    · exact yields_error
  · exact yields_error

theorem apply_wellFormed (function : String) (hv : v.WellFormed) : Yields WellFormed (apply function v) := by
  have hconverted : ∀ u, u = v ∨ u.SoundScalar → u.WellFormed := by
    rintro u (rfl | hu)
    · exact hv
    · exact hu.wellFormed
  unfold apply
  split
  · exact wellFormed_of_scalar (size_scalar v)
  split
  · exact yields_ok (SoundScalar.wellFormed ⟨trivial, trivial⟩)
  split
  · exact yields_ok hv
  split
  · exact (toInt_scalar v).mono hconverted
  split
  · exact (toUint_scalar v).mono hconverted
  split
  · exact toDouble_wellFormed v
  split
  · exact wellFormed_of_scalar (toText_scalar v)
  · exact wellFormed_of_scalar (toDuration_scalar v)

theorem call_wellFormed (container function : String) {args : List Value} (hargs : ∀ v ∈ args, v.WellFormed) :
    Yields WellFormed (call container function args) := by
  unfold call
  split
  · split
    · exact apply_wellFormed function (hargs _ List.mem_cons_self)
    · exact yields_error
  · exact yields_error

end Functions

theorem Expr.buildMap_wellFormed {entries : List (Value × Value)}
    (h : ∀ e ∈ entries, e.1.WellFormed ∧ e.2.WellFormed) : Yields WellFormed (Expr.buildMap entries) := by
  intro v hv
  obtain ⟨m, hm, rfl⟩ := map_eq_ok.mp (mapError_eq_ok.mp (Exception.catching_eq_ok.mp hv))
  have hempty : (Value.map []).WellFormed := wellFormed_map_iff.mpr ⟨⟨nofun, List.nodup_nil⟩, nofun⟩
  exact addEntries_wellFormed hempty h m hm

end CelSuite
