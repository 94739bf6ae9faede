import CelSuite.Expr.Eval
import CelSuite.Proofs.Equality.Values
import CelSuite.Proofs.Except

/-! # Operators and functions cannot tell equal values apart

On same operands an operator or function gives same values or one error. On scalars there is nothing to show
but that the result is a scalar; lists are read by their items and maps by their keys. -/

namespace CelSuite

variable {v w l l' r r' : Value} {xs ys : List Value} {as bs : Entries}

open Value

/-! ### Scalars -/

theorem agree_of_scalar {x : Except EvalError Value} (h : Yields IsScalar x) : Agree Same x x :=
  (h.mono fun _ => same_of_scalar).agree

theorem agree_of_soundScalar {x : Except EvalError Value} (h : Yields SoundScalar x) : Agree Same x x :=
  agree_of_scalar (h.mono fun _ => SoundScalar.scalar)

/-- A function that gives scalars for scalars and covers no list and no map. -/
theorem agree_of_shape {f : Value → Except EvalError Value} (hf : ∀ v, v.IsScalar → Yields IsScalar (f v))
    (hlist : ∀ xs, f (.list xs) = .error .noSuchOverload) (hmap : ∀ as, f (.map as) = .error .noSuchOverload)
    (h : Same v w) : Agree Same (f v) (f w) := by
  cases h.shape with
  | scalar hv => exact agree_of_scalar (hf v hv)
  | list =>
    rw [hlist, hlist]
    exact .error _
  | map =>
    rw [hmap, hmap]
    exact .error _

namespace Operators

theorem unary_exact (op : UnaryOp) (hv : v.IsScalar) : Yields IsScalar (unary op v) := by
  unfold unary
  split
  · exact yields_ok trivial
  · exact (checkedInt_scalar _).mono fun _ => SoundScalar.scalar
  · exact hv.elim
  · exact yields_ok trivial
  · exact yields_error

theorem unary_same (op : UnaryOp) (h : Same v w) : Agree Same (unary op v) (unary op w) := by
  refine agree_of_shape (fun v hv => unary_exact op hv) (fun xs => ?_) (fun as => ?_) h
  · cases op <;> rfl
  · cases op <;> rfl

theorem arithmetic_exact (op : Arith) (hl : l.IsScalar) (r : Value) : Yields IsScalar (arithmetic op l r) := by
  unfold arithmetic
  split
  · exact (int_arithmetic_scalar op _ _).mono fun _ => SoundScalar.scalar
  · exact (uint_arithmetic_scalar op _ _).mono fun _ => SoundScalar.scalar
  · exact hl.elim
  · split
    · exact yields_ok trivial
    · exact yields_error
  · split
    · exact yields_ok trivial
    · exact yields_error
  · exact hl.elim
  · split
    · exact yields_ok trivial
    · exact yields_ok trivial
    · exact yields_error
  · exact yields_error

theorem arithmetic_same (op : Arith) (hl : Same l l') (hr : Same r r') :
    Agree Same (arithmetic op l r) (arithmetic op l' r') := by
  cases hl.shape with
  | scalar hscalar =>
    cases hr.shape with
    | scalar => exact agree_of_scalar (arithmetic_exact op hscalar r)
    | list | map =>
      cases l with
      | double | list | map | message => exact hscalar.elim
      | _ => exact .error _
  | list hxs =>
    cases hr.shape with
    | scalar hscalar =>
      cases r with
      | double | list | map | message => exact hscalar.elim
      | _ => exact .error _
    | list hys =>
      simp only [arithmetic]
      split
      · exact .ok (same_list (List.rel_append hxs hys))
      · exact .error _
    | map => exact .error _
  | map => exact .error _

theorem compare_same (hl : Same l l') (hr : Same r r') : compare l r = compare l' r' := by
  cases hl.shape with
  | scalar =>
    cases hr.shape with
    | scalar => rfl
    | list | map => cases l <;> rfl
  | list | map => rfl

theorem any_equal_same (hxs : List.Forall₂ Same xs ys) (h : Same v w) :
    (xs.any fun x => x.equal v) = ys.any fun y => y.equal w := by
  induction hxs with
  | nil => rfl
  | cons hxy _ ih => rw [List.any_cons, List.any_cons, hxy.equal_eq h, ih]

theorem lookup_same (h : ∀ k, Option.Rel Same (Assoc.get? k as) (Assoc.get? k bs)) (hk : Same v w) :
    Option.Rel Same (lookup as v) (lookup bs w) := by
  unfold lookup
  rw [hk.key?]
  cases w.key? with
  | none => exact .none
  | some k => exact h k

theorem contains_same (hl : Same l l') (hr : Same r r') : Agree Same (contains l r) (contains l' r') := by
  cases hl.shape with
  | scalar hscalar =>
    cases l with
    | list | map => exact hscalar.elim
    | _ => exact .error _
  | list hxs =>
    simp only [contains]
    rw [any_equal_same hxs hr]
    exact .ok (same_of_scalar trivial)
  | map _ _ hkeys =>
    simp only [contains]
    rw [isSome_of_rel (lookup_same hkeys hr)]
    exact .ok (same_of_scalar trivial)

theorem binary_same (op : BinaryOp) (hl : Same l l') (hr : Same r r') :
    Agree Same (binary op l r) (binary op l' r') := by
  have ordered (f : Ordering → Bool) :
      Agree Same ((compare l r).map fun o => .bool (f o)) ((compare l' r').map fun o => .bool (f o)) := by
    rw [compare_same hl hr]
    exact agree_of_soundScalar (ordered_scalar l' r' f)
  cases op with
  | equal | notEqual =>
    simp only [binary]
    rw [hl.equal_eq hr]
    exact .ok (same_of_scalar trivial)
  | less | lessEqual | greater | greaterEqual => exact ordered _
  | member => exact contains_same hr hl
  | add | sub | mul | div | mod => exact arithmetic_same _ hl hr
  | and | or => exact .error _

theorem select_same [MessageSystem] (h : Same v w) (field : String) :
    Agree Same (select v field) (select w field) := by
  cases h.shape with
  | scalar hscalar =>
    cases v with
    | map | message => exact hscalar.elim
    | _ => exact .error _
  | list => exact .error _
  | map _ _ hkeys =>
    have hfield : Same (.string field) (.string field) := same_of_scalar trivial
    simp only [select]
    rcases rel_cases (lookup_same hkeys hfield) with ⟨a, b, ha, hb, hab⟩ | ⟨ha, hb⟩
    · rw [ha, hb]
      exact .ok hab
    · rw [ha, hb]
      exact .error _

theorem item_same (h : List.Forall₂ Same xs ys) (i : Int) :
    Option.Rel Same (if 0 ≤ i then xs[i.toNat]? else none) (if 0 ≤ i then ys[i.toNat]? else none) := by
  split
  · generalize i.toNat = n
    induction h generalizing n with
    | nil => exact .none
    | cons hxy _ ih =>
      cases n with
      | zero => exact .some hxy
      | succ n => exact ih n
  · exact .none

theorem index_same (hv : Same v w) (hi : Same l r) : Agree Same (index v l) (index w r) := by
  cases hv.shape with
  | scalar hscalar =>
    cases v with
    | list | map => exact hscalar.elim
    | _ => exact .error _
  | list hxs =>
    cases hi.shape with
    | scalar =>
      cases l with
      | int i =>
        simp only [index]
        rcases rel_cases (item_same hxs i) with ⟨a, b, ha, hb, hab⟩ | ⟨ha, hb⟩
        · rw [ha, hb]
          exact .ok hab
        · rw [ha, hb]
          exact .error _
      | _ => exact .error _
    | list | map => exact .error _
  | map _ _ hkeys =>
    simp only [index]
    rcases rel_cases (lookup_same hkeys hi) with ⟨a, b, ha, hb, hab⟩ | ⟨ha, hb⟩
    · rw [ha, hb]
      exact .ok hab
    · rw [ha, hb]
      exact .error _

theorem gave_same {x y : Except EvalError Value} (b : Bool) (h : Agree Same x y) : gave b x = gave b y := by
  cases h with
  | ok h => cases h.shape <;> rfl
  | error => rfl

theorem attempt_same {x y : Except EvalError Value} (h : Agree Same x y) :
    Agree (Agree Same) (attempt x) (attempt y) := by
  cases h with
  | ok h => exact .ok (.ok h)
  | error e => cases e <;> first | exact .error _ | exact .ok (.error _)

theorem logical_same (decisive : Bool) {x x' y y' : Except EvalError Value} (hx : Agree Same x x')
    (hy : Agree Same y y') : Agree Same (logical decisive x y) (logical decisive x' y') := by
  unfold logical
  refine ((attempt_same hx).mapError _).bind fun l l' hl => ?_
  rw [gave_same decisive hl]
  split
  · exact .ok (same_of_scalar trivial)
  refine ((attempt_same hy).mapError _).bind fun r r' hr => ?_
  rw [gave_same decisive hr]
  split
  · exact .ok (same_of_scalar trivial)
  -- Neither operand decides: the left error wins, and without errors both have to be bools.
  refine hl.bind fun a a' ha => hr.bind fun b b' hb => ?_
  cases hb.shape with
  | scalar =>
    cases b with
    | bool =>
      cases ha.shape with
      | scalar =>
        cases a with
        | bool => exact .ok (same_of_scalar trivial)
        | _ => exact .error _
      | list | map => exact .error _
    | _ =>
      cases ha.shape with
      | scalar => cases a <;> exact .error _
      | list | map => exact .error _
  | list | map =>
    cases ha.shape with
    | scalar => cases a <;> exact .error _
    | list | map => exact .error _

end Operators

namespace Functions
open Operators

theorem size_same (h : Same v w) : Agree Same (size v) (size w) := by
  cases h.shape with
  | scalar => exact agree_of_soundScalar (size_scalar v)
  | list hxs =>
    simp only [size]
    rw [hxs.length_eq]
    exact agree_of_soundScalar (checkedInt_scalar _)
  | map =>
    simp only [size]
    rw [h.length_eq]
    exact agree_of_soundScalar (checkedInt_scalar _)

/-- Every function but the conversion to a double. -/
theorem apply_same {function : String} (hf : function ≠ "double") (h : Same v w) :
    Agree Same (apply function v) (apply function w) := by
  have hconverted {f : Value → Except EvalError Value} (hf : ∀ v, Yields (fun u => u = v ∨ u.SoundScalar) (f v))
      (v : Value) (hv : v.IsScalar) : Yields IsScalar (f v) := by
    refine (hf v).mono ?_
    rintro u (rfl | hu)
    · exact hv
    · exact hu.scalar
  unfold apply
  split
  · exact size_same h
  split
  · rw [h.typeName]
    exact .ok (same_of_scalar trivial)
  split
  · exact .ok h
  split
  · exact agree_of_shape (hconverted toInt_scalar) (fun _ => rfl) (fun _ => rfl) h
  split
  · exact agree_of_shape (hconverted toUint_scalar) (fun _ => rfl) (fun _ => rfl) h
  split
  · refine agree_of_shape (fun v _ => ?_) (fun _ => rfl) (fun _ => rfl) h
    exact (toText_scalar v).mono fun _ => SoundScalar.scalar
  · refine agree_of_shape (fun v _ => ?_) (fun _ => rfl) (fun _ => rfl) h
    exact (toDuration_scalar v).mono fun _ => SoundScalar.scalar

theorem call_same (container : String) {function : String} (hf : function ≠ "double")
    (h : List.Forall₂ Same xs ys) : Agree Same (call container function xs) (call container function ys) := by
  unfold call
  split
  · cases h with
    | nil => exact .error _
    | cons hv hrest =>
      cases hrest with
      | nil => exact apply_same hf hv
      | cons => exact .error _
  · exact .error _

end Functions

/-! ### Maps -/

/-- Two lists of entries with same keys and same values, place by place. -/
abbrev SameEntries : List (Value × Value) → List (Value × Value) → Prop :=
  List.Forall₂ fun e e' => Same e.1 e'.1 ∧ Same e.2 e'.2

theorem addEntries_same {es es' : List (Value × Value)} (h : SameEntries es es') {m m' : Entries}
    (hm : Same (.map m) (.map m')) :
    Agree (fun m m' => Same (.map m) (.map m')) (addEntries m es) (addEntries m' es') := by
  induction h generalizing m m' with
  | nil => exact .ok hm
  | cons he _ ih =>
    obtain ⟨hk, hv⟩ := he
    rw [addEntries, addEntries, hk.key?, hk.typeName]
    split
    · rename_i key _
      refine ih ?_
      cases hm.shape with
      | scalar hscalar => exact hscalar.elim
      | map ha hb hkeys =>
        refine same_map (Assoc.nodup_put key _ ha) (Assoc.nodup_put key _ hb) fun k => ?_
        rw [Assoc.get?_put, Assoc.get?_put]
        split
        · exact .some hv
        · exact hkeys k
    · exact .error _

theorem Expr.buildMap_same {es es' : List (Value × Value)} (h : SameEntries es es') :
    Agree Same (buildMap es) (buildMap es') := by
  have hempty : Same (.map []) (.map []) := same_map List.nodup_nil List.nodup_nil fun _ => .none
  have hadd := addEntries_same h hempty
  unfold buildMap ofEntries
  generalize addEntries [] es = x at hadd ⊢
  generalize addEntries [] es' = y at hadd ⊢
  cases hadd with
  | ok hm => exact .ok hm
  | error e => exact .error _

end CelSuite
