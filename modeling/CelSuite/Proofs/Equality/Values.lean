import CelSuite.Proofs.Rendering.Values
import CelSuite.Proofs.Values.Equality

/-! # Values that equality knows in full

Equal doubles can differ in their sign and equal messages in their fields, but without them equal values look
the same: equal scalars are one value, equal lists have equal items, and equal maps have equal values under
the same keys. The order of the entries is all in which they can differ. -/

namespace CelSuite.Value

/-- On its own a value is neither a double nor a message, and a map has distinct keys. -/
def ExactHere : Value → Prop
  | .double _ | .message _ _ _ => False
  | .map entries => (entries.map (·.1)).Nodup
  | _ => True

/-- A value without doubles and messages, whose maps have distinct keys. -/
def Exact : Value → Prop := Every ExactHere

/-- Two equal values without doubles and messages. -/
structure Same (v w : Value) : Prop where
  left : v.Exact
  right : w.Exact
  equal : v.equal w = true

variable {u v w v' w' : Value} {xs ys : List Value} {as bs : Entries} {i : Nat}

theorem Exact.distinct (h : v.Exact) : v.Every KeysDistinct := by
  refine h.mono fun v hv => ?_
  cases v with
  | map entries => exact hv
  | _ => trivial

theorem Exact.under (h : v.Exact) (i : Nat) : v.under i = v := by
  induction h with
  | @intro v here inside ih =>
    cases v with
    | list items => exact congrArg Value.list (underItems_eq ih)
    | map entries => rw [Value.under, underEntries_eq fun e he => ih e.2 (List.mem_map_of_mem he)]
    | message => exact here.elim
    | _ => rfl

theorem Same.symm (h : Same v w) : Same w v :=
  ⟨h.right, h.left, equal_symm h.left.distinct h.right.distinct h.equal⟩

theorem Same.trans (huv : Same u v) (hvw : Same v w) : Same u w :=
  ⟨huv.left, hvw.right, equal_trans huv.left.distinct huv.equal hvw.equal⟩

/-- Equality cannot tell same values apart. -/
theorem Same.equal_eq (hv : Same v v') (hw : Same w w') : v.equal w = v'.equal w' := by
  rw [Bool.eq_iff_iff]
  constructor
  · intro h
    exact ((hv.symm.trans ⟨hv.left, hw.left, h⟩).trans hw).equal
  · intro h
    exact ((hv.trans ⟨hv.right, hw.right, h⟩).trans hw.symm).equal

theorem Same.under (h : Same v w) (i : Nat) : Same (v.under i) (w.under i) := by
  rw [h.left.under, h.right.under]
  exact h

/-! ### By kind -/

theorem same_of_scalar (hv : v.IsScalar) : Same v v := by
  have hexact : v.Exact := by
    cases v with
    | double | list | map | message => exact hv.elim
    | _ => exact every_of_leaf rfl trivial
  exact ⟨hexact, hexact, equal_iff_alike.mpr (.scalar hv)⟩

theorem same_list (h : List.Forall₂ Same xs ys) : Same (.list xs) (.list ys) := by
  have hleft := (List.forall₂_and_left xs ys).mp (h.imp fun x y hxy => ⟨hxy.left, hxy⟩)
  have hright := (List.forall₂_and_left ys xs).mp (h.flip.imp fun y x hxy => ⟨hxy.right, hxy⟩)
  have hequal := h.imp fun x y hxy => hxy.equal
  exact ⟨every_list_iff.mpr ⟨trivial, hleft.1⟩, every_list_iff.mpr ⟨trivial, hright.1⟩,
    equal_iff_alike.mpr (.list hequal)⟩

theorem same_map (ha : (as.map (·.1)).Nodup) (hb : (bs.map (·.1)).Nodup)
    (h : ∀ k, Option.Rel Same (Assoc.get? k as) (Assoc.get? k bs)) : Same (.map as) (.map bs) := by
  have hleft : ∀ e ∈ as, e.2.Exact := by
    intro e he
    have hrel := h e.1
    rw [Assoc.get?_of_mem ha he] at hrel
    obtain ⟨b, -, hb⟩ := exists_of_rel hrel
    exact hb.left
  have hright : ∀ e ∈ bs, e.2.Exact := by
    intro e he
    have hrel := rel_flip (h e.1)
    rw [Assoc.get?_of_mem hb he] at hrel
    obtain ⟨a, -, ha⟩ := exists_of_rel hrel
    exact ha.right
  refine ⟨every_map_iff.mpr ⟨ha, hleft⟩, every_map_iff.mpr ⟨hb, hright⟩, ?_⟩
  refine equal_iff_alike.mpr ((alike_map_iff ha hb).mpr fun k => ?_)
  exact rel_imp_of_eq (h k) fun _ _ _ _ hab => hab.equal

/-- The shapes of same values. -/
inductive Shape : Value → Value → Prop
  | scalar {v : Value} (hv : v.IsScalar) : Shape v v
  | list {xs ys : List Value} (h : List.Forall₂ Same xs ys) : Shape (.list xs) (.list ys)
  | map {as bs : Entries} (ha : (as.map (·.1)).Nodup) (hb : (bs.map (·.1)).Nodup)
      (h : ∀ k, Option.Rel Same (Assoc.get? k as) (Assoc.get? k bs)) : Shape (.map as) (.map bs)

theorem Same.shape (h : Same v w) : Shape v w := by
  obtain ⟨hv, hv'⟩ := every_iff.mp h.left
  obtain ⟨hw, hw'⟩ := every_iff.mp h.right
  cases equal_iff_alike.mp h.equal with
  | scalar hs => exact .scalar hs
  | double => exact hv.elim
  | message => exact hv.elim
  | list hitems =>
    exact .list (forall₂_imp_of_mem hitems fun x hx y hy hxy => ⟨hv' x hx, hw' y hy, hxy⟩)
  | map =>
    have hrel := (alike_map_iff hv hw).mp (equal_iff_alike.mp h.equal)
    refine .map hv hw fun k => rel_imp_of_eq (hrel k) fun a ha b hb hab => ⟨hv' a ?_, hw' b ?_, hab⟩
    · exact List.mem_map_of_mem (Assoc.mem_of_get? ha)
    · exact List.mem_map_of_mem (Assoc.mem_of_get? hb)

theorem Same.length_eq (h : Same (.map as) (.map bs)) : as.length = bs.length :=
  (alike_map (equal_iff_alike.mp h.equal)).1

theorem Same.typeName (h : Same v w) : v.typeName = w.typeName := by
  cases h.shape <;> rfl

theorem Same.key? (h : Same v w) : v.key? = w.key? := by
  cases h.shape <;> rfl

end CelSuite.Value
