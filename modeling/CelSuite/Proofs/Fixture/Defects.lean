import CelSuite.Proofs.Fixture.Durations
import CelSuite.Proofs.Fixture.Walk
import CelSuite.Proofs.Rendering.Values

/-! # The first defect of a literal

A literal has a value or a defect, and nothing else comes of it. It has a value exactly when all is right at
every place of it. When it has none, its defect is the first one in document order. -/

namespace CelSuite

namespace Visit

variable {r : Registry} {n : Node}

/-- The defect of an object is its namespace, or else what is wrong with the fields of a duration. -/
theorem defect?_object (typeUrl : String) (fields : List ObjectField) :
    defect? .standard (.node (.object typeUrl fields)) =
      if typeUrl = durationNamespace then fault? (durationOfFields fields)
      else some (.unsupportedNamespace typeUrl [durationNamespace]) := by
  rw [defect?, Registry.create_standard]
  split <;> rfl

/-- Behind a key whose literal has a value, the defect is the type of a value that can be no key. -/
theorem defect?_key {v : Value} (h : n.toValue r = .ok v) :
    defect? r (.key n) = if v.key?.isSome then none else some (.invalidMapKey v.typeName) := by
  rw [defect?, h]
  show fault? (Node.asKey v) = _
  unfold Node.asKey
  cases v.key? <;> rfl

theorem defect?_ofLiteral {s : Visit} {e : Defect} (h : defect? .standard s = some e) : e.OfLiteral := by
  cases s with
  | node n =>
    cases n with
    | scalar kind p => exact Node.scalarToValue_ofLiteral kind p e (fault?_eq_some.mp h)
    | object typeUrl fields =>
      rw [defect?_object] at h
      split at h
      · exact durationOfFields_ofLiteral fields e (fault?_eq_some.mp h)
      · cases h
        trivial
    | list items => cases h
    | map groups => cases h
  | key n =>
    obtain ⟨v, -, hv⟩ := Option.bind_eq_some_iff.mp h
    have hkey := fault?_eq_some.mp hv
    unfold Node.asKey at hkey
    split at hkey
    · cases hkey
    · cases hkey
      trivial

end Visit

namespace Node

variable {r : Registry} {n m : Node}

theorem toValue_eq_error {e : Defect} :
    n.toValue r = .error e ↔ n.walk.findSome? (Visit.defect? r) = some e := by
  rw [← fault?_toValue, fault?_eq_some]

theorem toValue_isOk : (∃ v, n.toValue r = .ok v) ↔ ∀ s ∈ n.walk, Visit.defect? r s = none := by
  rw [← fault?_eq_none, fault?_toValue, List.findSome?_eq_none_iff]

/-- What is inside a literal with a value has a value. -/
theorem isOk_of_mem_walk (h : ∃ v, n.toValue r = .ok v) (hm : .node m ∈ n.walk) : ∃ w, m.toValue r = .ok w :=
  toValue_isOk.mpr fun s hs => toValue_isOk.mp h s (walk_subset hm hs)

/-- All is right at every place of a literal: a scalar has a known kind and a payload that is read as that kind,
    an object is a duration with fields that fit, and the value of a key is one that can be a key. -/
structure Translatable (n : Node) : Prop where
  scalars : ∀ kind p, .node (.scalar kind p) ∈ n.walk → ∃ (k : ScalarKind) (v : Value), kind = k.name ∧ Reads k p v
  objects : ∀ typeUrl fields, .node (.object typeUrl fields) ∈ n.walk →
    typeUrl = durationNamespace ∧ ∃ v, durationOfFields fields = .ok v
  keys : ∀ k v, .key k ∈ n.walk → k.toValue .standard = .ok v → ∃ key : MapKey, v = key.toValue

theorem translatable_iff : (∃ v, n.toValue .standard = .ok v) ↔ n.Translatable := by
  rw [toValue_isOk]
  constructor
  · intro h
    refine ⟨fun kind p hp => ?_, fun typeUrl fields hobject => ?_, fun k v hk hv => ?_⟩
    · obtain ⟨v, hv⟩ := fault?_eq_none.mp (h _ hp)
      obtain ⟨k, hk, hreads⟩ := scalarToValue_eq_ok.mp hv
      exact ⟨k, v, hk, hreads⟩
    · have hnone := h _ hobject
      rw [Visit.defect?_object] at hnone
      split at hnone
      · rename_i htype
        exact ⟨htype, fault?_eq_none.mp hnone⟩
      · cases hnone
    · have hnone := h _ hk
      rw [Visit.defect?_key hv] at hnone
      split at hnone
      · rename_i hkey
        obtain ⟨key, hkey⟩ := Option.isSome_iff_exists.mp hkey
        exact ⟨key, Value.key?_eq_some.mp hkey⟩
      · cases hnone
  · intro h s hs
    cases s with
    | node m =>
      cases m with
      | scalar kind p =>
        obtain ⟨k, v, hk, hreads⟩ := h.scalars kind p hs
        exact fault?_eq_none.mpr ⟨v, scalarToValue_eq_ok.mpr ⟨k, hk, hreads⟩⟩
      | object typeUrl fields =>
        obtain ⟨htype, hfields⟩ := h.objects typeUrl fields hs
        rw [Visit.defect?_object, if_pos htype]
        exact fault?_eq_none.mpr hfields
      | list items => rfl
      | map groups => rfl
    | key k =>
      cases hv : k.toValue .standard with
      | error e =>
        rw [Visit.defect?, hv]
        rfl
      | ok v =>
        obtain ⟨key, rfl⟩ := h.keys k v hs hv
        rw [Visit.defect?_key hv, Value.key?_eq_some.mpr rfl]
        rfl

/-- A literal has a value, or the first defect that a walk over it comes to, which is one of its own. It has a
    value exactly when all is right at every place of it, and then so has all that is inside it; the items of a
    list have their values in order. -/
theorem toValue_first_defect (n : Node) :
    (∀ e, n.toValue .standard = .error e ↔ n.walk.findSome? (Visit.defect? .standard) = some e) ∧
      (∀ typeUrl fields, Visit.defect? .standard (.node (.object typeUrl fields)) =
        if typeUrl = durationNamespace then fault? (durationOfFields fields)
        else some (.unsupportedNamespace typeUrl [durationNamespace])) ∧
      (∀ e, n.toValue .standard = .error e → e.OfLiteral) ∧
      ((∃ v, n.toValue .standard = .ok v) ↔ n.Translatable) ∧
      ((∃ v, n.toValue .standard = .ok v) → ∀ m, .node m ∈ n.walk → ∃ w, m.toValue .standard = .ok w) ∧
      ∀ items v, n = .list items → n.toValue .standard = .ok v →
        ∃ vs, v = .list vs ∧ List.Forall₂ (fun m w => m.toValue .standard = .ok w) items vs := by
  refine ⟨fun e => toValue_eq_error, Visit.defect?_object, fun e h => ?_, translatable_iff,
    fun h m hm => isOk_of_mem_walk h hm, ?_⟩
  · obtain ⟨s, -, hs⟩ := List.exists_of_findSome?_eq_some (toValue_eq_error.mp h)
    exact Visit.defect?_ofLiteral hs
  · rintro items v rfl h
    obtain ⟨vs, hvs, rfl⟩ := toValue_list_eq_ok.mp h
    exact ⟨vs, rfl, hvs⟩

/-- A list for a key and then an unknown kind for its value: the key is told. -/
theorem key_told_before_value :
    (map [[(list [], scalar "long_value" (.integer 1))]]).toValue .standard = .error (.invalidMapKey "list") :=
  ((toValue_first_defect _).1 _).mpr rfl

end Node

end CelSuite
