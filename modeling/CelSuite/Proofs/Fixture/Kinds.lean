import CelSuite.Proofs.Fixture.Defects

/-! # Kinds of scalars

Wherever a scalar stands in a literal with a value, its kind is known and it has a value on its own. The fields
of a duration are no such places: they are read as integers without a look at their kinds. So a field is the
integer that it was read as only when its kind is an integer kind with that integer in its range. -/

namespace CelSuite

/-- An int or a uint that is equal to an integer. -/
def Value.IsNumber : Value → Int → Prop
  | .int n, z => n = z
  | .uint n, z => n = z
  | _, _ => False

/-- An integer kind with an integer in its range. -/
def ScalarKind.Admits : ScalarKind → Int → Prop
  | .int64, z | .enum, z => Value.InIntRange z
  | .uint64, z => Value.InUintRange z
  | _, _ => False

variable {k : ScalarKind} {kind : String} {p : Payload} {z : Int}

/-- A payload that stands for an integer is read as it by the integer kinds that admit it. -/
theorem Payload.IsInteger.reads_iff (h : p.IsInteger z) : (∃ v, Reads k p v ∧ v.IsNumber z) ↔ k.Admits z := by
  constructor
  · rintro ⟨v, hreads, hnumber⟩
    cases hreads with
    | int64 hn range | enum hn range | uint64 hn range =>
      cases hnumber
      exact range
    | _ => exact hnumber.elim
  · intro hadmits
    cases k with
    | int64 => exact ⟨.int z, .int64 h hadmits, rfl⟩
    | enum => exact ⟨.int z, .enum h hadmits, rfl⟩
    | uint64 =>
      have hz : (z.toNat : Int) = z := Int.toNat_of_nonneg hadmits.1
      exact ⟨.uint z.toNat, .uint64 (hz.symm ▸ h) (hz.symm ▸ hadmits), hz⟩
    | _ => exact hadmits.elim

namespace Node

variable {n : Node} {v : Value}

/-- A scalar with the payload of an integer has that integer as its value exactly when its kind admits it. -/
theorem scalar_isNumber_iff (h : p.IsInteger z) :
    (∃ w, (scalar kind p).toValue .standard = .ok w ∧ w.IsNumber z) ↔ ∃ k : ScalarKind, kind = k.name ∧ k.Admits z := by
  constructor
  · rintro ⟨w, hw, hnumber⟩
    obtain ⟨k, hk, hreads⟩ := toValue_scalar_eq_ok.mp hw
    exact ⟨k, hk, h.reads_iff.mp ⟨w, hreads, hnumber⟩⟩
  · rintro ⟨k, hk, hadmits⟩
    obtain ⟨w, hreads, hnumber⟩ := h.reads_iff.mpr hadmits
    exact ⟨w, toValue_scalar_eq_ok.mpr ⟨k, hk, hreads⟩, hnumber⟩

/-- An object with a value is a duration of its two fields, whatever their kinds are. -/
theorem toValue_object {typeUrl : String} {fields : List ObjectField}
    (h : (object typeUrl fields).toValue .standard = .ok v) :
    ∃ kind kind' p p' total, fields = [⟨"seconds", kind, p⟩, ⟨"nanos", kind', p'⟩] ∧
      p.IsInteger (Duration.seconds total) ∧ p'.IsInteger (Duration.nanos total) ∧
      ∀ l l', (object typeUrl [⟨"seconds", l, p⟩, ⟨"nanos", l', p'⟩]).toValue .standard = .ok (.duration total) := by
  obtain ⟨htype, h⟩ := toValue_object_eq_ok.mp h
  obtain ⟨kind, kind', p, p', s, n, hfields, hs, hn, hparts, rfl⟩ := durationOfFields_eq_ok.mp h
  obtain ⟨hseconds, hnanos⟩ := hparts.of_ofParts
  refine ⟨kind, kind', p, p', Duration.ofParts s n, hfields, hseconds.symm ▸ hs, hnanos.symm ▸ hn, fun l l' => ?_⟩
  have hsame := durationOfFields_eq_ok.mpr ⟨l, l', p, p', s, n, rfl, hs, hn, hparts, rfl⟩
  exact toValue_object_eq_ok.mpr ⟨htype, hsame⟩

/-- In a literal with a value every scalar that is the literal, an item, a key or a value of an entry has a
    known kind and a value of its own. The fields of a duration are read from their payloads alone, and such a
    field has the integer that was read for its value exactly when it has an integer kind that admits it. -/
theorem scalars_of_translated (h : n.toValue .standard = .ok v) :
    (∀ kind p, .node (scalar kind p) ∈ n.walk →
        (∃ k : ScalarKind, kind = k.name) ∧ ∃ w, (scalar kind p).toValue .standard = .ok w) ∧
      ∀ typeUrl fields, .node (object typeUrl fields) ∈ n.walk → ∃ kind kind' p p' total,
        fields = [⟨"seconds", kind, p⟩, ⟨"nanos", kind', p'⟩] ∧
        p.IsInteger (Duration.seconds total) ∧ p'.IsInteger (Duration.nanos total) ∧
        (∀ l l', (object typeUrl [⟨"seconds", l, p⟩, ⟨"nanos", l', p'⟩]).toValue .standard =
          .ok (.duration total)) ∧
        ((∃ w, (scalar kind p).toValue .standard = .ok w ∧ w.IsNumber (Duration.seconds total)) ↔
          ∃ k : ScalarKind, kind = k.name ∧ k.Admits (Duration.seconds total)) ∧
        ((∃ w, (scalar kind' p').toValue .standard = .ok w ∧ w.IsNumber (Duration.nanos total)) ↔
          ∃ k : ScalarKind, kind' = k.name ∧ k.Admits (Duration.nanos total)) := by
  refine ⟨fun kind p hp => ?_, fun typeUrl fields hobject => ?_⟩
  · obtain ⟨w, hw⟩ := isOk_of_mem_walk ⟨v, h⟩ hp
    obtain ⟨k, hk, -⟩ := toValue_scalar_eq_ok.mp hw
    exact ⟨⟨k, hk⟩, w, hw⟩
  · obtain ⟨w, hw⟩ := isOk_of_mem_walk ⟨v, h⟩ hobject
    obtain ⟨kind, kind', p, p', total, hfields, hs, hn, hunread⟩ := toValue_object hw
    exact ⟨kind, kind', p, p', total, hfields, hs, hn, hunread, scalar_isNumber_iff hs, scalar_isNumber_iff hn⟩

/-- A duration in a list whose seconds have an unknown kind: the duration is made, though the seconds alone are
    no literal with a value. -/
theorem duration_of_unknown_kind :
    (list [object durationNamespace
        [⟨"seconds", "long_value", .integer 5⟩, ⟨"nanos", "int64_value", .integer 0⟩]]).toValue .standard =
          .ok (.list [.duration 5000000000]) ∧
      (scalar "long_value" (.integer 5)).toValue .standard = .error (.unknownKind "long_value") ∧
      ¬∃ w, (scalar "long_value" (.integer 5)).toValue .standard = .ok w ∧ w.IsNumber 5 := by
  have hvalue : (list [object durationNamespace
      [⟨"seconds", "long_value", .integer 5⟩, ⟨"nanos", "int64_value", .integer 0⟩]]).toValue .standard =
        .ok (.list [.duration 5000000000]) := rfl
  obtain ⟨-, hobjects⟩ := scalars_of_translated hvalue
  obtain ⟨kind, kind', p, p', total, hfields, hs, -, -, hseconds, -⟩ :=
    hobjects _ _ (mem_walk_list.mpr (Or.inr ⟨_, List.mem_cons_self, mem_walk_self _⟩))
  cases hfields
  have htotal : Duration.seconds total = 5 := by
    generalize Duration.seconds total = z at hs
    cases hs
    rfl
  refine ⟨hvalue, rfl, fun ⟨w, hw⟩ => ?_⟩
  obtain ⟨k, hk, -⟩ := hseconds.mp ⟨w, htotal ▸ hw⟩
  -- No kind has the name.
  cases k <;> exact absurd hk (by decide)

end Node

end CelSuite
