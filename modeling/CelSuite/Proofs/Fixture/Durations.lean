import CelSuite.Fixture.Registry
import CelSuite.Proofs.Fixture.Payloads
import CelSuite.Value.Map

/-! # Durations from fields

The fields of a duration are its seconds and its nanoseconds, integers of any size whose kinds are not looked
at. The nanoseconds are fewer than a second and do not have the other sign, so every duration has just one
pair of them. -/

namespace CelSuite

namespace Duration

/-- Seconds and nanoseconds beside them: fewer than a second, and not of the other sign. -/
structure Parts (seconds nanos : Int) : Prop where
  below : nanos.natAbs < nanosPerSecond
  sign : ¬(0 < seconds ∧ nanos < 0) ∧ ¬(seconds < 0 ∧ 0 < nanos)

variable {total s n : Int}

/-- The seconds and nanoseconds of a duration are the parts that it is the total of. -/
theorem parts_iff : seconds total = s ∧ nanos total = n ↔ Parts s n ∧ ofParts s n = total := by
  have hsecond : (nanosPerSecond : Int) = 1000000000 := rfl
  have hparts : Parts s n ↔ n.natAbs < 1000000000 ∧ ¬(0 < s ∧ n < 0) ∧ ¬(s < 0 ∧ 0 < n) :=
    ⟨fun h => ⟨h.below, h.sign⟩, fun h => ⟨h.1, h.2⟩⟩
  rw [seconds, nanos, ofParts, hparts, hsecond]
  rcases Int.le_total 0 total with hpos | hneg
  · rw [Int.tdiv_tmod_unique hpos (by decide)]
    omega
  · rw [Int.tdiv_tmod_unique' hneg (by decide)]
    omega

theorem parts_of_total (total : Int) : Parts (seconds total) (nanos total) :=
  (parts_iff.mp ⟨rfl, rfl⟩).1

theorem ofParts_of_total (total : Int) : ofParts (seconds total) (nanos total) = total :=
  (parts_iff.mp ⟨rfl, rfl⟩).2

theorem Parts.of_ofParts (h : Parts s n) : seconds (ofParts s n) = s ∧ nanos (ofParts s n) = n :=
  parts_iff.mpr ⟨h, rfl⟩

end Duration

variable {fields : List ObjectField} {typeUrl : String} {v : Value} {e : Defect}

/-! ### Seconds and nanoseconds in any notation -/

/-- The fields of seconds and nanoseconds in this order, in any notation and under any kinds. -/
inductive Gives (s n : Int) : List ObjectField → Prop
  | mk {k k' : String} {p p' : Payload} (seconds : p.IsInteger s) (nanos : p'.IsInteger n) :
      Gives s n [⟨"seconds", k, p⟩, ⟨"nanos", k', p'⟩]

section
variable {s n : Int}

theorem Gives.eq (h : Gives s n fields) : durationOfFields fields =
    if 999999999 < n ∨ n < -999999999 then .error (.invalidPayload "nanos" (.nanosOutside n))
    else if (0 < s ∧ n < 0) ∨ (s < 0 ∧ 0 < n) then .error (.invalidPayload "nanos" .signsDiffer)
    else .ok (.duration (Duration.ofParts s n)) := by
  obtain ⟨hs, hn⟩ := h
  rw [durationOfFields, if_pos ⟨rfl, rfl⟩, Payload.readInteger_eq_ok.mpr hs, Payload.readInteger_eq_ok.mpr hn]
  rfl

/-- Two integers are refused as nanoseconds, or they are parts of a duration. -/
theorem Gives.cases (h : Gives s n fields) :
    (¬Duration.Parts s n ∧ ∃ fault, durationOfFields fields = .error (.invalidPayload "nanos" fault)) ∨
      (Duration.Parts s n ∧ durationOfFields fields = .ok (.duration (Duration.ofParts s n))) := by
  rw [h.eq]
  split
  · rename_i hlarge
    refine Or.inl ⟨fun hparts => ?_, _, rfl⟩
    have hbelow : n.natAbs < 1000000000 := hparts.below
    omega
  split
  · rename_i hsign
    exact Or.inl ⟨fun hparts => not_or.mpr hparts.sign hsign, _, rfl⟩
  · rename_i hsmall hsign
    have hbelow : n.natAbs < 1000000000 := by omega
    exact Or.inr ⟨⟨hbelow, not_or.mp hsign⟩, rfl⟩

theorem Gives.ok_iff (h : Gives s n fields) :
    durationOfFields fields = .ok v ↔ Duration.Parts s n ∧ v = .duration (Duration.ofParts s n) := by
  rcases h.cases with ⟨hparts, fault, herror⟩ | ⟨hparts, hok⟩
  · simp [herror, hparts]
  · simp [hok, hparts, eq_comm]

end

/-! ### Any fields -/

theorem durationOfFields_eq_ok : durationOfFields fields = .ok v ↔ ∃ (k k' : String) (p p' : Payload) (s n : Int),
    fields = [⟨"seconds", k, p⟩, ⟨"nanos", k', p'⟩] ∧ p.IsInteger s ∧ p'.IsInteger n ∧ Duration.Parts s n ∧
      v = .duration (Duration.ofParts s n) := by
  constructor
  · intro h
    have hfields := h
    unfold durationOfFields at hfields
    split at hfields
    · rename_i f g
      obtain ⟨name, k, p⟩ := f
      obtain ⟨name', k', p'⟩ := g
      split at hfields
      · rename_i hnames
        obtain ⟨rfl, rfl⟩ := hnames
        obtain ⟨s, hs, hfields⟩ := bind_eq_ok.mp hfields
        obtain ⟨n, hn, -⟩ := bind_eq_ok.mp hfields
        have hgives : Gives s n [⟨"seconds", k, p⟩, ⟨"nanos", k', p'⟩] :=
          .mk (Payload.readInteger_eq_ok.mp hs) (Payload.readInteger_eq_ok.mp hn)
        obtain ⟨hparts, hv⟩ := hgives.ok_iff.mp h
        exact ⟨k, k', p, p', s, n, rfl, Payload.readInteger_eq_ok.mp hs, Payload.readInteger_eq_ok.mp hn, hparts, hv⟩
      · cases hfields
    · cases hfields
  · rintro ⟨k, k', p, p', s, n, rfl, hs, hn, hparts, rfl⟩
    exact (Gives.mk hs hn).ok_iff.mpr ⟨hparts, rfl⟩

theorem durationOfFields_ofLiteral (fields : List ObjectField) :
    Refuses Defect.OfLiteral (durationOfFields fields) := by
  unfold durationOfFields
  split
  · split
    · refine (Payload.readInteger_ofLiteral _ _).bind fun s => (Payload.readInteger_ofLiteral _ _).bind fun n => ?_
      split
      · exact refuses_error trivial
      split
      · exact refuses_error trivial
      · exact refuses_ok
    · exact refuses_error trivial
  · exact refuses_error trivial

/-- What is wrong with the two fields of a duration is told of the field it is found in. -/
theorem fields_error {k k' : String} {p p' : Payload}
    (h : durationOfFields [⟨"seconds", k, p⟩, ⟨"nanos", k', p'⟩] = .error e) :
    ∃ name fault, e = .invalidPayload name fault ∧ (name = "seconds" ∨ name = "nanos") := by
  rw [durationOfFields, if_pos ⟨rfl, rfl⟩] at h
  rcases bind_eq_error.mp h with h | ⟨s, -, h⟩
  · obtain ⟨fault, rfl⟩ := Payload.readInteger_eq_error h
    exact ⟨_, fault, rfl, Or.inl rfl⟩
  rcases bind_eq_error.mp h with h | ⟨n, -, h⟩
  · obtain ⟨fault, rfl⟩ := Payload.readInteger_eq_error h
    exact ⟨_, fault, rfl, Or.inr rfl⟩
  split at h
  · cases h
    exact ⟨_, _, rfl, Or.inr rfl⟩
  split at h
  · cases h
    exact ⟨_, _, rfl, Or.inr rfl⟩
  · cases h

/-- Fields that are not the two of a duration are told by their names. -/
theorem durationOfFields_eq_fieldNames :
    durationOfFields fields = .error (.invalidPayload durationNamespace (.fieldNames (fields.map (·.name)))) ↔
      ∀ k k' p p', fields ≠ [⟨"seconds", k, p⟩, ⟨"nanos", k', p'⟩] := by
  constructor
  · rintro h k k' p p' rfl
    obtain ⟨name, fault, heq, hname⟩ := fields_error h
    cases heq
    rcases hname with hname | hname <;> exact absurd hname (by decide)
  · intro h
    unfold durationOfFields
    split
    · rename_i f g
      rw [if_neg]
      · rfl
      · rintro ⟨hf, hg⟩
        refine h f.kind g.kind f.payload g.payload ?_
        rw [← hf, ← hg]
    · rfl

/-- Integers as seconds and nanoseconds make a duration exactly when the nanoseconds are fewer than a second and do not
    have the other sign, and then they are the seconds and nanoseconds of it. Every duration is made from its own, no
    other fields make any, and no two pairs of integers make equal durations. -/
theorem duration_fields_correspond :
    (∀ {s n fields}, Gives s n fields →
      ((∃ v, durationOfFields fields = .ok v) ↔ n.natAbs ≤ 999999999 ∧ ¬(0 < s ∧ n < 0) ∧ ¬(s < 0 ∧ 0 < n)) ∧
      (∀ v, durationOfFields fields = .ok v →
        ∃ total, v = .duration total ∧ Duration.seconds total = s ∧ Duration.nanos total = n) ∧
      ∀ e, durationOfFields fields = .error e → ∃ fault, e = .invalidPayload "nanos" fault) ∧
    (∀ {total fields}, Gives (Duration.seconds total) (Duration.nanos total) fields →
      ∃ v, durationOfFields fields = .ok v ∧ v.equal (.duration total) = true) ∧
    (∀ fields, durationOfFields fields =
        .error (.invalidPayload durationNamespace (.fieldNames (fields.map (·.name)))) ↔
      ∀ k k' p p', fields ≠ [⟨"seconds", k, p⟩, ⟨"nanos", k', p'⟩]) ∧
    ∀ {s n s' n' fields fields' v v'}, Gives s n fields → Gives s' n' fields' →
      durationOfFields fields = .ok v → durationOfFields fields' = .ok v' → v.equal v' = true → s = s' ∧ n = n' := by
  refine ⟨fun {s n fields} h => ⟨?accepted, ?parts, ?refused⟩, ?rebuilt, fun fields => durationOfFields_eq_fieldNames,
    ?apart⟩
  case accepted =>
    simp only [h.ok_iff, exists_and_left, exists_eq, and_true]
    exact ⟨fun hparts => ⟨Nat.le_of_lt_succ hparts.below, hparts.sign⟩, fun hbounds =>
      ⟨Nat.lt_succ_of_le hbounds.1, hbounds.2⟩⟩
  case parts =>
    intro v hv
    obtain ⟨hparts, rfl⟩ := h.ok_iff.mp hv
    exact ⟨_, rfl, hparts.of_ofParts⟩
  case refused =>
    intro e he
    rcases h.cases with ⟨-, fault, herror⟩ | ⟨-, hok⟩
    · exact ⟨fault, Except.error.inj (he.symm.trans herror)⟩
    · cases he.symm.trans hok
  case rebuilt =>
    intro total fields h
    refine ⟨.duration total, h.ok_iff.mpr ⟨Duration.parts_of_total total, ?_⟩, beq_self_eq_true total⟩
    rw [Duration.ofParts_of_total]
  case apart =>
    intro s n s' n' fields fields' v v' h h' hv hv' hequal
    obtain ⟨hparts, rfl⟩ := h.ok_iff.mp hv
    obtain ⟨hparts', rfl⟩ := h'.ok_iff.mp hv'
    have htotal : Duration.ofParts s n = Duration.ofParts s' n' := eq_of_beq hequal
    obtain ⟨hs, hn⟩ := hparts.of_ofParts
    obtain ⟨hs', hn'⟩ := hparts'.of_ofParts
    rw [htotal] at hs hn
    exact ⟨hs.symm.trans hs', hn.symm.trans hn'⟩

/-- Minus seven seconds and the most nanoseconds beside them, in two notations. -/
theorem negative_fields_correspond :
    let fields : List ObjectField :=
      [⟨"seconds", "int64_value", .string " -7 "⟩, ⟨"nanos", "int64_value", .integer (-999999999)⟩]
    let fields' : List ObjectField :=
      [⟨"seconds", "int64_value", .integer (-7)⟩, ⟨"nanos", "int64_value", .string "-999999999"⟩]
    (Gives (-7) (-999999999) fields ∧ Gives (-7) (-999999999) fields') ∧
      ∃ total v, durationOfFields fields = .ok (.duration total) ∧ Duration.seconds total = -7 ∧
        Duration.nanos total = -999999999 ∧ durationOfFields fields' = .ok v ∧ v.equal (.duration total) = true ∧
        (-7 : Int) = -7 ∧ (-999999999 : Int) = -999999999 := by
  intro fields fields'
  have h : Gives (-7) (-999999999) fields := .mk (.text (by decide)) (.integer _)
  have h' : Gives (-7) (-999999999) fields' := .mk (.integer _) (.text (by decide))
  obtain ⟨hfields, hrebuilt, -, hapart⟩ := duration_fields_correspond
  obtain ⟨haccepted, hparts, -⟩ := hfields h
  obtain ⟨v, hv⟩ := haccepted.mpr (by decide)
  obtain ⟨total, rfl, hs, hn⟩ := hparts v hv
  obtain ⟨v', hv', hequal⟩ := hrebuilt (hs.symm ▸ hn.symm ▸ h')
  exact ⟨⟨h, h'⟩, total, v', hv, hs, hn, hv', hequal, hapart h' h hv' hv hequal⟩

/-- Durations are the only objects of the standard registry. -/
theorem Registry.create_standard (typeUrl : String) (fields : List ObjectField) :
    Registry.standard.create typeUrl fields =
      if typeUrl = durationNamespace then durationOfFields fields
      else .error (.unsupportedNamespace typeUrl [durationNamespace]) := by
  have hfactories : Registry.standard.factories = [(durationNamespace, durationOfFields)] := rfl
  have hnamespaces : Registry.standard.namespaces = [durationNamespace] := List.mergeSort_singleton _
  rw [create, hfactories, hnamespaces, Assoc.get?, Assoc.get?]
  by_cases h : durationNamespace = typeUrl
  · rw [if_pos h, if_pos h.symm]
  · rw [if_neg h, if_neg (Ne.symm h)]

theorem Node.toValue_object_eq_ok : (object typeUrl fields).toValue .standard = .ok v ↔
    typeUrl = durationNamespace ∧ durationOfFields fields = .ok v := by
  rw [toValue, Registry.create_standard]
  split
  · rename_i h
    simp [h]
  · rename_i h
    simp [h]

end CelSuite
