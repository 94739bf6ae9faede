import CelSuite.Proofs.Values.Every
import CelSuite.Proofs.Values.Scalars
import CelSuite.StandIns

/-! # Well-formed values

A value is well formed when all that can be reached from it is sound: numbers are in their ranges, and the
keys of a map are distinct and in their ranges. From a list its items are reached, from a map its values, from
a message what it answers for a field, and so on. How messages answer is left open, and they may go on answering
without end: a value is shown well formed by a set that it is in and that no step leaves. -/

namespace CelSuite.Value

theorem Sound.under {v : Value} (h : v.Sound) (i : Nat) : (v.under i).Sound := by
  cases v with
  | map entries =>
    obtain ⟨hrange, hnodup⟩ := h
    have hkeys : (underEntries i entries).map (·.1) = entries.map (·.1) := by
      rw [underEntries_eq_map, List.map_map]
      rfl
    refine ⟨?_, hkeys ▸ hnodup⟩
    rw [underEntries_eq_map, List.forall_mem_map]
    exact hrange
  | _ => exact h

/-- What can be reached from a value: what is inside it, what a message answers for a field, and all of these
    as parents see them. -/
inductive Reaches [MessageSystem] (v : Value) : Value → Prop
  | self : Reaches v v
  | inside {w c : Value} (h : Reaches v w) (hc : c ∈ w.children) : Reaches v c
  | field {made origin : Origin} {t : MessageType} {fields : List (String × Value)} {name : String} {w : Value}
      (h : Reaches v (.message origin t fields))
      (hf : MessageSystem.field? made (.message origin t fields) name = some w) : Reaches v w
  | under {w : Value} (h : Reaches v w) (i : Nat) : Reaches v (w.under i)

/-- A value from which only sound values are reached. -/
def WellFormed [MessageSystem] (v : Value) : Prop := ∀ w, v.Reaches w → w.Sound

variable [MessageSystem] {v w : Value} {items : List Value} {entries : Entries} {origin : Origin}
  {t : MessageType} {fields : List (String × Value)}

theorem Reaches.trans {u : Value} (hvw : v.Reaches w) (hwu : w.Reaches u) : v.Reaches u := by
  induction hwu with
  | self => exact hvw
  | inside _ hc ih => exact ih.inside hc
  | field _ hf ih => exact ih.field hf
  | under _ i ih => exact ih.under i

theorem WellFormed.sound (h : v.WellFormed) : v.Sound := h v .self

theorem WellFormed.reached (h : v.WellFormed) (hw : v.Reaches w) : w.WellFormed := fun _ hu =>
  h _ (hw.trans hu)

theorem WellFormed.inside (h : v.WellFormed) (hw : w ∈ v.children) : w.WellFormed :=
  h.reached (Reaches.self.inside hw)

theorem WellFormed.under (h : v.WellFormed) (i : Nat) : (v.under i).WellFormed :=
  h.reached (Reaches.self.under i)

theorem WellFormed.field {made : Origin} {name : String} (h : (Value.message origin t fields).WellFormed)
    (hf : MessageSystem.field? made (.message origin t fields) name = some w) : w.WellFormed :=
  h.reached (Reaches.self.field hf)

/-- A set of sound values that no step leaves holds well-formed values only. -/
theorem wellFormed_of_closed {S : Value → Prop} (sound : ∀ v, S v → v.Sound)
    (inside : ∀ v, S v → ∀ c ∈ v.children, S c)
    (field : ∀ made origin t fields name w, S (.message origin t fields) →
      MessageSystem.field? made (.message origin t fields) name = some w → S w)
    (under : ∀ v i, S v → S (v.under i)) (hv : S v) : v.WellFormed := by
  have reached : ∀ w, v.Reaches w → S w := by
    intro w hw
    induction hw with
    | self => exact hv
    | inside _ hc ih => exact inside _ ih _ hc
    | field _ hf ih => exact field _ _ _ _ _ _ ih hf
    | under _ i ih => exact under _ i ih
  exact fun w hw => sound w (reached w hw)

/-- A sound value other than a message is well formed when all that is right inside it is. -/
theorem wellFormed_of_inside (hm : ∀ origin t fields, v ≠ .message origin t fields) (sound : v.Sound)
    (inside : ∀ c ∈ v.children, c.WellFormed) : v.WellFormed := by
  -- A parent's view of such a value is again one, so the set has to hold them all.
  refine wellFormed_of_closed (S := fun w => w.WellFormed ∨
    ((∀ origin t fields, w ≠ .message origin t fields) ∧ w.Sound ∧ ∀ c ∈ w.children, c.WellFormed))
    ?_ ?_ ?_ ?_ (Or.inr ⟨hm, sound, inside⟩)
  · rintro w (hw | ⟨-, hw, -⟩)
    · exact hw.sound
    · exact hw
  · rintro w (hw | ⟨-, -, hw⟩) c hc
    · exact Or.inl (hw.inside hc)
    · exact Or.inl (hw c hc)
  · rintro made origin t fields name w (hw | ⟨hne, -⟩) hf
    · exact Or.inl (hw.field hf)
    · exact absurd rfl (hne origin t fields)
  · rintro w i (hw | ⟨hne, hsound, hw⟩)
    · exact Or.inl (hw.under i)
    · refine Or.inr ⟨?_, hsound.under i, ?_⟩
      · intro origin t fields heq
        cases w with
        | message origin t fields => exact hne origin t fields rfl
        | _ => cases heq
      · rw [children_under, List.forall_mem_map]
        exact fun c hc => (hw c hc).under i

theorem SoundScalar.wellFormed (h : v.SoundScalar) : v.WellFormed := by
  obtain ⟨hscalar, hsound⟩ := h
  cases v with
  | double | list | map | message => exact hscalar.elim
  | _ => exact wellFormed_of_inside nofun hsound nofun

theorem wellFormed_double (x : Double) : (Value.double x).WellFormed := wellFormed_of_inside nofun trivial nofun

theorem wellFormed_list_iff : (Value.list items).WellFormed ↔ ∀ v ∈ items, v.WellFormed :=
  ⟨fun h _ hv => h.inside hv, fun h => wellFormed_of_inside nofun trivial h⟩

theorem wellFormed_map_iff : (Value.map entries).WellFormed ↔
    ((∀ e ∈ entries, e.1.InRange) ∧ (entries.map (·.1)).Nodup) ∧ ∀ e ∈ entries, e.2.WellFormed := by
  constructor
  · intro h
    exact ⟨h.sound, fun e he => h.inside (List.mem_map_of_mem he)⟩
  · rintro ⟨hsound, hvalues⟩
    refine wellFormed_of_inside nofun hsound ?_
    rw [children, List.forall_mem_map]
    exact hvalues

/-! ### Maps -/

theorem WellFormed.key_inRange {k : MapKey} (h : v.WellFormed) (hk : v.key? = some k) : k.InRange := by
  cases v with
  | int | uint =>
    cases hk
    exact h.sound
  | bool | string =>
    cases hk
    trivial
  | _ => cases hk

theorem WellFormed.lookup {k : Value} (h : (Value.map entries).WellFormed) (hk : lookup entries k = some v) :
    v.WellFormed := by
  obtain ⟨key, -, hget⟩ := Option.bind_eq_some_iff.mp hk
  exact (wellFormed_map_iff.mp h).2 _ (Assoc.mem_of_get? hget)

theorem addEntries_wellFormed {m : Entries} (hm : (Value.map m).WellFormed) {es : List (Value × Value)}
    (hes : ∀ e ∈ es, e.1.WellFormed ∧ e.2.WellFormed) :
    Yields (fun m => (Value.map m).WellFormed) (addEntries m es) := by
  induction es generalizing m with
  | nil => exact yields_ok hm
  | cons e r ih =>
    obtain ⟨k, a⟩ := e
    obtain ⟨⟨hk, ha⟩, hr⟩ := List.forall_mem_cons.mp hes
    rw [addEntries]
    split
    · rename_i key hkey
      refine ih ?_ hr
      obtain ⟨⟨hrange, hnodup⟩, hvalues⟩ := wellFormed_map_iff.mp hm
      refine wellFormed_map_iff.mpr ⟨⟨fun e he => ?_, Assoc.nodup_put key a hnodup⟩, fun e he => ?_⟩
      · rcases Assoc.mem_put he with rfl | he
        · exact hk.key_inRange hkey
        · exact hrange e he
      · rcases Assoc.mem_put he with rfl | he
        · exact ha
        · exact hvalues e he
    · exact yields_error

end CelSuite.Value

/-! ### Messages -/

namespace CelSuite
open Value

/-- A message type of which every instance with well-formed fields is well formed. -/
def MessageType.Sound [MessageSystem] (t : MessageType) : Prop :=
  ∀ origin fields, (∀ f ∈ fields, f.2.WellFormed) → (MessageSystem.create t origin fields).WellFormed

/-- The int defaults of a schema are in their range. -/
def Schema.InRange (schema : Schema) : Prop :=
  ∀ t ∈ schema, ∀ f ∈ t.2, ∀ n, f.2 = .int n → Value.InIntRange n

theorem MessageType.default_inRange {t : MessageType} (ht : Schema.InRange t.schema) {name : String} {n : Int}
    (h : Assoc.get? name t.defaults = some (.int n)) : Value.InIntRange n := by
  unfold defaults at h
  cases hds : Assoc.get? t.name t.schema with
  | none =>
    rw [hds] at h
    cases h
  | some ds =>
    rw [hds] at h
    exact ht _ (Assoc.mem_of_get? hds) _ (Assoc.mem_of_get? h) n rfl

/-- By schemas, a type with int defaults in their range is sound: its instances answer well-formed fields and
    defaults, and a default that is a message answers by the same schema. -/
theorem MessageType.sound_of_schema {t : MessageType} (ht : Schema.InRange t.schema) : t.Sound := by
  intro origin fields hfields
  -- A default may be an instance of the type itself, so the set holds all instances of the schema at once.
  refine wellFormed_of_closed (S := fun v => v.WellFormed ∨ ∃ origin t fields, v = .message origin t fields ∧
    Schema.InRange t.schema ∧ ∀ f ∈ fields, f.2.WellFormed)
    ?_ ?_ ?_ ?_ (Or.inr ⟨origin, t, fields, rfl, ht, hfields⟩)
  · rintro v (hv | ⟨origin, t, fields, rfl, -, -⟩)
    · exact hv.sound
    · trivial
  · rintro v (hv | ⟨origin, t, fields, rfl, -, hfields⟩) c hc
    · exact Or.inl (hv.inside hc)
    · obtain ⟨f, hf, rfl⟩ := List.mem_map.mp hc
      exact Or.inl (hfields f hf)
  · rintro made origin t fields name w (hv | ⟨_, _, _, heq, ht, hfields⟩) hw
    · exact Or.inl (hv.field hw)
    · cases heq
      have hanswer : t.answer fields made name = some w := hw
      unfold MessageType.answer at hanswer
      split at hanswer
      · rename_i hget
        cases hanswer
        exact Or.inl (hfields _ (Assoc.mem_of_get? hget))
      · obtain ⟨d, hd, rfl⟩ := Option.map_eq_some_iff.mp hanswer
        cases d with
        | int n => exact Or.inl (SoundScalar.wellFormed ⟨trivial, default_inRange ht hd⟩)
        | string s => exact Or.inl (SoundScalar.wellFormed ⟨trivial, trivial⟩)
        | bool b => exact Or.inl (SoundScalar.wellFormed ⟨trivial, trivial⟩)
        | message type => exact Or.inr ⟨made, ⟨type, t.schema⟩, [], rfl, ht, nofun⟩
  · rintro v i (hv | ⟨origin, t, fields, rfl, ht, hfields⟩)
    · exact Or.inl (hv.under i)
    · refine Or.inr ⟨origin.under i, t, underFields i fields, rfl, ht, ?_⟩
      rw [underFields_eq_map, List.forall_mem_map]
      exact fun f hf => (hfields f hf).under i

/-- The message types of a container are sound. -/
theorem StandIns.schema_inRange (container : String) : Schema.InRange (schema container) := by
  have hzero : ∀ n : Int, FieldDefault.int 0 = .int n → Value.InIntRange n := by
    rintro n ⟨⟩
    decide
  have hscalars : ∀ f ∈ scalars, ∀ n, f.2 = .int n → Value.InIntRange n := by
    simp only [scalars, List.forall_mem_cons]
    exact ⟨hzero, hzero, hzero, hzero, nofun, nofun, nofun⟩
  simp only [Schema.InRange, schema, List.forall_mem_cons]
  exact ⟨hscalars, ⟨nofun, nofun, hscalars⟩, nofun⟩

end CelSuite
