import CelSuite.Proofs.Values.Equality

/-! # Equality as a partial equivalence

Between values as the library builds them equality is symmetric and transitive, it keeps the type, and a message
is equal to itself only. The one thing that keeps a value from being equal to itself is a NaN in it. A NaN counts
at any depth of list items and map values. What a message was made with does not count, since messages are
compared as instances. -/

namespace CelSuite.Value

/-! ### NaN -/

/-- There is a NaN in a value, as the value or at some depth of list items and map values. -/
inductive HasNaN : Value → Prop
  | double {x : Double} (h : x.isNaN = true) : HasNaN (.double x)
  | item {v : Value} {items : List Value} (hv : v ∈ items) (h : HasNaN v) : HasNaN (.list items)
  | entry {e : MapKey × Value} {entries : Entries} (he : e ∈ entries) (h : HasNaN e.2) : HasNaN (.map entries)

variable {u v w : Value} {x : Double} {items : List Value} {entries : Entries}

theorem hasNaN_double_iff : HasNaN (.double x) ↔ x.isNaN = true := by
  constructor
  · rintro ⟨h⟩
    exact h
  · exact .double

theorem hasNaN_list_iff : HasNaN (.list items) ↔ ∃ v ∈ items, v.HasNaN := by
  constructor
  · intro h
    cases h with
    | item hv h => exact ⟨_, hv, h⟩
  · rintro ⟨v, hv, h⟩
    exact .item hv h

theorem hasNaN_map_iff : HasNaN (.map entries) ↔ ∃ e ∈ entries, e.2.HasNaN := by
  constructor
  · intro h
    cases h with
    | entry he h => exact ⟨_, he, h⟩
  · rintro ⟨e, he, h⟩
    exact .entry he h

/-- A value whose maps have distinct keys is equal to itself exactly when there is no NaN in it. -/
theorem equal_self_iff (h : v.Every KeysDistinct) : v.equal v = true ↔ ¬v.HasNaN := by
  induction h with
  | @intro v here inside ih =>
    rw [equal_iff_alike]
    cases v with
    | double x =>
      rw [hasNaN_double_iff, Bool.not_eq_true, ← Double.equal_self_iff]
      constructor
      · intro h
        cases h with
        | scalar hv => exact hv.elim
        | double h => exact h
      · exact .double
    | list items =>
      have hitems : Alike (fun a b => a.equal b = true) (.list items) (.list items) ↔
          ∀ v ∈ items, v.equal v = true := by
        constructor
        · intro h
          cases h with
          | scalar hv => exact hv.elim
          | list h => exact List.forall₂_same.mp h
        · intro h
          exact .list (List.forall₂_same.mpr h)
      rw [hitems, hasNaN_list_iff]
      simp only [not_exists, not_and]
      exact forall₂_congr ih
    | map entries =>
      have hentries : Alike (fun a b => a.equal b = true) (.map entries) (.map entries) ↔
          ∀ e ∈ entries, e.2.equal e.2 = true := by
        constructor
        · intro h e he
          obtain ⟨b, hb, heq⟩ := (alike_map h).2 e he
          rw [Assoc.get?_of_mem here he] at hb
          cases hb
          exact heq
        · intro h
          exact .map rfl fun e he => ⟨e.2, Assoc.get?_of_mem here he, h e he⟩
      rw [hentries, hasNaN_map_iff]
      simp only [not_exists, not_and]
      exact forall₂_congr fun e he => ih e.2 (List.mem_map_of_mem he)
    | message => exact ⟨fun _ => nofun, fun _ => .message⟩
    | _ => exact ⟨fun _ => nofun, fun _ => .scalar trivial⟩

/-! ### Instances -/

/-- What is known of instances by their origins: the message type and the fields they were made with. -/
abbrev Instances := Origin → MessageType × List (String × Value)

/-- What a value on its own keeps by the way it is built: the keys of a map are distinct, and a message is the
    instance that its origin tells. -/
def Built (known : Instances) : Value → Prop
  | .map entries => (entries.map (·.1)).Nodup
  | .message origin t fields => known origin = (t, fields)
  | _ => True

variable {known : Instances}

theorem every_keysDistinct_of_built (h : v.Every (Built known)) : v.Every KeysDistinct := by
  refine h.mono fun w hw => ?_
  cases w with
  | map entries => exact hw
  | _ => trivial

theorem typeName_eq_of_equal (hu : u.Built known) (hv : v.Built known) (h : u.equal v = true) :
    u.typeName = v.typeName := by
  cases equal_iff_alike.mp h with
  | message =>
    have hsame := hu.symm.trans hv
    simp only [Prod.mk.injEq] at hsame
    exact congrArg MessageType.name hsame.1
  | _ => rfl

/-- A message is equal to no value but itself. -/
theorem equal_message_iff {origin : Origin} {t : MessageType} {fields : List (String × Value)}
    (hu : (message origin t fields).Built known) (hv : v.Built known) :
    (message origin t fields).equal v = true ↔ v = .message origin t fields := by
  constructor
  · intro h
    cases equal_iff_alike.mp h with
    | scalar hs => exact hs.elim
    | message =>
      have hsame := hu.symm.trans hv
      simp only [Prod.mk.injEq] at hsame
      obtain ⟨rfl, rfl⟩ := hsame
      rfl
  · rintro rfl
    exact equal_iff_alike.mpr .message

/-! ### The equivalence -/

/-- Equality of values that are built with the same instances is symmetric and transitive. It holds between a value
    and itself exactly when there is no NaN in the value, it keeps the name of the type, and it holds between a
    message and that same message only. -/
theorem equal_partial_equivalence (hu : u.Every (Built known)) (hv : v.Every (Built known)) :
    (u.equal v = true → v.equal u = true) ∧
      (∀ w, u.equal v = true → v.equal w = true → u.equal w = true) ∧
      (u.equal u = true ↔ ¬u.HasNaN) ∧
      (u.equal v = true → u.typeName = v.typeName) ∧
      ∀ origin t fields, u = .message origin t fields → (u.equal v = true ↔ v = u) := by
  have hkeys := every_keysDistinct_of_built hu
  refine ⟨equal_symm hkeys (every_keysDistinct_of_built hv), fun w => equal_trans hkeys, equal_self_iff hkeys,
    typeName_eq_of_equal hu.here hv.here, ?_⟩
  rintro origin t fields rfl
  exact equal_message_iff hu.here hv.here

/-- A map with a message in it is equal to the map with its entries turned over, and that one to the first; a list
    with a NaN is not equal to itself. -/
theorem turned_map_equal_and_nan_list_not :
    (map [(.uint 1, null), (.int 1, message (.given 0) ⟨"acme.Type", []⟩ [])]).equal
        (map [(.int 1, message (.given 0) ⟨"acme.Type", []⟩ []), (.uint 1, null)]) = true ∧
      ¬(list [double .nan]).equal (list [double .nan]) = true := by
  have hmessage : (message (.given 0) ⟨"acme.Type", []⟩ []).Every (Built fun _ => (⟨"acme.Type", []⟩, [])) :=
    every_of_leaf rfl rfl
  have hnull : null.Every (Built fun _ => (⟨"acme.Type", []⟩, [])) := every_of_leaf rfl trivial
  have hmap : (map [(.int 1, message (.given 0) ⟨"acme.Type", []⟩ []), (.uint 1, null)]).Every
      (Built fun _ => (⟨"acme.Type", []⟩, [])) := by
    refine every_map_iff.mpr ⟨?_, List.forall_mem_cons.mpr ⟨hmessage, List.forall_mem_singleton.mpr hnull⟩⟩
    exact (by decide : [MapKey.int 1, .uint 1].Nodup)
  have hturned : (map [(.uint 1, null), (.int 1, message (.given 0) ⟨"acme.Type", []⟩ [])]).Every
      (Built fun _ => (⟨"acme.Type", []⟩, [])) := by
    refine every_map_iff.mpr ⟨?_, List.forall_mem_cons.mpr ⟨hnull, List.forall_mem_singleton.mpr hmessage⟩⟩
    exact (by decide : [MapKey.uint 1, .int 1].Nodup)
  have hlist : (list [double .nan]).Every (Built fun _ => (⟨"acme.Type", []⟩, [])) :=
    every_list_iff.mpr ⟨trivial, List.forall_mem_singleton.mpr (every_of_leaf rfl trivial)⟩
  obtain ⟨hsymm, -⟩ := equal_partial_equivalence hmap hturned
  obtain ⟨-, -, hself, -⟩ := equal_partial_equivalence hlist hmap
  refine ⟨hsymm rfl, fun h => hself.mp h ?_⟩
  exact .item (List.mem_singleton_self _) (.double rfl)

end CelSuite.Value
