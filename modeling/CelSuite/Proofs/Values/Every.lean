import CelSuite.Value.Map
import CelSuite.Value.Message

/-! # Properties of a value and of all that is inside it

A property holds throughout a value when it holds of the value, of the items of a list, the values of a map
and the fields of a message, and so on inward. What a parent sees of a value (`Value.under`) differs from it
in the origins of messages only. -/

namespace CelSuite.Value

/-- The values right inside a value. -/
def children : Value → List Value
  | .list items => items
  | .map entries => entries.map (·.2)
  | .message _ _ fields => fields.map (·.2)
  | _ => []

/-- A property of a value and of all that is inside it. -/
inductive Every (P : Value → Prop) : Value → Prop
  | intro {v : Value} (here : P v) (inside : ∀ w ∈ v.children, Every P w) : Every P v

variable {P Q : Value → Prop} {v w : Value} {items : List Value} {entries : Entries} {i : Nat}

theorem every_iff : Every P v ↔ P v ∧ ∀ w ∈ v.children, Every P w := by
  constructor
  · rintro ⟨here, inside⟩
    exact ⟨here, inside⟩
  · rintro ⟨here, inside⟩
    exact ⟨here, inside⟩

theorem Every.here (h : Every P v) : P v := (every_iff.mp h).1

theorem Every.mono (hPQ : ∀ v, P v → Q v) (h : Every P v) : Every Q v := by
  induction h with
  | intro here _ ih => exact ⟨hPQ _ here, ih⟩

/-- A value with nothing inside. -/
theorem every_of_leaf (hv : v.children = []) (h : P v) : Every P v := by
  refine ⟨h, ?_⟩
  rw [hv]
  exact nofun

theorem every_list_iff : Every P (.list items) ↔ P (.list items) ∧ ∀ v ∈ items, Every P v :=
  every_iff

theorem every_map_iff : Every P (.map entries) ↔ P (.map entries) ∧ ∀ e ∈ entries, Every P e.2 := by
  rw [every_iff, children, List.forall_mem_map]

/-! ### Under a parent -/

theorem underItems_eq_map (i : Nat) (items : List Value) : underItems i items = items.map (under i) := by
  induction items with
  | nil => rfl
  | cons v vs ih => rw [underItems, ih, List.map_cons]

theorem underEntries_eq_map (i : Nat) (entries : Entries) :
    underEntries i entries = entries.map fun e => (e.1, e.2.under i) := by
  induction entries with
  | nil => rfl
  | cons e r ih => rw [underEntries, ih, List.map_cons]

theorem underFields_eq_map (i : Nat) (fields : List (String × Value)) :
    underFields i fields = fields.map fun f => (f.1, f.2.under i) := by
  induction fields with
  | nil => rfl
  | cons f r ih => rw [underFields, ih, List.map_cons]

theorem children_under (v : Value) (i : Nat) : (v.under i).children = v.children.map (under i) := by
  cases v with
  | list items => exact underItems_eq_map i items
  | map entries => simp [under, children, underEntries_eq_map]
  | message origin t fields => simp [under, children, underFields_eq_map]
  | _ => rfl

end CelSuite.Value
