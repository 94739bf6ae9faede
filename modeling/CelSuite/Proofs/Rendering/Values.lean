import CelSuite.Expr.Eval
import CelSuite.Proofs.Assoc

/-! # Values with a notation

Doubles aside, every value without messages has a notation of its own. Such a value is equal to itself,
looks the same to every parent, and a map is what its entries make again. -/

namespace CelSuite

/-- A key that its constructor accepts. -/
def MapKey.InRange : MapKey → Prop
  | .int n => Value.InIntRange n
  | .uint n => Value.InUintRange n
  | .bool _ | .string _ => True

instance : DecidablePred MapKey.InRange
  | .int n => inferInstanceAs (Decidable (Value.InIntRange n))
  | .uint n => inferInstanceAs (Decidable (Value.InUintRange n))
  | .bool _ | .string _ => inferInstanceAs (Decidable True)

namespace Value

/-- A value without doubles and messages, as the library builds it: numbers are in their ranges, a type is
    one of the built-in types, and the keys of a map are distinct. -/
inductive Plain : Value → Prop where
  | int {n : Int} (h : InIntRange n) : Plain (.int n)
  | uint {n : Nat} (h : InUintRange n) : Plain (.uint n)
  | string {s : String} : Plain (.string s)
  | bytes {bs : List UInt8} : Plain (.bytes bs)
  | bool {b : Bool} : Plain (.bool b)
  | null : Plain .null
  | list {items : List Value} (h : ∀ v ∈ items, Plain v) : Plain (.list items)
  | map {entries : Entries} (hk : ∀ e ∈ entries, e.1.InRange) (distinct : (entries.map (·.1)).Nodup)
      (hv : ∀ e ∈ entries, Plain e.2) : Plain (.map entries)
  | duration {n : Int} : Plain (.duration n)
  | type {name : String} (h : name ∈ typeNames) : Plain (.type name)

variable {v : Value} {i : Nat}

/-! ### Under a parent -/

theorem underItems_eq : ∀ {items : List Value}, (∀ v ∈ items, v.under i = v) → underItems i items = items
  | [], _ => rfl
  | v :: vs, h => by
    obtain ⟨hv, hvs⟩ := List.forall_mem_cons.mp h
    rw [underItems, hv, underItems_eq hvs]

theorem underEntries_eq : ∀ {entries : Entries}, (∀ e ∈ entries, e.2.under i = e.2) →
    underEntries i entries = entries
  | [], _ => rfl
  | (k, v) :: r, h => by
    obtain ⟨hv, hr⟩ := List.forall_mem_cons.mp h
    rw [underEntries, hv, underEntries_eq hr]

theorem Plain.under (h : Plain v) (i : Nat) : v.under i = v := by
  induction h with
  | list h ih => rw [Value.under, underItems_eq ih]
  | map hk distinct hv ih => rw [Value.under, underEntries_eq ih]
  | _ => rfl

/-! ### Equality -/

theorem equalItems_self : ∀ {items : List Value}, (∀ v ∈ items, v.equal v = true) →
    equalItems items items = true
  | [], _ => rfl
  | v :: vs, h => by
    obtain ⟨hv, hvs⟩ := List.forall_mem_cons.mp h
    rw [equalItems, hv, equalItems_self hvs, Bool.and_self]

theorem equalEntries_self {bs : Entries} (hnodup : (bs.map (·.1)).Nodup) : ∀ {as : Entries},
    (∀ e ∈ as, e ∈ bs ∧ e.2.equal e.2 = true) → equalEntries as bs = true
  | [], _ => rfl
  | (k, a) :: as, h => by
    obtain ⟨⟨hmem, ha⟩, has⟩ := List.forall_mem_cons.mp h
    rw [equalEntries, Assoc.get?_of_mem hnodup hmem, equalEntries_self hnodup has, Bool.and_true]
    exact ha

theorem Plain.equal_self (h : Plain v) : v.equal v = true := by
  induction h with
  | list h ih => rw [equal, equalItems_self ih]
  | map hk distinct hv ih =>
    rw [equal, equalEntries_self distinct fun e he => ⟨he, ih e he⟩, beq_self_eq_true, Bool.and_self]
  | null => rfl
  | _ => exact beq_self_eq_true _

/-! ### Maps -/

theorem key?_toValue (k : MapKey) : k.toValue.key? = some k := by
  cases k <;> rfl

theorem key?_eq_some {k : MapKey} : v.key? = some k ↔ v = k.toValue := by
  cases v <;> cases k <;> simp [Value.key?, MapKey.toValue]

theorem addEntries_toValue : ∀ {entries m : Entries}, ((m ++ entries).map (·.1)).Nodup →
    addEntries m (entries.map fun e => (e.1.toValue, e.2)) = .ok (m ++ entries)
  | [], m, _ => by rw [List.map_nil, addEntries, List.append_nil]
  | (k, a) :: r, m, h => by
    have hfresh : k ∉ m.map (·.1) := by
      rw [List.map_append, List.map_cons] at h
      exact fun hmem => (List.nodup_append.mp h).2.2 k hmem k List.mem_cons_self rfl
    rw [List.map_cons, addEntries, key?_toValue]
    dsimp only
    have happ : m ++ (k, a) :: r = m ++ [(k, a)] ++ r := by simp
    rw [Assoc.put_fresh hfresh, happ]
    exact addEntries_toValue (happ ▸ h)

theorem buildMap_toValue {entries : Entries} (h : (entries.map (·.1)).Nodup) :
    Expr.buildMap (entries.map fun e => (e.1.toValue, e.2)) = .ok (.map entries) := by
  have hadd : addEntries [] (entries.map fun e => (e.1.toValue, e.2)) = .ok entries := addEntries_toValue h
  rw [Expr.buildMap, ofEntries, hadd]
  rfl

end Value

end CelSuite
