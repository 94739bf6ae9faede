import CelSuite.Expr.Operators
import CelSuite.Proofs.Assoc
import CelSuite.Proofs.Rendering.Numbers
import CelSuite.Proofs.Rendering.Values
import CelSuite.Proofs.Values.Equality
import Mathlib.Data.List.Basic

/-! # Maps by their entries

A map is what is left of a list of entries when equality decides which keys are the same key: each key stands where
it came first and has the value that it was given last. Keys may as well be told apart by a text, the slot of a key,
which spells the kind and the value; a table of slots holds the same entries. -/

namespace CelSuite

/-! ### Keys -/

namespace MapKey

variable {k k' : MapKey} {v : Value}

theorem toValue_inj : k.toValue = k'.toValue ↔ k = k' := by
  cases k <;> cases k' <;> simp [toValue]

/-- A key is equal to no value but itself. -/
theorem toValue_equal_iff : k.toValue.equal v = true ↔ v = k.toValue := by
  constructor
  · intro h
    cases k <;> cases Value.equal_iff_alike.mp h <;> rfl
  · rintro rfl
    cases k <;> exact Value.equal_iff_alike.mpr (.scalar trivial)

theorem repr_int_inj {n m : Int} (h : n.repr = m.repr) : n = m := by
  have hread := congrArg (fun s => Text.signedInteger? (Text.trimChars s.toList)) h
  simpa only [Text.signedInteger?_repr, Option.some.injEq] using hread

theorem repr_nat_inj {n m : Nat} (h : n.repr = m.repr) : n = m := by
  have hread := congrArg (fun s => Text.ofDigits s.toList) h
  simpa only [Text.ofDigits_repr] using hread

/-- Kinds have different first letters, and behind the colon a text stands for one value of the kind. -/
theorem slot_inj : k.slot = k'.slot ↔ k = k' := by
  constructor
  · intro h
    rw [← String.toList_inj] at h
    cases k with
    | int n =>
      cases k' with
      | int m =>
        have hrepr : n.repr = m.repr := by simpa [slot, String.toList_inj] using h
        rw [repr_int_inj hrepr]
      | _ => simp [slot] at h
    | uint n =>
      cases k' with
      | uint m =>
        have hrepr : n.repr.toList = m.repr.toList := by simpa [slot] using h
        rw [repr_nat_inj (String.toList_inj.mp hrepr)]
      | _ => simp [slot] at h
    | bool b =>
      cases k' with
      | bool c => cases b <;> cases c <;> simp [slot] at h ⊢
      | _ => simp [slot] at h
    | string s =>
      cases k' with
      | string t => simpa [slot, String.toList_inj] using h
      | _ => simp [slot] at h
  · rintro rfl
    rfl

end MapKey

/-! ### Slots -/

namespace Slots
open Value

variable {m : Entries} {k : MapKey} {v : Value}

theorem entries_ofEntries (m : Entries) : (ofEntries m).entries = m := by
  simp [ofEntries, entries, Function.comp_def]

theorem get?_ofEntries (k : MapKey) (m : Entries) :
    Assoc.get? k.slot (ofEntries m) = (Assoc.get? k m).map fun v => (k, v) := by
  induction m with
  | nil => rfl
  | cons e r ih =>
    obtain ⟨k₀, a₀⟩ := e
    have hcons : ofEntries ((k₀, a₀) :: r) = (k₀.slot, k₀, a₀) :: ofEntries r := rfl
    rw [hcons, Assoc.get?, Assoc.get?, ih]
    by_cases h : k₀ = k
    · simp [h]
    · simp [h, MapKey.slot_inj]

theorem put_slot (k : MapKey) (v : Value) (m : Entries) :
    Assoc.put k.slot (k, v) (ofEntries m) = ofEntries (Assoc.put k v m) := by
  induction m with
  | nil => rfl
  | cons e r ih =>
    obtain ⟨k₀, a₀⟩ := e
    have hcons : ofEntries ((k₀, a₀) :: r) = (k₀.slot, k₀, a₀) :: ofEntries r := rfl
    rw [hcons, Assoc.put, Assoc.put, ih]
    by_cases h : k₀ = k
    · simp [h, ofEntries]
    · simp [h, MapKey.slot_inj, ofEntries]

theorem put_ofEntries (k : MapKey) (v : Value) (m : Entries) :
    put k v (ofEntries m) = ofEntries (Assoc.put k v m) := by
  -- The slot of a key holds that same key, so the key that is kept is the key that is put in.
  have hkey : ((Assoc.get? k.slot (ofEntries m)).map (·.1)).getD k = k := by
    rw [get?_ofEntries]
    cases Assoc.get? k m <;> rfl
  rw [put, hkey, put_slot]

/-- Entries fill a table just as they fill a map. -/
theorem add_ofEntries (m : Entries) (es : List (Value × Value)) :
    add (ofEntries m) es = (addEntries m es).map ofEntries := by
  induction es generalizing m with
  | nil => rfl
  | cons e r ih =>
    obtain ⟨k, v⟩ := e
    rw [add, addEntries]
    cases k.key? with
    | none => rfl
    | some k =>
      dsimp only
      rw [put_ofEntries, ih]

theorem lookup_ofEntries (m : Entries) (k : Value) : (ofEntries m).lookup k = Value.lookup m k := by
  unfold lookup Value.lookup
  cases k.key? with
  | none => rfl
  | some k =>
    dsimp only [Option.bind]
    rw [get?_ofEntries, Option.map_map]
    cases Assoc.get? k m <;> rfl

end Slots

/-! ### What a map holds -/

namespace Value

variable {m : Entries} {es : List (Value × Value)} {k : Value}

/-- The value of the last entry whose key is equal to `k`. -/
def lastValue (es : List (Value × Value)) (k : Value) : Option Value :=
  (es.filter fun e => e.1.equal k).getLast?.map (·.2)

/-- A map has the entries of a list as equality knows them. Each key stands once and where it came first, with the
    last value that it was given, and by that value the map answers for a key. -/
structure Holds (m : Entries) (es : List (Value × Value)) : Prop where
  lookup : ∀ k, lookup m k = lastValue es k
  noKey : ∀ k, k.key? = none → Value.lookup m k = none
  contains : ∀ k, Operators.contains (.map m) k = .ok (.bool (lastValue es k).isSome)
  keys : m.map (fun e => e.1.toValue) = (es.map (·.1)).eraseDupsBy equal
  distinct : m.Pairwise fun a b => ¬a.1.toValue.equal b.1.toValue = true
  values : ∀ e ∈ m, lastValue es e.1.toValue = some e.2
  size : m.length = ((es.map (·.1)).eraseDupsBy equal).length

/-- Entries with keys are pairs of a key and a value. -/
theorem exists_entries (h : ∀ e ∈ es, e.1.key?.isSome) :
    ∃ ps : Entries, es = ps.map fun p => (p.1.toValue, p.2) := by
  induction es with
  | nil => exact ⟨[], rfl⟩
  | cons e r ih =>
    obtain ⟨hkey, hr⟩ := List.forall_mem_cons.mp h
    obtain ⟨k, hk⟩ := Option.isSome_iff_exists.mp hkey
    obtain ⟨ps, rfl⟩ := ih hr
    refine ⟨(k, e.2) :: ps, ?_⟩
    rw [List.map_cons, ← key?_eq_some.mp hk]

theorem addEntries_append (m ps : Entries) (r : List (Value × Value)) :
    addEntries m ((ps.map fun p => (p.1.toValue, p.2)) ++ r) = addEntries (Assoc.putAll m ps) r := by
  induction ps generalizing m with
  | nil => rfl
  | cons p ps ih =>
    rw [List.map_cons, List.cons_append, addEntries, key?_toValue]
    exact ih _

theorem eraseDupsBy_map {α β : Type} [DecidableEq α] {f : α → β} {r : β → β → Bool}
    (hr : ∀ a b, r (f a) (f b) = true ↔ a = b) (xs : List α) : (xs.map f).eraseDupsBy r = xs.eraseDups.map f := by
  -- On the length: what is erased after the first element is a filter of the rest.
  induction hn : xs.length using Nat.strongRecOn generalizing xs with
  | _ n ih =>
    cases xs with
    | nil => rfl
    | cons x xs =>
      have hfilter : (xs.map f).filter (fun b => decide (r b (f x) = false)) = (xs.filter fun b => !b == x).map f := by
        rw [List.filter_map]
        congr 1
        refine List.filter_congr fun a _ => ?_
        have hiff := hr a x
        by_cases hax : a = x
        · simp [hax, (hr x x).mpr rfl]
        · simp [hax, Bool.not_eq_true _ ▸ mt hiff.mp hax]
      have hlt : (xs.filter fun b => !b == x).length < n := by
        have hle := List.length_filter_le (fun b => !b == x) xs
        rw [← hn, List.length_cons]
        omega
      rw [List.map_cons, List.eraseDupsBy_cons, hfilter, List.eraseDups_cons, List.map_cons, ih _ hlt _ rfl]

theorem lastValue_toValue (ps : Entries) (key : MapKey) :
    lastValue (ps.map fun p => (p.1.toValue, p.2)) key.toValue =
      (ps.filter fun p => p.1 = key).getLast?.map (·.2) := by
  have hfilter : (ps.map fun p => (p.1.toValue, p.2)).filter (fun e => e.1.equal key.toValue) =
      (ps.filter fun p => p.1 = key).map fun p => (p.1.toValue, p.2) := by
    rw [List.filter_map]
    congr 1
    refine List.filter_congr fun p _ => ?_
    rw [Bool.eq_iff_iff, Function.comp_apply, MapKey.toValue_equal_iff, MapKey.toValue_inj, decide_eq_true_iff, eq_comm]
  rw [lastValue, hfilter, List.getLast?_map, Option.map_map]
  rfl

theorem lastValue_eq_none (ps : Entries) (hk : k.key? = none) :
    lastValue (ps.map fun p => (p.1.toValue, p.2)) k = none := by
  have hfilter : (ps.map fun p => (p.1.toValue, p.2)).filter (fun e => e.1.equal k) = [] := by
    rw [List.filter_eq_nil_iff, List.forall_mem_map]
    intro p _ h
    rw [MapKey.toValue_equal_iff.mp h, key?_toValue] at hk
    cases hk
  rw [lastValue, hfilter]
  rfl

theorem lookup_putAll (ps : Entries) (k : Value) :
    lookup (Assoc.putAll [] ps) k = lastValue (ps.map fun p => (p.1.toValue, p.2)) k := by
  cases hk : k.key? with
  | none => rw [lookup, hk, lastValue_eq_none ps hk]; rfl
  | some key =>
    rw [lookup, hk, key?_eq_some.mp hk, lastValue_toValue]
    simp [Assoc.get?_putAll, Assoc.get?]

theorem holds_putAll (ps : Entries) : Holds (Assoc.putAll [] ps) (ps.map fun p => (p.1.toValue, p.2)) := by
  have hnodup : ((Assoc.putAll [] ps).map (·.1)).Nodup := Assoc.nodup_putAll (m := []) List.nodup_nil ps
  have hkeys : (Assoc.putAll [] ps).map (fun e => e.1.toValue) =
      ((ps.map fun p => (p.1.toValue, p.2)).map (·.1)).eraseDupsBy equal := by
    have herase := eraseDupsBy_map (f := MapKey.toValue) (r := equal)
      (fun a b => MapKey.toValue_equal_iff.trans (MapKey.toValue_inj.trans eq_comm)) (ps.map (·.1))
    rw [← Assoc.keys_putAll, List.map_map, List.map_map] at herase
    rw [List.map_map]
    exact herase.symm
  exact {
    lookup := lookup_putAll ps
    noKey := fun k hk => by rw [Value.lookup, hk]; rfl
    contains := fun k => by rw [Operators.contains, lookup_putAll]
    keys := hkeys
    distinct := by
      refine (List.pairwise_map.mp hnodup).imp fun {a b} hne h => hne ?_
      exact (MapKey.toValue_inj.mp (MapKey.toValue_equal_iff.mp h)).symm
    values := fun e he => by
      rw [← lookup_putAll, Value.lookup, key?_toValue]
      exact Assoc.get?_of_mem hnodup he
    size := by rw [← hkeys, List.length_map] }

/-- Entries with keys make a map that holds them. -/
theorem ofEntries_holds (h : ∀ e ∈ es, e.1.key?.isSome) : ∃ m, ofEntries es = .ok (.map m) ∧ Holds m es := by
  obtain ⟨ps, rfl⟩ := exists_entries h
  refine ⟨Assoc.putAll [] ps, ?_, holds_putAll ps⟩
  rw [ofEntries, ← List.append_nil (ps.map _), addEntries_append]
  rfl

/-- The first value that cannot be a key is the error. -/
theorem ofEntries_first_error {pre post : List (Value × Value)} {v : Value} (hpre : ∀ e ∈ pre, e.1.key?.isSome)
    (hk : k.key? = none) : ofEntries (pre ++ (k, v) :: post) = .error (.unsupportedKey k.typeName) := by
  obtain ⟨ps, rfl⟩ := exists_entries hpre
  rw [ofEntries, addEntries_append, addEntries, hk]
  rfl

end Value

end CelSuite
