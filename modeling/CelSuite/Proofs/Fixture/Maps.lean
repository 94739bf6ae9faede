import CelSuite.Proofs.Fixture.Durations
import CelSuite.Proofs.Fixture.Walk
import CelSuite.Proofs.Values.Equivalence
import CelSuite.Proofs.Values.Maps

/-! # Map literals

A map literal has the value of its entries as they follow each other, in whatever groups. Where the entries stand
does not matter as long as those with equal keys stay in order, since a key has the value it is given last. -/

namespace CelSuite

/-- What a registry makes has no map with a key twice in it. -/
def Registry.KeepsKeys (r : Registry) : Prop :=
  ∀ typeUrl fields v, r.create typeUrl fields = .ok v → v.Every Value.KeysDistinct

theorem Registry.standard_keepsKeys : Registry.standard.KeepsKeys := by
  intro typeUrl fields v h
  obtain ⟨-, hduration⟩ := Node.toValue_object_eq_ok.mp h
  obtain ⟨_, _, _, _, _, _, -, -, -, -, rfl⟩ := durationOfFields_eq_ok.mp hduration
  exact Value.every_of_leaf rfl trivial

namespace Node
open Value

variable {r : Registry} {n : Node} {v : Value} {es es' : List (Node × Node)} {ps ps' : Entries}

theorem toValue_keysDistinct (hr : r.KeepsKeys) (n : Node) : Yields (fun v => v.Every KeysDistinct) (n.toValue r) := by
  induction n with
  | scalar kind p =>
    intro v h
    obtain ⟨k, -, hreads⟩ := toValue_scalar_eq_ok.mp h
    cases hreads <;> exact every_of_leaf rfl trivial
  | object typeUrl fields => exact hr typeUrl fields
  | list items ih =>
    intro v h
    obtain ⟨vs, hvs, rfl⟩ := toValue_list_eq_ok.mp h
    exact every_list_iff.mpr ⟨trivial, forall_right_of_forall₂ hvs ih fun n v hv hn => hn v hv⟩
  | map groups ih =>
    intro v h
    obtain ⟨ps, hps, rfl⟩ := toValue_map_eq_ok.mp h
    have hvalues : ∀ e ∈ ps, e.2.Every KeysDistinct := by
      refine forall_right_of_forall₂ hps (fun e he => (ih e he).2) ?_
      rintro e kv ⟨k, -, -, hv⟩ he
      exact he kv.2 hv
    refine every_map_iff.mpr ⟨Assoc.nodup_putAll (m := []) List.nodup_nil ps, fun e he => ?_⟩
    rcases Assoc.mem_putAll he with he | he
    · cases he
    · exact hvalues e he

/-! ### Entries with equal keys -/

/-- An entry that gives a key its value. -/
def Gives (r : Registry) (e : Node × Node) (kv : MapKey × Value) : Prop :=
  ∃ k, e.1.toValue r = .ok k ∧ asKey k = .ok kv.1 ∧ e.2.toValue r = .ok kv.2

/-- Whether an entry is one for a key that is equal to `k`. -/
def hasKey (r : Registry) (k : Value) (e : Node × Node) : Bool :=
  (e.1.toValue r).toOption.any fun v => v.equal k

/-- The same entries in another order, in which those with equal keys follow each other as before. -/
structure Reordered (r : Registry) (es es' : List (Node × Node)) : Prop where
  perm : es.Perm es'
  order : ∀ k, es.filter (hasKey r k) = es'.filter (hasKey r k)

/-- Two neighbours for different keys may change places. -/
theorem reordered_swap {e e' : Node × Node} (h : ∀ k, hasKey r k e = true → hasKey r k e' = true → False)
    (es : List (Node × Node)) : Reordered r (e :: e' :: es) (e' :: e :: es) := by
  refine ⟨.swap _ _ _, fun k => ?_⟩
  by_cases he : hasKey r k e = true
  · by_cases he' : hasKey r k e' = true
    · exact (h k he he').elim
    · simp [he, he']
  · simp [List.filter_cons, he]

theorem gives_unique {e : Node × Node} {kv kv' : MapKey × Value} (h : Gives r e kv) (h' : Gives r e kv') :
    kv = kv' := by
  obtain ⟨key, v⟩ := kv
  obtain ⟨key', v'⟩ := kv'
  obtain ⟨k, hk, hkey, hv⟩ := h
  obtain ⟨k', hk', hkey', hv'⟩ := h'
  cases hk.symm.trans hk'
  cases hkey.symm.trans hkey'
  cases hv.symm.trans hv'
  rfl

theorem hasKey_of_gives {e : Node × Node} {kv : MapKey × Value} (h : Gives r e kv) (key : MapKey) :
    hasKey r key.toValue e = true ↔ decide (kv.1 = key) = true := by
  obtain ⟨k, hk, hkey, -⟩ := h
  have hvalue : k = kv.1.toValue := by
    unfold asKey at hkey
    split at hkey
    · rename_i key' hkey'
      cases hkey
      exact key?_eq_some.mp hkey'
    · cases hkey
  rw [hasKey, hk, hvalue, decide_eq_true_iff]
  show kv.1.toValue.equal key.toValue = true ↔ kv.1 = key
  rw [MapKey.toValue_equal_iff, MapKey.toValue_inj, eq_comm]

/-- Entries in another order give every key the same last value. -/
theorem get?_reordered (h : Reordered r es es') (hps : List.Forall₂ (Gives r) es ps)
    (hps' : List.Forall₂ (Gives r) es' ps') (key : MapKey) :
    Assoc.get? key (Assoc.putAll [] ps) = Assoc.get? key (Assoc.putAll [] ps') := by
  have hfilter {es : List (Node × Node)} {ps : Entries} (hps : List.Forall₂ (Gives r) es ps) :
      List.Forall₂ (Gives r) (es.filter (hasKey r key.toValue)) (ps.filter fun p => p.1 = key) :=
    List.rel_filter (R := Gives r) (fun _ _ hekv => hasKey_of_gives hekv key) hps
  have hleft := hfilter hps
  rw [h.order] at hleft
  have hunique : Relator.RightUnique (Gives r) := fun _ _ _ => gives_unique
  have hsame : ps.filter (fun p => p.1 = key) = ps'.filter fun p => p.1 = key :=
    List.right_unique_forall₂' hunique hleft (hfilter hps')
  rw [Assoc.get?_putAll, Assoc.get?_putAll, hsame]

theorem toValue_reordered (hr : r.KeepsKeys) {groups groups' : List (List (Node × Node))}
    (hv : (map groups).toValue r = .ok v) (hnan : ¬v.HasNaN) (h : Reordered r groups.flatten groups'.flatten) :
    ∃ w, (map groups').toValue r = .ok w ∧ v.equal w = true ∧ w.equal v = true := by
  have hdistinct := toValue_keysDistinct hr _ v hv
  obtain ⟨ps, hps, rfl⟩ := toValue_map_eq_ok.mp hv
  have hgives : ∀ e ∈ groups'.flatten, ∃ kv, Gives r e kv := by
    intro e he
    exact exists_of_forall₂ hps e (h.perm.mem_iff.mpr he)
  obtain ⟨ps', hps'⟩ := exists_forall₂ hgives
  have hv' : (map groups').toValue r = .ok (.map (Assoc.putAll [] ps')) := toValue_map_eq_ok.mpr ⟨ps', hps', rfl⟩
  have hequal : (Value.map (Assoc.putAll [] ps)).equal (.map (Assoc.putAll [] ps')) = true := by
    refine equal_iff_alike.mpr ((alike_map_iff hdistinct.here (toValue_keysDistinct hr _ _ hv').here).mpr fun key => ?_)
    rw [← get?_reordered h hps hps' key]
    cases hget : Assoc.get? key (Assoc.putAll [] ps) with
    | none => exact .none
    | some a =>
      have hmem := Assoc.mem_of_get? hget
      refine .some ((equal_self_iff ((every_map_iff.mp hdistinct).2 _ hmem)).mpr fun ha => ?_)
      exact hnan (.entry hmem ha)
  exact ⟨_, hv', hequal, equal_symm hdistinct (toValue_keysDistinct hr _ _ hv') hequal⟩

end Node

/-! ### Maps and their entries -/

open Value

/-- Two keys take one slot exactly when they are equal, and a table of slots fills and answers as a map does. A map
    of entries with keys holds these entries; the first value that cannot be a key is an error with its type. For a
    map literal the groups do not matter. If no NaN is in its value, neither does the order of the entries as long as
    those with equal keys stay in order: the value then is an equal one. -/
theorem map_holds_entries :
    (∀ k k' : MapKey, k.slot = k'.slot ↔ k.toValue.equal k'.toValue = true) ∧
      (∀ es : List (Value × Value), (Slots.add [] es).map Slots.entries = addEntries [] es) ∧
      (∀ es t k, Slots.add [] es = .ok t → t.lookup k = lookup t.entries k) ∧
      (∀ es : List (Value × Value), (∀ e ∈ es, e.1.key?.isSome) → ∃ m, ofEntries es = .ok (.map m) ∧ Holds m es) ∧
      (∀ (pre : List (Value × Value)) k v post, (∀ e ∈ pre, e.1.key?.isSome) → k.key? = none →
        ofEntries (pre ++ (k, v) :: post) = .error (.unsupportedKey k.typeName)) ∧
      (∀ r groups groups', groups.flatten = groups'.flatten →
        (Node.map groups).toValue r = (Node.map groups').toValue r) ∧
      ∀ r groups groups' v, r.KeepsKeys → (Node.map groups).toValue r = .ok v → ¬v.HasNaN →
        Node.Reordered r groups.flatten groups'.flatten →
        ∃ w, (Node.map groups').toValue r = .ok w ∧ v.equal w = true ∧ w.equal v = true := by
  have hslots (es : List (Value × Value)) : Slots.add [] es = (addEntries [] es).map Slots.ofEntries :=
    Slots.add_ofEntries [] es
  refine ⟨fun k k' => ?_, fun es => ?_, fun es t k ht => ?_, fun es => ofEntries_holds,
    fun pre k v post => ofEntries_first_error, fun r groups groups' h => ?_,
    fun r groups groups' v hr hv => Node.toValue_reordered hr hv⟩
  · rw [MapKey.slot_inj, MapKey.toValue_equal_iff, MapKey.toValue_inj, eq_comm]
  · rw [hslots]
    cases addEntries [] es with
    | error e => rfl
    | ok m => exact congrArg Except.ok (Slots.entries_ofEntries m)
  · rw [hslots] at ht
    obtain ⟨m, -, rfl⟩ := map_eq_ok.mp ht
    rw [Slots.lookup_ofEntries, Slots.entries_ofEntries]
  · rw [Node.toValue, Node.toValue, Node.groupsToEntries_eq, Node.groupsToEntries_eq, h]

/-- A key that is given twice, with a key of another kind between: the second value holds. And as a literal, with
    the other key brought to the front in a group of its own, it is an equal map. -/
theorem second_value_holds :
    (∃ m, ofEntries [(.int 1, .bool true), (.uint 1, .null), (.int 1, .bool false)] = .ok (.map m) ∧
        lookup m (.int 1) = some (.bool false) ∧ m.length = 2) ∧
      ∃ w, (Node.map [[(.scalar "uint64_value" (.integer 1), .scalar "null_value" .null)],
          [(.scalar "int64_value" (.integer 1), .scalar "bool_value" (.bool true)),
            (.scalar "int64_value" (.integer 1), .scalar "bool_value" (.bool false))]]).toValue .standard = .ok w ∧
        (Value.map [(.int 1, .bool false), (.uint 1, .null)]).equal w = true := by
  obtain ⟨-, -, -, hholds, -, -, hreordered⟩ := map_holds_entries
  constructor
  · obtain ⟨m, hm, h⟩ := hholds [(.int 1, .bool true), (.uint 1, .null), (.int 1, .bool false)] (by decide)
    exact ⟨m, hm, h.lookup _, h.size⟩
  · have hnan : ¬(Value.map [(.int 1, .bool false), (.uint 1, .null)]).HasNaN := by
      rw [hasNaN_map_iff]
      rintro ⟨e, he, h⟩
      rcases List.mem_cons.mp he with rfl | he
      · cases h
      · cases List.mem_singleton.mp he
        cases h
    have happart (n m : Node) (k : Value)
        (hint : Node.hasKey .standard k (.scalar "int64_value" (.integer 1), n) = true)
        (huint : Node.hasKey .standard k (.scalar "uint64_value" (.integer 1), m) = true) : False := by
      have hk : k = .int 1 := MapKey.toValue_equal_iff (k := .int 1).mp hint
      have hk' : k = .uint 1 := MapKey.toValue_equal_iff (k := .uint 1).mp huint
      cases hk.symm.trans hk'
    obtain ⟨w, hw, hequal, -⟩ := hreordered .standard
      [[(.scalar "int64_value" (.integer 1), .scalar "bool_value" (.bool true)),
        (.scalar "uint64_value" (.integer 1), .scalar "null_value" .null),
        (.scalar "int64_value" (.integer 1), .scalar "bool_value" (.bool false))]]
      [[(.scalar "uint64_value" (.integer 1), .scalar "null_value" .null)],
        [(.scalar "int64_value" (.integer 1), .scalar "bool_value" (.bool true)),
          (.scalar "int64_value" (.integer 1), .scalar "bool_value" (.bool false))]] _
      Registry.standard_keepsKeys rfl hnan (Node.reordered_swap (happart _ _) _)
    exact ⟨w, hw, hequal⟩

end CelSuite
