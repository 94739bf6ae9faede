import CelSuite.Proofs.Fixture.Payloads
import Mathlib.Data.List.Forall2

/-! # Literals in document order

A walk over a literal comes to every literal in it, depth first and from left to right, and to every map key
once more when it is behind the key. Each stop of the walk has at most one defect of its own. A literal has a
value when no stop has a defect, and otherwise the first defect is that of the literal. -/

namespace CelSuite

/-! ### Induction on literals -/

namespace Node

/-- What holds of a literal when it holds of the literals right inside it holds of every literal. -/
@[induction_eliminator]
theorem induct {P : Node → Prop} (scalar : ∀ kind p, P (.scalar kind p))
    (list : ∀ items, (∀ n ∈ items, P n) → P (.list items))
    (map : ∀ groups, (∀ e ∈ groups.flatten, P e.1 ∧ P e.2) → P (.map groups))
    (object : ∀ typeUrl fields, P (.object typeUrl fields)) : ∀ n, P n
  | .scalar kind p => scalar kind p
  | .list items => list items fun n hn =>
    have : sizeOf n < sizeOf items := List.sizeOf_lt_of_mem hn
    induct scalar list map object n
  | .map groups => map groups fun e he => by
    obtain ⟨g, hg, heg⟩ := List.mem_flatten.mp he
    have hgroup : sizeOf g < sizeOf groups := List.sizeOf_lt_of_mem hg
    have hentry : sizeOf e < sizeOf g := List.sizeOf_lt_of_mem heg
    have hparts : sizeOf e = 1 + sizeOf e.1 + sizeOf e.2 := rfl
    exact ⟨induct scalar list map object e.1, induct scalar list map object e.2⟩
  | .object typeUrl fields => object typeUrl fields

/-! ### Lists of literals -/

variable {r : Registry} {n m : Node} {ns items : List Node} {es : List (Node × Node)}
  {groups : List (List (Node × Node))} {v : Value} {vs : List Value} {entries : Entries}

theorem toValues_eq_ok : toValues r ns = .ok vs ↔ List.Forall₂ (fun n v => n.toValue r = .ok v) ns vs := by
  induction ns generalizing vs with
  | nil => simp [toValues, eq_comm]
  | cons n ns ih =>
    rw [toValues, List.forall₂_cons_left_iff]
    constructor
    · intro h
      obtain ⟨v, hv, h⟩ := bind_eq_ok.mp h
      obtain ⟨us, hus, h⟩ := bind_eq_ok.mp h
      cases h
      exact ⟨v, us, hv, ih.mp hus, rfl⟩
    · rintro ⟨v, us, hv, hus, rfl⟩
      exact bind_eq_ok.mpr ⟨v, hv, bind_eq_ok.mpr ⟨us, ih.mpr hus, rfl⟩⟩

theorem toEntries_eq_ok : toEntries r es = .ok entries ↔ List.Forall₂ (fun e kv => ∃ k, e.1.toValue r = .ok k ∧
    asKey k = .ok kv.1 ∧ e.2.toValue r = .ok kv.2) es entries := by
  induction es generalizing entries with
  | nil => simp [toEntries, eq_comm]
  | cons e es ih =>
    rw [toEntries, List.forall₂_cons_left_iff]
    constructor
    · intro h
      obtain ⟨k, hk, h⟩ := bind_eq_ok.mp h
      obtain ⟨key, hkey, h⟩ := bind_eq_ok.mp h
      obtain ⟨v, hv, h⟩ := bind_eq_ok.mp h
      obtain ⟨rest, hrest, h⟩ := bind_eq_ok.mp h
      cases h
      exact ⟨(key, v), rest, ⟨k, hk, hkey, hv⟩, ih.mp hrest, rfl⟩
    · rintro ⟨kv, rest, ⟨k, hk, hkey, hv⟩, hrest, rfl⟩
      exact bind_eq_ok.mpr ⟨k, hk, bind_eq_ok.mpr ⟨kv.1, hkey, bind_eq_ok.mpr ⟨kv.2, hv, bind_eq_ok.mpr
        ⟨rest, ih.mpr hrest, rfl⟩⟩⟩⟩

theorem toEntries_append (r : Registry) (es es' : List (Node × Node)) :
    toEntries r (es ++ es') = (do
      let kvs ← toEntries r es
      let rest ← toEntries r es'
      return kvs ++ rest) := by
  induction es with
  | nil =>
    rw [List.nil_append, toEntries]
    cases toEntries r es' <;> rfl
  | cons e es ih =>
    obtain ⟨k, n⟩ := e
    rw [List.cons_append, toEntries, toEntries, ih]
    simp

/-- How entries are grouped does not matter. -/
theorem groupsToEntries_eq (r : Registry) (groups : List (List (Node × Node))) :
    groupsToEntries r groups = toEntries r groups.flatten := by
  induction groups with
  | nil => rfl
  | cons g gs ih => rw [groupsToEntries, ih, List.flatten_cons, toEntries_append]

/-! ### Literals by kind -/

theorem toValue_scalar_eq_ok {kind : String} {p : Payload} :
    (scalar kind p).toValue r = .ok v ↔ ∃ k : ScalarKind, kind = k.name ∧ Reads k p v := by
  rw [toValue, scalarToValue_eq_ok]

theorem toValue_list_eq_ok : (list items).toValue r = .ok v ↔
    ∃ vs, List.Forall₂ (fun n v => n.toValue r = .ok v) items vs ∧ Value.list vs = v := by
  simp only [toValue, map_eq_ok, toValues_eq_ok]

/-- A map has the entries of all groups put in one after the other. -/
theorem toValue_map_eq_ok : (map groups).toValue r = .ok v ↔
    ∃ entries, List.Forall₂ (fun e kv => ∃ k, e.1.toValue r = .ok k ∧ asKey k = .ok kv.1 ∧ e.2.toValue r = .ok kv.2)
      groups.flatten entries ∧ Value.map (Assoc.putAll [] entries) = v := by
  simp only [toValue, groupsToEntries_eq, map_eq_ok, toEntries_eq_ok]

end Node

/-! ### The walk -/

/-- A stop of a walk: at a literal, or behind the key of a map entry. -/
inductive Visit where
  | node (n : Node)
  | key (n : Node)

/-- What is wrong at one stop. A scalar may have no value and an object may not be made; behind a key its value
    may be none that can be a key. -/
def Visit.defect? (r : Registry) : Visit → Option Defect
  | .node (.scalar kind p) => fault? (Node.scalarToValue kind p)
  | .node (.object typeUrl fields) => fault? (r.create typeUrl fields)
  | .node _ => none
  | .key n => (n.toValue r).toOption.bind fun v => fault? (Node.asKey v)

namespace Node

mutual

/-- The stops of a walk over a literal: the literal, then what is inside it. An entry is walked over key first;
    the stop behind the key comes before the value. -/
def walk : Node → List Visit
  | .scalar kind p => [.node (.scalar kind p)]
  | .list items => .node (.list items) :: walkItems items
  | .map groups => .node (.map groups) :: walkGroups groups
  | .object typeUrl fields => [.node (.object typeUrl fields)]

def walkItems : List Node → List Visit
  | [] => []
  | n :: ns => walk n ++ walkItems ns

def walkGroups : List (List (Node × Node)) → List Visit
  | [] => []
  | g :: gs => walkEntries g ++ walkGroups gs

def walkEntries : List (Node × Node) → List Visit
  | [] => []
  | (k, n) :: es => walk k ++ .key k :: walk n ++ walkEntries es

end

variable {r : Registry} {n m : Node} {ns items : List Node} {es : List (Node × Node)}
  {groups : List (List (Node × Node))}

theorem walkItems_eq (ns : List Node) : walkItems ns = ns.flatMap walk := by
  induction ns with
  | nil => rfl
  | cons n ns ih => rw [walkItems, ih, List.flatMap_cons]

theorem walkEntries_eq (es : List (Node × Node)) :
    walkEntries es = es.flatMap fun e => walk e.1 ++ .key e.1 :: walk e.2 := by
  induction es with
  | nil => rfl
  | cons e es ih =>
    obtain ⟨k, n⟩ := e
    rw [walkEntries, ih, List.flatMap_cons]

theorem walkGroups_eq (groups : List (List (Node × Node))) : walkGroups groups = walkEntries groups.flatten := by
  induction groups with
  | nil => rfl
  | cons g gs ih => rw [walkGroups, ih, List.flatten_cons, walkEntries_eq, walkEntries_eq, walkEntries_eq,
      List.flatMap_append]

theorem mem_walk_list {s : Visit} : s ∈ walk (.list items) ↔ s = .node (.list items) ∨ ∃ n ∈ items, s ∈ n.walk := by
  rw [walk, walkItems_eq, List.mem_cons, List.mem_flatMap]

theorem mem_walk_map {s : Visit} : s ∈ walk (.map groups) ↔
    s = .node (.map groups) ∨ ∃ e ∈ groups.flatten, s ∈ e.1.walk ∨ s = .key e.1 ∨ s ∈ e.2.walk := by
  rw [walk, walkGroups_eq, walkEntries_eq, List.mem_cons, List.mem_flatMap]
  simp

/-- A walk begins at the literal. -/
theorem mem_walk_self (n : Node) : .node n ∈ n.walk := by
  cases n with
  | list items => exact mem_walk_list.mpr (Or.inl rfl)
  | map groups => exact mem_walk_map.mpr (Or.inl rfl)
  | _ => exact List.mem_singleton_self _

/-- A walk comes to all that is inside a literal that it comes to. -/
theorem walk_subset (h : .node m ∈ n.walk) : m.walk ⊆ n.walk := by
  induction n with
  | scalar kind p =>
    cases List.mem_singleton.mp h
    exact List.Subset.refl _
  | object typeUrl fields =>
    cases List.mem_singleton.mp h
    exact List.Subset.refl _
  | list items ih =>
    rcases mem_walk_list.mp h with heq | ⟨i, hi, hm⟩
    · cases heq
      exact List.Subset.refl _
    · exact fun s hs => mem_walk_list.mpr (Or.inr ⟨i, hi, ih i hi hm hs⟩)
  | map groups ih =>
    rcases mem_walk_map.mp h with heq | ⟨e, he, hm | hm | hm⟩
    · cases heq
      exact List.Subset.refl _
    · exact fun s hs => mem_walk_map.mpr (Or.inr ⟨e, he, Or.inl ((ih e he).1 hm hs)⟩)
    · cases hm
    · exact fun s hs => mem_walk_map.mpr (Or.inr ⟨e, he, Or.inr (Or.inr ((ih e he).2 hm hs))⟩)

/-! ### The first defect -/

theorem fault?_toValues (h : ∀ n ∈ ns, fault? (n.toValue r) = n.walk.findSome? (Visit.defect? r)) :
    fault? (toValues r ns) = (walkItems ns).findSome? (Visit.defect? r) := by
  induction ns with
  | nil => rfl
  | cons n ns ih =>
    obtain ⟨hn, hns⟩ := List.forall_mem_cons.mp h
    rw [toValues, walkItems, fault?_bind, List.findSome?_append, ← hn, ← ih hns]
    cases n.toValue r with
    | error e => rfl
    | ok v => cases toValues r ns <;> rfl

theorem fault?_toEntries (h : ∀ e ∈ es, fault? (e.1.toValue r) = e.1.walk.findSome? (Visit.defect? r) ∧
      fault? (e.2.toValue r) = e.2.walk.findSome? (Visit.defect? r)) :
    fault? (toEntries r es) = (walkEntries es).findSome? (Visit.defect? r) := by
  induction es with
  | nil => rfl
  | cons e es ih =>
    obtain ⟨k, n⟩ := e
    obtain ⟨⟨hk, hn⟩, hes⟩ := List.forall_mem_cons.mp h
    rw [toEntries, walkEntries, ← List.singleton_append, List.findSome?_append, List.findSome?_append,
      List.findSome?_append, List.findSome?_singleton, ← hk, ← hn, ← ih hes, Visit.defect?]
    cases k.toValue r with
    | error e => rfl
    | ok u =>
      -- The value of the key is known, so what is left is whether it can be a key, then the value, then the rest.
      change fault? (do
          let key ← asKey u
          let v ← n.toValue r
          let rest ← toEntries r es
          return (key, v) :: rest) = ((fault? (asKey u)).or (fault? (n.toValue r))).or (fault? (toEntries r es))
      cases asKey u with
      | error e => rfl
      | ok key =>
        cases n.toValue r with
        | error e => rfl
        | ok v => cases toEntries r es <;> rfl

/-- The error of a literal is the first defect that a walk over it comes to. -/
theorem fault?_toValue (r : Registry) (n : Node) : fault? (n.toValue r) = n.walk.findSome? (Visit.defect? r) := by
  induction n with
  | scalar kind p => simp [toValue, walk, Visit.defect?]
  | object typeUrl fields => simp [toValue, walk, Visit.defect?]
  | list items ih =>
    rw [toValue, fault?_map, fault?_toValues ih, walk]
    rfl
  | map groups ih =>
    rw [toValue, groupsToEntries_eq, fault?_map, fault?_toEntries ih, walk, walkGroups_eq]
    rfl

end Node

end CelSuite
