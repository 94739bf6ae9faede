import CelSuite.Fixture.Parse
import CelSuite.Proofs.Assoc
import CelSuite.Proofs.Except
import Mathlib.Data.List.Forall2
import Mathlib.Data.List.Nodup

/-! # Documents that are read

Data that a JSON text can hold, and how a literal of each kind is read: a scalar by its payload, a list item by
item, a map entry by entry when no element is a group, and an object field by field. -/

namespace CelSuite.Document

/-! ### Plain data -/

/-- Data that a JSON text can hold. Numbers are finite, nothing is absent, and an object is made of its fields in
    turn. -/
inductive Json : Document → Prop
  | null : Json .null
  | bool (b : Bool) : Json (.bool b)
  | number {x : Double} (h : x.isFinite = true) : Json (.number x)
  | string (s : String) : Json (.string s)
  | array {items : List Document} (h : ∀ d ∈ items, Json d) : Json (.array items)
  | object {fields : List (String × Document)} (h : ∀ f ∈ fields, Json f.2) : Json (.ofFields fields)

variable {fields : List (String × Document)}

/-- Fields with names of their own, none of them an array index, stay in order. -/
theorem ofFields_eq (hnames : ∀ f ∈ fields, arrayIndex? f.1 = none) (distinct : (fields.map (·.1)).Nodup) :
    ofFields fields = .object .mapping fields := by
  have hindexed : fields.filter (fun f => (arrayIndex? f.1).isSome) = [] :=
    List.filter_eq_nil_iff.mpr fun f hf => by simp [hnames f hf]
  have hothers : fields.filter (fun f => (arrayIndex? f.1).isNone) = fields :=
    List.filter_eq_self.mpr fun f hf => by simp [hnames f hf]
  have hput : Assoc.putAll [] fields = fields := Assoc.putAll_fresh distinct
  rw [ofFields, hput, arrange, hindexed, hothers, List.mergeSort_nil, List.nil_append]

theorem Json.mapping (hnames : ∀ f ∈ fields, arrayIndex? f.1 = none) (distinct : (fields.map (·.1)).Nodup)
    (h : ∀ f ∈ fields, Json f.2) : Json (.object .mapping fields) :=
  ofFields_eq hnames distinct ▸ .object h

/-- An object with two fields. -/
theorem json_pair {a b : String} {d e : Document} (hnames : arrayIndex? a = none ∧ arrayIndex? b = none)
    (hne : a ≠ b) (hd : Json d) (he : Json e) : Json (.object .mapping [(a, d), (b, e)]) :=
  .mapping (List.forall_mem_cons.mpr ⟨hnames.1, List.forall_mem_singleton.mpr hnames.2⟩) (by simpa using hne)
    (List.forall_mem_cons.mpr ⟨hd, List.forall_mem_singleton.mpr he⟩)

section
variable {d : Document} {shape : Shape} {items : List Document}

/-- A plain object has names of their own for its fields, which are plain data. -/
theorem Json.of_object (h : Json (.object shape fields)) :
    shape = .mapping ∧ (fields.map (·.1)).Nodup ∧ ∀ f ∈ fields, Json f.2 := by
  generalize hd : Document.object shape fields = d at h
  cases h with
  | @object fs hfs =>
    cases hd
    have hperm := arrange_perm (Assoc.putAll [] fs)
    have hput : ((Assoc.putAll [] fs).map (·.1)).Nodup := Assoc.nodup_putAll (m := []) List.nodup_nil fs
    refine ⟨rfl, (hperm.map _).nodup_iff.mpr hput, fun f hf => ?_⟩
    rcases Assoc.mem_putAll (hperm.mem_iff.mp hf) with hnil | hmem
    · cases hnil
    · exact hfs f hmem
  | _ => cases hd

theorem Json.of_array (h : Json (.array items)) : ∀ d ∈ items, Json d := by
  generalize ha : Document.array items = a at h
  cases h with
  | array hitems =>
    cases ha
    exact hitems
  | _ => cases ha

theorem Json.defined (h : Json d) : d ≠ .undefined := by
  rintro rfl
  generalize hu : Document.undefined = u at h
  cases h <;> cases hu

end

/-! ### Lists of documents -/

section
variable {α : Type} {read : Document → Except DocumentError α} {ds : List Document} {as : List α}

theorem readAll_eq_ok : readAll read ds = .ok as ↔ List.Forall₂ (fun d a => read d = .ok a) ds as := by
  induction ds generalizing as with
  | nil => simp [readAll, eq_comm]
  | cons d ds ih =>
    rw [readAll, List.forall₂_cons_left_iff]
    constructor
    · intro h
      obtain ⟨a, ha, h⟩ := bind_eq_ok.mp h
      obtain ⟨bs, hbs, h⟩ := bind_eq_ok.mp h
      cases h
      exact ⟨a, bs, ha, ih.mp hbs, rfl⟩
    · rintro ⟨a, bs, ha, hbs, rfl⟩
      exact bind_eq_ok.mpr ⟨a, ha, bind_eq_ok.mpr ⟨bs, ih.mpr hbs, rfl⟩⟩

end

theorem toNodes_eq_readAll (ds : List Document) : toNodes ds = readAll toNode ds := by
  induction ds with
  | nil => rw [toNodes, readAll]
  | cons d ds ih => rw [toNodes, readAll, ih]

theorem toEntries_eq_readAll (ds : List Document) : toEntries ds = readAll toEntry ds := by
  induction ds with
  | nil => rw [toEntries, readAll]
  | cons d ds ih => rw [toEntries, readAll, ih]

theorem toFields_eq_readAll (ds : List Document) : toFields ds = readAll toField ds := by
  induction ds with
  | nil => rw [toFields, readAll]
  | cons d ds ih => rw [toFields, readAll, ih]

theorem toGroups_eq_readAll (ds : List Document) : toGroups ds = readAll toGroup ds := by
  induction ds with
  | nil => rw [toGroups, readAll]
  | cons d ds ih => rw [toGroups, readAll, ih]

/-! ### Literals by kind -/

variable {body d k v : Document} {ds : List Document} {n m : Node} {ns : List Node} {es : List (Node × Node)}
  {fs : List ObjectField} {kind : String} {p : Payload}

/-- A document with the one key of a literal. -/
def literal (kind : String) (body : Document) : Document := .object .mapping [(kind, body)]

theorem json_literal {kind : String} {body : Document} (hkind : arrayIndex? kind = none) (h : Json body) :
    Json (literal kind body) :=
  .mapping (List.forall_mem_singleton.mpr hkind) (List.nodup_singleton _) (List.forall_mem_singleton.mpr h)

theorem toNode_scalar (k : ScalarKind) (h : body.toPayload k.name = .ok p) :
    (literal k.name body).toNode = .ok (.scalar k.name p) := by
  have hkind : k.name ≠ "list_value" ∧ k.name ≠ "map_value" ∧ k.name ≠ "object_value" := by
    cases k <;> decide
  have hscalar : (literal k.name body).toNode = (body.toPayload k.name).map (.scalar k.name) := by
    cases body with
    | array | object => cases h
    | _ =>
      rw [literal, toNode, if_neg hkind.1, if_neg hkind.2.1, if_neg hkind.2.2]
      all_goals
        intros
        contradiction
  rw [hscalar, h]
  rfl

theorem toNode_list (h : List.Forall₂ (fun d n => d.toNode = .ok n) ds ns) :
    (literal "list_value" (.array ds)).toNode = .ok (.list ns) := by
  rw [literal, toNode, if_pos rfl, toNodes_eq_readAll, readAll_eq_ok.mpr h]
  rfl

/-- A map literal whose elements are entries, none of them a group. -/
theorem toNode_map (hgroup : ∀ d ∈ ds, d.isGroup = false)
    (h : List.Forall₂ (fun d e => d.toEntry = .ok e) ds es) :
    (literal "map_value" (.array ds)).toNode = .ok (.map [es]) := by
  have hany : ¬ds.any isGroup = true := by
    rw [List.any_eq_true]
    rintro ⟨d, hd, htrue⟩
    rw [hgroup d hd] at htrue
    cases htrue
  rw [literal, toNode, if_neg (by decide), if_pos rfl, if_neg hany, toEntries_eq_readAll, readAll_eq_ok.mpr h]
  rfl

theorem toNode_object {shape : Shape} {typeUrl : String} (htype : Assoc.get? "type_url" fields = some (.string typeUrl))
    (hfields : Assoc.get? "fields" fields = some (.array ds))
    (h : List.Forall₂ (fun d f => d.toField = .ok f) ds fs) :
    (literal "object_value" (.object shape fields)).toNode = .ok (.object typeUrl fs) := by
  rw [literal, toNode, if_neg (by decide), if_neg (by decide), if_pos rfl, htype]
  dsimp only
  split
  · rename_i hnone
    cases hfields.symm.trans hnone
  · rename_i habsent
    cases hfields.symm.trans habsent
  · rename_i hnull
    cases hfields.symm.trans hnull
  · rename_i items hitems
    cases hfields.symm.trans hitems
    rw [toFields_eq_readAll, readAll_eq_ok.mpr h]
    rfl
  · rename_i found harray hfound
    cases hfields.symm.trans hfound
    exact absurd rfl (harray ds)

/-! ### Entries and fields -/

theorem toEntry_eq_ok {shape : Shape} : (object shape fields).toEntry = .ok (n, m) ↔ ∃ k v,
    Assoc.get? "key" fields = some k ∧ Assoc.get? "value" fields = some v ∧ k.toNode = .ok n ∧ v.toNode = .ok m := by
  rw [toEntry]
  constructor
  · intro h
    split at h
    · cases h
    · rename_i k hk
      split at h
      · cases h
      · rename_i v hv
        obtain ⟨n', hn, h⟩ := bind_eq_ok.mp h
        obtain ⟨m', hm, h⟩ := bind_eq_ok.mp h
        cases h
        exact ⟨k, v, hk, hv, hn, hm⟩
  · rintro ⟨k, v, hk, hv, hn, hm⟩
    split
    · rename_i hnone
      cases hk.symm.trans hnone
    · rename_i k' hk'
      cases hk.symm.trans hk'
      split
      · rename_i hnone
        cases hv.symm.trans hnone
      · rename_i v' hv'
        cases hv.symm.trans hv'
        exact bind_eq_ok.mpr ⟨n, hn, bind_eq_ok.mpr ⟨m, hm, rfl⟩⟩

theorem toField_eq_ok {shape : Shape} {name : String} : (object shape fields).toField = .ok ⟨name, kind, p⟩ ↔ ∃ v,
    Assoc.get? "name" fields = some (.string name) ∧ Assoc.get? "value" fields = some v ∧
      v.toNode = .ok (.scalar kind p) := by
  rw [toField]
  constructor
  · intro h
    split at h
    · rename_i hname
      split at h
      · cases h
      · rename_i v hv
        obtain ⟨n', hn, h⟩ := bind_eq_ok.mp h
        split at h
        · cases h
          exact ⟨v, hname, hv, hn⟩
        · cases h
    · cases h
  · rintro ⟨v, hname, hv, hn⟩
    rw [hname]
    dsimp only
    split
    · rename_i hnone
      cases hv.symm.trans hnone
    · rename_i v' hv'
      cases hv.symm.trans hv'
      exact bind_eq_ok.mpr ⟨_, hn, rfl⟩

end CelSuite.Document
