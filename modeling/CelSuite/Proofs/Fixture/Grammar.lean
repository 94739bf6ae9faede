import CelSuite.Proofs.Fixture.Documents
import CelSuite.Proofs.Related

/-! # The grammar of literals

Which documents are literals is a grammar over plain data: an object with one key is a literal of that kind if its body
has the form of the kind, at any depth. Reading accepts the documents of the grammar and no others. What is read mirrors
the document part by part, and any other document is told what is malformed. -/

namespace CelSuite

/-- What a document is told that is no literal. -/
def DocumentError.OfLiteral : DocumentError → Prop
  | .notObject _ _ | .notArray _ _ | .entriesNotArray _ | .notString _ _ | .notScalar _ _ | .kindKeys _
  | .missingField _ _ | .wrapsNoScalar _ => True
  | _ => False

namespace Document

/-! ### The grammar -/

/-- An object with a field. -/
inductive Holds : Document → String → Document → Prop
  | intro {fields : List (String × Document)} {name : String} {v : Document} (h : (name, v) ∈ fields) :
      Holds (.object .mapping fields) name v

/-- An object with a field of some name. -/
def Has (d : Document) (name : String) : Prop := ∃ v, d.Holds name v

/-- Data that is a payload as it stands. -/
inductive IsPayload : Document → Payload → Prop
  | null : IsPayload .null .null
  | bool (b : Bool) : IsPayload (.bool b) (.bool b)
  | number (x : Double) : IsPayload (.number x) (.number x)
  | string (s : String) : IsPayload (.string s) (.string s)

/-- The kinds of literals that hold further literals. -/
def compoundKinds : List String := ["list_value", "map_value", "object_value"]

/-- A literal of a scalar kind, known or not. -/
def IsScalar (d : Document) : Prop := ∃ kind body p, kind ∉ compoundKinds ∧ IsPayload body p ∧ d = literal kind body

/-- A field of an object literal. -/
def IsField (d : Document) : Prop := ∃ name v, d.Holds "name" (.string name) ∧ d.Holds "value" v ∧ v.IsScalar

/-- The body of an object literal. Its fields may be left out. -/
def IsObject (d : Document) : Prop := (∃ typeUrl, d.Holds "type_url" (.string typeUrl)) ∧
  (¬d.Has "fields" ∨ d.Holds "fields" .null ∨ ∃ items, d.Holds "fields" (.array items) ∧ ∀ f ∈ items, f.IsField)

mutual

/-- A document that is a literal. A list of groups is told from a list of entries by any element with the field that
    groups have. -/
inductive IsNode : Document → Prop
  | scalar {d : Document} (h : d.IsScalar) : IsNode d
  | list {items : List Document} (h : ∀ d ∈ items, IsNode d) : IsNode (literal "list_value" (.array items))
  | flat {items : List Document} (hflat : ∀ d ∈ items, ¬d.Has "entries") (h : ∀ d ∈ items, IsEntry d) :
      IsNode (literal "map_value" (.array items))
  | grouped {items : List Document} (hgrouped : ∃ d ∈ items, d.Has "entries") (h : ∀ d ∈ items, IsEntryGroup d) :
      IsNode (literal "map_value" (.array items))
  | object {body : Document} (h : body.IsObject) : IsNode (literal "object_value" body)

/-- An entry of a map literal. -/
inductive IsEntry : Document → Prop
  | intro {d k v : Document} (hkey : d.Holds "key" k) (hvalue : d.Holds "value" v) (hk : IsNode k) (hv : IsNode v) :
      IsEntry d

/-- A group of entries of a map literal. -/
inductive IsEntryGroup : Document → Prop
  | intro {d : Document} {items : List Document} (hentries : d.Holds "entries" (.array items))
      (h : ∀ e ∈ items, IsEntry e) : IsEntryGroup d

end

/-! ### Mirrored documents -/

/-- An entry whose key and value are read as a pair. -/
def EntryOf (d : Document) (e : Node × Node) : Prop :=
  ∃ k v, d.Holds "key" k ∧ d.Holds "value" v ∧ k.toNode = .ok e.1 ∧ v.toNode = .ok e.2

/-- A group whose entries are read in order. -/
def GroupOf (d : Document) (es : List (Node × Node)) : Prop :=
  ∃ items, d.Holds "entries" (.array items) ∧ List.Forall₂ EntryOf items es

/-- A field whose value is read as its scalar. -/
def FieldOf (d : Document) (f : ObjectField) : Prop :=
  ∃ v, d.Holds "name" (.string f.name) ∧ d.Holds "value" v ∧ v.toNode = .ok (.scalar f.kind f.payload)

/-- The fields of the body of an object literal. -/
inductive FieldsOf (d : Document) : List ObjectField → Prop
  | missing (h : ¬d.Has "fields") : FieldsOf d []
  | null (h : d.Holds "fields" .null) : FieldsOf d []
  | array {items : List Document} {fs : List ObjectField} (hfields : d.Holds "fields" (.array items))
      (h : List.Forall₂ FieldOf items fs) : FieldsOf d fs

/-- A document and the literal that has its parts, each as it is read, in the same order. Entries without groups are one
    group. -/
inductive Mirrors : Document → Node → Prop
  | scalar {kind : String} {body : Document} {p : Payload} (hkind : kind ∉ compoundKinds) (h : IsPayload body p) :
      Mirrors (literal kind body) (.scalar kind p)
  | list {items : List Document} {ns : List Node} (h : List.Forall₂ (fun d n => d.toNode = .ok n) items ns) :
      Mirrors (literal "list_value" (.array items)) (.list ns)
  | flat {items : List Document} {es : List (Node × Node)} (hflat : ∀ d ∈ items, ¬d.Has "entries")
      (h : List.Forall₂ EntryOf items es) : Mirrors (literal "map_value" (.array items)) (.map [es])
  | grouped {items : List Document} {groups : List (List (Node × Node))} (hgrouped : ∃ d ∈ items, d.Has "entries")
      (h : List.Forall₂ GroupOf items groups) : Mirrors (literal "map_value" (.array items)) (.map groups)
  | object {body : Document} {typeUrl : String} {fs : List ObjectField}
      (htype : body.Holds "type_url" (.string typeUrl)) (h : FieldsOf body fs) :
      Mirrors (literal "object_value" body) (.object typeUrl fs)

/-! ### Plain data -/

section
variable {d v : Document} {shape : Shape} {name : String} {fields : List (String × Document)} {items : List Document}

theorem Json.holds (hd : Json d) (h : d.Holds name v) : Json v := by
  cases h with
  | intro h => exact hd.of_object.2.2 _ h

theorem Json.get?_iff (hd : Json (.object .mapping fields)) :
    Assoc.get? name fields = some v ↔ (Document.object .mapping fields).Holds name v := by
  rw [Assoc.get?_eq_some_iff hd.of_object.2.1]
  constructor
  · exact .intro
  · rintro ⟨h⟩
    exact h

theorem Json.get?_eq_none (hd : Json (.object .mapping fields)) :
    Assoc.get? name fields = none ↔ ¬(Document.object .mapping fields).Has name := by
  simp only [Has, ← hd.get?_iff, Option.eq_none_iff_forall_ne_some, ne_eq, not_exists]

theorem Json.isGroup_iff (hd : Json d) : d.isGroup = true ↔ d.Has "entries" := by
  cases d with
  | object shape fields =>
    obtain ⟨rfl, -⟩ := hd.of_object
    rw [isGroup, Assoc.contains, Option.isSome_iff_exists]
    · exact exists_congr fun v => hd.get?_iff
    · rintro ⟨⟩
  | _ =>
    refine iff_of_false Bool.false_ne_true ?_
    rintro ⟨v, ⟨⟩⟩

/-- A document that is smaller than another. -/
def Below (c d : Document) : Prop := sizeOf c < sizeOf d

theorem Below.trans {c d e : Document} (hcd : c.Below d) (hde : d.Below e) : c.Below e := Nat.lt_trans hcd hde

theorem Below.item (h : d ∈ items) : d.Below (.array items) := by
  have hitem := List.sizeOf_lt_of_mem h
  rw [Below, array.sizeOf_spec]
  omega

theorem Below.field (h : Assoc.get? name fields = some d) : d.Below (.object shape fields) := by
  have hfield := sizeOf_get?_lt h
  rw [Below, object.sizeOf_spec]
  omega

theorem Holds.below (h : d.Holds name v) : v.Below d := by
  cases h with
  | intro h =>
    have hpair := List.sizeOf_lt_of_mem h
    rw [Below, object.sizeOf_spec]
    rw [Prod.mk.sizeOf_spec] at hpair
    omega

end

/-! ### Reading -/

section
variable {d body : Document} {kind : String} {p : Payload} {n : Node} {e : Node × Node} {es : List (Node × Node)}
  {f : ObjectField} {fs : List ObjectField}

theorem toPayload_eq_ok : d.toPayload kind = .ok p ↔ d.IsPayload p := by
  constructor
  · intro h
    cases d <;> cases h <;> constructor
  · rintro ⟨⟩ <;> rfl

theorem toEntry_iff (hd : Json d) : d.toEntry = .ok e ↔ EntryOf d e := by
  obtain ⟨n, m⟩ := e
  cases d with
  | object shape fields =>
    obtain ⟨rfl, -⟩ := hd.of_object
    simp only [toEntry_eq_ok, EntryOf, hd.get?_iff]
  | _ =>
    rw [toEntry]
    · refine iff_of_false (fun h => by cases h) ?_
      rintro ⟨k, v, ⟨⟩, -⟩
    · rintro _ _ ⟨⟩

theorem toField_iff (hd : Json d) : d.toField = .ok f ↔ FieldOf d f := by
  obtain ⟨name, kind, p⟩ := f
  cases d with
  | object shape fields =>
    obtain ⟨rfl, -⟩ := hd.of_object
    simp only [toField_eq_ok, FieldOf, hd.get?_iff]
  | _ =>
    rw [toField]
    · refine iff_of_false (fun h => by cases h) ?_
      rintro ⟨v, ⟨⟩, -⟩
    · rintro _ _ ⟨⟩

/-- Readers that agree item by item with what items hold agree with it on lists. -/
theorem readAll_iff {α : Type} {read : Document → Except DocumentError α} {R : Document → α → Prop}
    {items : List Document} {as : List α} (h : ∀ d ∈ items, ∀ a, read d = .ok a ↔ R d a) :
    readAll read items = .ok as ↔ List.Forall₂ R items as := by
  rw [readAll_eq_ok]
  constructor
  · exact fun hall => forall₂_imp_of_mem hall fun d hd a _ ha => (h d hd a).mp ha
  · exact fun hall => forall₂_imp_of_mem hall fun d hd a _ ha => (h d hd a).mpr ha

theorem toEntries_iff {items : List Document} (h : ∀ d ∈ items, Json d) :
    toEntries items = .ok es ↔ List.Forall₂ EntryOf items es := by
  rw [toEntries_eq_readAll, readAll_iff fun d hd e => toEntry_iff (h d hd)]

theorem toGroup_iff (hd : Json d) : d.toGroup = .ok es ↔ GroupOf d es := by
  cases d with
  | object shape fields =>
    obtain ⟨rfl, -⟩ := hd.of_object
    rw [toGroup]
    constructor
    · intro h
      split at h
      · rename_i items hitems
        have hentries := hd.get?_iff.mp hitems
        exact ⟨items, hentries, (toEntries_iff (hd.holds hentries).of_array).mp h⟩
      · cases h
      · cases h
    · rintro ⟨items, hentries, h⟩
      rw [hd.get?_iff.mpr hentries]
      exact (toEntries_iff (hd.holds hentries).of_array).mpr h
  | _ =>
    rw [toGroup]
    · refine iff_of_false (fun h => by cases h) ?_
      rintro ⟨items, ⟨⟩, -⟩
    · rintro _ _ ⟨⟩

/-! ### Literals by kind -/

theorem toNode_scalar_iff (hkind : kind ∉ compoundKinds) :
    (literal kind body).toNode = .ok n ↔ ∃ p, body.IsPayload p ∧ .scalar kind p = n := by
  simp only [compoundKinds, List.mem_cons, List.not_mem_nil, or_false, not_or] at hkind
  obtain ⟨hlist, hmap, hobject⟩ := hkind
  have hscalar : (literal kind body).toNode = (body.toPayload kind).map (.scalar kind) := by
    cases body <;> simp [literal, toNode, hlist, hmap, hobject]
  simp only [hscalar, map_eq_ok, toPayload_eq_ok]

/-- A literal of a list or of a map has an array for its body. -/
theorem array_of_toNode (hkind : kind = "list_value" ∨ kind = "map_value") (h : (literal kind body).toNode = .ok n) :
    ∃ items, body = .array items := by
  cases body with
  | array items => exact ⟨items, rfl⟩
  | _ => rcases hkind with rfl | rfl <;> simp [literal, toNode] at h

section
variable {items : List Document}

theorem toNode_list_iff : (literal "list_value" (.array items)).toNode = .ok n ↔
    ∃ ns, List.Forall₂ (fun d n => d.toNode = .ok n) items ns ∧ .list ns = n := by
  rw [literal, toNode, if_pos rfl, toNodes_eq_readAll]
  simp only [map_eq_ok, readAll_eq_ok]

theorem any_isGroup_iff (hitems : ∀ d ∈ items, Json d) : items.any isGroup = true ↔ ∃ d ∈ items, d.Has "entries" := by
  rw [List.any_eq_true]
  exact exists_congr fun d => and_congr_right fun hd => (hitems d hd).isGroup_iff

theorem toNode_flat_iff (hitems : ∀ d ∈ items, Json d) (hflat : ∀ d ∈ items, ¬d.Has "entries") :
    (literal "map_value" (.array items)).toNode = .ok n ↔ ∃ es, List.Forall₂ EntryOf items es ∧ .map [es] = n := by
  have hany : ¬items.any isGroup = true := by
    rw [any_isGroup_iff hitems]
    rintro ⟨d, hd, hhas⟩
    exact hflat d hd hhas
  rw [literal, toNode, if_neg (by decide), if_pos rfl, if_neg hany]
  simp only [map_eq_ok, toEntries_iff hitems]

theorem toNode_grouped_iff (hitems : ∀ d ∈ items, Json d) (hgrouped : ∃ d ∈ items, d.Has "entries") :
    (literal "map_value" (.array items)).toNode = .ok n ↔
      ∃ groups, List.Forall₂ GroupOf items groups ∧ .map groups = n := by
  rw [literal, toNode, if_neg (by decide), if_pos rfl, if_pos ((any_isGroup_iff hitems).mpr hgrouped),
    toGroups_eq_readAll]
  simp only [map_eq_ok, readAll_iff fun d hd g => toGroup_iff (hitems d hd)]

end

theorem toFields_iff {items : List Document} (hitems : ∀ d ∈ items, Json d) :
    toFields items = .ok fs ↔ List.Forall₂ FieldOf items fs := by
  rw [toFields_eq_readAll, readAll_iff fun d hd f => toField_iff (hitems d hd)]

theorem toNode_object_iff (hbody : Json body) : (literal "object_value" body).toNode = .ok n ↔
    ∃ typeUrl fs, body.Holds "type_url" (.string typeUrl) ∧ FieldsOf body fs ∧ .object typeUrl fs = n := by
  cases body with
  | object shape fields =>
    obtain ⟨rfl, -⟩ := hbody.of_object
    rw [literal, toNode, if_neg (by decide), if_neg (by decide), if_pos rfl]
    constructor
    · intro h
      split at h
      · rename_i typeUrl htype
        have hurl := hbody.get?_iff.mp htype
        split at h
        · rename_i hnone
          cases h
          exact ⟨typeUrl, [], hurl, .missing (hbody.get?_eq_none.mp hnone), rfl⟩
        · rename_i habsent
          exact absurd rfl (hbody.holds (hbody.get?_iff.mp habsent)).defined
        · rename_i hnull
          cases h
          exact ⟨typeUrl, [], hurl, .null (hbody.get?_iff.mp hnull), rfl⟩
        · rename_i items hitems
          have hfields := hbody.get?_iff.mp hitems
          obtain ⟨fs, hfs, rfl⟩ := map_eq_ok.mp h
          exact ⟨typeUrl, fs, hurl, .array hfields ((toFields_iff (hbody.holds hfields).of_array).mp hfs), rfl⟩
        · cases h
      · cases h
    · rintro ⟨typeUrl, fs, hurl, hfs, rfl⟩
      rw [hbody.get?_iff.mpr hurl]
      dsimp only
      cases hfs with
      | missing hmissing => rw [hbody.get?_eq_none.mpr hmissing]
      | null hnull => rw [hbody.get?_iff.mpr hnull]
      | array hfields hfs =>
        rw [hbody.get?_iff.mpr hfields]
        exact map_eq_ok.mpr ⟨fs, (toFields_iff (hbody.holds hfields).of_array).mpr hfs, rfl⟩
  | _ =>
    refine iff_of_false (by simp [literal, toNode]) ?_
    rintro ⟨typeUrl, fs, ⟨⟩, -⟩

/-- The document of a literal has its kind for its only field. -/
theorem literal_of_toNode (hd : Json d) (h : d.toNode = .ok n) : ∃ kind body, d = literal kind body := by
  unfold toNode at h
  split at h
  · obtain ⟨rfl, -⟩ := hd.of_object
    exact ⟨_, _, rfl⟩
  · cases h
  · cases h

theorem holds_literal : (literal kind body).Holds kind body := .intro List.mem_cons_self

theorem Json.of_literal (hd : Json (literal kind body)) : Json body := hd.holds holds_literal

/-- Reading mirrors a document. -/
theorem toNode_iff_mirrors (hd : Json d) : d.toNode = .ok n ↔ d.Mirrors n := by
  constructor
  · intro h
    obtain ⟨kind, body, rfl⟩ := literal_of_toNode hd h
    have hbody := hd.of_literal
    by_cases hlist : kind = "list_value"
    · subst hlist
      obtain ⟨items, rfl⟩ := array_of_toNode (.inl rfl) h
      obtain ⟨ns, hns, rfl⟩ := toNode_list_iff.mp h
      exact .list hns
    by_cases hmap : kind = "map_value"
    · subst hmap
      obtain ⟨items, rfl⟩ := array_of_toNode (.inr rfl) h
      by_cases hgrouped : ∃ d ∈ items, d.Has "entries"
      · obtain ⟨groups, hgroups, rfl⟩ := (toNode_grouped_iff hbody.of_array hgrouped).mp h
        exact .grouped hgrouped hgroups
      · have hflat : ∀ d ∈ items, ¬d.Has "entries" := fun d hd hhas => hgrouped ⟨d, hd, hhas⟩
        obtain ⟨es, hes, rfl⟩ := (toNode_flat_iff hbody.of_array hflat).mp h
        exact .flat hflat hes
    by_cases hobject : kind = "object_value"
    · subst hobject
      obtain ⟨typeUrl, fs, htype, hfs, rfl⟩ := (toNode_object_iff hbody).mp h
      exact .object htype hfs
    · have hkind : kind ∉ compoundKinds := by simp [compoundKinds, hlist, hmap, hobject]
      obtain ⟨p, hp, rfl⟩ := (toNode_scalar_iff hkind).mp h
      exact .scalar hkind hp
  · intro h
    cases h with
    | scalar hkind hp => exact (toNode_scalar_iff hkind).mpr ⟨_, hp, rfl⟩
    | list hns => exact toNode_list_iff.mpr ⟨_, hns, rfl⟩
    | flat hflat hes =>
      exact (toNode_flat_iff hd.of_literal.of_array hflat).mpr ⟨_, hes, rfl⟩
    | grouped hgrouped hgroups =>
      exact (toNode_grouped_iff hd.of_literal.of_array hgrouped).mpr ⟨_, hgroups, rfl⟩
    | object htype hfs =>
      exact (toNode_object_iff hd.of_literal).mpr ⟨_, _, htype, hfs, rfl⟩

end

/-! ### Recognition -/

section
variable {d body v : Document} {items : List Document}

/-- Reading succeeds on a document if and only if it is a literal. -/
def Recognized (d : Document) : Prop := d.IsNode ↔ ∃ n, d.toNode = .ok n

theorem isScalar_iff (hv : Json v) : v.IsScalar ↔ ∃ kind p, v.toNode = .ok (.scalar kind p) := by
  constructor
  · rintro ⟨kind, body, p, hkind, hp, rfl⟩
    exact ⟨kind, p, (toNode_iff_mirrors hv).mpr (.scalar hkind hp)⟩
  · rintro ⟨kind, p, h⟩
    cases (toNode_iff_mirrors hv).mp h with
    | scalar hkind hp => exact ⟨kind, _, p, hkind, hp, rfl⟩

theorem isField_iff (hd : Json d) : d.IsField ↔ ∃ f, FieldOf d f := by
  constructor
  · rintro ⟨name, v, hname, hvalue, hv⟩
    obtain ⟨kind, p, h⟩ := (isScalar_iff (hd.holds hvalue)).mp hv
    exact ⟨⟨name, kind, p⟩, v, hname, hvalue, h⟩
  · rintro ⟨f, v, hname, hvalue, h⟩
    exact ⟨f.name, v, hname, hvalue, (isScalar_iff (hd.holds hvalue)).mpr ⟨f.kind, f.payload, h⟩⟩

theorem isObject_iff (hbody : Json body) :
    body.IsObject ↔ ∃ typeUrl fs, body.Holds "type_url" (.string typeUrl) ∧ FieldsOf body fs := by
  have hlist {items : List Document} (hfields : body.Holds "fields" (.array items)) :
      (∀ f ∈ items, f.IsField) ↔ ∃ fs, List.Forall₂ FieldOf items fs :=
    forall_mem_iff_forall₂ fun f hf => isField_iff ((hbody.holds hfields).of_array f hf)
  constructor
  · rintro ⟨⟨typeUrl, hurl⟩, hmissing | hnull | ⟨items, hfields, h⟩⟩
    · exact ⟨typeUrl, [], hurl, .missing hmissing⟩
    · exact ⟨typeUrl, [], hurl, .null hnull⟩
    · obtain ⟨fs, hfs⟩ := (hlist hfields).mp h
      exact ⟨typeUrl, fs, hurl, .array hfields hfs⟩
  · rintro ⟨typeUrl, fs, hurl, hfs⟩
    refine ⟨⟨typeUrl, hurl⟩, ?_⟩
    cases hfs with
    | missing hmissing => exact .inl hmissing
    | null hnull => exact .inr (.inl hnull)
    | array hfields hfs => exact .inr (.inr ⟨_, hfields, (hlist hfields).mpr ⟨fs, hfs⟩⟩)

theorem isEntry_iff (hd : Json d) (hbelow : ∀ c : Document, c.Below d → Json c → c.Recognized) :
    d.IsEntry ↔ ∃ e, EntryOf d e := by
  have hpart {name : String} {c : Document} (h : d.Holds name c) : c.Recognized :=
    hbelow c h.below (hd.holds h)
  constructor
  · rintro ⟨hkey, hvalue, hk, hv⟩
    obtain ⟨n, hn⟩ := (hpart hkey).mp hk
    obtain ⟨m, hm⟩ := (hpart hvalue).mp hv
    exact ⟨(n, m), _, _, hkey, hvalue, hn, hm⟩
  · rintro ⟨⟨n, m⟩, k, v, hkey, hvalue, hn, hm⟩
    exact .intro hkey hvalue ((hpart hkey).mpr ⟨n, hn⟩) ((hpart hvalue).mpr ⟨m, hm⟩)

theorem isEntryGroup_iff (hd : Json d) (hbelow : ∀ c : Document, c.Below d → Json c → c.Recognized) :
    d.IsEntryGroup ↔ ∃ es, GroupOf d es := by
  have hlist {items : List Document} (h : d.Holds "entries" (.array items)) :
      (∀ c ∈ items, c.IsEntry) ↔ ∃ es, List.Forall₂ EntryOf items es :=
    forall_mem_iff_forall₂ fun c hc => isEntry_iff ((hd.holds h).of_array c hc) fun c' hlt =>
      hbelow c' (hlt.trans ((Below.item hc).trans h.below))
  constructor
  · rintro ⟨hentries, h⟩
    obtain ⟨es, hes⟩ := (hlist hentries).mp h
    exact ⟨es, _, hentries, hes⟩
  · rintro ⟨es, items, hentries, hes⟩
    exact .intro hentries ((hlist hentries).mpr ⟨es, hes⟩)

/-- By induction on the size of the document. -/
theorem recognized {d : Document} (hd : Json d) : d.Recognized := by
  have hbelow : ∀ c : Document, c.Below d → Json c → c.Recognized := fun c _ hc => recognized hc
  have hitem {kind : String} {items : List Document} (hlit : d = literal kind (.array items)) :
      ∀ c ∈ items, Json c ∧ c.Below d := fun c hc => by
    subst hlit
    exact ⟨hd.of_literal.of_array c hc, (Below.item hc).trans holds_literal.below⟩
  have hlist {items : List Document} (hlit : d = literal "list_value" (.array items)) :
      (∀ c ∈ items, c.IsNode) ↔ ∃ ns, List.Forall₂ (fun c n => c.toNode = .ok n) items ns :=
    forall_mem_iff_forall₂ fun c hc => hbelow c (hitem hlit c hc).2 (hitem hlit c hc).1
  have hentries {items : List Document} (hlit : d = literal "map_value" (.array items)) :
      (∀ c ∈ items, c.IsEntry) ↔ ∃ es, List.Forall₂ EntryOf items es :=
    forall_mem_iff_forall₂ fun c hc => isEntry_iff (hitem hlit c hc).1 fun c' hlt =>
      hbelow c' (hlt.trans (hitem hlit c hc).2)
  have hgroups {items : List Document} (hlit : d = literal "map_value" (.array items)) :
      (∀ c ∈ items, c.IsEntryGroup) ↔ ∃ groups, List.Forall₂ GroupOf items groups :=
    forall_mem_iff_forall₂ fun c hc => isEntryGroup_iff (hitem hlit c hc).1 fun c' hlt =>
      hbelow c' (hlt.trans (hitem hlit c hc).2)
  constructor
  · intro h
    cases h with
    | scalar h =>
      obtain ⟨kind, p, h⟩ := (isScalar_iff hd).mp h
      exact ⟨_, h⟩
    | list h =>
      obtain ⟨ns, hns⟩ := (hlist rfl).mp h
      exact ⟨_, (toNode_iff_mirrors hd).mpr (.list hns)⟩
    | flat hflat h =>
      obtain ⟨es, hes⟩ := (hentries rfl).mp h
      exact ⟨_, (toNode_iff_mirrors hd).mpr (.flat hflat hes)⟩
    | grouped hgrouped h =>
      obtain ⟨groups, hgs⟩ := (hgroups rfl).mp h
      exact ⟨_, (toNode_iff_mirrors hd).mpr (.grouped hgrouped hgs)⟩
    | object h =>
      obtain ⟨typeUrl, fs, hurl, hfs⟩ := (isObject_iff hd.of_literal).mp h
      exact ⟨_, (toNode_iff_mirrors hd).mpr (.object hurl hfs)⟩
  · rintro ⟨n, h⟩
    cases (toNode_iff_mirrors hd).mp h with
    | scalar hkind hp => exact .scalar ⟨_, _, _, hkind, hp, rfl⟩
    | list hns => exact .list ((hlist rfl).mpr ⟨_, hns⟩)
    | flat hflat hes => exact .flat hflat ((hentries rfl).mpr ⟨_, hes⟩)
    | grouped hgrouped hgs => exact .grouped hgrouped ((hgroups rfl).mpr ⟨_, hgs⟩)
    | object hurl hfs => exact .object ((isObject_iff hd.of_literal).mpr ⟨_, _, hurl, hfs⟩)
termination_by sizeOf d

end

/-! ### Errors -/

theorem readAll_refuses {α : Type} {P : DocumentError → Prop} {read : Document → Except DocumentError α}
    {items : List Document} (h : ∀ d ∈ items, Refuses P (read d)) : Refuses P (readAll read items) := by
  induction items with
  | nil => exact refuses_ok
  | cons d ds ih =>
    obtain ⟨hd, hds⟩ := List.forall_mem_cons.mp h
    rw [readAll]
    exact hd.bind fun a => (ih hds).bind fun as => refuses_ok

section
variable {d : Document}

theorem toPayload_ofLiteral (kind : String) (d : Document) : Refuses DocumentError.OfLiteral (d.toPayload kind) := by
  unfold toPayload
  split
  · exact refuses_ok
  · exact refuses_ok
  · exact refuses_ok
  · exact refuses_ok
  · exact refuses_error trivial

theorem toEntry_ofLiteral (hbelow : ∀ c : Document, c.Below d → Refuses DocumentError.OfLiteral c.toNode) :
    Refuses DocumentError.OfLiteral d.toEntry := by
  unfold toEntry
  split
  · rename_i shape fields
    have hpart {name : String} {c : Document} (h : Assoc.get? name fields = some c) :
        Refuses DocumentError.OfLiteral c.toNode := hbelow c (Below.field h)
    split
    · exact refuses_error trivial
    · rename_i k hk
      split
      · exact refuses_error trivial
      · rename_i v hv
        exact (hpart hk).bind fun n => (hpart hv).bind fun m => refuses_ok
  · exact refuses_error trivial

theorem toField_ofLiteral (hbelow : ∀ c : Document, c.Below d → Refuses DocumentError.OfLiteral c.toNode) :
    Refuses DocumentError.OfLiteral d.toField := by
  unfold toField
  split
  · split
    · split
      · exact refuses_error trivial
      · rename_i v hv
        refine (hbelow v (Below.field hv)).bind fun n => ?_
        split
        · exact refuses_ok
        · exact refuses_error trivial
    · exact refuses_error trivial
  · exact refuses_error trivial

theorem toGroup_ofLiteral (hbelow : ∀ c : Document, c.Below d → Refuses DocumentError.OfLiteral c.toNode) :
    Refuses DocumentError.OfLiteral d.toGroup := by
  unfold toGroup
  split
  · split
    · rename_i items hitems
      rw [toEntries_eq_readAll]
      refine readAll_refuses fun e he => toEntry_ofLiteral fun c hlt => hbelow c ?_
      exact hlt.trans ((Below.item he).trans (.field hitems))
    · exact refuses_error trivial
    · exact refuses_error trivial
  · exact refuses_error trivial

/-- Whatever is read, what is malformed is told. -/
theorem toNode_ofLiteral (d : Document) : Refuses DocumentError.OfLiteral d.toNode := by
  have hbelow : ∀ c : Document, c.Below d → Refuses DocumentError.OfLiteral c.toNode := fun c _ => toNode_ofLiteral c
  unfold toNode
  split
  · rename_i shape kind body
    have hitem {items : List Document} (hitems : .array items = body) : ∀ c ∈ items,
        c.Below (.object shape [(kind, body)]) := fun c hc =>
      (Below.item hc).trans (hitems ▸ .field (if_pos rfl))
    split
    · split
      · rename_i items
        rw [toNodes_eq_readAll]
        exact (readAll_refuses fun c hc => hbelow c (hitem rfl c hc)).map _
      · exact refuses_error trivial
    · split
      · split
        · rename_i items
          split
          · rw [toGroups_eq_readAll]
            exact (readAll_refuses fun g hg => toGroup_ofLiteral fun c hlt =>
              hbelow c (hlt.trans (hitem rfl g hg))).map _
          · rw [toEntries_eq_readAll]
            exact (readAll_refuses fun e he => toEntry_ofLiteral fun c hlt =>
              hbelow c (hlt.trans (hitem rfl e he))).map _
        · exact refuses_error trivial
      · split
        · split
          · rename_i fields
            split
            · split
              · exact refuses_ok
              · exact refuses_ok
              · exact refuses_ok
              · rename_i items hitems
                rw [toFields_eq_readAll]
                refine (readAll_refuses fun f hf => toField_ofLiteral fun c hlt => hbelow c ?_).map _
                exact hlt.trans ((Below.item hf).trans ((Below.field hitems).trans (.field (if_pos rfl))))
              · exact refuses_error trivial
            · exact refuses_error trivial
          · exact refuses_error trivial
        · exact (toPayload_ofLiteral kind body).map _
  · exact refuses_error trivial
  · exact refuses_error trivial
termination_by sizeOf d

/-- Plain data is read as a literal if and only if it is one by the grammar. The literal mirrors the data, and what is
    no literal is told what is malformed. -/
theorem toNode_accepts_grammar (h : Json d) :
    ((∃ n, d.toNode = .ok n) ↔ d.IsNode) ∧ (∀ n, d.toNode = .ok n ↔ d.Mirrors n) ∧
      ∀ e, d.toNode = .error e → e.OfLiteral :=
  ⟨(recognized h).symm, fun _ => toNode_iff_mirrors h, toNode_ofLiteral d⟩

/-- Groups next to an entry that is none. -/
theorem groups_with_entry_refused :
    let group : Document := .object .mapping [("entries", .array [])]
    let scalar : Document := literal "bool_value" (.bool true)
    let entry : Document := .object .mapping [("key", scalar), ("value", scalar)]
    let groups : Document := literal "map_value" (.array [group, group])
    let mixed : Document := literal "map_value" (.array [group, entry])
    (groups.Json ∧ mixed.Json) ∧ groups.toNode = .ok (.map [[], []]) ∧ ∃ e, mixed.toNode = .error e ∧ e.OfLiteral := by
  intro group scalar entry groups mixed
  have hgroup : Json group := json_literal (by decide) (.array nofun)
  have hscalar : Json scalar := json_literal (by decide) (.bool true)
  have hentry : Json entry := json_pair (by decide) (by decide) hscalar hscalar
  have hmap {d e : Document} (hd : Json d) (he : Json e) : Json (literal "map_value" (.array [d, e])) :=
    json_literal (by decide) (.array (List.forall_mem_cons.mpr ⟨hd, List.forall_mem_singleton.mpr he⟩))
  have hhas : group.Has "entries" := ⟨_, .intro List.mem_cons_self⟩
  have hempty : GroupOf group [] := ⟨[], .intro List.mem_cons_self, .nil⟩
  refine ⟨⟨hmap hgroup hgroup, hmap hgroup hentry⟩, ?_, ?_⟩
  · exact ((toNode_accepts_grammar (hmap hgroup hgroup)).2.1 _).mpr
      (.grouped ⟨group, List.mem_cons_self, hhas⟩ (.cons hempty (.cons hempty .nil)))
  · obtain ⟨-, -, herror⟩ := toNode_accepts_grammar (hmap hgroup hentry)
    cases hmixed : mixed.toNode with
    | error e => exact ⟨e, rfl, herror e hmixed⟩
    | ok n =>
      have hitems := (hmap hgroup hentry).of_literal.of_array
      obtain ⟨gs, hgs, -⟩ := (toNode_grouped_iff hitems ⟨group, List.mem_cons_self, hhas⟩).mp hmixed
      obtain ⟨es, items, hentries, -⟩ := exists_of_forall₂ hgs entry (List.mem_cons_of_mem _ List.mem_cons_self)
      change Holds (.object .mapping [("key", scalar), ("value", scalar)]) "entries" (.array items) at hentries
      obtain ⟨hmem⟩ := hentries
      simp at hmem

end

end Document

end CelSuite
