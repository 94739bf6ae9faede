import CelSuite.Proofs.Assoc
import CelSuite.Proofs.Fixture.Walk
import CelSuite.Proofs.Related
import CelSuite.Proofs.Rendering.Values
import CelSuite.Proofs.Text.Order

/-! # What a registry was told

A history is what was registered with a builder, in order. What a registry makes of an object can be read off the
history alone: the last factory for its namespace counts. A literal has the value that its objects and scalars give
it, and the objects in it are made by the same history at every depth. -/

namespace CelSuite.Registry

/-- The factories that were registered, each with its namespace, in order. -/
abbrev History := List (String × Factory)

namespace History

def Registers (h : History) (typeUrl : String) : Prop := ∃ f, (typeUrl, f) ∈ h

/-- The factory that a namespace was registered with last. -/
def EndsWith (h : History) (typeUrl : String) (f : Factory) : Prop :=
  ∃ earlier later : History, h = earlier ++ (typeUrl, f) :: later ∧ ¬later.Registers typeUrl

/-- A list of exactly the namespaces that were registered, each once and in the order of their units. -/
structure Lists (h : History) (names : List String) : Prop where
  mem_iff : ∀ typeUrl, typeUrl ∈ names ↔ h.Registers typeUrl
  ordered : names.Pairwise fun a b => Text.units a.toList < Text.units b.toList

/-- What becomes of an object. -/
inductive Makes (h : History) (typeUrl : String) (fields : List ObjectField) : Except Defect Value → Prop
  | factory {f : Factory} (last : h.EndsWith typeUrl f) : Makes h typeUrl fields (f fields)
  | unsupported {names : List String} (unregistered : ¬h.Registers typeUrl) (lists : h.Lists names) :
    Makes h typeUrl fields (.error (.unsupportedNamespace typeUrl names))

mutual

/-- The value of a literal. -/
inductive Builds (h : History) : Node → Value → Prop
  | scalar {k : ScalarKind} {p : Payload} {v : Value} (reads : Reads k p v) : Builds h (.scalar k.name p) v
  | list {items : List Node} {vs : List Value} (parts : List.Forall₂ (Builds h) items vs) :
    Builds h (.list items) (.list vs)
  | map {groups : List (List (Node × Node))} {entries : Entries}
    (parts : List.Forall₂ (BuildsEntry h) groups.flatten entries) :
    Builds h (.map groups) (.map (Assoc.putAll [] entries))
  | object {typeUrl : String} {fields : List ObjectField} {v : Value} (makes : h.Makes typeUrl fields (.ok v)) :
    Builds h (.object typeUrl fields) v

inductive BuildsEntry (h : History) : Node × Node → MapKey × Value → Prop
  | entry {k n : Node} {key : MapKey} {v : Value} (hkey : Builds h k key.toValue) (hv : Builds h n v) :
    BuildsEntry h (k, n) (key, v)

end

end History

/-- A registry that a history tells all of. -/
structure Means (h : History) (r : Registry) : Prop where
  contains : ∀ typeUrl, r.contains typeUrl = true ↔ h.Registers typeUrl
  creates : ∀ typeUrl fields result, r.create typeUrl fields = result ↔ h.Makes typeUrl fields result
  namespaces : h.Lists r.namespaces
  size : r.size = r.namespaces.length
  values : ∀ n v, n.toValue r = .ok v ↔ h.Builds n v
  defects : ∀ (n : Node) e, n.toValue r = .error e ↔ n.walk.findSome? (Visit.defect? r) = some e
  objects : ∀ typeUrl fields e,
    Visit.defect? r (.node (.object typeUrl fields)) = some e ↔ h.Makes typeUrl fields (.error e)

variable {h later : History} {typeUrl : String} {f : Factory} {names : List String} {r : Registry}

/-! ### Namespaces -/

theorem History.registers_iff : h.Registers typeUrl ↔ typeUrl ∈ h.map (·.1) := by
  simp [Registers]

def Builder.told (h : History) : Builder := ⟨Assoc.putAll [] h⟩

theorem Builder.told_concat (h : History) (typeUrl : String) (f : Factory) :
    told (h ++ [(typeUrl, f)]) = (told h).object typeUrl f :=
  congrArg Builder.mk List.foldl_append

theorem nodup_told (h : History) : ((Builder.told h).build.factories.map (·.1)).Nodup :=
  Assoc.nodup_putAll (m := []) List.nodup_nil h

theorem mem_told : typeUrl ∈ (Builder.told h).build.factories.map (·.1) ↔ h.Registers typeUrl := by
  have hkeys : (Builder.told h).build.factories.map (·.1) = (h.map (·.1)).eraseDups := Assoc.keys_putAll h
  rw [hkeys, List.mem_eraseDups, History.registers_iff]

theorem lists_namespaces (h : History) : h.Lists (Builder.told h).build.namespaces := by
  constructor
  case mem_iff =>
    intro typeUrl
    rw [namespaces, (Text.sorted_perm _).mem_iff, mem_told]
  case ordered => exact (Text.sorted_strict (nodup_told h)).imp Text.before_iff.mp

/-- There is one list of the namespaces that were registered. -/
theorem History.Lists.unique {names' : List String} (hn : h.Lists names) (hn' : h.Lists names') : names = names' := by
  have distinct {xs : List String} (hxs : h.Lists xs) : xs.Nodup :=
    hxs.ordered.imp fun hlt heq => absurd (heq ▸ hlt) (lt_irrefl _)
  have hperm : names.Perm names' := (List.perm_ext_iff_of_nodup (distinct hn) (distinct hn')).mpr fun typeUrl =>
    (hn.mem_iff typeUrl).trans (hn'.mem_iff typeUrl).symm
  exact hperm.eq_of_pairwise (fun a b _ _ hab hba => absurd hab (lt_asymm hba)) hn.ordered hn'.ordered

/-! ### Objects -/

theorem History.exists_endsWith (hr : h.Registers typeUrl) : ∃ f, h.EndsWith typeUrl f := by
  induction h using List.reverseRecOn with
  | nil =>
    obtain ⟨f, hf⟩ := hr
    cases hf
  | append_singleton h p ih =>
    obtain ⟨typeUrl', f'⟩ := p
    -- The last registration is the one that counts, or it is for another namespace and the ones before decide.
    by_cases heq : typeUrl' = typeUrl
    · subst heq
      exact ⟨f', h, [], rfl, by simp [Registers]⟩
    · obtain ⟨f, hf⟩ := hr
      have hold : (typeUrl, f) ∈ h := by
        rcases List.mem_append.mp hf with hmem | hmem
        · exact hmem
        · cases List.mem_singleton.mp hmem
          exact absurd rfl heq
      obtain ⟨f, earlier, later, rfl, hlater⟩ := ih ⟨f, hold⟩
      refine ⟨f, earlier, later ++ [(typeUrl', f')], by simp, ?_⟩
      rintro ⟨g, hg⟩
      rcases List.mem_append.mp hg with hmem | hmem
      · exact hlater ⟨g, hmem⟩
      · cases List.mem_singleton.mp hmem
        exact heq rfl

theorem get?_told (hf : h.EndsWith typeUrl f) : Assoc.get? typeUrl (Builder.told h).build.factories = some f := by
  obtain ⟨earlier, later, rfl, hlater⟩ := hf
  refine Assoc.get?_putAll_last fun p hp heq => hlater ⟨p.2, ?_⟩
  rw [← heq]
  exact hp

theorem get?_told_of_not_registers (hr : ¬h.Registers typeUrl) :
    Assoc.get? typeUrl (Builder.told h).build.factories = none :=
  Assoc.get?_eq_none_iff.mpr fun hmem => hr (mem_told.mp hmem)

theorem create_told {fields : List ObjectField} {result : Except Defect Value} :
    (Builder.told h).build.create typeUrl fields = result ↔ h.Makes typeUrl fields result := by
  constructor
  · rintro rfl
    by_cases hr : h.Registers typeUrl
    · obtain ⟨f, hf⟩ := History.exists_endsWith hr
      rw [create, get?_told hf]
      exact .factory hf
    · rw [create, get?_told_of_not_registers hr]
      exact .unsupported hr (lists_namespaces h)
  · intro hmakes
    cases hmakes with
    | factory last => rw [create, get?_told last]
    | unsupported unregistered lists =>
      rw [create, get?_told_of_not_registers unregistered, lists.unique (lists_namespaces h)]

/-! ### Literals -/

theorem asKey_eq_ok {v : Value} {k : MapKey} : Node.asKey v = .ok k ↔ v = k.toValue := by
  rw [← Value.key?_eq_some]
  unfold Node.asKey
  cases v.key? <;> simp

/-- If a registry makes objects as a history says, literals have the values that the history says. -/
theorem toValue_iff_builds
    (hcreate : ∀ typeUrl fields v, r.create typeUrl fields = .ok v ↔ h.Makes typeUrl fields (.ok v)) (n : Node)
    (v : Value) : n.toValue r = .ok v ↔ h.Builds n v := by
  induction n generalizing v with
  | scalar kind p =>
    rw [Node.toValue_scalar_eq_ok]
    constructor
    · rintro ⟨k, rfl, hreads⟩
      exact .scalar hreads
    · intro hbuilds
      cases hbuilds with
      | scalar reads => exact ⟨_, rfl, reads⟩
  | list items ih =>
    rw [Node.toValue_list_eq_ok]
    constructor
    · rintro ⟨vs, hvs, rfl⟩
      exact .list (forall₂_imp_of_mem hvs fun n hn v _ hv => (ih n hn v).mp hv)
    · intro hbuilds
      cases hbuilds with
      | list parts => exact ⟨_, forall₂_imp_of_mem parts fun n hn v _ hv => (ih n hn v).mpr hv, rfl⟩
  | map groups ih =>
    rw [Node.toValue_map_eq_ok]
    constructor
    · rintro ⟨entries, hentries, rfl⟩
      refine .map (forall₂_imp_of_mem hentries fun e he kv _ hkv => ?_)
      obtain ⟨k, hk, hkey, hv⟩ := hkv
      obtain rfl := asKey_eq_ok.mp hkey
      exact .entry (((ih e he).1 _).mp hk) (((ih e he).2 _).mp hv)
    · intro hbuilds
      cases hbuilds with
      | map parts =>
        refine ⟨_, forall₂_imp_of_mem parts fun e he kv _ hkv => ?_, rfl⟩
        cases hkv with
        | entry hkey hv => exact ⟨_, ((ih _ he).1 _).mpr hkey, asKey_eq_ok.mpr rfl, ((ih _ he).2 _).mpr hv⟩
  | object typeUrl fields =>
    rw [Node.toValue, hcreate]
    constructor
    · exact .object
    · intro hbuilds
      cases hbuilds with
      | object makes => exact makes

/-- What a builder was told it means when it is built. -/
theorem means_told (h : History) : Means h (Builder.told h).build := by
  constructor
  case contains =>
    intro typeUrl
    rw [contains, Assoc.contains, Assoc.isSome_get?_iff, mem_told]
  case creates => exact fun typeUrl fields result => create_told
  case namespaces => exact lists_namespaces h
  case size => rw [size, namespaces, (Text.sorted_perm _).length_eq, List.length_map]
  case values => exact toValue_iff_builds fun typeUrl fields v => create_told
  case defects =>
    intro n e
    rw [← Node.fault?_toValue, fault?_eq_some]
  case objects =>
    intro typeUrl fields e
    rw [Visit.defect?, fault?_eq_some, create_told]

end CelSuite.Registry
