import CelSuite.Classify.AliasTable
import CelSuite.Proofs.Assoc
import CelSuite.Proofs.Except
import CelSuite.Proofs.Related
import Mathlib.Data.List.Perm.Basic

/-! # What an alias table holds

A document is an alias table or not, whatever classifier it extends: it gives categories to texts, and each of its
rules spells one matcher. To extend a classifier is to give it these aliases in turn and to add these rules at the
end. -/

namespace CelSuite.Classifier

/-! ### Tables -/

/-- The fields of an object that may be missing. -/
inductive Fields : Document → List (String × Document) → Prop
  | undefined : Fields .undefined []
  | null : Fields .null []
  | object (shape : Shape) (fields : List (String × Document)) : Fields (.object shape fields) fields

/-- The items of an array that may be missing. -/
inductive Items : Document → List Document → Prop
  | undefined : Items .undefined []
  | null : Items .null []
  | array (items : List Document) : Items (.array items) items

/-- The field that makes a text an alias. -/
def aliasField (a : String × Category) : String × Document := (a.1, .string a.2)

/-- An alias that a table may hold. -/
structure Allowed (a : String × Category) : Prop where
  short : Text.unitLength a.1.toList ≤ maxLength .exact
  known : Category.isKnown a.2 = true

/-- The fields of a rule spell a matcher: they have one variant, and its pattern is short enough and makes that
    matcher. -/
structure Spells (engine : TextMatcher.Engine) (fields : List (String × Document)) (matcher : TextMatcher)
    (variant : MatchVariant) (pattern : String) : Prop where
  only : ∀ v : MatchVariant, Assoc.contains v.name fields = true ↔ v = variant
  spelt : Assoc.get? variant.name fields = some (.string pattern)
  short : Text.unitLength pattern.toList ≤ maxLength variant
  made : TextMatcher.ofVariantBy engine variant pattern (ignoresCase fields) = .ok matcher

/-- A document that is a rule. -/
inductive RuleOf (engine : TextMatcher.Engine) : Document → Rule → Prop
  | mk {shape : Shape} {fields : List (String × Document)} {matcher : TextMatcher} {category : Category}
      (spells : ∃ variant pattern, Spells engine fields matcher variant pattern)
      (assigned : (Document.object shape fields).get "category" = .string category)
      (known : Category.isKnown category = true) : RuleOf engine (.object shape fields) ⟨matcher, category⟩

/-- A document that is an alias table with some aliases and rules. -/
structure Table (engine : TextMatcher.Engine) (d : Document) (aliases : List (String × Category))
    (rules : List Rule) : Prop where
  object : ∃ shape fields, d = .object shape fields
  named : Fields (d.get "aliases") (aliases.map aliasField)
  allowed : ∀ a ∈ aliases, Allowed a
  spelt : ∃ items, Items (d.get "rules") items ∧ List.Forall₂ (RuleOf engine) items rules

/-! ### Reading -/

section
variable {engine : TextMatcher.Engine} {d : Document} {fields : List (String × Document)} {items : List Document}
  {what pattern : String} {variant : MatchVariant} {category : Category} {matcher : TextMatcher} {b b' : Builder}

theorem optionalFields_eq_ok : optionalFields what d = .ok fields ↔ Fields d fields := by
  constructor
  · intro h
    cases d <;> cases h <;> constructor
  · intro h
    cases h <;> rfl

theorem optionalItems_eq_ok : optionalItems what d = .ok items ↔ Items d items := by
  constructor
  · intro h
    cases d <;> cases h <;> constructor
  · intro h
    cases h <;> rfl

theorem checkLength_eq_ok : checkLength variant pattern = .ok () ↔
    Text.unitLength pattern.toList ≤ maxLength variant := by
  rw [checkLength]
  split
  · rename_i hlong
    simp [hlong]
  · rename_i hlong
    simp [Nat.not_lt.mp hlong]

theorem readCategory_eq_ok :
    readCategory d = .ok category ↔ d = .string category ∧ Category.isKnown category = true := by
  cases d with
  | string s =>
    rw [readCategory]
    split
    · rename_i hs
      constructor
      · intro h
        cases h
        exact ⟨rfl, hs⟩
      · rintro ⟨h, -⟩
        cases h
        rfl
    · rename_i hs
      constructor
      · intro h
        cases h
      · rintro ⟨h, hk⟩
        cases h
        exact absurd hk hs
  | _ => simp [readCategory]

theorem filter_variants {p : MatchVariant → Bool} :
    MatchVariant.all.filter p = [variant] ↔ ∀ v, p v = true ↔ v = variant := by
  constructor
  · intro h v
    have hall : v ∈ MatchVariant.all := by cases v <;> decide
    rw [← List.mem_singleton (b := variant), ← h, List.mem_filter]
    exact (and_iff_right hall).symm
  · intro h
    have hp : p = fun v => decide (v = variant) := funext fun v => by
      rw [Bool.eq_iff_iff, h v, decide_eq_true_iff]
    rw [hp]
    cases variant <;> decide

theorem readMatcher_eq_ok :
    readMatcher engine fields = .ok matcher ↔ ∃ variant pattern, Spells engine fields matcher variant pattern := by
  unfold readMatcher
  constructor
  · intro h
    split at h
    · rename_i variant hvariant
      split at h
      · rename_i pattern hpattern
        obtain ⟨⟨⟩, hlength, h⟩ := bind_eq_ok.mp h
        split at h
        · rename_i m hm
          cases h
          exact ⟨variant, pattern, filter_variants.mp hvariant, hpattern, checkLength_eq_ok.mp hlength, hm⟩
        · cases h
      · cases h
    · cases h
  · rintro ⟨variant, pattern, only, spelt, short, made⟩
    rw [filter_variants.mpr only]
    simp only [spelt]
    refine bind_eq_ok.mpr ⟨(), checkLength_eq_ok.mpr short, ?_⟩
    rw [made]
    rfl

theorem addAliases_eq_ok : b.addAliases fields = .ok b' ↔ ∃ aliases : List (String × Category),
    fields = aliases.map aliasField ∧ (∀ a ∈ aliases, Allowed a) ∧ b' = ⟨Assoc.putAll b.aliases aliases, b.rules⟩ := by
  induction fields generalizing b with
  | nil =>
    rw [Builder.addAliases]
    constructor
    · intro h
      cases h
      exact ⟨[], rfl, nofun, rfl⟩
    · rintro ⟨aliases, hnil, -, rfl⟩
      rw [List.map_eq_nil_iff.mp hnil.symm]
      rfl
  | cons f fields ih =>
    obtain ⟨text, value⟩ := f
    rw [Builder.addAliases]
    constructor
    · intro h
      obtain ⟨⟨⟩, hlength, hbind⟩ := bind_eq_ok.mp h
      obtain ⟨category, hcategory, hrest⟩ := bind_eq_ok.mp hbind
      obtain ⟨rfl, known⟩ := readCategory_eq_ok.mp hcategory
      obtain ⟨aliases, rfl, hallowed, rfl⟩ := ih.mp hrest
      refine ⟨(text, category) :: aliases, rfl, List.forall_mem_cons.mpr ⟨⟨?_, known⟩, hallowed⟩, rfl⟩
      exact checkLength_eq_ok.mp hlength
    · rintro ⟨aliases, hfields, hallowed, rfl⟩
      obtain ⟨a, aliases, rfl, hfield, rfl⟩ := List.map_eq_cons_iff.mp hfields.symm
      cases hfield
      obtain ⟨⟨short, known⟩, hallowed⟩ := List.forall_mem_cons.mp hallowed
      refine bind_eq_ok.mpr ⟨(), checkLength_eq_ok.mpr short, bind_eq_ok.mpr ⟨a.2, ?_, ?_⟩⟩
      · exact readCategory_eq_ok.mpr ⟨rfl, known⟩
      · exact ih.mpr ⟨aliases, rfl, hallowed, rfl⟩

theorem addRules_eq_ok : b.addRules engine items = .ok b' ↔ ∃ rules : List Rule,
    List.Forall₂ (RuleOf engine) items rules ∧ b' = ⟨b.aliases, b.rules ++ rules⟩ := by
  induction items generalizing b with
  | nil =>
    rw [Builder.addRules]
    constructor
    · intro h
      cases h
      exact ⟨[], .nil, by rw [List.append_nil]⟩
    · rintro ⟨rules, hrules, rfl⟩
      cases hrules
      rw [List.append_nil]
  | cons item items ih =>
    constructor
    · intro h
      cases item with
      | object shape fields =>
        rw [Builder.addRules] at h
        obtain ⟨matcher, hmatcher, h⟩ := bind_eq_ok.mp h
        obtain ⟨category, hcategory, h⟩ := bind_eq_ok.mp h
        obtain ⟨assigned, known⟩ := readCategory_eq_ok.mp hcategory
        obtain ⟨rules, hrules, rfl⟩ := ih.mp h
        refine ⟨⟨matcher, category⟩ :: rules, .cons ⟨readMatcher_eq_ok.mp hmatcher, assigned, known⟩ hrules, ?_⟩
        rw [List.append_cons]
        rfl
      | _ => cases h
    · rintro ⟨rules, hrules, rfl⟩
      obtain ⟨rule, rules, hrule, hrest, rfl⟩ := List.forall₂_cons_left_iff.mp hrules
      cases hrule with
      | @mk shape fields matcher category spells assigned known =>
        rw [Builder.addRules]
        refine bind_eq_ok.mpr ⟨matcher, readMatcher_eq_ok.mpr spells, bind_eq_ok.mpr ⟨category, ?_, ?_⟩⟩
        · exact readCategory_eq_ok.mpr ⟨assigned, known⟩
        · refine ih.mpr ⟨rules, hrest, ?_⟩
          rw [List.append_cons]
          rfl

end

/-- A classifier with more aliases, in place of those for the same texts, and with more rules at the end. -/
def adding (base : Classifier) (aliases : List (String × Category)) (rules : List Rule) : Classifier :=
  ⟨Assoc.putAll base.aliases aliases, base.rules ++ rules⟩

/-- A document extends a classifier if and only if it is an alias table. -/
theorem extendBy_eq_ok {engine : TextMatcher.Engine} {base c : Classifier} {d : Document} :
    base.extendBy engine d = .ok c ↔ ∃ aliases rules, Table engine d aliases rules ∧ c = base.adding aliases rules := by
  constructor
  · intro h
    cases d with
    | object shape fields =>
      rw [extendBy] at h
      obtain ⟨named, hnamed, h⟩ := bind_eq_ok.mp h
      obtain ⟨b, hb, h⟩ := bind_eq_ok.mp h
      obtain ⟨items, hitems, h⟩ := bind_eq_ok.mp h
      obtain ⟨b', hb', h⟩ := bind_eq_ok.mp h
      obtain ⟨aliases, rfl, hallowed, rfl⟩ := addAliases_eq_ok.mp hb
      obtain ⟨rules, hrules, rfl⟩ := addRules_eq_ok.mp hb'
      cases h
      refine ⟨aliases, rules, ⟨⟨shape, fields, rfl⟩, optionalFields_eq_ok.mp hnamed, hallowed, items, ?_, hrules⟩, rfl⟩
      exact optionalItems_eq_ok.mp hitems
    | _ => cases h
  · rintro ⟨aliases, rules, ⟨⟨shape, fields, rfl⟩, hnamed, hallowed, items, hitems, hrules⟩, rfl⟩
    have haliases : base.toBuilder.addAliases (aliases.map aliasField) =
        .ok ⟨Assoc.putAll base.aliases aliases, base.rules⟩ := addAliases_eq_ok.mpr ⟨aliases, rfl, hallowed, rfl⟩
    have hadded : Builder.addRules engine ⟨Assoc.putAll base.aliases aliases, base.rules⟩ items =
        .ok ⟨Assoc.putAll base.aliases aliases, base.rules ++ rules⟩ := addRules_eq_ok.mpr ⟨rules, hrules, rfl⟩
    rw [extendBy]
    refine bind_eq_ok.mpr ⟨_, optionalFields_eq_ok.mpr hnamed, bind_eq_ok.mpr ⟨_, haliases, ?_⟩⟩
    exact bind_eq_ok.mpr ⟨_, optionalItems_eq_ok.mpr hitems, bind_eq_ok.mpr ⟨_, hadded, rfl⟩⟩

theorem Table.extendBy_eq {engine : TextMatcher.Engine} {d : Document} {aliases : List (String × Category)}
    {rules : List Rule} (ht : Table engine d aliases rules) (base : Classifier) :
    base.extendBy engine d = .ok (base.adding aliases rules) :=
  extendBy_eq_ok.mpr ⟨aliases, rules, ht, rfl⟩

end CelSuite.Classifier
