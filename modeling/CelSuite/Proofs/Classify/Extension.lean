import CelSuite.Proofs.Classify.History
import CelSuite.Proofs.Classify.Table

/-! # Classifiers that are extended

An alias table changes the answers for its own texts, and for what the classifier before left unclassified: its aliases
go before all rules, and its rules go after them. Two tables in turn do what one table does that has the aliases of
both, the later ones in place of the earlier ones, and the rules of both. -/

namespace CelSuite.Classifier

/-! ### Sound classifiers -/

/-- A classifier whose texts are distinct and whose categories are error categories. -/
structure Sound (c : Classifier) : Prop where
  distinct : (c.aliases.map (·.1)).Nodup
  aliases : ∀ a ∈ c.aliases, Category.isKnown a.2 = true
  rules : ∀ r ∈ c.rules, Category.isKnown r.category = true

section
variable {c base : Classifier} {m : String} {k : Category} {aliases : List (String × Category)} {rules : List Rule}

theorem ne_unclassified (hk : Category.isKnown k = true) : k ≠ Category.unclassified := by
  rintro rfl
  revert hk
  decide

/-- What a sound classifier leaves unclassified has no alias, and no rule matches it. -/
theorem Sound.unclassified (hc : c.Sound) (h : c.classify m = Category.unclassified) :
    Category.isKnown m = false ∧ Assoc.get? m c.aliases = none ∧
      c.rules.find? (·.matcher.matchesText m) = none := by
  have hm : Category.isKnown m = false := by
    rw [← Bool.not_eq_true]
    intro hm
    exact ne_unclassified hm ((classify_known hm).symm.trans h)
  have hnone : Assoc.get? m c.aliases = none := by
    rw [Option.eq_none_iff_forall_ne_some]
    intro k hk
    exact ne_unclassified (hc.aliases _ (Assoc.mem_of_get? hk)) ((classify_alias hm hk).symm.trans h)
  refine ⟨hm, hnone, ?_⟩
  rw [Option.eq_none_iff_forall_ne_some]
  intro r hr
  rw [classify_rule hm hnone, ruleCategory, hr] at h
  exact ne_unclassified (hc.rules r (List.mem_of_find?_eq_some hr)) h

/-! ### What is kept, filled and named -/

theorem get?_adding (hm : m ∉ aliases.map (·.1)) :
    Assoc.get? m (base.adding aliases rules).aliases = Assoc.get? m base.aliases :=
  Assoc.get?_putAll_of_not_mem fun _ ha heq => hm (heq ▸ List.mem_map_of_mem ha)

theorem ruleCategory_append_left {rules' : List Rule} (h : ruleCategory rules m ≠ Category.unclassified) :
    ruleCategory (rules ++ rules') m = ruleCategory rules m := by
  rw [ruleCategory] at h
  rw [ruleCategory, ruleCategory, List.find?_append]
  cases hrule : rules.find? (·.matcher.matchesText m) with
  | some r => rfl
  | none =>
    rw [hrule] at h
    exact absurd rfl h

theorem ruleCategory_append_right {rules' : List Rule} (h : rules.find? (·.matcher.matchesText m) = none) :
    ruleCategory (rules ++ rules') m = ruleCategory rules' m := by
  rw [ruleCategory, ruleCategory, List.find?_append, h, Option.none_or]

theorem classify_adding_kept (hm : m ∉ aliases.map (·.1)) (hbase : base.classify m ≠ Category.unclassified) :
    (base.adding aliases rules).classify m = base.classify m := by
  by_cases hknown : Category.isKnown m = true
  · rw [classify_known hknown, classify_known hknown]
  · rw [Bool.not_eq_true] at hknown
    cases halias : Assoc.get? m base.aliases with
    | some k => rw [classify_alias hknown halias, classify_alias hknown ((get?_adding hm).trans halias)]
    | none =>
      rw [classify_rule hknown halias] at hbase ⊢
      rw [classify_rule hknown ((get?_adding hm).trans halias)]
      exact ruleCategory_append_left hbase

theorem classify_adding_filled (hc : base.Sound) (hm : m ∉ aliases.map (·.1))
    (hbase : base.classify m = Category.unclassified) :
    (base.adding aliases rules).classify m = ruleCategory rules m := by
  obtain ⟨hknown, halias, hrule⟩ := hc.unclassified hbase
  rw [classify_rule hknown ((get?_adding hm).trans halias)]
  exact ruleCategory_append_right hrule

theorem classify_adding_named (hnodup : (aliases.map (·.1)).Nodup) (hk : (m, k) ∈ aliases)
    (hm : Category.isKnown m = false) : (base.adding aliases rules).classify m = k := by
  refine classify_alias hm ?_
  show Assoc.get? m (Assoc.putAll base.aliases aliases) = some k
  have hput : Assoc.putAll [] aliases = aliases := Assoc.putAll_fresh hnodup
  rw [Assoc.get?_putAll_or, hput, Assoc.get?_of_mem hnodup hk, Option.some_or]

theorem Sound.adding (hc : base.Sound) (haliases : ∀ a ∈ aliases, Category.isKnown a.2 = true)
    (hrules : ∀ r ∈ rules, Category.isKnown r.category = true) : (base.adding aliases rules).Sound := by
  constructor
  case distinct => exact Assoc.nodup_putAll hc.distinct aliases
  case aliases =>
    intro a ha
    rcases Assoc.mem_putAll ha with ha | ha
    · exact hc.aliases a ha
    · exact haliases a ha
  case rules =>
    intro r hr
    rcases List.mem_append.mp hr with hr | hr
    · exact hc.rules r hr
    · exact hrules r hr

end

/-! ### Classifiers that cannot be told apart -/

/-- Two classifiers that answer, and list, the same. -/
structure Alike (c c' : Classifier) : Prop where
  answers : ∀ m, c.classify? m = c'.classify? m
  texts : c.aliasTexts = c'.aliasTexts
  count : c.aliasCount = c'.aliasCount
  rules : c.rules = c'.rules

theorem alike_of_get? {c c' : Classifier} (hc : (c.aliases.map (·.1)).Nodup) (hc' : (c'.aliases.map (·.1)).Nodup)
    (h : ∀ m, Assoc.get? m c.aliases = Assoc.get? m c'.aliases) (hrules : c.rules = c'.rules) : Alike c c' := by
  have hperm := Assoc.keys_perm hc hc' h
  constructor
  case answers =>
    intro m
    cases m with
    | none => rfl
    | some m => rw [classify?, classify?, classify, classify, h m, hrules]
  case texts => exact Text.sorted_eq_of_perm hperm
  case count => simpa [aliasCount] using hperm.length_eq
  case rules => exact hrules

/-! ### One table over another -/

/-- The fields of the aliases of a document. -/
def aliasFields (d : Document) : List (String × Document) :=
  match d.get "aliases" with
  | .object _ fields => fields
  | _ => []

/-- The items of the rules of a document. -/
def ruleItems (d : Document) : List Document :=
  match d.get "rules" with
  | .array items => items
  | _ => []

/-- The document with the aliases of both, the second in place of the first, and with the rules of both. -/
def overlay (d₁ d₂ : Document) : Document :=
  .object .mapping [("aliases", .ofFields (aliasFields d₁ ++ aliasFields d₂)),
    ("rules", .array (ruleItems d₁ ++ ruleItems d₂))]

theorem aliasFields_eq {d : Document} {fields : List (String × Document)} (h : Fields (d.get "aliases") fields) :
    aliasFields d = fields := by
  rw [aliasFields]
  generalize d.get "aliases" = found at h ⊢
  cases h <;> rfl

theorem ruleItems_eq {d : Document} {items : List Document} (h : Items (d.get "rules") items) :
    ruleItems d = items := by
  rw [ruleItems]
  generalize d.get "rules" = found at h ⊢
  cases h <;> rfl

/-- To arrange changed values is to change arranged values. -/
theorem exists_of_perm_map {α β : Type} {f : α → β} {xs : List α} {ys : List β} (h : ys.Perm (xs.map f)) :
    ∃ us : List α, ys = us.map f ∧ us.Perm xs := by
  have hxs : List.Forall₂ (fun y x => y = f x) (xs.map f) xs :=
    List.forall₂_map_left_iff.mpr (List.forall₂_same.mpr fun _ _ => rfl)
  obtain ⟨us, hus, hperm⟩ := List.perm_comp_forall₂ h hxs
  refine ⟨us, ?_, hperm⟩
  rw [← List.forall₂_eq_eq_eq]
  exact List.forall₂_map_right_iff.mpr hus

section
variable {engine : TextMatcher.Engine} {d₁ d₂ : Document} {aliases₁ aliases₂ : List (String × Category)}
  {rules₁ rules₂ : List Rule}

/-- The document of two tables is a table: its aliases are in some order those of the first and then the second. -/
theorem table_overlay (h₁ : Table engine d₁ aliases₁ rules₁) (h₂ : Table engine d₂ aliases₂ rules₂) :
    ∃ aliases, Table engine (overlay d₁ d₂) aliases (rules₁ ++ rules₂) ∧
      aliases.Perm (Assoc.putAll [] (aliases₁ ++ aliases₂)) := by
  obtain ⟨items₁, hitems₁, hrules₁⟩ := h₁.spelt
  obtain ⟨items₂, hitems₂, hrules₂⟩ := h₂.spelt
  have hput : Assoc.putAll [] (aliasFields d₁ ++ aliasFields d₂) =
      (Assoc.putAll [] (aliases₁ ++ aliases₂)).map aliasField := by
    rw [aliasFields_eq h₁.named, aliasFields_eq h₂.named, ← List.map_append]
    exact Assoc.putAll_mapValues Document.string [] (aliases₁ ++ aliases₂)
  have harranged := Document.arrange_perm (Assoc.putAll [] (aliasFields d₁ ++ aliasFields d₂))
  rw [hput] at harranged
  obtain ⟨aliases, haliases, hperm⟩ := exists_of_perm_map harranged
  refine ⟨aliases, ⟨⟨_, _, rfl⟩, ?_, fun a ha => ?_, items₁ ++ items₂, ?_, List.rel_append hrules₁ hrules₂⟩, hperm⟩
  · show Fields (.object .mapping (Document.arrange (Assoc.putAll [] (aliasFields d₁ ++ aliasFields d₂)))) _
    rw [hput, haliases]
    exact .object _ _
  · rcases Assoc.mem_putAll (hperm.subset ha) with ha | ha
    · cases ha
    · rcases List.mem_append.mp ha with ha | ha
      · exact h₁.allowed a ha
      · exact h₂.allowed a ha
  · show Items (.array (ruleItems d₁ ++ ruleItems d₂)) _
    rw [ruleItems_eq hitems₁, ruleItems_eq hitems₂]
    exact .array _

/-- Two tables in turn do what the table of both does. -/
theorem alike_adding {base : Classifier} {aliases : List (String × Category)} (hc : base.Sound)
    (hperm : aliases.Perm (Assoc.putAll [] (aliases₁ ++ aliases₂))) :
    Alike (base.adding aliases (rules₁ ++ rules₂)) ((base.adding aliases₁ rules₁).adding aliases₂ rules₂) := by
  have hnodup : (aliases.map (·.1)).Nodup :=
    (hperm.map _).nodup_iff.mpr (Assoc.nodup_putAll (m := []) List.nodup_nil (aliases₁ ++ aliases₂))
  have hput : Assoc.putAll [] aliases = aliases := Assoc.putAll_fresh hnodup
  refine alike_of_get? (Assoc.nodup_putAll hc.distinct _)
    (Assoc.nodup_putAll (Assoc.nodup_putAll hc.distinct _) _) (fun m => ?_) (List.append_assoc _ _ _).symm
  show Assoc.get? m (Assoc.putAll base.aliases aliases) =
    Assoc.get? m (Assoc.putAll (Assoc.putAll base.aliases aliases₁) aliases₂)
  rw [← Assoc.putAll_append, Assoc.get?_putAll_or m base.aliases aliases, hput, Assoc.get?_perm hperm hnodup,
    ← Assoc.get?_putAll_or]

end

/-! ### Extension -/

/-- A classifier that extends another one by the aliases and rules of a document. -/
structure Extends (base : Classifier) (d : Document) (aliases : List (String × Category)) (rules : List Rule)
    (c : Classifier) : Prop where
  kept : ∀ m : Option String, (∀ text ∈ m, text ∉ aliases.map (·.1)) →
    base.classify? m ≠ Category.unclassified → c.classify? m = base.classify? m
  filled : ∀ m, m ∉ aliases.map (·.1) → base.classify m = Category.unclassified → c.classify m = ruleCategory rules m
  named : (aliases.map (·.1)).Nodup → ∀ m ∈ aliases.map (·.1), Category.isKnown m = false →
    (d.get "aliases").get m = .string (c.classify m)
  sound : c.Sound

theorem RuleOf.isKnown {engine : TextMatcher.Engine} {d : Document} {r : Rule} (h : RuleOf engine d r) :
    Category.isKnown r.category = true := by
  cases h with
  | mk spells assigned known => exact known

theorem get_of_mem {d : Document} {aliases : List (String × Category)} {a : String × Category}
    (h : Fields d (aliases.map aliasField)) (hnodup : (aliases.map (·.1)).Nodup) (ha : a ∈ aliases) :
    d.get a.1 = .string a.2 := by
  have hget : Assoc.get? a.1 (aliases.map aliasField) = some (.string a.2) := by
    refine (Assoc.get?_mapValues Document.string a.1 aliases).trans ?_
    rw [Assoc.get?_of_mem hnodup ha]
    rfl
  generalize aliases.map aliasField = fields at h hget
  cases h with
  | object shape fields =>
    rw [Document.get, hget]
    rfl
  | _ => cases hget

theorem Table.extends {engine : TextMatcher.Engine} {base : Classifier} {d : Document}
    {aliases : List (String × Category)} {rules : List Rule} (ht : Table engine d aliases rules) (hc : base.Sound) :
    Extends base d aliases rules (base.adding aliases rules) := by
  constructor
  case kept =>
    intro m hm hbase
    cases m with
    | none => rfl
    | some m => exact classify_adding_kept (hm m rfl) hbase
  case filled => exact fun m => classify_adding_filled hc
  case named =>
    intro hnodup m hm hknown
    obtain ⟨a, ha, rfl⟩ := List.mem_map.mp hm
    rw [classify_adding_named hnodup ha hknown]
    exact get_of_mem ht.named hnodup ha
  case sound =>
    obtain ⟨items, -, hrules⟩ := ht.spelt
    refine hc.adding (fun a ha => (ht.allowed a ha).known) fun r hr => ?_
    obtain ⟨item, hitem⟩ := exists_of_forall₂ hrules.flip r hr
    exact hitem.isKnown

/-- A document is an alias table or an error. A table extends a classifier conservatively, and one table over another is
    one table with what both hold. -/
theorem tables_extend_and_compose (engine : TextMatcher.Engine) {base : Classifier} (hbase : base.Sound) :
    (∀ d, ((∃ e, base.extendBy engine d = .error e) ∧ ¬∃ aliases rules, Table engine d aliases rules) ∨
      ∃ aliases rules c, Table engine d aliases rules ∧ base.extendBy engine d = .ok c ∧
        Extends base d aliases rules c) ∧
    ∀ d₁ d₂ c₁ c', base.extendBy engine d₁ = .ok c₁ → base.extendBy engine d₂ = .ok c' →
      ∃ c c₂, base.extendBy engine (overlay d₁ d₂) = .ok c ∧ c₁.extendBy engine d₂ = .ok c₂ ∧ Alike c c₂ := by
  constructor
  · intro d
    cases hd : base.extendBy engine d with
    | error e =>
      refine Or.inl ⟨⟨e, rfl⟩, ?_⟩
      rintro ⟨aliases, rules, ht⟩
      have hok := ht.extendBy_eq base
      rw [hd] at hok
      cases hok
    | ok c =>
      obtain ⟨aliases, rules, ht, rfl⟩ := extendBy_eq_ok.mp hd
      exact Or.inr ⟨aliases, rules, _, ht, rfl, ht.extends hbase⟩
  · intro d₁ d₂ c₁ c' h₁ h₂
    obtain ⟨aliases₁, rules₁, ht₁, rfl⟩ := extendBy_eq_ok.mp h₁
    obtain ⟨aliases₂, rules₂, ht₂, -⟩ := extendBy_eq_ok.mp h₂
    obtain ⟨aliases, ht, hperm⟩ := table_overlay ht₁ ht₂
    exact ⟨_, _, ht.extendBy_eq base, ht₂.extendBy_eq _, alike_adding hbase hperm⟩

theorem standard_sound : standard.Sound := by
  constructor
  case distinct => decide
  case aliases => decide
  case rules =>
    intro r hr
    rw [List.mem_singleton.mp hr]
    decide

/-- The second table gives an alias of the first another category, and adds a rule. -/
theorem second_table_decides :
    let first := .object .mapping [("aliases", .object .mapping [("overflow in add", .string "integer_overflow")])]
    let second := .object .mapping [("aliases", .object .mapping [("overflow in add", .string "divide_by_zero")]),
      ("rules", .array [.object .mapping [("prefix", .string "overflow"), ("category", .string "integer_overflow")]])]
    standard.Sound ∧ ∃ c₁ c' c c₂, standard.extend first = .ok c₁ ∧ standard.extend second = .ok c' ∧
      standard.extend (overlay first second) = .ok c ∧ c₁.extend second = .ok c₂ ∧ Alike c c₂ ∧
      c₂.classify "overflow in add" = "divide_by_zero" ∧ c₂.classify "overflow in sub" = "integer_overflow" := by
  intro first second
  have hsecond : ∃ c', standard.extend second = .ok c' := ⟨_, by rfl⟩
  have hboth : ∃ c₁ c₂, standard.extend first = .ok c₁ ∧ c₁.extend second = .ok c₂ ∧
      c₂.classify "overflow in add" = "divide_by_zero" ∧ c₂.classify "overflow in sub" = "integer_overflow" :=
    ⟨_, _, by rfl, by rfl, by rfl, by rfl⟩
  obtain ⟨c', h₂⟩ := hsecond
  obtain ⟨c₁, c₂, h₁, hc₂, hadd, hsub⟩ := hboth
  obtain ⟨c, c₂', hc, hc₂', halike⟩ :=
    (tables_extend_and_compose TextMatcher.regex? standard_sound).2 first second c₁ c' h₁ h₂
  obtain rfl := Except.ok.inj (hc₂.symm.trans hc₂')
  exact ⟨standard_sound, c₁, c', c, c₂, h₁, h₂, hc, hc₂, halike, hadd, hsub⟩

end CelSuite.Classifier
