import CelSuite.Classify.Classifier
import CelSuite.Proofs.Assoc
import CelSuite.Proofs.Text.Order

/-! # What a classifier was told

A history is what a builder was told, in order. What a message is classified as can be read off the history alone: the
last alias for it counts, and the first rule that matches it. -/

namespace CelSuite.Classifier

/-! ### Layers of answers -/

/-- The category of the first rule that matches a message. -/
def ruleCategory (rules : List Rule) (m : String) : Category :=
  ((rules.find? (·.matcher.matchesText m)).map (·.category)).getD Category.unclassified

section
variable {c : Classifier} {m : String} {k : Category}

theorem classify_known (hm : Category.isKnown m = true) : c.classify m = m := if_pos hm

theorem classify_alias (hm : Category.isKnown m = false) (hk : Assoc.get? m c.aliases = some k) : c.classify m = k := by
  rw [classify, hm, hk]
  rfl

theorem classify_rule (hm : Category.isKnown m = false) (hnone : Assoc.get? m c.aliases = none) :
    c.classify m = ruleCategory c.rules m := by
  rw [classify, hm, hnone, ruleCategory]
  cases c.rules.find? (·.matcher.matchesText m) <;> rfl

end

/-! ### Registrations -/

/-- What a builder is told. -/
inductive Registration where
  | phrasing (text : String) (category : Category)
  | rule (matcher : TextMatcher) (category : Category)

namespace Registration

/-- The category that a message gets as an alias. -/
def named? (m : String) : Registration → Option Category
  | .phrasing text category => if text = m then some category else none
  | .rule _ _ => none

/-- The category that a message gets from a rule. -/
def matched? (m : String) : Registration → Option Category
  | .phrasing _ _ => none
  | .rule matcher category => if matcher.matchesText m then some category else none

/-- The rule that is added. -/
def rule? : Registration → Option Rule
  | .phrasing _ _ => none
  | .rule matcher category => some ⟨matcher, category⟩

variable {m : String} {k : Category} {r : Registration}

theorem named?_eq_some : r.named? m = some k ↔ r = .phrasing m k := by
  cases r with
  | phrasing text category => simp [named?]
  | rule matcher category => simp [named?]

theorem named?_eq_none : r.named? m = none ↔ ∀ k, r ≠ .phrasing m k := by
  cases r with
  | phrasing text category => simp [named?]
  | rule matcher category => simp [named?]

theorem matched?_eq_some : r.matched? m = some k ↔ ∃ matcher, r = .rule matcher k ∧ matcher.matchesText m = true := by
  cases r with
  | phrasing text category => simp [matched?]
  | rule matcher category =>
    rw [matched?]
    constructor
    · intro h
      split at h
      · rename_i hm
        cases h
        exact ⟨matcher, rfl, hm⟩
      · cases h
    · rintro ⟨_, heq, hm⟩
      cases heq
      rw [if_pos hm]

theorem matched?_eq_none : r.matched? m = none ↔ ∀ matcher k, r = .rule matcher k → matcher.matchesText m = false := by
  cases r with
  | phrasing text category => simp [matched?]
  | rule matcher category => simp [matched?]

end Registration

/-! ### Builders that are told something -/

/-- A builder after a registration. -/
def Builder.register (b : Builder) : Registration → Builder
  | .phrasing text category => b.alias text category
  | .rule matcher category => b.rule matcher category

/-- What a builder was told, in order. -/
abbrev History := List Registration

/-- A builder after all of a history. -/
def Builder.told (b : Builder) (h : History) : Builder := h.foldl Builder.register b

namespace History

/-- The category of the last alias for a message. -/
def lastAlias? (h : History) (m : String) : Option Category := h.reverse.findSome? (·.named? m)

/-- The category of the first rule that matches a message. -/
def firstRule? (h : History) (m : String) : Option Category := h.findSome? (·.matched? m)

/-- The rules in order. -/
def rules (h : History) : List Rule := h.filterMap (·.rule?)

end History

section
variable {b : Builder} {h : History} {r : Registration} {m : String}

theorem told_concat (b : Builder) (h : History) (r : Registration) : b.told (h ++ [r]) = (b.told h).register r :=
  List.foldl_append

theorem get?_register (m : String) (b : Builder) (r : Registration) :
    Assoc.get? m (b.register r).aliases = (r.named? m).or (Assoc.get? m b.aliases) := by
  cases r with
  | phrasing text category =>
    show Assoc.get? m (Assoc.put text category b.aliases) = _
    rw [Assoc.get?_put, Registration.named?]
    split <;> rfl
  | rule matcher category => rfl

theorem get?_told (m : String) (b : Builder) (h : History) :
    Assoc.get? m (b.told h).aliases = (h.lastAlias? m).or (Assoc.get? m b.aliases) := by
  induction h using List.reverseRecOn with
  | nil => rfl
  | append_singleton h r ih =>
    rw [told_concat, get?_register, ih, History.lastAlias?, History.lastAlias?, List.reverse_append,
      List.findSome?_append, Option.or_assoc]
    simp

theorem nodup_told (hb : (b.aliases.map (·.1)).Nodup) (h : History) : ((b.told h).aliases.map (·.1)).Nodup := by
  induction h using List.reverseRecOn with
  | nil => exact hb
  | append_singleton h r ih =>
    rw [told_concat]
    cases r with
    | phrasing text category => exact Assoc.nodup_put text category ih
    | rule matcher category => exact ih

theorem rules_told (b : Builder) (h : History) : (b.told h).rules = b.rules ++ h.rules := by
  induction h using List.reverseRecOn with
  | nil => exact (List.append_nil _).symm
  | append_singleton h r ih =>
    rw [told_concat, History.rules, List.filterMap_append, ← List.append_assoc, ← History.rules, ← ih]
    cases r with
    | phrasing text category => exact (List.append_nil _).symm
    | rule matcher category => rfl

theorem mem_keys_told {text : String} :
    text ∈ (b.told h).aliases.map (·.1) ↔ text ∈ b.aliases.map (·.1) ∨ ∃ k, .phrasing text k ∈ h := by
  rw [← Assoc.isSome_get?_iff, get?_told, Option.isSome_or, Bool.or_eq_true, Assoc.isSome_get?_iff, or_comm,
    History.lastAlias?, List.findSome?_isSome_iff]
  refine or_congr_right ⟨?_, ?_⟩
  · rintro ⟨r, hr, hnamed⟩
    obtain ⟨k, hk⟩ := Option.isSome_iff_exists.mp hnamed
    exact ⟨k, Registration.named?_eq_some.mp hk ▸ List.mem_reverse.mp hr⟩
  · rintro ⟨k, hk⟩
    exact ⟨_, List.mem_reverse.mpr hk, by rw [Registration.named?_eq_some.mpr rfl]; rfl⟩

theorem ruleCategory_rules (h : History) (m : String) :
    ruleCategory h.rules m = (h.firstRule? m).getD Category.unclassified := by
  induction h with
  | nil => rfl
  | cons r h ih =>
    rw [History.firstRule?, List.findSome?_cons, History.rules, List.filterMap_cons]
    cases r with
    | phrasing text category => exact ih
    | rule matcher category =>
      by_cases hm : matcher.matchesText m = true
      · simp [ruleCategory, Registration.matched?, Registration.rule?, hm]
      · have hskip : ruleCategory (⟨matcher, category⟩ :: History.rules h) m = ruleCategory (History.rules h) m := by
          simp [ruleCategory, hm]
        simp only [Registration.matched?, Registration.rule?, if_neg hm]
        exact hskip.trans ih

end

/-! ### The last alias and the first rule -/

section
variable {h : History} {m : String} {k : Category}

theorem lastAlias?_eq_some : h.lastAlias? m = some k ↔
    ∃ earlier later, h = earlier ++ .phrasing m k :: later ∧ ∀ k', .phrasing m k' ∉ later := by
  rw [History.lastAlias?, List.findSome?_eq_some_iff]
  constructor
  · rintro ⟨later, r, earlier, hh, hnamed, hlater⟩
    obtain rfl := Registration.named?_eq_some.mp hnamed
    refine ⟨earlier.reverse, later.reverse, ?_, fun k' hmem => ?_⟩
    · rw [List.reverse_eq_append_iff.mp hh, List.reverse_cons, List.append_assoc, List.singleton_append]
    · exact Registration.named?_eq_none.mp (hlater _ (List.mem_reverse.mp hmem)) k' rfl
  · rintro ⟨earlier, later, rfl, hlater⟩
    refine ⟨later.reverse, .phrasing m k, earlier.reverse, ?_, Registration.named?_eq_some.mpr rfl, fun r hr => ?_⟩
    · rw [List.reverse_append, List.reverse_cons, List.append_assoc, List.singleton_append]
    · rw [Registration.named?_eq_none]
      rintro k' rfl
      exact hlater k' (List.mem_reverse.mp hr)

theorem lastAlias?_eq_none : h.lastAlias? m = none ↔ ∀ k, .phrasing m k ∉ h := by
  rw [History.lastAlias?, List.findSome?_eq_none_iff]
  constructor
  · intro hnone k hk
    exact Registration.named?_eq_none.mp (hnone _ (List.mem_reverse.mpr hk)) k rfl
  · intro hnone r hr
    rw [Registration.named?_eq_none]
    rintro k rfl
    exact hnone k (List.mem_reverse.mp hr)

theorem firstRule?_eq_some : h.firstRule? m = some k ↔
    ∃ earlier matcher later, h = earlier ++ .rule matcher k :: later ∧ matcher.matchesText m = true ∧
      ∀ matcher' k', .rule matcher' k' ∈ earlier → matcher'.matchesText m = false := by
  rw [History.firstRule?, List.findSome?_eq_some_iff]
  constructor
  · rintro ⟨earlier, r, later, rfl, hmatch, hearlier⟩
    obtain ⟨matcher, rfl, hm⟩ := Registration.matched?_eq_some.mp hmatch
    refine ⟨earlier, matcher, later, rfl, hm, fun matcher' k' hmem => ?_⟩
    exact Registration.matched?_eq_none.mp (hearlier _ hmem) matcher' k' rfl
  · rintro ⟨earlier, matcher, later, rfl, hm, hearlier⟩
    refine ⟨earlier, _, later, rfl, Registration.matched?_eq_some.mpr ⟨matcher, rfl, hm⟩, fun r hr => ?_⟩
    rw [Registration.matched?_eq_none]
    rintro matcher' k' rfl
    exact hearlier matcher' k' hr

theorem firstRule?_eq_none :
    h.firstRule? m = none ↔ ∀ matcher k, .rule matcher k ∈ h → matcher.matchesText m = false := by
  rw [History.firstRule?, List.findSome?_eq_none_iff]
  constructor
  · intro hnone matcher k hmem
    exact Registration.matched?_eq_none.mp (hnone _ hmem) matcher k rfl
  · intro hnone r hr
    rw [Registration.matched?_eq_none]
    rintro matcher k rfl
    exact hnone matcher k hr

end

/-! ### What a history means -/

/-- What a message is classified as after a history. -/
inductive Answer (h : History) : Option String → Category → Prop
  | noMessage : Answer h none Category.noError
  | known {m : String} (hm : Category.isKnown m = true) : Answer h (some m) m
  | aliased {m : String} {k : Category} {earlier later : History} (hm : Category.isKnown m = false)
      (hh : h = earlier ++ .phrasing m k :: later) (last : ∀ k', .phrasing m k' ∉ later) : Answer h (some m) k
  | matched {m : String} {k : Category} {matcher : TextMatcher} {earlier later : History}
      (hm : Category.isKnown m = false) (unnamed : ∀ k', .phrasing m k' ∉ h)
      (hh : h = earlier ++ .rule matcher k :: later) (hmatch : matcher.matchesText m = true)
      (first : ∀ matcher' k', .rule matcher' k' ∈ earlier → matcher'.matchesText m = false) : Answer h (some m) k
  | unmatched {m : String} (hm : Category.isKnown m = false) (unnamed : ∀ k', .phrasing m k' ∉ h)
      (missed : ∀ matcher k', .rule matcher k' ∈ h → matcher.matchesText m = false) :
      Answer h (some m) Category.unclassified

/-- A classifier that a history tells all of. -/
structure Means (h : History) (c : Classifier) : Prop where
  answers : ∀ m k, c.classify? m = k ↔ Answer h m k
  texts : ∀ text, text ∈ c.aliasTexts ↔ ∃ k, .phrasing text k ∈ h
  distinct : c.aliasTexts.Nodup
  sorted : c.aliasTexts.Pairwise fun a b => Text.before a b = true
  count : c.aliasCount = c.aliasTexts.length
  rules : c.rules = h.rules

section
variable {h : History}

theorem get?_build (h : History) (m : String) :
    Assoc.get? m (Builder.empty.told h).build.aliases = h.lastAlias? m :=
  (get?_told m Builder.empty h).trans Option.or_none

theorem rules_build (h : History) : (Builder.empty.told h).build.rules = h.rules :=
  (rules_told Builder.empty h).trans (List.nil_append _)

theorem answer_classify (h : History) (m : Option String) : Answer h m ((Builder.empty.told h).build.classify? m) := by
  cases m with
  | none => exact .noMessage
  | some m =>
    rw [classify?]
    by_cases hm : Category.isKnown m = true
    · rw [classify_known hm]
      exact .known hm
    · rw [Bool.not_eq_true] at hm
      cases halias : h.lastAlias? m with
      | some k =>
        obtain ⟨earlier, later, hh, last⟩ := lastAlias?_eq_some.mp halias
        rw [classify_alias hm ((get?_build h m).trans halias)]
        exact .aliased hm hh last
      | none =>
        have unnamed := lastAlias?_eq_none.mp halias
        rw [classify_rule hm ((get?_build h m).trans halias), rules_build, ruleCategory_rules]
        cases hrule : h.firstRule? m with
        | some k =>
          obtain ⟨earlier, matcher, later, hh, hmatch, first⟩ := firstRule?_eq_some.mp hrule
          exact .matched hm unnamed hh hmatch first
        | none => exact .unmatched hm unnamed (firstRule?_eq_none.mp hrule)

theorem classify_of_answer {m : Option String} {k : Category} (hk : Answer h m k) :
    (Builder.empty.told h).build.classify? m = k := by
  cases hk with
  | noMessage => rfl
  | known hm => exact classify_known hm
  | aliased hm hh last =>
    have halias := lastAlias?_eq_some.mpr ⟨_, _, hh, last⟩
    exact classify_alias hm ((get?_build h _).trans halias)
  | matched hm unnamed hh hmatch first =>
    have halias := lastAlias?_eq_none.mpr unnamed
    have hrule := firstRule?_eq_some.mpr ⟨_, _, _, hh, hmatch, first⟩
    rw [classify?, classify_rule hm ((get?_build h _).trans halias), rules_build, ruleCategory_rules, hrule]
    rfl
  | unmatched hm unnamed missed =>
    have halias := lastAlias?_eq_none.mpr unnamed
    have hrule := firstRule?_eq_none.mpr missed
    rw [classify?, classify_rule hm ((get?_build h _).trans halias), rules_build, ruleCategory_rules, hrule]
    rfl

/-- What an empty builder is told and then builds means what it was told. -/
theorem means_told (h : History) : Means h (Builder.empty.told h).build := by
  have hnodup : ((Builder.empty.told h).build.aliases.map (·.1)).Nodup :=
    nodup_told (b := Builder.empty) List.nodup_nil h
  have hperm := Text.sorted_perm ((Builder.empty.told h).build.aliases.map (·.1))
  constructor
  case answers => exact fun m k => ⟨fun heq => heq ▸ answer_classify h m, classify_of_answer⟩
  case texts =>
    intro text
    rw [aliasTexts, hperm.mem_iff]
    exact mem_keys_told.trans (or_iff_right List.not_mem_nil)
  case distinct => exact hperm.nodup_iff.mpr hnodup
  case sorted => exact Text.sorted_strict hnodup
  case count => rw [aliasCount, aliasTexts, hperm.length_eq, List.length_map]
  case rules => exact rules_build h

end

end CelSuite.Classifier
