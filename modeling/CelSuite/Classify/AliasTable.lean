import CelSuite.Classify.Classifier
import CelSuite.Document.Error

/-! # Alias tables

A document with aliases and rules extends a classifier. Aliases take the place of earlier ones for the
same phrasing; rules come after the earlier ones. Patterns have a greatest length, counted in units. -/

namespace CelSuite.Classifier

/-- The greatest length of a pattern. -/
def maxLength : MatchVariant → Nat
  | .regex => 4096
  | _ => 8192

/-- Refuses a pattern that is too long. -/
def checkLength (variant : MatchVariant) (pattern : String) : Except DocumentError Unit :=
  let length := Text.unitLength pattern.toList
  if maxLength variant < length then .error (.patternTooLong length (maxLength variant)) else .ok ()

/-- An error category. -/
def readCategory : Document → Except DocumentError Category
  | .string s => if Category.isKnown s then .ok s else .error (.unknownCategory (.string s))
  | d => .error (.unknownCategory d)

/-- Whether a rule asks not to regard case. -/
def ignoresCase (fields : List (String × Document)) : Bool :=
  match Assoc.get? "ignore_case" fields with
  | some (.bool b) => b
  | _ => false

/-- The matcher of a rule: exactly one variant with its pattern. -/
def readMatcher (engine : TextMatcher.Engine) (fields : List (String × Document)) :
    Except DocumentError TextMatcher :=
  match MatchVariant.all.filter fun v => Assoc.contains v.name fields with
  | [variant] =>
    match Assoc.get? variant.name fields with
    | some (.string pattern) => do
      checkLength variant pattern
      match TextMatcher.ofVariantBy engine variant pattern (ignoresCase fields) with
      | .ok m => return m
      | .error e => throw (.invalidPattern e.pattern)
    | found => .error (.notString ("rule " ++ variant.name ++ " value") (found.getD .undefined))
  | _ => .error (.matcherKeys (MatchVariant.all.map (·.name)) (fields.map (·.1)))

/-- Adds the aliases of a table in turn. -/
def Builder.addAliases (b : Builder) : List (String × Document) → Except DocumentError Builder
  | [] => .ok b
  | (text, category) :: r => do
    checkLength .exact text
    let category ← readCategory category
    Builder.addAliases (b.alias text category) r

/-- Adds the rules of a table in turn. -/
def Builder.addRules (engine : TextMatcher.Engine) (b : Builder) : List Document → Except DocumentError Builder
  | [] => .ok b
  | .object shape fields :: r => do
    let matcher ← readMatcher engine fields
    let category ← readCategory ((Document.object shape fields).get "category")
    Builder.addRules engine (b.rule matcher category) r
  | d :: _ => .error (.notObject "rule" d)

/-- The fields of an object that may be missing. -/
def optionalFields (what : String) : Document → Except DocumentError (List (String × Document))
  | .undefined | .null => .ok []
  | .object _ fields => .ok fields
  | d => .error (.notObject what d)

/-- The items of an array that may be missing. -/
def optionalItems (what : String) : Document → Except DocumentError (List Document)
  | .undefined | .null => .ok []
  | .array items => .ok items
  | d => .error (.notArray what d)

/-- A classifier extended by an alias table, with an engine for regular expressions. -/
def extendBy (engine : TextMatcher.Engine) (base : Classifier) : Document → Except DocumentError Classifier
  | .object shape fields => do
    let d : Document := .object shape fields
    let b ← base.toBuilder.addAliases (← optionalFields "aliases" (d.get "aliases"))
    let b ← b.addRules engine (← optionalItems "rules" (d.get "rules"))
    return b.build
  | d => .error (.notObject "alias table" d)

/-- A classifier extended by an alias table. -/
def extend (base : Classifier) (d : Document) : Except DocumentError Classifier := base.extendBy TextMatcher.regex? d

end CelSuite.Classifier
