import CelSuite.Assoc
import CelSuite.Classify.TextMatcher
import CelSuite.Text.Units

/-! # Error categories

Different evaluators word one failure differently, so errors are compared by category. A message that is
a category name is that category; otherwise its alias decides, then the first rule that matches. A
classifier is what a builder holds when it is built. -/

namespace CelSuite

/-- The name of a category. -/
abbrev Category := String

namespace Category

/-- The error categories. -/
def known : List Category :=
  ["divide_by_zero", "modulus_by_zero", "no_such_overload", "integer_overflow",
    "undeclared_reference", "unknown_variable"]

/-- The category of no message. -/
def noError : Category := "no_error"

/-- The category of every other message. -/
def unclassified : Category := "unclassified"

/-- Whether a text is the name of an error category. -/
def isKnown (s : String) : Bool := known.contains s

end Category

/-- A matcher and the category that it assigns. -/
structure Rule where
  matcher : TextMatcher
  category : Category

/-- Aliases in order of registration, and rules in order. -/
structure Classifier where
  aliases : List (String × Category)
  rules : List Rule

namespace Classifier

/-- A classifier in the making. -/
structure Builder where
  aliases : List (String × Category)
  rules : List Rule

/-- Without aliases and rules. -/
def Builder.empty : Builder := ⟨[], []⟩

/-- Maps one phrasing to a category, in place of an earlier one. -/
def Builder.alias (b : Builder) (text : String) (category : Category) : Builder :=
  { b with aliases := Assoc.put text category b.aliases }

/-- Adds a rule after the others. -/
def Builder.rule (b : Builder) (matcher : TextMatcher) (category : Category) : Builder :=
  { b with rules := b.rules ++ [⟨matcher, category⟩] }

/-- The classifier of the aliases and rules so far. -/
def Builder.build (b : Builder) : Classifier := ⟨b.aliases, b.rules⟩

/-- A builder that begins with what a classifier holds. -/
def toBuilder (c : Classifier) : Builder := ⟨c.aliases, c.rules⟩

/-- The category of a message. -/
def classify (c : Classifier) (message : String) : Category :=
  if Category.isKnown message then message
  else
    match Assoc.get? message c.aliases with
    | some category => category
    | none =>
      match c.rules.find? (·.matcher.matchesText message) with
      | some rule => rule.category
      | none => Category.unclassified

/-- The category of a message that may be missing. -/
def classify? (c : Classifier) : Option String → Category
  | none => Category.noError
  | some message => c.classify message

/-- The number of phrasings that have an alias. -/
def aliasCount (c : Classifier) : Nat := c.aliases.length

/-- The phrasings that have an alias, in order. -/
def aliasTexts (c : Classifier) : List String :=
  Text.sorted (c.aliases.map (·.1))

/-- The known phrasings. -/
def standardBuilder : Builder :=
  (((((((Builder.empty.alias "division by zero" "divide_by_zero").alias
    "divide by zero" "divide_by_zero").alias
    "modulus by zero" "modulus_by_zero").alias
    "no such overload" "no_such_overload").alias
    "no matching overload" "no_such_overload").alias
    "return error for overflow" "integer_overflow").alias
    "unknown variable" "unknown_variable").rule
    (.beginning "undeclared reference" false) "undeclared_reference"

/-- The classifier of the known phrasings. -/
def standard : Classifier := standardBuilder.build

end Classifier

end CelSuite
