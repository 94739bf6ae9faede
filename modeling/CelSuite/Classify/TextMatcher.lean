import CelSuite.Regex.Parser
import CelSuite.Regex.Search
import CelSuite.Unicode.CaseMap
import CelSuite.Text.Quotes

/-! # Text matchers

A matcher is a test on error messages with a short description. There are three variants: the whole text,
its beginning, or a regular expression anywhere in it. Without regard to case the first two compare lower
case with lower case. -/

namespace CelSuite

/-- A test on text. -/
structure TextMatcher where
  describe : String
  matchesText : String → Bool

/-- How a pattern is compared with a message: the whole of it, its beginning, or a search. -/
inductive MatchVariant where
  | exact
  | beginning
  | regex
  deriving DecidableEq

/-- The name of a variant in documents. -/
def MatchVariant.name : MatchVariant → String
  | .exact => "exact"
  | .beginning => "prefix"
  | .regex => "regex"

/-- Every variant, in the order in which messages list them. -/
def MatchVariant.all : List MatchVariant := [.exact, .beginning, .regex]

/-- The variant of a name, if there is one. -/
def MatchVariant.ofName? (name : String) : Option MatchVariant :=
  all.find? (·.name == name)

/-- A pattern that is no regular expression. -/
structure PatternError where
  pattern : String
  deriving DecidableEq

namespace TextMatcher

/-- The text as a comparison sees it. -/
def folded (ignoreCase : Bool) (s : String) : String :=
  if ignoreCase then Text.lower s else s

/-- The whole text. -/
def exact (value : String) (ignoreCase : Bool) : TextMatcher :=
  { describe := "exact " ++ Text.quote value
    matchesText := fun text => folded ignoreCase text == folded ignoreCase value }

/-- The beginning of the text. -/
def beginning (value : String) (ignoreCase : Bool) : TextMatcher :=
  { describe := "prefix " ++ Text.quote value
    matchesText := fun text =>
      (folded ignoreCase value).toList.isPrefixOf (folded ignoreCase text).toList }

/-- A regular expression anywhere in the text. -/
def regex? (pattern : String) (ignoreCase : Bool) : Except PatternError TextMatcher :=
  match Regex.parse? ignoreCase pattern with
  | some p => .ok { describe := "regex " ++ Text.quote pattern, matchesText := p.matchesIn }
  | none => .error ⟨pattern⟩

/-- What reads a regular expression, with or without regard to case, and refuses what is none. -/
abbrev Engine := String → Bool → Except PatternError TextMatcher

/-- A matcher of a variant, with an engine for regular expressions. -/
def ofVariantBy (engine : Engine) (variant : MatchVariant) (pattern : String) (ignoreCase : Bool) :
    Except PatternError TextMatcher :=
  match variant with
  | .exact => .ok (exact pattern ignoreCase)
  | .beginning => .ok (beginning pattern ignoreCase)
  | .regex => engine pattern ignoreCase

/-- A matcher of a variant. -/
def ofVariant : MatchVariant → String → Bool → Except PatternError TextMatcher := ofVariantBy regex?

end TextMatcher

end CelSuite
