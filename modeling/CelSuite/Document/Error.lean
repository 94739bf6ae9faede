import CelSuite.Document.Basic
import CelSuite.Text.Units

/-! # Malformed documents

What a document is told when it does not have the expected form: what was expected, and what was
found. -/

namespace CelSuite

/-- What is wrong with a document, by cause. -/
inductive DocumentError where
  | notObject (what : String) (found : Document)
  | notArray (what : String) (found : Document)
  | entriesNotArray (found : Option Document)
  | notString (what : String) (found : Document)
  | notScalar (kind : String) (found : Document)
  | kindKeys (keys : List String)
  | missingField (what field : String)
  | wrapsNoScalar (field : String)
  | unknownTypeKind (known : List String) (found : Document)
  | badTypeIdent (name : String) (found : Document)
  | bothExpectations
  | noExpectation
  | badErrorText (found : Document)
  | unknownCategory (found : Document)
  | matcherKeys (variants keys : List String)
  | invalidPattern (pattern : String)
  | patternTooLong (length max : Nat)
  | badSetting (source : String) (options : List String) (found : String)
  | notMapping (what : String)
  | notText (what : String)
  | casesNotArray (fixture : String)
  | badQuote (case : String) (found : Document)
  | typeEnvNotArray (case : String)

/-- What an invalid pattern is told; the reason is left open. -/
def invalidPatternMessage (pattern : String) : String :=
  "invalid regex pattern \"" ++ pattern ++ "\": "

/-- Names in brackets, separated by commas. -/
def bracketed (names : List String) : String :=
  "[" ++ ", ".intercalate names ++ "]"

/-- The text of a document error. -/
def DocumentError.message : DocumentError → String
  | .notObject what found => what ++ " must be an object, got " ++ found.describe
  | .notArray what found => what ++ " must be an array, got " ++ found.describe
  | .entriesNotArray found =>
    "map_value group 'entries' must be an array, got " ++ (found.map Document.describe).getD "function"
  | .notString what found => what ++ " must be a string, got " ++ found.describe
  | .notScalar kind found => kind ++ " payload must be a scalar, got " ++ found.describe
  | .kindKeys keys =>
    "value must have exactly one kind key, got keys: " ++ bracketed (Text.sorted keys)
  | .missingField what field => what ++ " missing required field '" ++ field ++ "'"
  | .wrapsNoScalar field => "object field '" ++ field ++ "' must wrap a scalar value"
  | .unknownTypeKind known found =>
    "unknown type binding kind: " ++ found.describe ++ " (expected one of " ++
      ", ".intercalate known ++ ")"
  | .badTypeIdent name found =>
    "type binding '" ++ name ++ "' type must be a string or string array, got " ++ found.describe
  | .bothExpectations => "exactly one of 'value' or 'eval_error' must be set, got both"
  | .noExpectation => "one of 'value' or 'eval_error' is required"
  | .badErrorText found => "eval_error must be a string or null, got " ++ found.describe
  | .unknownCategory found => "unknown error category: " ++ found.describe
  | .matcherKeys variants keys =>
    "rule must contain exactly one of " ++ bracketed variants ++ ", got keys: " ++
      bracketed (Text.sorted keys)
  | .invalidPattern pattern => invalidPatternMessage pattern
  | .patternTooLong length max => s!"pattern length {length} exceeds maximum {max}"
  | .badSetting source options found =>
    source ++ " must be one of " ++ bracketed options ++ ", got " ++ Text.quote found
  | .notMapping what => what ++ " must be a mapping"
  | .notText what => what ++ " must be a string"
  | .casesNotArray fixture => "fixture '" ++ fixture ++ "' cases must be an array"
  | .badQuote case found =>
    "case '" ++ case ++ "' quote must be ' or \", got " ++ found.plainText
  | .typeEnvNotArray case => "case '" ++ case ++ "' type_env must be an array"

end CelSuite
