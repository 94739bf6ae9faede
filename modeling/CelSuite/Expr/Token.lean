import CelSuite.Exception
import CelSuite.Text.BytesLiteral
import CelSuite.Text.Quotes

/-! # Tokens

The words of an expression. A token keeps its text and its position in units; the text of an unsigned
integer has no suffix, that of a string or bytes literal is its body as written. The last token of every
expression marks its end. -/

namespace CelSuite

/-- The classes of words. -/
inductive TokenKind where
  | int
  | uint
  | double
  | string
  | bytes
  | ident
  | op
  | eof
  deriving DecidableEq

/-- A word of an expression. -/
structure Token where
  kind : TokenKind
  text : String
  pos : Nat
  deriving DecidableEq

/-- Whether a token is a given operator. -/
def Token.isOp (t : Token) (text : String) : Bool :=
  t.kind == .op && t.text == text

/-- Why a text is not an expression, or an exception that went on while it was read. -/
inductive SyntaxError where
  | unsignedDouble (pos : Nat)
  | unexpectedChar (pos : Nat) (c : Char)
  | unterminated (pos : Nat)
  | unexpected (t : Token)
  | trailing (t : Token)
  | expected (text : String) (t : Token)
  | expectedIdentifier (t : Token)
  | outOfRange (pos : Nat) (x : Exception)
  | invalidEscape (c : Option Char)
  | invalidBytes (e : Text.BytesDefect)
  | empty
  | exception (x : Exception)
  deriving DecidableEq

/-- A code point out of range, which nothing catches. -/
@[match_pattern]
abbrev SyntaxError.invalidCodePoint (n : Nat) : SyntaxError := .exception (.invalidCodePoint n)

/-- The text of a syntax error; positions count units from zero. -/
def SyntaxError.message : SyntaxError → String
  | .unsignedDouble pos => s!"syntax error at {pos}: unsigned suffix on a double literal"
  | .unexpectedChar pos c => s!"syntax error at {pos}: unexpected character " ++ Text.quoteFirstUnit c
  | .unterminated pos => s!"syntax error at {pos}: unterminated string literal"
  | .unexpected t =>
    s!"syntax error at {t.pos}: unexpected " ++
      if t.kind = .eof then "end of input" else Text.quote t.text
  | .trailing t => s!"syntax error at {t.pos}: unexpected " ++ Text.quote t.text
  | .expected text t =>
    s!"syntax error at {t.pos}: expected " ++ Text.quote text ++ ", got " ++ Text.quote t.text
  | .expectedIdentifier t =>
    s!"syntax error at {t.pos}: expected identifier, got " ++ Text.quote t.text
  | .outOfRange pos x => s!"syntax error at {pos}: " ++ x.message
  | .invalidEscape c =>
    "syntax error: invalid escape \\" ++ (c.map Text.firstUnitText).getD ""
  | .invalidBytes e => "syntax error: invalid bytes_value payload: " ++ e.message
  | .empty => "syntax error: empty expression"
  | .exception x => x.message

end CelSuite
