import CelSuite.Expr.Token
import CelSuite.Text.Characters

/-! # The lexer

Splits a text into tokens. A lexeme is the longest number or identifier, a literal up to its closing
quote, or the first operator of the list that fits; blanks separate lexemes and carry no meaning. Each
lexeme is a nonempty piece of the text, so the lexer comes to an end. -/

namespace CelSuite.Lexer

/-- A token at the start of a text: its kind, its text, and the characters it takes up. -/
structure Lexeme where
  kind : TokenKind
  text : List Char
  spelling : List Char

/-- The body of a literal up to its closing quote. A backslash takes the character after it along. -/
def quotedBody? (quote : Char) : List Char → Option (List Char)
  | '\\' :: c :: cs => (quotedBody? quote cs).map fun body => '\\' :: c :: body
  | ['\\'] => none
  | c :: cs => if c = quote then some [] else (quotedBody? quote cs).map (c :: ·)
  | [] => none

def isQuote (c : Char) : Bool :=
  c == '"' || c == '\x27'

/-- Digits after a point, with the point, if there are any. -/
def fractionPart : List Char → List Char
  | '.' :: cs => if cs.takeWhile Text.isDigit = [] then [] else '.' :: cs.takeWhile Text.isDigit
  | _ => []

/-- An exponent: its letter, an optional sign, and digits, if there are any. -/
def exponentPart : List Char → List Char
  | c :: cs =>
    if c = 'e' ∨ c = 'E' then
      match cs with
      | s :: ds =>
        if s = '+' ∨ s = '-' then
          if ds.takeWhile Text.isDigit = [] then [] else c :: s :: ds.takeWhile Text.isDigit
        else if cs.takeWhile Text.isDigit = [] then [] else c :: cs.takeWhile Text.isDigit
      | [] => []
    else []
  | [] => []

/-- A suffix for an unsigned integer, if there is one. -/
def suffixPart : List Char → List Char
  | c :: _ => if c = 'u' ∨ c = 'U' then [c] else []
  | [] => []

/-- A number at the start of a text that begins with a digit. -/
def number (pos : Nat) (cs : List Char) : Except SyntaxError Lexeme :=
  let whole := cs.takeWhile Text.isDigit
  let rest := cs.dropWhile Text.isDigit
  let fraction := fractionPart rest
  let rest := rest.drop fraction.length
  let exponent := exponentPart rest
  let rest := rest.drop exponent.length
  let suffix := suffixPart rest
  let body := whole ++ fraction ++ exponent
  if fraction = [] ∧ exponent = [] then
    .ok ⟨if suffix = [] then .int else .uint, body, body ++ suffix⟩
  else if suffix = [] then .ok ⟨.double, body, body⟩
  else .error (.unsignedDouble pos)

def isIdentStart (c : Char) : Bool :=
  ('a' ≤ c && c ≤ 'z') || ('A' ≤ c && c ≤ 'Z') || c == '_'

def isIdentChar (c : Char) : Bool :=
  isIdentStart c || Text.isDigit c

/-- The operators; the first that fits is taken, so those of two characters come first. -/
def operators : List (List Char) :=
  [['&', '&'], ['|', '|'], ['=', '='], ['!', '='], ['<', '='], ['>', '='], ['('], [')'], ['['], [']'],
    ['\x7b'], ['\x7d'], [','], [':'], ['.'], ['?'], ['!'], ['-'], ['+'], ['*'], ['/'], ['%'], ['<'], ['>']]

/-- A literal with its quote at the start of the text. -/
def quoted (kind : TokenKind) (mark : List Char) (pos : Nat) (quote : Char) (cs : List Char) :
    Except SyntaxError Lexeme :=
  match quotedBody? quote cs with
  | some body => .ok ⟨kind, body, mark ++ quote :: (body ++ [quote])⟩
  | none => .error (.unterminated (pos + mark.length))

/-- An operator at the start of the text. -/
def operator (pos : Nat) (c : Char) (cs : List Char) : Except SyntaxError Lexeme :=
  match operators.find? (·.isPrefixOf (c :: cs)) with
  | some op => .ok ⟨.op, op, op⟩
  | none => .error (.unexpectedChar pos c)

/-- The lexeme at the start of a text whose first character is `c`, not a blank. -/
def lexeme (pos : Nat) (c : Char) (cs : List Char) : Except SyntaxError Lexeme :=
  match cs with
  | q :: cs' =>
    if (c = 'b' ∨ c = 'B') ∧ isQuote q then quoted .bytes [c] pos q cs'
    else plain
  | [] => plain
where
  plain : Except SyntaxError Lexeme :=
    if isQuote c then quoted .string [] pos c cs
    else if Text.isDigit c then number pos (c :: cs)
    else if isIdentStart c then
      .ok ⟨.ident, c :: cs.takeWhile isIdentChar, c :: cs.takeWhile isIdentChar⟩
    else operator pos c cs

/-- The tokens of a text that begins at a position, with the mark of its end. -/
def tokens (pos : Nat) (cs : List Char) : Except SyntaxError (List Token) :=
  match cs with
  | [] => .ok [⟨.eof, "", pos⟩]
  | c :: cs =>
    if Text.isBlank c then tokens (pos + Text.unitWidth c) cs
    else
      match lexeme pos c cs with
      | .error e => .error e
      | .ok l =>
        (tokens (pos + Text.unitLength l.spelling) (cs.drop (l.spelling.length - 1))).map
          (⟨l.kind, String.ofList l.text, pos⟩ :: ·)
termination_by cs.length
decreasing_by
  · simp
  · simp only [List.length_drop, List.length_cons]; omega

/-- The tokens of a text. -/
def tokenize (s : String) : Except SyntaxError (List Token) :=
  tokens 0 s.toList

end CelSuite.Lexer
