import CelSuite.Document.Basic
import CelSuite.Text.Units

/-! # Reading position

Where the reading of a YAML text stands: the characters that are left, and what of the current line
matters for the block structure, namely its indentation, the column, and whether a tab has been seen in
its blanks. Reading is a computation on this state that may find the text malformed. -/

namespace CelSuite.Yaml

/-- Where reading stands, with the anchors set and the tag handles declared so far. -/
structure State where
  rest : List Char
  last : Option Char
  line : Nat
  column : Nat
  indent : Nat
  tab : Bool
  anchors : List (String × Document)
  handles : List (String × String)

/-- A step of reading; `none` when the text is malformed. -/
abbrev Read := StateT State Option

/-- The text is malformed. -/
def malformed {α : Type} : Read α := fun _ => none

def isBlank (c : Char) : Bool := c == ' ' || c == '\t'

def isBreak (c : Char) : Bool := c == '\n' || c == '\r'

/-- Whether a character, if there is one, is a blank or a line break. -/
def isSpace (c : Option Char) : Bool := c.any fun c => isBlank c || isBreak c

/-- Whether a character, if there is one, has a meaning of its own in flow collections. -/
def isFlowMark (c : Option Char) : Bool :=
  c.any fun c => c == ',' || c == '[' || c == ']' || c == '\x7b' || c == '\x7d'

/-- The next character. -/
def peek : Read (Option Char) := do return (← get).rest.head?

/-- The character after the next one. -/
def peekSecond : Read (Option Char) := do return ((← get).rest.drop 1).head?

/-- Takes a character that is no line break. -/
def advance : Read Unit :=
  modify fun s =>
    match s.rest with
    | [] => s
    | c :: cs => { s with rest := cs, last := some c, column := s.column + Text.unitWidth c }

/-- Takes several characters, none of them a line break. -/
def advanceBy : Nat → Read Unit
  | 0 => pure ()
  | n + 1 => do advance; advanceBy n

/-- Takes characters while a test holds. -/
def takeWhile (test : Char → Bool) : Read (List Char) := do
  let cs := (← get).rest.takeWhile test
  advanceBy cs.length
  return cs

/-- Takes a line break. -/
def lineBreak : Read Unit := do
  let s ← get
  let next (cs : List Char) : State :=
    { s with rest := cs, last := some '\n', line := s.line + 1, column := 0, tab := false }
  match s.rest with
  | '\r' :: '\n' :: cs => set (next cs)
  | '\r' :: cs => set (next cs)
  | '\n' :: cs => set (next cs)
  | _ => malformed

/-- Takes the blanks at the start of a line as its indentation. -/
def takeIndent : Read Unit := do
  let blanks ← takeWhile (· == ' ')
  modify fun s => { s with indent := blanks.length }

/-- Skips blanks, noting a tab among them, and a comment if comments are allowed. -/
def skipBlanks (comments : Bool) : Read Unit := do
  let blanks ← takeWhile isBlank
  if blanks.contains '\t' then modify fun s => { s with tab := true }
  if comments && (← peek) == some '#' then
    let _ ← takeWhile fun c => !isBreak c

/-- Skips blanks, comments if allowed, and line breaks, at most `n` lines; counts the line breaks. -/
def skipLines (comments : Bool) : Nat → Read Nat
  | 0 => malformed
  | n + 1 => do
    skipBlanks comments
    if (← peek).any isBreak then
      lineBreak
      takeIndent
      return (← skipLines comments n) + 1
    else return 0

/-- Skips blanks, comments if allowed, and line breaks; counts the line breaks. -/
def skipSpace (comments : Bool) : Read Nat := do
  skipLines comments ((← get).rest.length + 1)

/-- Whether a line that begins here is a mark between documents. -/
def atDocumentMark : Read Bool := do
  let s ← get
  if s.column ≠ 0 then return false
  match s.rest with
  | '-' :: '-' :: '-' :: cs | '.' :: '.' :: '.' :: cs => return cs = [] || isSpace cs.head?
  | _ => return false

end CelSuite.Yaml
