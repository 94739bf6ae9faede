import CelSuite.Unicode.Category
import CelSuite.Unicode.Folding
import CelSuite.Unicode.Script

/-! # Sets of characters

What one place of a pattern may hold: a union of ranges and of complements of ranges, and possibly the
complement of that. Without regard to case a character belongs to ranges when one that differs from it
in case alone does. -/

namespace CelSuite.Regex

open Unicode (Ranges)

/-- Ranges, or all that is outside of them. -/
structure Part where
  ranges : Ranges
  negated : Bool

structure CharSet where
  parts : List Part
  ignoreCase : Bool
  negated : Bool

/-- Whether a character belongs to a part; `forms` are the characters it counts as. -/
def Part.holds (p : Part) (forms : List Nat) : Bool :=
  forms.any p.ranges.contains != p.negated

/-- A character of a text: its code point, and those that it counts as without regard to case. -/
structure Letter where
  point : Nat
  orbit : List Nat

def Letter.ofChar (c : Char) : Letter := ⟨c.toNat, Unicode.orbit c.toNat⟩

def CharSet.holds (s : CharSet) (c : Letter) : Bool :=
  s.parts.any (·.holds (if s.ignoreCase then c.orbit else [c.point])) != s.negated

/-- The set of one character. -/
def CharSet.single (ignoreCase : Bool) (n : Nat) : CharSet :=
  ⟨[⟨[(n, n)], false⟩], ignoreCase, false⟩

/-- Every character, or every one but the line feed. -/
def CharSet.any (lineFeed : Bool) : CharSet :=
  ⟨if lineFeed then [] else [⟨[(10, 10)], false⟩], false, true⟩

def digits : Ranges := [(0x30, 0x39)]

def spaces : Ranges := [(9, 10), (12, 13), (0x20, 0x20)]

def words : Ranges := [(0x30, 0x39), (0x41, 0x5A), (0x5F, 0x5F), (0x61, 0x7A)]

/-- The classes of one letter after a backslash; a capital is the complement. -/
def letterClass? : Char → Option Part
  | 'd' => some ⟨digits, false⟩
  | 'D' => some ⟨digits, true⟩
  | 's' => some ⟨spaces, false⟩
  | 'S' => some ⟨spaces, true⟩
  | 'w' => some ⟨words, false⟩
  | 'W' => some ⟨words, true⟩
  | _ => none

/-- The classes between `[:` and `:]`. -/
def namedClasses : List (String × Ranges) :=
  [("alnum", [(0x30, 0x39), (0x41, 0x5A), (0x61, 0x7A)]), ("alpha", [(0x41, 0x5A), (0x61, 0x7A)]),
    ("ascii", [(0, 0x7F)]), ("blank", [(9, 9), (0x20, 0x20)]), ("cntrl", [(0, 0x1F), (0x7F, 0x7F)]),
    ("digit", digits), ("graph", [(0x21, 0x7E)]), ("lower", [(0x61, 0x7A)]),
    ("print", [(0x20, 0x7E)]), ("punct", [(0x21, 0x2F), (0x3A, 0x40), (0x5B, 0x60), (0x7B, 0x7E)]),
    ("space", [(9, 13), (0x20, 0x20)]), ("upper", [(0x41, 0x5A)]), ("word", words),
    ("xdigit", [(0x30, 0x39), (0x41, 0x46), (0x61, 0x66)])]

/-- A class between `[:` and `:]`; a caret before the name makes the complement. -/
def namedClass? (name : List Char) : Option Part :=
  let (negated, name) := match name with
    | '^' :: name => (true, name)
    | name => (false, name)
  (namedClasses.lookup (String.ofList name)).map (⟨·, negated⟩)

/-- The code points of a general category, of a class of categories by its one letter, of a script, or of
    all characters. -/
def property? (name : String) : Option Ranges :=
  if name = "Any" then some [(0, 0x10FFFF)]
  else
    match Unicode.categoryTexts.filter (fun e => e.1 == name || String.ofList (e.1.toList.take 1) == name) with
    | [] => (Unicode.scriptTexts.lookup name).map Ranges.ofText
    | found => some (found.flatMap fun e => Ranges.ofText e.2)

/-- A property by its name; a caret before it makes the complement once more. -/
def propertyClass? (negated : Bool) (name : List Char) : Option Part :=
  let (negated, name) := match name with
    | '^' :: name => (!negated, name)
    | name => (negated, name)
  (property? (String.ofList name)).map (⟨·, negated⟩)

end CelSuite.Regex
