import CelSuite.Regex.Pattern

/-! # Searching

Whether a pattern matches somewhere in a text. The places of the text, from before the first character to
after the last, are the bits of a number. A pattern maps the set of places where it may begin to the set
of places where it may end; it matches if some place is an end when every place is a beginning. The
parts of a pattern that ask about characters are looked up in the text beforehand. -/

namespace CelSuite.Regex

/-- A set of places. -/
abbrev Places := Nat

/-- A pattern made ready for one text: the places before a character that fits, and the places at which a
    condition holds. -/
inductive Plan where
  | one (before : Places)
  | here (places : Places)
  | sequence (ps : List Plan)
  | choice (ps : List Plan)
  | many (p : Plan) (atLeastOne : Bool)
  | optional (p : Plan)
  | counted (p : Plan) (min : Nat) (max : Option Nat)

/-- The places, counted from the first, at which a test holds. -/
def placesFrom {α : Type} (test : α → Bool) : List α → Places
  | [] => 0
  | a :: as => 2 * placesFrom test as + (if test a then 1 else 0)

/-- The distinct characters of a text, each with the places before it. -/
abbrev Alphabet := List (Letter × Places)

def Alphabet.ofText (text : List Char) : Alphabet :=
  text.eraseDups.map fun c => (Letter.ofChar c, placesFrom (· == c) text)

/-- The places before a character of a set. -/
def Alphabet.places (a : Alphabet) (s : CharSet) : Places :=
  a.foldl (fun found e => if s.holds e.1 then found ||| e.2 else found) 0

def isWord (c : Char) : Bool :=
  Unicode.Ranges.contains words c.toNat

/-- The neighbours of every place of a text: the character before it and the one after it. -/
def neighbours (last : Option Char) : List Char → List (Option Char × Option Char)
  | [] => [(last, none)]
  | c :: cs => (last, some c) :: neighbours (some c) cs

/-- Whether a condition holds between two neighbours. -/
def Anchor.holds (a : Anchor) (n : Option Char × Option Char) : Bool :=
  match a with
  | .textStart => n.1.isNone
  | .textEnd => n.2.isNone
  | .lineStart => n.1.all (· == '\n')
  | .lineEnd => n.2.all (· == '\n')
  | .wordEdge => n.1.any isWord != n.2.any isWord
  | .noWordEdge => n.1.any isWord == n.2.any isWord

mutual

/-- A pattern made ready for a text with a certain alphabet. -/
def Pattern.plan (text : List Char) (alphabet : Alphabet) : Pattern → Plan
  | .one s => .one (alphabet.places s)
  | .anchor a => .here (placesFrom a.holds (neighbours none text))
  | .sequence ps => .sequence (plans text alphabet ps)
  | .choice ps => .choice (plans text alphabet ps)
  | .group p => p.plan text alphabet
  | .many p atLeastOne => .many (p.plan text alphabet) atLeastOne
  | .optional p => .optional (p.plan text alphabet)
  | .counted p min max => .counted (p.plan text alphabet) min max

def plans (text : List Char) (alphabet : Alphabet) : List Pattern → List Plan
  | [] => []
  | p :: ps => p.plan text alphabet :: plans text alphabet ps

end

/-- Adds what a step reaches until nothing new is reached, at most `n` times. -/
def closure (step : Places → Places) : Nat → Places → Places
  | 0, s => s
  | n + 1, s =>
    let t := s ||| step s
    if t = s then s else closure step n t

/-- Takes a step `n` times. -/
def iterate (step : Places → Places) : Nat → Places → Places
  | 0, s => s
  | n + 1, s => iterate step n (step s)

mutual

/-- The ends of a plan that may begin at any of the places `s` of a text of `size` places. -/
def Plan.ends (size : Nat) (s : Places) : Plan → Places
  | .one before => 2 * (s &&& before)
  | .here places => s &&& places
  | .sequence ps => sequenceEnds size s ps
  | .choice ps => choiceEnds size s ps
  | .many p atLeastOne =>
    closure (fun s => p.ends size s) size (if atLeastOne then p.ends size s else s)
  | .optional p => s ||| p.ends size s
  | .counted p min max =>
    let s := iterate (fun s => p.ends size s) min s
    match max with
    | none => closure (fun s => p.ends size s) size s
    | some max => iterate (fun t => t ||| p.ends size t) (max - min) s

def sequenceEnds (size : Nat) (s : Places) : List Plan → Places
  | [] => s
  | p :: ps => sequenceEnds size (p.ends size s) ps

def choiceEnds (size : Nat) (s : Places) : List Plan → Places
  | [] => 0
  | p :: ps => p.ends size s ||| choiceEnds size s ps

end

/-- Whether a pattern matches somewhere in a text. -/
def Pattern.matchesIn (p : Pattern) (text : String) : Bool :=
  let cs := text.toList
  let size := cs.length + 1
  (p.plan cs (Alphabet.ofText cs)).ends size ((1 <<< size) - 1) != 0

end CelSuite.Regex
