import CelSuite.Regex.CharSet

/-! # Patterns

The syntax trees of regular expressions, with two measures that limit them: the height of the tree and
how far counted repetitions multiply. -/

namespace CelSuite.Regex

/-- A condition on a place between characters. -/
inductive Anchor where
  | textStart
  | textEnd
  | lineStart
  | lineEnd
  | wordEdge
  | noWordEdge
  deriving DecidableEq

/-- What a text has to contain. A repetition without a greatest count has no limit. -/
inductive Pattern where
  | one (s : CharSet)
  | anchor (a : Anchor)
  | sequence (ps : List Pattern)
  | choice (ps : List Pattern)
  | group (p : Pattern)
  | many (p : Pattern) (atLeastOne : Bool)
  | optional (p : Pattern)
  | counted (p : Pattern) (min : Nat) (max : Option Nat)

namespace Pattern

/-- A sequence; one pattern alone stands for itself. -/
def ofSequence : List Pattern → Pattern
  | [p] => p
  | ps => .sequence ps

/-- A choice; one pattern alone stands for itself. -/
def ofChoice : List Pattern → Pattern
  | [p] => p
  | ps => .choice ps

mutual

/-- The height of a pattern's tree. -/
def height : Pattern → Nat
  | .one _ | .anchor _ => 1
  | .sequence ps | .choice ps => 1 + heights ps
  | .group p | .many p _ | .optional p | .counted p _ _ => 1 + height p

/-- The height of the highest of some patterns. -/
def heights : List Pattern → Nat
  | [] => 0
  | p :: ps => max (height p) (heights ps)

end

mutual

/-- Whether counted repetitions inside one another multiply to at most `limit`. -/
def countsWithin (limit : Nat) : Pattern → Bool
  | .one _ | .anchor _ => true
  | .sequence ps | .choice ps => allCountWithin limit ps
  | .group p | .many p _ | .optional p => countsWithin limit p
  | .counted p min max =>
    let m := max.getD min
    if max = some 0 then true
    else if limit < m then false
    else countsWithin (if m = 0 then limit else limit / m) p

/-- Whether the counted repetitions in each of some patterns multiply to at most `limit`. -/
def allCountWithin (limit : Nat) : List Pattern → Bool
  | [] => true
  | p :: ps => countsWithin limit p && allCountWithin limit ps

end

end Pattern

end CelSuite.Regex
