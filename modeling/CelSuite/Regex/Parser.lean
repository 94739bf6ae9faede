import CelSuite.Regex.Pattern
import CelSuite.Text.Characters

/-! # Reading patterns

Regular expressions without backreferences and without looking around: literals, classes, groups with
flags or names, choices and greedy or reluctant repetitions. The reader keeps the groups that are still
open on a stack. Every step takes at least one character, so as many steps as there are characters are
enough. -/

namespace CelSuite.Regex

/-- How letters, the dot and the line anchors are read. -/
structure Flags where
  ignoreCase : Bool
  dotAll : Bool
  multiline : Bool

/-- A group that is open: the flags to go back to, whether it captures, and what came before it. -/
structure Frame where
  flags : Flags
  captures : Bool
  branches : List Pattern
  items : List Pattern

/-- What has been read: the finished branches and the items of the current one, latest first, the open
    groups, the names in use, and whether the last item was a repetition. -/
structure Reader where
  flags : Flags
  branches : List Pattern
  items : List Pattern
  frames : List Frame
  names : List (List Char)
  repeated : Bool

namespace Reader

/-- Adds an item to the current branch. -/
def push (r : Reader) (p : Pattern) : Reader :=
  { r with items := p :: r.items, repeated := false }

/-- Adds a character that stands for itself. -/
def literal (r : Reader) (n : Nat) : Reader :=
  r.push (.one (CharSet.single r.flags.ignoreCase n))

/-- Adds a class of characters. -/
def classOf (r : Reader) (p : Part) : Reader :=
  r.push (.one ⟨[p], r.flags.ignoreCase, false⟩)

/-- What the current group has been so far. -/
def pattern (r : Reader) : Pattern :=
  .ofChoice (r.branches.reverse ++ [.ofSequence r.items.reverse])

/-- Opens a group whose content has the flags `inner`. -/
def openGroup (r : Reader) (captures : Bool) (inner : Flags) : Reader :=
  { r with
    flags := inner
    branches := []
    items := []
    frames := ⟨r.flags, captures, r.branches, r.items⟩ :: r.frames
    repeated := false }

/-- Closes the innermost open group. -/
def closeGroup (r : Reader) : Option Reader :=
  match r.frames with
  | [] => none
  | f :: fs =>
    let p := if f.captures then .group r.pattern else r.pattern
    some { r with
      flags := f.flags
      branches := f.branches
      items := p :: f.items
      frames := fs
      repeated := false }

/-- Applies a repetition to the last item. A repetition right after another one is not allowed. -/
def repetition (r : Reader) (f : Pattern → Pattern) : Option Reader :=
  match r.items with
  | [] => none
  | p :: ps => if r.repeated then none else some { r with items := f p :: ps, repeated := true }

end Reader

/-- Drops the mark of a reluctant repetition. -/
def dropReluctant : List Char → List Char
  | '?' :: cs => cs
  | cs => cs

/-- A count: digits without leading zeros. -/
def count? (cs : List Char) : Option (Nat × List Char) :=
  match cs.takeWhile Text.isDigit with
  | [] => none
  | '0' :: _ :: _ => none
  | ds => some (Text.ofDigits ds, cs.dropWhile Text.isDigit)

/-- The least and greatest count after an opening brace. -/
def counts? (cs : List Char) : Option (Nat × Option Nat × List Char) :=
  match count? cs with
  | none => none
  | some (min, '\x7d' :: cs) => some (min, some min, cs)
  | some (min, ',' :: '\x7d' :: cs) => some (min, none, cs)
  | some (min, ',' :: cs) =>
    match count? cs with
    | some (max, '\x7d' :: cs) => some (min, some max, cs)
    | _ => none
  | some _ => none

/-- The hexadecimal digits before a closing brace, at least one, and the rest. -/
def bracedHex? : (n : Nat) → (any : Bool) → List Char → Option (Nat × List Char)
  | n, any, '\x7d' :: cs => if any then some (n, cs) else none
  | n, _, c :: cs =>
    match Text.hexValue? c with
    | some d => if 16 * n + d ≤ 0x10FFFF then bracedHex? (16 * n + d) true cs else none
    | none => none
  | _, _, [] => none

def isAlnum (c : Char) : Bool :=
  ('a' ≤ c && c ≤ 'z') || ('A' ≤ c && c ≤ 'Z') || Text.isDigit c

/-- Up to `n` further octal digits. -/
def octalDigits : (n value : Nat) → List Char → Nat × List Char
  | n + 1, value, c :: cs =>
    match Text.octalValue? c with
    | some d => octalDigits n (8 * value + d) cs
    | none => (value, c :: cs)
  | _, value, cs => (value, cs)

/-- The character that the text after a backslash denotes, and the rest. -/
def escape? : List Char → Option (Nat × List Char)
  | [] => none
  | 'a' :: cs => some (7, cs)
  | 'f' :: cs => some (12, cs)
  | 'n' :: cs => some (10, cs)
  | 'r' :: cs => some (13, cs)
  | 't' :: cs => some (9, cs)
  | 'v' :: cs => some (11, cs)
  | 'x' :: '\x7b' :: cs => bracedHex? 0 false cs
  | 'x' :: a :: b :: cs =>
    match Text.hexValue? a, Text.hexValue? b with
    | some x, some y => some (16 * x + y, cs)
    | _, _ => none
  | '0' :: cs => some (octalDigits 2 0 cs)
  | c :: cs =>
    match Text.octalValue? c, cs with
    | some d, e :: _ => if (Text.octalValue? e).isSome then some (octalDigits 2 d cs) else none
    | some _, [] => none
    | none, _ => if isAlnum c then none else some (c.toNat, cs)

/-- The text before a mark and the text after it. -/
def splitAt? (mark : List Char) : List Char → Option (List Char × List Char)
  | [] => if mark = [] then some ([], []) else none
  | c :: cs =>
    if mark.isPrefixOf (c :: cs) then some ([], (c :: cs).drop mark.length)
    else (splitAt? mark cs).map fun (a, b) => (c :: a, b)

/-- A property class after `\p` or `\P`. -/
def property (negated : Bool) : List Char → Option (Part × List Char)
  | '\x7b' :: cs => do
    let (name, cs) ← splitAt? ['\x7d'] cs
    return (← propertyClass? negated name, cs)
  | c :: cs => do return (← propertyClass? negated [c], cs)
  | [] => none

/-- One character inside brackets. -/
def bracketChar? : List Char → Option (Nat × List Char)
  | '\\' :: cs => escape? cs
  | c :: cs => some (c.toNat, cs)
  | [] => none

/-- A character or a range inside brackets. -/
def bracketRange? (cs : List Char) : Option (Part × List Char) := do
  let (low, cs) ← bracketChar? cs
  match cs with
  | '-' :: c :: rest =>
    if c = ']' then return (⟨[(low, low)], false⟩, cs)
    else
      let (high, rest) ← bracketChar? (c :: rest)
      if high < low then none else return (⟨[(low, high)], false⟩, rest)
  | ['-'] => none
  | cs => return (⟨[(low, low)], false⟩, cs)

/-- One part inside brackets: a class, a property, a character or a range. -/
def bracketPart? (cs : List Char) : Option (Part × List Char) :=
  match cs with
  | '[' :: ':' :: rest =>
    -- The colon that opens a name may also be the one that closes it; the name is then no class.
    match splitAt? [':', ']'] (':' :: rest) with
    | some (name, rest) => (namedClass? (name.drop 1)).map (·, rest)
    | none => bracketRange? cs
  | '\\' :: 'p' :: rest => property false rest
  | '\\' :: 'P' :: rest => property true rest
  | '\\' :: c :: rest =>
    match letterClass? c with
    | some p => some (p, rest)
    | none => bracketRange? cs
  | cs => bracketRange? cs

/-- The parts up to the closing bracket, which stands for itself when it comes first. -/
def bracketParts? : (fuel : Nat) → (first : Bool) → List Char → Option (List Part × List Char)
  | 0, _, _ => none
  | n + 1, first, cs =>
    match cs, first with
    | ']' :: cs, false => some ([], cs)
    | cs, _ => do
      let (p, cs) ← bracketPart? cs
      let (ps, cs) ← bracketParts? n false cs
      return (p :: ps, cs)

/-- Flags after `(?`, up to a colon or a parenthesis. -/
def flags? (set seen : Bool) (f : Flags) : List Char → Option (Flags × Char × List Char)
  | 'i' :: cs => flags? set true { f with ignoreCase := set } cs
  | 'm' :: cs => flags? set true { f with multiline := set } cs
  | 's' :: cs => flags? set true { f with dotAll := set } cs
  | 'U' :: cs => flags? set true f cs
  | '-' :: cs => if set then flags? false false f cs else none
  | ':' :: cs => if set || seen then some (f, ':', cs) else none
  | ')' :: cs => if set || seen then some (f, ')', cs) else none
  | _ => none

/-- A named group whose name follows. -/
def namedGroup? (r : Reader) (cs : List Char) : Option (Reader × List Char) := do
  let (name, cs) ← splitAt? ['>'] cs
  if name ≠ [] ∧ name.all (fun c => isAlnum c || c == '_') ∧ ¬ r.names.contains name then
    return ({ r.openGroup true r.flags with names := name :: r.names }, cs)
  else none

/-- What follows an opening parenthesis. -/
def group? (r : Reader) : List Char → Option (Reader × List Char)
  | '?' :: 'P' :: '<' :: cs => namedGroup? r cs
  | '?' :: '<' :: cs => namedGroup? r cs
  | '?' :: cs => do
    let (f, mark, cs) ← flags? true false r.flags cs
    if mark = ':' then return (r.openGroup false f, cs)
    else return ({ r with flags := f, repeated := false }, cs)
  | cs => some (r.openGroup true r.flags, cs)

/-- What follows a backslash outside brackets. -/
def backslash? (r : Reader) : List Char → Option (Reader × List Char)
  | 'A' :: cs => some (r.push (.anchor .textStart), cs)
  | 'b' :: cs => some (r.push (.anchor .wordEdge), cs)
  | 'B' :: cs => some (r.push (.anchor .noWordEdge), cs)
  | 'z' :: cs => some (r.push (.anchor .textEnd), cs)
  | 'Q' :: cs =>
    let (quoted, cs) := (splitAt? ['\\', 'E'] cs).getD (cs, [])
    some (quoted.foldl (fun r c => r.literal c.toNat) { r with repeated := false }, cs)
  | 'p' :: cs => (property false cs).map fun (p, cs) => (r.classOf p, cs)
  | 'P' :: cs => (property true cs).map fun (p, cs) => (r.classOf p, cs)
  | c :: cs =>
    match letterClass? c with
    | some p => some (r.classOf p, cs)
    | none => (escape? (c :: cs)).map fun (n, cs) => (r.literal n, cs)
  | [] => none

/-- A counted repetition after an opening brace, or the brace itself when no counts follow. In either case
    no repetition may come next. -/
def braces? (r : Reader) (cs : List Char) : Option (Reader × List Char) :=
  match counts? cs with
  | none => some ({ r.literal 0x7B with repeated := true }, cs)
  | some (min, max, cs) => do
    if 1000 < min ∨ (max.any fun m => decide (1000 < m ∨ m < min)) then none
    else
      let r ← r.repetition (.counted · min max)
      match r.items with
      | p :: _ =>
        if (2 ≤ min ∨ max.any (2 ≤ ·)) ∧ ¬ p.countsWithin 1000 then none
        else return (r, dropReluctant cs)
      | [] => none

/-- One step: takes a character and what belongs to it. -/
def step? (r : Reader) (c : Char) (cs : List Char) : Option (Reader × List Char) :=
  match c with
  | '(' => group? r cs
  | ')' => r.closeGroup.map (·, cs)
  | '|' =>
    some ({ r with
      branches := .ofSequence r.items.reverse :: r.branches, items := [], repeated := false }, cs)
  | '^' => some (r.push (.anchor (if r.flags.multiline then .lineStart else .textStart)), cs)
  | '$' => some (r.push (.anchor (if r.flags.multiline then .lineEnd else .textEnd)), cs)
  | '.' => some (r.push (.one (CharSet.any r.flags.dotAll)), cs)
  | '[' => do
    let (negated, cs) := match cs with
      | '^' :: cs => (true, cs)
      | cs => (false, cs)
    let (ps, cs) ← bracketParts? (cs.length + 1) true cs
    return (r.push (.one ⟨ps, r.flags.ignoreCase, negated⟩), cs)
  | '*' => (r.repetition (.many · false)).map (·, dropReluctant cs)
  | '+' => (r.repetition (.many · true)).map (·, dropReluctant cs)
  | '?' => (r.repetition .optional).map (·, dropReluctant cs)
  | '\x7b' => braces? r cs
  | '\\' => backslash? r cs
  | c => some (r.literal c.toNat, cs)

/-- Reads to the end in at most `n` steps. -/
def readAll : (n : Nat) → Reader → List Char → Option Reader
  | _, r, [] => some r
  | 0, _, _ :: _ => none
  | n + 1, r, c :: cs => do
    let (r, cs) ← step? r c cs
    readAll n r cs

/-- The greatest height of a pattern. -/
def maxHeight : Nat := 1000

/-- The pattern that a text writes, if it writes one. -/
def parse? (ignoreCase : Bool) (text : String) : Option Pattern := do
  let cs := text.toList
  let r ← readAll cs.length ⟨⟨ignoreCase, false, false⟩, [], [], [], [], false⟩ cs
  if r.frames.isEmpty && r.pattern.height ≤ maxHeight then return r.pattern else none

end CelSuite.Regex
