import CelSuite.Text.Characters
import CelSuite.Yaml.Cursor

/-! # Scalars

Plain, quoted and block scalars. A single line break inside a plain or quoted scalar is a blank, several
are one fewer; a literal block keeps its lines and a folded one joins those that are not indented
further. -/

namespace CelSuite.Yaml

/-- What line breaks inside a flow scalar become. -/
def folded : Nat → List Char
  | 0 => []
  | 1 => [' ']
  | n + 2 => List.replicate (n + 1) '\n'

/-- Whether a character may stand in a text. -/
def isPrintable (c : Char) : Bool :=
  let n := c.toNat
  !(n ≤ 8 || n == 0xB || n == 0xC || (0xE ≤ n && n ≤ 0x1F) || (0x7F ≤ n && n ≤ 0x84) ||
    (0x86 ≤ n && n ≤ 0x9F) || n == 0xFFFE || n == 0xFFFF)

/-- Characters that begin something other than a plain scalar. -/
def isIndicator (c : Char) : Bool :=
  ['#', '&', '*', '!', '|', '>', '\x27', '"', '%', '@', '\x60'].contains c

/-- The rest of a plain scalar. `done` is what has been read, `blanks` the blanks after it, `breaks` the
    line breaks since, all latest first. -/
def plainRest (indent : Int) (inFlow : Bool) : (fuel : Nat) → (done blanks : List Char) →
    (breaks : Nat) → Read (List Char)
  | 0, _, _, _ => malformed
  | n + 1, done, blanks, breaks => do
    let s ← get
    match s.rest with
    | [] => return done.reverse
    | c :: cs =>
      let ends :=
        if c == ':' then isSpace cs.head? || (inFlow && isFlowMark cs.head?)
        else if c == '#' then isSpace s.last
        else inFlow && isFlowMark (some c)
      if ends || (← atDocumentMark) then return done.reverse
      if isBreak c then
        let breaks ← skipSpace false
        if indent ≤ (← get).indent then plainRest indent inFlow n done [] breaks
        else
          set { s with rest := blanks.reverse ++ s.rest, column := s.column - blanks.length }
          return done.reverse
      else
        advance
        let done := if breaks = 0 then done else (folded breaks).reverse ++ done
        if isBlank c then plainRest indent inFlow n done (c :: blanks) 0
        else plainRest indent inFlow n (c :: (blanks ++ done)) [] 0

/-- A plain scalar, if one begins here. -/
def plain? (indent : Int) (inFlow : Bool) : Read (Option String) := do
  let s ← get
  match s.rest with
  | [] => return none
  | c :: cs =>
    let starts := !(isSpace (some c) || isFlowMark (some c) || isIndicator c) &&
      !((c == '?' || c == '-') && (isSpace cs.head? || (inFlow && isFlowMark cs.head?)))
    if !starts then return none
    let text ← plainRest indent inFlow (s.rest.length + 1) [] [] 0
    if text = [] then return none
    if text.all isPrintable then return some (String.ofList text) else malformed

/-- Whether a character may stand between quotes. -/
def isQuotable (c : Char) : Bool := c == '\t' || 0x20 ≤ c.toNat

/-- Line breaks inside quotes. -/
def quotedBreaks : Read (List Char) := do return folded (← skipSpace false)

/-- Drops blanks from the front of what has been read, down to a length that has to stay. -/
def dropBlanks (keep : Nat) (done : List Char) : List Char :=
  ((done.take (done.length - keep)).dropWhile isBlank) ++ done.drop (done.length - keep)

/-- The rest of a single-quoted scalar; `done` is latest first. -/
def singleRest : (fuel : Nat) → (done : List Char) → Read (List Char)
  | 0, _ => malformed
  | n + 1, done => do
    match (← get).rest with
    | '\x27' :: '\x27' :: _ => advanceBy 2; singleRest n ('\x27' :: done)
    | '\x27' :: _ => advance; return done.reverse
    | c :: _ =>
      if isBreak c then singleRest n ((← quotedBreaks).reverse ++ done.dropWhile isBlank)
      else if ← atDocumentMark then malformed
      else if isQuotable c then advance; singleRest n (c :: done)
      else malformed
    | [] => malformed

/-- The characters of the escapes of one letter. -/
def simpleEscape? : Char → Option Char
  | '0' => some '\x00'
  | 'a' => some '\x07'
  | 'b' => some '\x08'
  | 't' => some '\t'
  | '\t' => some '\t'
  | 'n' => some '\n'
  | 'v' => some '\x0b'
  | 'f' => some '\x0c'
  | 'r' => some '\r'
  | 'e' => some '\x1b'
  | ' ' => some ' '
  | '"' => some '"'
  | '/' => some '/'
  | '\\' => some '\\'
  | 'N' => some '\u0085'
  | '_' => some '\u00a0'
  | 'L' => some '\u2028'
  | 'P' => some '\u2029'
  | _ => none

/-- How many hexadecimal digits follow an escape. -/
def escapeDigits? : Char → Option Nat
  | 'x' => some 2
  | 'u' => some 4
  | 'U' => some 8
  | _ => none

/-- A code point in exactly `n` hexadecimal digits. -/
def hexPoint (n : Nat) : Read Nat := do
  let digits := (← get).rest.take n
  if digits.length = n ∧ digits.all (fun d => (Text.hexValue? d).isSome) then
    advanceBy n
    return Text.ofHexDigits digits
  else malformed

/-- The character of a code point; the halves of a pair, of which the second is another escape, make one
    character. -/
def pointChar (n : Nat) : Read Char := do
  match (← get).rest with
  | '\\' :: 'u' :: _ =>
    if 0xD800 ≤ n ∧ n < 0xDC00 then
      let s ← get
      advanceBy 2
      let low ← hexPoint 4
      if 0xDC00 ≤ low ∧ low < 0xE000 then
        return Char.ofNat (0x10000 + (n - 0xD800) * 0x400 + (low - 0xDC00))
      else
        set s
        return '\uFFFD'
    else return single n
  | _ => return single n
where
  single (n : Nat) : Char :=
    if (0xD800 ≤ n ∧ n < 0xE000) ∨ 0x10FFFF < n then '\uFFFD' else Char.ofNat n

/-- The rest of a double-quoted scalar; `done` is latest first, and its oldest `keep` characters are not
    blanks to be dropped at a line break. -/
def doubleRest : (fuel : Nat) → (done : List Char) → (keep : Nat) → Read (List Char)
  | 0, _, _ => malformed
  | n + 1, done, keep => do
    match (← get).rest with
    | '"' :: _ => advance; return done.reverse
    | '\\' :: c :: _ =>
      advance
      if isBreak c then
        let _ ← skipSpace false
        doubleRest n done done.length
      else
        advance
        match simpleEscape? c, escapeDigits? c with
        | some e, _ => doubleRest n (e :: done) (done.length + 1)
        | none, some w => do
          let e ← pointChar (← hexPoint w)
          doubleRest n (e :: done) (done.length + 1)
        | none, none => malformed
    | c :: _ =>
      if isBreak c then
        let breaks ← quotedBreaks
        let done := breaks.reverse ++ dropBlanks keep done
        doubleRest n done done.length
      else if ← atDocumentMark then malformed
      else if isQuotable c then advance; doubleRest n (c :: done) keep
      else malformed
    | [] => malformed

/-- A quoted scalar, if one begins here. -/
def quoted? : Read (Option String) := do
  let cs := (← get).rest
  match cs with
  | '\x27' :: _ => advance; return some (String.ofList (← singleRest (cs.length + 1) []))
  | '"' :: _ => advance; return some (String.ofList (← doubleRest (cs.length + 1) [] 0))
  | _ => return none

/-- What becomes of the line breaks at the end of a block scalar. -/
inductive Chomping where
  | clip
  | strip
  | keep
  deriving DecidableEq

/-- The header of a block scalar: how its end is treated, and the width of its indentation. -/
structure Header where
  chomping : Chomping
  width : Option Nat

/-- The indicators of a block scalar's header, each at most once. -/
def header : (fuel : Nat) → Header → Read Header
  | 0, _ => malformed
  | n + 1, h => do
    match ← peek with
    | some '+' =>
      if h.chomping = .clip then advance; header n { h with chomping := .keep } else malformed
    | some '-' =>
      if h.chomping = .clip then advance; header n { h with chomping := .strip } else malformed
    | some c =>
      if Text.isDigit c then
        if c = '0' ∨ h.width.isSome then malformed
        else advance; header n { h with width := some (Text.digitValue c) }
      else return h
    | none => return h

/-- What has been read of a block scalar: its text, latest first, the indentation if it is known, the
    empty lines since the last content, and whether that was indented further. -/
structure Block where
  done : List Char
  indent : Nat
  known : Bool
  content : Bool
  empty : Nat
  further : Bool

/-- The line breaks before a line of content. -/
def Block.breaks (b : Block) (folding : Bool) (c : Char) : List Char × Bool :=
  let all := List.replicate (if b.content then b.empty + 1 else b.empty) '\n'
  if !folding then (all, false)
  else if isBlank c then (all, true)
  else if b.further then (List.replicate (b.empty + 1) '\n', false)
  else if b.empty = 0 then (if b.content then [' '] else [], false)
  else (List.replicate b.empty '\n', false)

/-- The end of a block scalar. -/
def Block.finish (b : Block) (chomping : Chomping) : List Char :=
  let tail := match chomping with
    | .keep => List.replicate (if b.content then b.empty + 1 else b.empty) '\n'
    | .clip => if b.content then ['\n'] else []
    | .strip => []
  b.done.reverse ++ tail

/-- The lines of a block scalar. Each begins at a line break. -/
def blockLines (folding : Bool) (chomping : Chomping) : (fuel : Nat) → Block → Read (List Char)
  | 0, _ => malformed
  | n + 1, b => do
    if (← get).rest = [] then return b.finish chomping
    lineBreak
    let blanks := (← get).rest.takeWhile (· == ' ')
    let taken := if b.known then min blanks.length b.indent else blanks.length
    advanceBy taken
    modify fun s => { s with indent := taken }
    let b := if !b.known && b.indent < taken then { b with indent := taken } else b
    match ← peek with
    | none => return b.finish chomping
    | some c =>
      if isBreak c then blockLines folding chomping n { b with empty := b.empty + 1 }
      else if taken < b.indent then return b.finish chomping
      else
        let (breaks, further) := b.breaks folding c
        let text ← takeWhile fun c => !isBreak c
        if !text.all isPrintable then malformed
        blockLines folding chomping n
          { b with
            done := text.reverse ++ breaks ++ b.done
            known := true
            content := true
            empty := 0
            further := further }

/-- A block scalar, if one begins here. -/
def block? (indent : Nat) : Read (Option String) := do
  let cs := (← get).rest
  let read (folding : Bool) : Read (Option String) := do
    advance
    let h ← header 4 ⟨.clip, none⟩
    if (← peek).any isBlank then skipBlanks true
    let start := match h.width with
      | some w => indent + w - 1
      | none => indent
    let text ← blockLines folding h.chomping (cs.length + 1) ⟨[], start, h.width.isSome, false, 0, false⟩
    return some (String.ofList text)
  match cs with
  | '|' :: _ => read false
  | '>' :: _ => read true
  | _ => return none

end CelSuite.Yaml
