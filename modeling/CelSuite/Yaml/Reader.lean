import CelSuite.Yaml.Scalar
import CelSuite.Yaml.Tag

/-! # YAML documents

Reads the documents of a YAML text as plain data. The structure of blocks follows from indentation; a
node is read in one of four places, which decide what it may be and how far it has to be indented. The
names of a mapping are the texts of its keys, and a name that comes twice is malformed unless it was
merged in. -/

namespace CelSuite.Yaml

/-- Where a node stands. -/
inductive Place where
  | flowIn
  | flowOut
  | blockIn
  | blockOut
  deriving DecidableEq

def Place.isBlock : Place → Bool
  | .blockIn | .blockOut => true
  | _ => false

/-- A node: its tag and anchor, how it is written if it is, and its data. -/
structure Node where
  tag : Option String
  anchor : Option String
  kind : Option Kind
  data : Document

def Node.empty : Node := ⟨none, none, none, .null⟩

/-- Whether anything of the node is written. -/
def Node.isPresent (n : Node) : Bool := n.tag.isSome || n.anchor.isSome || n.kind.isSome

/-- Fields of a mapping, and the names that were merged in and may still be overridden. -/
structure Fields where
  list : List (String × Document)
  merged : List String

def Fields.empty : Fields := ⟨[], []⟩

def Fields.toDocument (f : Fields) : Document :=
  .object .mapping (Document.arrange f.list)

/-- The name that a key has as a field. Keys that hold lists of lists have none. -/
def keyName (d : Document) : Option String :=
  match d with
  | .array items =>
    if items.any fun i => match i with | .array _ => true | _ => false then none
    else some d.plainText
  | d => some d.plainText

/-- The fields of an array or object as a source of merging. -/
def mergeSource? : Document → Option (List (String × Document))
  | .object _ fields => some fields
  | .array items => some (items.zipIdx.map fun i => (i.2.repr, i.1))
  | _ => none

/-- Merges fields that are not there yet. -/
def Fields.merge (f : Fields) (source : List (String × Document)) : Fields :=
  source.foldl
    (fun f e =>
      if Assoc.contains e.1 f.list then f
      else ⟨Assoc.put e.1 e.2 f.list, e.1 :: f.merged⟩) f

/-- Adds a field, or merges the fields of its value. -/
def Fields.store (f : Fields) (tag : Option String) (key value : Document) : Read Fields :=
  match keyName key with
  | none => malformed
  | some name =>
    if tag = some mergeTag then
      let sources := match value with
        | .array items => items
        | d => [d]
      match sources.mapM mergeSource? with
      | some sources => pure (sources.foldl Fields.merge f)
      | none => malformed
    else if Assoc.contains name f.list && !f.merged.contains name then malformed
    else pure ⟨Assoc.put name value f.list, f.merged.erase name⟩

/-- Gives a name to data, for aliases. -/
def setAnchor (name : Option String) (d : Document) : Read Unit :=
  match name with
  | none => pure ()
  | some name => modify fun s => { s with anchors := Assoc.put name d s.anchors }

/-- Gives a name to the collection that begins here. An alias inside of it stands for an empty one. -/
def setOpenAnchor (name : Option String) : Read Unit := do
  match ← peek with
  | some '[' | some '-' => setAnchor name (.array [])
  | _ => setAnchor name (.object .mapping [])

/-- The name of an anchor or alias. -/
def anchorName : Read String := do
  advance
  let name ← takeWhile fun c => !(isSpace (some c) || isFlowMark (some c))
  if name = [] then malformed else return String.ofList name

/-- An alias, if one begins here. -/
def alias? : Read (Option Document) := do
  if (← peek) != some '*' then return none
  let name ← anchorName
  match Assoc.get? name (← get).anchors with
  | some d =>
    let _ ← skipSpace true
    return some d
  | none => malformed

/-- Whether a character may stand in a tag. -/
def isTagChar (c : Char) : Bool :=
  ('a' ≤ c && c ≤ 'z') || ('A' ≤ c && c ≤ 'Z') || Text.isDigit c ||
    "-#;/?:@&=+$_.!~*'()%".toList.contains c || c == '[' || c == ']' || c == ','

/-- Whether a text is a tag handle: words between exclamation marks. -/
def isHandle (cs : List Char) : Bool :=
  match cs with
  | ['!'] => true
  | '!' :: cs =>
    cs.getLast? == some '!' && cs.dropLast.all fun c =>
      ('a' ≤ c && c ≤ 'z') || ('A' ≤ c && c ≤ 'Z') || c == '-' || (c == '!' && cs == ['!'])
  | _ => false

/-- The full tag of a handle and a suffix. -/
def expandTag (handle suffix : List Char) : Read String := do
  let suffix := String.ofList suffix
  match Assoc.get? (String.ofList handle) (← get).handles with
  | some text => return text ++ suffix
  | none =>
    if handle = ['!'] then return "!" ++ suffix
    else if handle = ['!', '!'] then return standardTag suffix
    else malformed

/-- A tag, if one begins here. -/
def tag? : Read (Option String) := do
  if (← peek) != some '!' then return none
  advance
  if (← peek) == some '<' then
    advance
    let name ← takeWhile (· != '>')
    if (← peek) == none || !name.all isTagChar then malformed
    advance
    return some (String.ofList name)
  else
    let word ← takeWhile fun c => !isSpace (some c)
    let named := word.contains '!'
    let handle := if named then '!' :: (word.takeWhile (· != '!') ++ ['!']) else ['!']
    let suffix := if named then (word.dropWhile (· != '!')).drop 1 else word
    if suffix.contains '!' || suffix.any (fun c => isFlowMark (some c)) || !suffix.all isTagChar ||
        !isHandle handle then malformed
    return some (← expandTag handle suffix)

/-- How a line is indented, compared with the parent. -/
inductive Indentation where
  | deeper
  | same
  | shallower
  deriving DecidableEq

def indentation (parent : Int) : Read Indentation := do
  let i : Int := (← get).indent
  return if parent < i then .deeper else if i = parent then .same else .shallower

/-- The tag and the anchor before a node, whether it begins on a line of its own, and how that is
    indented. -/
structure Properties where
  tag : Option String
  anchor : Option String
  newLine : Bool
  blocks : Bool
  place : Indentation

/-- Tags and anchors, each at most once. After one on the same line no block collection begins. -/
def properties (parent : Int) (isBlock : Bool) : (fuel : Nat) → Properties → Read Properties
  | 0, _ => malformed
  | n + 1, p => do
    if p.place ≠ .deeper then return p
    let p ← match ← peek with
      | some '!' =>
        if p.tag.isSome then malformed
        pure { p with tag := ← tag? }
      | some '&' =>
        if p.anchor.isSome then malformed
        pure { p with anchor := some (← anchorName) }
      | _ => return p
    if 0 < (← skipSpace true) then
      properties parent isBlock n
        { p with newLine := true, blocks := isBlock, place := ← indentation parent }
    else properties parent isBlock n { p with blocks := false }

/-- The data of a node once its tag is known. -/
def finishNode (n : Node) : Read Node := do
  match n.tag with
  | none => pure n
  | some "!" => pure n
  | some tag =>
    match resolveTagged tag n.kind n.data with
    | some d => pure { n with data := d }
    | none => malformed

/-- A plain scalar as a node. -/
def plainNode (tag anchor : Option String) (text : String) : Node :=
  match tag with
  | some tag => ⟨some tag, anchor, some .scalar, .string text⟩
  | none =>
    let (tag, d) := resolvePlain text
    ⟨tag, anchor, some .scalar, d⟩

/-- Reads from an earlier place; when nothing is found, or the text from there is malformed, goes back to
    the present one. -/
def attempt (start : State) (read : Read (Option Node)) : Read (Option Node) := fun s =>
  match read { start with anchors := s.anchors } with
  | some (some m, s') => if m.kind = some .mapping then some (some m, s') else some (none, s)
  | _ => some (none, s)

/-- The end of an entry of a flow collection: whether another may follow. -/
def entryEnd (close : Char) : Read Bool := do
  let _ ← skipSpace true
  match ← peek with
  | some ',' => advance; return true
  | some c => if c == close then return false else malformed
  | none => malformed

/-- After an entry of a block collection that begins on `line`: whether another may follow. A line that is
    indented further belongs nowhere. -/
def entryDone (column line : Nat) : Read Bool := do
  let _ ← skipSpace true
  let s ← get
  if s.rest = [] then return false
  if s.line == line || column < s.indent then malformed
  return column ≤ s.indent

mutual

/-- A node. `parent` is the indentation of what holds it; a compact node may begin a block collection on
    the line of its parent. -/
def node : (fuel : Nat) → (parent : Int) → Place → (compact : Bool) → Read Node
  | 0, _, _, _ => malformed
  | n + 1, parent, place, compact => do
    let newLine : Bool := 0 < (← skipSpace true)
    let found ← indentation parent
    let start : Properties :=
      ⟨none, none, newLine, place.isBlock, if newLine then found else .deeper⟩
    let before ← get
    let p ← properties parent place.isBlock 4 start
    let blocks := p.blocks && (p.newLine || compact)
    if p.place = .shallower ∨ (p.place = .same ∧ place ≠ .blockOut) then
      let result : Node := ⟨p.tag, p.anchor, none, .null⟩
      setAnchor p.anchor .null
      finishNode result
    else
      setOpenAnchor p.anchor
      let flowIndent : Int := if place.isBlock then parent + 1 else parent
      let column := (← get).column
      let found ←
        if p.place = .same then
          if blocks then blockSequence? n column else pure none
        else do
          match ← (if blocks then blockCollection? n column flowIndent else pure none) with
          | some found => pure (some found)
          | none =>
            -- Properties on the line of a key belong to the key.
            match ← (if !p.blocks && start.blocks && (start.newLine || compact) && start.place = .deeper
                && (p.tag.isSome || p.anchor.isSome) && !p.newLine then
                attempt before (blockMapping? n before.column flowIndent) else pure none) with
            | some found => return ← finishNode found
            | none => flowNode? n place flowIndent p
      let result : Node := match found with
        | some m => { m with tag := p.tag.or m.tag, anchor := p.anchor }
        | none => ⟨p.tag, p.anchor, none, .null⟩
      let result ← (if p.tag.isSome then finishNode result else pure result)
      setAnchor p.anchor result.data
      return result

/-- A block sequence or mapping, or the scalar that a line turns out to be. -/
def blockCollection? : (fuel : Nat) → (column : Nat) → (flowIndent : Int) → Read (Option Node)
  | 0, _, _ => malformed
  | n + 1, column, flowIndent => do
    match ← blockSequence? n column with
    | some m => return some m
    | none => blockMapping? n column flowIndent

/-- A flow collection or a scalar. -/
def flowNode? : (fuel : Nat) → Place → (flowIndent : Int) → Properties → Read (Option Node)
  | 0, _, _, _ => malformed
  | n + 1, place, flowIndent, p => do
    match ← peek with
    | some '[' =>
      advance
      return some ⟨none, none, some .sequence, .array (← flowItems n flowIndent false [])⟩
    | some '\x7b' =>
      advance
      return some ⟨none, none, some .mapping, (← flowFields n flowIndent Fields.empty).toDocument⟩
    | _ =>
      let scalar (s : String) : Node := ⟨none, none, some .scalar, .string s⟩
      if place.isBlock then
        if let some s ← block? flowIndent.toNat then return some (scalar s)
      if let some s ← quoted? then return some (scalar s)
      if let some d ← alias? then
        if p.tag.isSome || p.anchor.isSome then malformed
        return some ⟨none, none, some .scalar, d⟩
      match ← plain? flowIndent (place = .flowIn) with
      | some s => return some (plainNode p.tag none s)
      | none => return none

/-- A key and a value in a flow collection, or a value alone: the key's node, and the value's data if a
    colon is there. -/
def flowPair : (fuel : Nat) → (indent : Int) → Read (Node × Option Document)
  | 0, _ => malformed
  | n + 1, indent => do
    let explicit := (← peek) == some '?' && isSpace (← peekSecond)
    if explicit then
      advance
      let _ ← skipSpace true
    let line := (← get).line
    let key ← node n indent .flowIn false
    let _ ← skipSpace true
    if (explicit || (← get).line == line) && (← peek) == some ':' then
      advance
      let _ ← skipSpace true
      let value ← node n indent .flowIn false
      return (key, some value.data)
    else return (key, if explicit then some .null else none)

/-- The items of a flow sequence up to its end; `done` is latest first. -/
def flowItems : (fuel : Nat) → (indent : Int) → Bool → List Document → Read (List Document)
  | 0, _, _, _ => malformed
  | n + 1, indent, closed, done => do
    let _ ← skipSpace true
    match ← peek with
    | some ']' => advance; return done.reverse
    | some ',' => malformed
    | none => malformed
    | some _ =>
      if closed then malformed
      let (key, value) ← flowPair n indent
      let item ← match value with
        | some v => do pure (← Fields.empty.store key.tag key.data v).toDocument
        | none => pure key.data
      flowItems n indent (!(← entryEnd ']')) (item :: done)

/-- The fields of a flow mapping up to its end. -/
def flowFields : (fuel : Nat) → (indent : Int) → Fields → Read Fields
  | 0, _, _ => malformed
  | n + 1, indent, done => do
    let _ ← skipSpace true
    match ← peek with
    | some '\x7d' => advance; return done
    | some ',' => malformed
    | none => malformed
    | some _ =>
      let (key, value) ← flowPair n indent
      let done ← done.store key.tag key.data (value.getD .null)
      let _ ← entryEnd '\x7d'
      flowFields n indent done

/-- A block sequence at a column, if one begins here. -/
def blockSequence? : (fuel : Nat) → (column : Nat) → Read (Option Node)
  | 0, _ => malformed
  | n + 1, column => do
    let s ← get
    if s.tab || !((← peek) == some '-' && isSpace (← peekSecond)) then return none
    return some ⟨none, none, some .sequence, .array (← blockItems n column [])⟩

/-- The items of a block sequence; `done` is latest first. -/
def blockItems : (fuel : Nat) → (column : Nat) → List Document → Read (List Document)
  | 0, _, _ => malformed
  | n + 1, column, done => do
    if (← get).rest = [] then return done.reverse
    if (← get).tab then malformed
    if !((← peek) == some '-' && isSpace (← peekSecond)) then return done.reverse
    advance
    if 0 < (← skipSpace true) && (← get).indent ≤ column then
      blockItems n column (.null :: done)
    else
      let line := (← get).line
      let item ← node n column .blockIn true
      if ← entryDone column line then blockItems n column (item.data :: done)
      else return (item.data :: done).reverse

/-- A block mapping at a column, or the node that the line turns out to be when no colon follows it. -/
def blockMapping? : (fuel : Nat) → (column : Nat) → (flowIndent : Int) → Read (Option Node)
  | 0, _, _ => malformed
  | n + 1, column, flowIndent => do
    if (← get).tab then return none
    let mapping (fields : Fields) : Option Node :=
      some ⟨none, none, some .mapping, fields.toDocument⟩
    if ((← peek) == some '?' || (← peek) == some ':') && isSpace (← peekSecond) then
      return mapping (← blockFields n column flowIndent Fields.empty none)
    let line := (← get).line
    let key ← node n flowIndent .flowOut false
    if !key.isPresent then return none
    if (← get).line ≠ line then return some key
    let _ ← takeWhile isBlank
    if (← peek) ≠ some ':' then return some key
    return mapping (← blockValue n column flowIndent Fields.empty key line)

/-- The value after the colon of a key that begins on `line`, and the fields that follow. -/
def blockValue : (fuel : Nat) → (column : Nat) → (flowIndent : Int) → Fields → Node → (line : Nat) →
    Read Fields
  | 0, _, _, _, _, _ => malformed
  | n + 1, column, flowIndent, done, key, line => do
    advance
    if !isSpace (← peek) then malformed
    let value ← node n column .blockOut false
    let done ← done.store key.tag key.data value.data
    if ← entryDone column line then blockFields n column flowIndent done none
    else return done

/-- The fields of a block mapping; `pending` is an explicit key that still waits for its value. -/
def blockFields : (fuel : Nat) → (column : Nat) → (flowIndent : Int) → Fields →
    (pending : Option Document) → Read Fields
  | 0, _, _, _, _ => malformed
  | n + 1, column, flowIndent, done, pending => do
    let settle : Read Fields :=
      match pending with
      | some key => done.store none key .null
      | none => pure done
    let s ← get
    if pending.isNone && s.tab then malformed
    match ← peek, isSpace (← peekSecond) with
    | some '?', true =>
      let done ← settle
      advance
      let key ← node n column .blockOut true
      if ← entryDone column s.line then blockFields n column flowIndent done (some key.data)
      else done.store none key.data .null
    | some ':', true =>
      match pending with
      | none => malformed
      | some key =>
        advance
        let value ← node n column .blockOut true
        let done ← done.store none key value.data
        if ← entryDone column s.line then blockFields n column flowIndent done none
        else return done
    | _, _ =>
      let key ← node n flowIndent .flowOut false
      if !key.isPresent then settle
      else
        if (← get).line ≠ s.line then malformed
        let _ ← takeWhile isBlank
        if (← peek) ≠ some ':' then malformed
        blockValue n column flowIndent (← settle) key s.line

end

/-- A directive: its name and its arguments, if the next line is one. -/
def directive? : Read (Option (String × List String)) := do
  let s ← get
  if s.indent > 0 || s.rest.head? ≠ some '%' then return none
  advance
  let line ← takeWhile fun c => !isBreak c
  if (← get).rest ≠ [] then lineBreak
  let words := (String.ofList (line.map fun c => if c == '\t' then ' ' else c)).splitOn " "
  match words.filter (· ≠ "") with
  | [] => malformed
  | name :: args =>
    if isBlank (line.headD ' ') then malformed
    return some (name, args.takeWhile fun a => a.toList.head? ≠ some '#')

/-- Whether a text is a version number of the first version. -/
def isVersion (s : String) : Bool :=
  match s.splitOn "." with
  | [major, minor] => major.toList.all Text.isDigit && Text.ofDigits major.toList == 1 && minor ≠ "" &&
      minor.toList.all Text.isDigit
  | _ => false

/-- The directives before a document, at most `n`: whether there are any. A version comes once, a handle
    stands for one text. -/
def directives : (n : Nat) → (versioned any : Bool) → Read Bool
  | 0, _, _ => malformed
  | n + 1, versioned, any => do
    let _ ← skipSpace true
    match ← directive? with
    | none => return any
    | some ("YAML", args) =>
      match args with
      | [v] => if versioned || !isVersion v then malformed else directives n true true
      | _ => malformed
    | some ("TAG", args) =>
      match args with
      | [handle, text] =>
        if !isHandle handle.toList || Assoc.contains handle (← get).handles ||
            !text.toList.all isTagChar then malformed
        modify fun s => { s with handles := Assoc.put handle text s.handles }
        directives n versioned true
      | _ => malformed
    | some _ => directives n versioned true

/-- One document. -/
def document : Read Document := do
  modify fun s => { s with anchors := [], handles := [] }
  let size := (← get).rest.length
  let any ← directives (size + 1) false false
  let _ ← skipSpace true
  let s ← get
  if s.indent = 0 ∧ ['-', '-', '-'].isPrefixOf s.rest then
    advanceBy 3
    let _ ← skipSpace true
  else if any then malformed
  let parent : Int := (← get).indent
  let n ← node (8 * size + 100) (parent - 1) .blockOut true
  let _ ← skipSpace true
  if ← atDocumentMark then
    if (← peek) == some '.' then
      advanceBy 3
      let _ ← skipSpace true
    return n.data
  else if 1 < (← get).rest.length then malformed
  else return n.data

/-- The documents up to the end, at most `n`. A last line break alone is no document. -/
def documents : (n : Nat) → Read (List Document)
  | 0 => malformed
  | n + 1 => do
    if 1 < (← get).rest.length then
      let d ← document
      let ds ← documents n
      return d :: ds
    else return []

/-- The documents of a text, or none if it is malformed. A byte order mark at the start and a missing line
    break at the end do not matter. -/
def readAll? (text : String) : Option (List Document) :=
  let cs := text.toList
  if cs = [] then some []
  else if cs.contains '\x00' then none
  else
    let cs := if cs.getLast?.any isBreak then cs else cs ++ ['\n']
    let cs := if cs.head? == some '\uFEFF' then cs.drop 1 else cs
    let start : State := ⟨cs, none, 0, 0, 0, false, [], []⟩
    let all : Read (List Document) := do
      takeIndent
      documents (cs.length + 1)
    (all.run start).map Prod.fst

/-- The only document of a text, `undefined` if there is none. -/
def read? (text : String) : Option Document :=
  match readAll? text with
  | some [] => some .undefined
  | some [d] => some d
  | _ => none

end CelSuite.Yaml
