import CelSuite.Document.Basic
import CelSuite.Yaml.Timestamp

/-! # Tags

What kind of data a node is. A plain scalar without a tag is null, a boolean, a number, a timestamp or a
merge key if it looks like one, and a string otherwise; a tag decides by itself, and a node that does
not fit its tag is malformed. -/

namespace CelSuite.Yaml

/-- How a node is written. -/
inductive Kind where
  | scalar
  | sequence
  | mapping
  deriving DecidableEq

/-- The full name of a standard tag. -/
def standardTag (name : String) : String := "tag:yaml.org,2002:" ++ name

def nullTag := standardTag "null"

def boolTag := standardTag "bool"

def intTag := standardTag "int"

def floatTag := standardTag "float"

def timestampTag := standardTag "timestamp"

def mergeTag := standardTag "merge"

/-- A null. -/
def null? (s : String) : Option Document :=
  if ["~", "null", "Null", "NULL"].contains s then some .null else none

/-- A boolean. -/
def bool? (s : String) : Option Document :=
  if ["true", "True", "TRUE"].contains s then some (.bool true)
  else if ["false", "False", "FALSE"].contains s then some (.bool false)
  else none

/-- An integer without its sign: decimal, or binary, octal or hexadecimal after a mark. -/
def natural? : List Char → Option Nat
  | '0' :: 'b' :: cs => Decimal.inBase? 2 cs
  | '0' :: 'o' :: cs => Decimal.inBase? 8 cs
  | '0' :: 'x' :: cs => Decimal.inBase? 16 cs
  | cs => if cs ≠ [] ∧ cs.all Text.isDigit then some (Text.ofDigits cs) else none

/-- An integer. A zero has no sign when it is a single digit. -/
def int? (s : String) : Option Document :=
  let (negative, cs) := Decimal.splitSign s.toList
  (natural? cs).map fun n => .number (Double.ofRatio (negative && cs ≠ ['0']) n 1)

/-- A decimal number, an infinity or a NaN. -/
def float? (s : String) : Option Document :=
  let (negative, cs) := Decimal.splitSign s.toList
  let signed := cs ≠ s.toList
  let body := String.ofList cs
  if [".inf", ".Inf", ".INF"].contains body then some (.number (Double.infinity negative))
  else if [".nan", ".NaN", ".NAN"].contains body then if signed then none else some (.number Double.nan)
  else if signed && cs.head? == some '.' then none
  else (Decimal.decimal? cs).map fun d => .number (d.toDouble negative)

/-- A timestamp. -/
def timestamp? (s : String) : Option Document :=
  (Timestamp.read? s).map fun seconds => .object (.date (Timestamp.write seconds)) []

/-- The data of a plain scalar without a tag, with the tag it turns out to have. -/
def resolvePlain (s : String) : Option String × Document :=
  let first (tag : String) (read : String → Option Document)
      (otherwise : Option String × Document) : Option String × Document :=
    match read s with
    | some d => (some tag, d)
    | none => otherwise
  first nullTag null? <| first boolTag bool? <| first intTag int? <| first floatTag float? <|
    first timestampTag timestamp? <|
    if s = "<<" then (some mergeTag, .string s) else (none, .string s)

/-- The value of a base-64 character; the padding has a value of its own. -/
def base64Value? (c : Char) : Option Nat :=
  if 'A' ≤ c ∧ c ≤ 'Z' then some (c.toNat - 65)
  else if 'a' ≤ c ∧ c ≤ 'z' then some (c.toNat - 71)
  else if '0' ≤ c ∧ c ≤ '9' then some (c.toNat + 4)
  else if c = '+' then some 62
  else if c = '/' then some 63
  else if c = '=' then some 64
  else none

/-- The bytes of base-64 digits. -/
def base64Bytes : List Nat → List UInt8
  | a :: b :: c :: d :: r =>
    let n := ((a * 64 + b) * 64 + c) * 64 + d
    (n / 65536 % 256).toUInt8 :: (n / 256 % 256).toUInt8 :: (n % 256).toUInt8 :: base64Bytes r
  | [a, b, c] =>
    let n := (a * 64 + b) * 64 + c
    [(n / 1024 % 256).toUInt8, (n / 4 % 256).toUInt8]
  | [a, b] => [((a * 64 + b) / 16 % 256).toUInt8]
  | _ => []

/-- Binary data in base 64, whose digits make up whole bytes. Line breaks do not count. -/
def binary? (s : String) : Option Document := do
  let cs := s.toList.filter fun c => c != '\n' && c != '\r'
  let values ← cs.mapM base64Value?
  if values.length * 6 % 8 = 0 then
    return Document.ofBytes (base64Bytes (values.filter (· < 64)))
  else none

/-- The only field of a mapping. -/
def singleField? : Document → Option (String × Document)
  | .object .mapping [f] => some f
  | _ => none

/-- Whether a sequence is an ordered mapping: single fields of distinct names. -/
def isOrdered (items : List Document) : Bool :=
  match items.mapM singleField? with
  | some fields => (fields.map (·.1)).eraseDups.length == fields.length
  | none => false

/-- The data of a node with a tag: its kind, if it is written at all, and its data so far. -/
def resolveTagged (tag : String) (kind : Option Kind) (d : Document) : Option Document :=
  if kind = some .scalar ∨ kind = none then
    match d with
    | .string s =>
      if tag = standardTag "str" then some d
      else if tag = nullTag then null? s
      else if tag = boolTag then bool? s
      else if tag = intTag then int? s
      else if tag = floatTag then float? s
      else if tag = timestampTag then timestamp? s
      else if tag = mergeTag then if s = "<<" then some d else none
      else if tag = standardTag "binary" then binary? s
      else none
    | .null =>
      if tag = standardTag "str" then some (.string "")
      else if tag = nullTag ∨ tag = mergeTag then some .null
      else if kind = none then
        if tag = standardTag "seq" ∨ tag = standardTag "omap" ∨ tag = standardTag "pairs" then
          some (.array [])
        else if tag = standardTag "map" ∨ tag = standardTag "set" then some (.object .mapping [])
        else none
      else none
    | d => if tag = standardTag "str" then some d else none
  else
    match d with
    | .array items =>
      if tag = standardTag "seq" then some d
      else if tag = standardTag "omap" then if isOrdered items then some d else none
      else if tag = standardTag "pairs" then
        (items.mapM singleField?).map fun fs => .array (fs.map fun f => .array [.string f.1, f.2])
      else none
    | .object _ fields =>
      if tag = standardTag "map" then some d
      else if tag = standardTag "set" then
        if fields.all fun f => match f.2 with | .null => true | _ => false then some d else none
      else none
    | _ => none

end CelSuite.Yaml
