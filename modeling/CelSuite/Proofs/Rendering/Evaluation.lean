import CelSuite.Proofs.Rendering.Lexemes
import CelSuite.Proofs.Rendering.Values
import CelSuite.Proofs.Text.Order
import Mathlib.Data.List.Forall2

/-! # A rendered value evaluates to the value

Each form of a value is rendered as text that the grammar reads as one expression, and that expression
passes every check and denotes the value in every scope. The only names in it are those of types and the
conversion to a duration, so the declarations do not matter and the activation only must not hide a
type. -/

namespace CelSuite
open Lexer Grammar

variable {e : Expr} {v : Value} {cs rest : List Char} {ls : List Lexeme}

/-- An activation in which the names of types stand for the types. -/
def Activation.KeepsTypes (act : Activation) : Prop := ∀ n ∈ typeNames, Assoc.get? n act = none

/-- Text that spells something of a form that has a property, wherever a value can stand. -/
def Writes (s : Sym) (cs : List Char) (P : s.Tree → Prop) : Prop :=
  ∀ rest ls, Ends rest → Lexes rest ls →
    ∃ vs a, Lexes (cs ++ rest) (vs ++ ls) ∧ Derives s (vs.map Lexeme.word) a ∧ P a

/-! ### Integers -/

theorem literal_int {m : Nat} (h : Value.InIntRange m) :
    Grammar.Literal false ⟨.int, String.ofList m.repr.toList⟩ (.literal (.int m)) := by
  have hreads := Decimal.integer?_digits (Text.isDigit_repr m) (Text.repr_ne_nil m)
  rw [Text.ofDigits_repr] at hreads
  exact .int hreads h

theorem literal_negative {m : Nat} (h : Value.InIntRange (-(m : Int))) :
    Grammar.Literal true ⟨.int, String.ofList m.repr.toList⟩ (.literal (.int (-(m : Int)))) := by
  have hreads := Decimal.integer?_minus (Text.isDigit_repr m) (Text.repr_ne_nil m)
  rw [Text.ofDigits_repr] at hreads
  exact .int hreads h

theorem literal_uint {m : Nat} (h : Value.InUintRange m) :
    Grammar.Literal false ⟨.uint, String.ofList m.repr.toList⟩ (.literal (.uint m)) := by
  have hreads := Decimal.integer?_digits (Text.isDigit_repr m) (Text.repr_ne_nil m)
  rw [Text.ofDigits_repr] at hreads
  exact .uint rfl hreads h

/-! ### Durations -/

theorem call_duration (container : String) (n : Int) :
    Functions.call container "duration" [.string (String.ofList (renderNanos n))] = .ok (.duration n) := by
  have hname : functionNames.contains "duration" = true := by decide
  have happly : ∀ v, Functions.apply "duration" v = Functions.toDuration v := fun v => rfl
  rw [Functions.call, if_pos hname, happly, Functions.toDuration, String.toList_ofList,
    Duration.parse_renderNanos]

theorem renderNanos_plain (n : Int) : ∀ c ∈ renderNanos n, c ≠ '\\' ∧ c ≠ '"' := by
  have hdigit : ∀ c, Text.isDigit c = true → c ≠ '\\' ∧ c ≠ '"' := by
    rintro c hc
    constructor <;> rintro rfl <;> cases hc
  unfold renderNanos
  dsimp only
  simp only [List.forall_mem_append]
  refine ⟨⟨⟨?_, fun c hc => hdigit c (Text.isDigit_repr _ c hc)⟩, ?_⟩, ?_⟩
  · split
    · exact List.forall_mem_singleton.mpr (by decide)
    · exact List.forall_mem_nil _
  · split
    · exact List.forall_mem_nil _
    · exact List.forall_mem_cons.mpr ⟨by decide, fun c hc => hdigit c (isDigit_renderFraction _ c hc)⟩
  · exact List.forall_mem_singleton.mpr (by decide)

/-! ### Items -/

/-- Items with commas between them, up to a bracket. -/
theorem writes_items {α : Type} {i : Item} {render : α → List Char} {P : i.Tree → α → Prop} {b : Char}
    {close : String} (hb : b ∈ punctuation ∧ b ∈ enders) (hclose : String.ofList [b] = close) : ∀ {xs : List α},
    (∀ x ∈ xs, Writes (.item i) (render x) (P · x)) →
    Writes (.items i close) (Value.joinComma (xs.map render) ++ [b]) (List.Forall₂ P · xs)
  | [], _, rest, ls, _, hls => by
    subst hclose
    exact ⟨[⟨.op, [b], [b]⟩], [], lexes_punctuation hb.1 hls, .close, .nil⟩
  | [x], h, rest, ls, _, hls => by
    subst hclose
    have hend := lexes_punctuation hb.1 hls
    obtain ⟨vs, a, hvs, hd, ha⟩ := h x List.mem_cons_self _ _ (ends_cons hb.2) hend
    refine ⟨vs ++ [⟨.op, [b], [b]⟩], [a], ?_, ?_, .cons ha .nil⟩
    · rw [List.append_assoc, List.append_assoc]
      exact hvs
    · rw [List.map_append]
      exact .last hd
  | x :: y :: ys, h, rest, ls, hr, hls => by
    obtain ⟨hx, hys⟩ := List.forall_mem_cons.mp h
    obtain ⟨us, as, hus, hds, has⟩ := writes_items hb hclose hys rest ls hr hls
    have hcomma := lexes_punctuation (c := ',') (by decide) (.blank (by decide : Text.isBlank ' ' = true) hus)
    obtain ⟨vs, a, hvs, hd, ha⟩ := hx _ _ (ends_cons (by decide)) hcomma
    refine ⟨vs ++ ⟨.op, [','], [',']⟩ :: us, a :: as, ?_, ?_, .cons ha has⟩
    · have hjoin : Value.joinComma ((x :: y :: ys).map render) =
          render x ++ ',' :: ' ' :: Value.joinComma ((y :: ys).map render) := rfl
      rw [hjoin]
      simpa only [List.append_assoc, List.cons_append] using hvs
    · rw [List.map_append, List.map_cons]
      exact .more hd hds

theorem renderItems_eq_map (items : List Value) : Value.renderItems items = items.map Value.renderChars := by
  induction items with
  | nil => rfl
  | cons v vs ih => exact congrArg (v.renderChars :: ·) ih

theorem renderEntries_eq_map (entries : Entries) :
    Value.renderEntries entries =
      entries.map fun x => Value.renderKey x.1 ++ ':' :: ' ' :: Value.renderChars x.2 := by
  induction entries with
  | nil => rfl
  | cons x r ih => exact congrArg (_ :: ·) ih

theorem renderChars_list (items : List Value) :
    (Value.list items).renderChars = '[' :: (Value.joinComma (items.map Value.renderChars) ++ [']']) := by
  rw [← renderItems_eq_map]
  rfl

theorem renderChars_map (entries : Entries) :
    (Value.map entries).renderChars = '\x7b' :: (Value.joinComma (entries.map fun x =>
      Value.renderKey x.1 ++ ':' :: ' ' :: Value.renderChars x.2) ++ ['\x7d']) := by
  rw [← renderEntries_eq_map]
  rfl

/-! ### Literals -/

section
variable [MessageSystem]

/-- An expression passes the check in every scope and has one value, whatever is declared or bound. -/
def Expr.Denotes (e : Expr) (v : Value) : Prop :=
  ∀ (s : Scope) (act : Activation), act.KeepsTypes → e.check s = .ok () ∧ e.eval s act = .ok v

/-- Text that spells an expression for a value. -/
def Spells (cs : List Char) (v : Value) : Prop := Writes (.phrase .expr) cs fun e => e.Denotes v

theorem Expr.denotes_literal (v : Value) : (Expr.literal v).Denotes v := fun s act _ => by
  rw [check, eval]
  exact ⟨rfl, rfl⟩

/-- The units of a text denote the text. -/
theorem Expr.denotes_text (cs : List Char) : (Expr.text (Text.units cs)).Denotes (.string (String.ofList cs)) :=
  fun s act _ => by
    rw [check, eval, Text.ofUnits_units]
    exact ⟨rfl, rfl⟩

/-- One lexeme that is a literal. -/
theorem spells_literal {l : Lexeme}
    (hl : ∀ rest ls, Ends rest → Lexes rest ls → Lexes (cs ++ rest) (l :: ls))
    (he : Grammar.Literal false l.word e) (hv : e.Denotes v) : Spells cs v := fun rest ls hr hls =>
  ⟨[l], e, hl rest ls hr hls, .of_primary (.literal he), hv⟩

theorem spells_int {n : Int} (h : Value.InIntRange n) : Spells n.repr.toList (.int n) := by
  rw [Int.repr_eq_if]
  split
  · rename_i hpos
    have hn : (n.toNat : Int) = n := Int.toNat_of_nonneg hpos
    have hlit := literal_int (hn.symm ▸ h)
    rw [hn] at hlit
    exact spells_literal (fun rest ls => lexes_int n.toNat) hlit (Expr.denotes_literal _)
  · rename_i hneg
    have hn : -((-n).toNat : Int) = n := by omega
    have hlit := literal_negative (hn.symm ▸ h)
    rw [hn] at hlit
    intro rest ls hr hls
    have hint := lexes_int (-n).toNat hr hls
    rw [String.toList_append]
    exact ⟨[⟨.op, ['-'], ['-']⟩, ⟨.int, (-n).toNat.repr.toList, (-n).toNat.repr.toList⟩], .literal (.int n),
      lexes_punctuation (by decide) hint, .of_unary (.member (.negative (Or.inl rfl) hlit)),
      Expr.denotes_literal _⟩

theorem spells_uint {n : Nat} (h : Value.InUintRange n) : Spells (n.repr.toList ++ ['u']) (.uint n) := by
  have hlexes : ∀ rest ls, Ends rest → Lexes rest ls →
      Lexes (n.repr.toList ++ ['u'] ++ rest) (⟨.uint, n.repr.toList, n.repr.toList ++ ['u']⟩ :: ls) := by
    intro rest ls _ hls
    rw [List.append_assoc]
    exact lexes_uint n hls
  exact spells_literal hlexes (literal_uint h) (Expr.denotes_literal _)

theorem spells_string (s : String) : Spells (Text.quoteChars s.toList) (.string s) := by
  have hbody := body_quoted s.toList
  rw [Text.quoteChars]
  generalize hb : s.toList.flatMap Text.quoteChar = body at hbody
  have hlexes : ∀ rest ls, Ends rest → Lexes rest ls →
      Lexes ('"' :: (body ++ ['"']) ++ rest) (⟨.string, body, '"' :: (body ++ ['"'])⟩ :: ls) := by
    intro rest ls _ hls
    rw [List.cons_append, List.append_assoc]
    exact lexes_string hbody hls
  have hdenotes := Expr.denotes_text s.toList
  rw [String.ofList_toList] at hdenotes
  exact spells_literal hlexes (hb ▸ literal_quoted s) hdenotes

theorem spells_bytes (bs : List UInt8) :
    Spells ('b' :: '"' :: (bs.flatMap renderByte ++ ['"'])) (.bytes bs) := by
  have hbody := body_bytes bs
  generalize hb : bs.flatMap renderByte = body at hbody ⊢
  have hlexes : ∀ rest ls, Ends rest → Lexes rest ls →
      Lexes ('b' :: '"' :: (body ++ ['"']) ++ rest) (⟨.bytes, body, 'b' :: '"' :: (body ++ ['"'])⟩ :: ls) := by
    intro rest ls _ hls
    rw [List.cons_append, List.cons_append, List.append_assoc]
    exact lexes_bytes hbody hls
  exact spells_literal hlexes (hb ▸ Literal.bytes_ofList (decodeBytes_rendered bs)) (Expr.denotes_literal _)

/-! ### Names -/

/-- One lexeme that is a name. -/
theorem spells_name {name : String} (hname : isName name.toList = true)
    (hd : Derives (.phrase .primary) [ident name] e) (hv : e.Denotes v) : Spells name.toList v := by
  intro rest ls hr hls
  refine ⟨[⟨.ident, name.toList, name.toList⟩], e, lexes_name hname (ends_name hr) hls, .of_primary ?_, hv⟩
  rw [List.map_singleton, Lexeme.word, String.ofList_toList]
  exact hd

theorem spells_bool (b : Bool) : Spells (if b then "true" else "false").toList (.bool b) := by
  cases b with
  | true => exact spells_name (by decide) .true (Expr.denotes_literal _)
  | false => exact spells_name (by decide) .false (Expr.denotes_literal _)

theorem spells_null : Spells "null".toList .null :=
  spells_name (by decide) .null (Expr.denotes_literal _)

/-- A dotted name of a type denotes the type. -/
theorem Expr.denotes_type {name : String} (hq : e.qualifiedName? = some name) (hname : name ∈ typeNames) :
    e.Denotes (.type name) := by
  intro s act hact
  have hknown : s.knows name = true := by
    rw [Scope.knows, List.contains_eq_mem, decide_eq_true hname, Bool.or_true]
  have hvalue : act.resolve? name = some (.type name) := by
    rw [Activation.resolve?, hact name hname]
    exact if_pos hname
  cases e with
  | ident n =>
    cases hq
    rw [check, if_pos hknown, eval, resolve, hvalue]
    exact ⟨rfl, rfl⟩
  | select operand field =>
    rw [check, hq, eval, hq, Option.bind_some, hvalue]
    dsimp only
    rw [if_pos hknown]
    exact ⟨rfl, rfl⟩
  | _ => cases hq

/-- A name with two dots in it. -/
theorem spells_dotted {a b c : String} (ha : isName a.toList = true) (hb : isName b.toList = true)
    (hc : isName c.toList = true) (hplain : a ≠ "true" ∧ a ≠ "false" ∧ a ≠ "null")
    (htype : a ++ "." ++ b ++ "." ++ c ∈ typeNames) :
    Spells (a.toList ++ '.' :: (b.toList ++ '.' :: c.toList)) (.type (a ++ "." ++ b ++ "." ++ c)) := by
  intro rest ls hr hls
  have hdot : ∀ r, ∀ d ∈ ('.' :: r : List Char).head?, isIdentChar d = false := by
    rintro r d ⟨⟩
    rfl
  have hlast := lexes_punctuation (c := '.') (by decide) (lexes_name hc (ends_name hr) hls)
  have hlexes := lexes_punctuation (c := '.') (by decide) (lexes_name hb (hdot _) hlast)
  refine ⟨[⟨.ident, a.toList, a.toList⟩, ⟨.op, ['.'], ['.']⟩, ⟨.ident, b.toList, b.toList⟩, ⟨.op, ['.'], ['.']⟩,
    ⟨.ident, c.toList, c.toList⟩], .select (.select (.ident a) b) c, ?_, ?_, Expr.denotes_type rfl htype⟩
  · rw [List.append_assoc, List.cons_append, List.append_assoc, List.cons_append]
    exact lexes_name ha (hdot _) hlexes
  · simp only [List.map_cons, List.map_nil, Lexeme.word, String.ofList_toList]
    exact .of_unary (.member (.select (.select (.primary (.name hplain)))))

theorem spells_type {name : String} (h : name ∈ typeNames) : Spells name.toList (.type name) := by
  have hforms : ∀ n ∈ typeNames, (isName n.toList = true ∧ n ≠ "true" ∧ n ≠ "false" ∧ n ≠ "null") ∨
      n = "google.protobuf.Duration" ∨ n = "google.protobuf.Timestamp" := by
    decide
  have hgoogle : ∀ c, isName c.toList = true → "google" ++ "." ++ "protobuf" ++ "." ++ c ∈ typeNames →
      Spells ("google".toList ++ '.' :: ("protobuf".toList ++ '.' :: c.toList))
        (.type ("google" ++ "." ++ "protobuf" ++ "." ++ c)) := fun c hc htype =>
    spells_dotted (by decide) (by decide) hc (by decide) htype
  rcases hforms name h with ⟨hname, hplain⟩ | rfl | rfl
  · exact spells_name hname (.name hplain) (Expr.denotes_type rfl h)
  · exact hgoogle "Duration" (by decide) (by decide)
  · exact hgoogle "Timestamp" (by decide) (by decide)

/-! ### Calls -/

theorem Expr.denotes_duration (n : Int) :
    (Expr.call "duration" [.text (Text.units (renderNanos n))]).Denotes (.duration n) := by
  intro s act _
  have hname : functionNames.contains "duration" = true := by decide
  have hargs : evalAll s act 0 [.text (Text.units (renderNanos n))] =
      .ok [.string (String.ofList (renderNanos n))] := by
    rw [evalAll, eval, evalAll, Text.ofUnits_units]
    rfl
  constructor
  · rw [check, if_pos hname]
    rfl
  · rw [eval, hargs]
    exact bind_eq_ok.mpr ⟨_, rfl, call_duration s.container n⟩

theorem spells_duration (n : Int) :
    Spells ("duration(\"".toList ++ renderNanos n ++ "\")".toList) (.duration n) := by
  have hplain := renderNanos_plain n
  have hbody : Body '"' (renderNanos n) := by
    have happ := Body.append_plain hplain .nil
    rwa [List.append_nil] at happ
  have hlit : Grammar.Literal false ⟨.string, String.ofList (renderNanos n)⟩
      (.text (Text.units (renderNanos n))) :=
    literal_plain fun hmem => (hplain _ hmem).1 rfl
  have hdenotes := Expr.denotes_duration n
  generalize renderNanos n = body at *
  intro rest ls _ hls
  have hclose := lexes_string hbody (lexes_punctuation (c := ')') (by decide) hls)
  have hopen := lexes_punctuation (c := '(') (by decide) hclose
  refine ⟨[⟨.ident, "duration".toList, "duration".toList⟩, ⟨.op, ['('], ['(']⟩,
    ⟨.string, body, '"' :: (body ++ ['"'])⟩, ⟨.op, [')'], [')']⟩], _, ?_, ?_, hdenotes⟩
  · have hsplit : "duration(\"".toList ++ body ++ "\")".toList ++ rest =
        "duration".toList ++ '(' :: '"' :: (body ++ '"' :: ')' :: rest) := by
      rw [List.append_assoc, List.append_assoc]
      rfl
    rw [hsplit]
    exact lexes_name (by decide) (by rintro c ⟨⟩; rfl) hopen
  · exact .of_primary (.call (by decide) (.last (.value (.of_primary (.literal hlit)))))

/-! ### Lists and maps -/

/-- A colon after a key, a blank, and a value. -/
theorem writes_entry {ks : List Char} {k : MapKey} (hk : Spells ks k.toValue) (hv : Spells cs v) :
    Writes (.item .entry) (ks ++ ':' :: ' ' :: cs) fun e => e.1.Denotes k.toValue ∧ e.2.Denotes v := by
  intro rest ls hr hls
  obtain ⟨vs, ve, hvs, hdv, hv⟩ := hv rest ls hr hls
  have hcolon := lexes_punctuation (c := ':') (by decide) (.blank (by decide : Text.isBlank ' ' = true) hvs)
  obtain ⟨us, ke, hus, hdk, hk⟩ := hk _ _ (ends_cons (by decide)) hcolon
  refine ⟨us ++ ⟨.op, [':'], [':']⟩ :: vs, (ke, ve), ?_, ?_, hk, hv⟩
  · rw [List.append_assoc, List.append_assoc]
    exact hus
  · rw [List.map_append, List.map_cons]
    exact .entry hdk hdv

theorem Expr.evalAll_denotes {s : Scope} {act : Activation} (hact : act.KeepsTypes) {es : List Expr}
    {items : List Value} (h : List.Forall₂ Expr.Denotes es items) (hplain : ∀ v ∈ items, v.Plain) :
    ∀ i, checkAll s es = .ok () ∧ evalAll s act i es = .ok items := by
  induction h with
  | nil =>
    intro i
    rw [checkAll, evalAll]
    exact ⟨rfl, rfl⟩
  | @cons e v es items he h ih =>
    intro i
    obtain ⟨hv, hvs⟩ := List.forall_mem_cons.mp hplain
    obtain ⟨hcheck, heval⟩ := he s act hact
    obtain ⟨hchecks, hevals⟩ := ih hvs (i + 1)
    rw [checkAll, evalAll, hcheck, heval, hevals]
    exact ⟨hchecks, congrArg (fun w => Except.ok (w :: items)) (hv.under i)⟩

theorem Expr.evalEntries_denotes {s : Scope} {act : Activation} (hact : act.KeepsTypes)
    {es : List (Expr × Expr)} {entries : Entries}
    (h : List.Forall₂ (fun e x => e.1.Denotes x.1.toValue ∧ e.2.Denotes x.2) es entries)
    (hplain : ∀ x ∈ entries, x.2.Plain) :
    ∀ i, checkEntries s es = .ok () ∧
      evalEntries s act i es = .ok (entries.map fun x => (x.1.toValue, x.2)) := by
  induction h with
  | nil =>
    intro i
    rw [checkEntries, evalEntries]
    exact ⟨rfl, rfl⟩
  | @cons e x es entries he h ih =>
    intro i
    obtain ⟨hx, hxs⟩ := List.forall_mem_cons.mp hplain
    obtain ⟨hcheckk, hevalk⟩ := he.1 s act hact
    obtain ⟨hcheck, heval⟩ := he.2 s act hact
    obtain ⟨hchecks, hevals⟩ := ih hxs (i + 1)
    rw [checkEntries, evalEntries, hcheckk, hevalk, hcheck, heval, hevals]
    exact ⟨hchecks, congrArg (fun w => Except.ok ((x.1.toValue, w) :: _)) (hx.under i)⟩

theorem spells_key {k : MapKey} (h : k.InRange) : Spells (Value.renderKey k) k.toValue := by
  cases k with
  | int n => exact spells_int h
  | uint n => exact spells_uint h
  | bool b => exact spells_bool b
  | string s => exact spells_string s

theorem spells_list {items : List Value} (hplain : ∀ v ∈ items, v.Plain)
    (h : ∀ v ∈ items, Spells v.renderChars v) : Spells (Value.list items).renderChars (.list items) := by
  intro rest ls hr hls
  have hitems : ∀ v ∈ items, Writes (.item .value) v.renderChars (Expr.Denotes · v) := by
    intro v hv rest ls hr hls
    obtain ⟨vs, e, hvs, hd, he⟩ := h v hv rest ls hr hls
    exact ⟨vs, e, hvs, .value hd, he⟩
  have hclose : String.ofList [']'] = "]" := by decide
  obtain ⟨vs, es, hvs, hd, hes⟩ := writes_items (by decide) hclose hitems rest ls hr hls
  have hopen : Lexeme.word ⟨.op, ['['], ['[']⟩ = op "[" := by decide
  refine ⟨⟨.op, ['['], ['[']⟩ :: vs, .list es, ?_, ?_, ?_⟩
  · rw [renderChars_list]
    exact lexes_punctuation (by decide) hvs
  · rw [List.map_cons, hopen]
    exact .of_primary (.list hd)
  · intro s act hact
    obtain ⟨hcheck, heval⟩ := Expr.evalAll_denotes (s := s) hact hes hplain 0
    rw [Expr.check, Expr.eval, heval]
    exact ⟨hcheck, rfl⟩

theorem spells_map {entries : Entries} (hk : ∀ x ∈ entries, x.1.InRange)
    (distinct : (entries.map (·.1)).Nodup) (hplain : ∀ x ∈ entries, x.2.Plain)
    (h : ∀ x ∈ entries, Spells x.2.renderChars x.2) :
    Spells (Value.map entries).renderChars (.map entries) := by
  intro rest ls hr hls
  have hentries : ∀ x ∈ entries, Writes (.item .entry)
      (Value.renderKey x.1 ++ ':' :: ' ' :: Value.renderChars x.2)
      (fun e => e.1.Denotes x.1.toValue ∧ e.2.Denotes x.2) := fun x hx =>
    writes_entry (spells_key (hk x hx)) (h x hx)
  have hclose : String.ofList ['\x7d'] = "\x7d" := by decide
  obtain ⟨vs, es, hvs, hd, hes⟩ := writes_items (by decide) hclose hentries rest ls hr hls
  have hopen : Lexeme.word ⟨.op, ['\x7b'], ['\x7b']⟩ = op "\x7b" := by decide
  refine ⟨⟨.op, ['\x7b'], ['\x7b']⟩ :: vs, .map es, ?_, ?_, ?_⟩
  · rw [renderChars_map]
    exact lexes_punctuation (by decide) hvs
  · rw [List.map_cons, hopen]
    exact .of_primary (.map hd)
  · intro s act hact
    obtain ⟨hcheck, heval⟩ := Expr.evalEntries_denotes (s := s) hact hes hplain 0
    rw [Expr.check, Expr.eval, heval]
    exact ⟨hcheck, Value.buildMap_toValue distinct⟩

/-! ### Every value -/

theorem Value.Plain.spells (h : v.Plain) : Spells v.renderChars v := by
  induction h with
  | int h => exact spells_int h
  | uint h => exact spells_uint h
  | string => exact spells_string _
  | bytes => exact spells_bytes _
  | bool => exact spells_bool _
  | null => exact spells_null
  | list h ih => exact spells_list h ih
  | map hk distinct hv ih => exact spells_map hk distinct hv ih
  | duration => exact spells_duration _
  | type h => exact spells_type h

/-- Compiling the text of a value succeeds, with the check and without, and the program evaluates to an
    equal value. -/
theorem Evaluator.render_evaluates (h : v.Plain) (ds : Declarations) (container : String)
    (disableCheck : Bool) {act : Activation} (hact : act.KeepsTypes) :
    ∃ p w, standard ⟨v.render, ds, container, disableCheck⟩ = .ok p ∧ p act = .ok w ∧ v.equal w = true := by
  have hend : Ends [] := nofun
  obtain ⟨vs, e, hvs, hd, he⟩ := h.spells [] [] hend .nil
  rw [List.append_nil, List.append_nil] at hvs
  have hparse : parse v.render = .ok e := by
    refine parse_ok_iff_lexes.mpr ⟨vs, ?_, hd⟩
    rw [Value.render, String.toList_ofList]
    exact hvs
  obtain ⟨hcheck, heval⟩ := he ⟨ds, container⟩ act hact
  refine ⟨program ⟨ds, container⟩ e, v, ?_, ?_, h.equal_self⟩
  · rw [standard, hparse]
    dsimp only
    rw [hcheck, ite_self]
  · rw [program, heval]
    rfl

end

/-- The least integer as a key, a text with a quote and a backslash, and a duration below a second. -/
theorem map_render_evaluates : ∃ p w,
    Evaluator.standard
        ⟨(Value.map [(.int (-0x8000000000000000), .list [.string "\"\\", .duration (-1500000)])]).render, [], "",
          false⟩ = .ok p ∧ p [] = .ok w ∧
      (Value.map [(.int (-0x8000000000000000), .list [.string "\"\\", .duration (-1500000)])]).equal w = true := by
  have hitems : ∀ v ∈ [Value.string "\"\\", .duration (-1500000)], v.Plain :=
    List.forall_mem_cons.mpr ⟨.string, List.forall_mem_cons.mpr ⟨.duration, nofun⟩⟩
  refine Evaluator.render_evaluates (.map ?_ (by decide) ?_) [] "" false ?_
  · exact List.forall_mem_cons.mpr ⟨by decide, nofun⟩
  · exact List.forall_mem_cons.mpr ⟨.list hitems, nofun⟩
  · exact fun _ _ => rfl

end CelSuite
