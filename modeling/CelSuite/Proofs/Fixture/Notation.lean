import CelSuite.Proofs.Fixture.Documents
import CelSuite.Proofs.Fixture.Durations
import CelSuite.Proofs.Fixture.Walk
import CelSuite.Proofs.Rendering.Numbers
import CelSuite.Proofs.Rendering.Texts
import CelSuite.Proofs.Values.Equality
import Mathlib.Data.List.Nodup

/-! # A literal for every value

Every value but a NaN and a message has a literal, in plain data that a JSON text can hold. Integers are written as
texts, infinities as words, bytes as escapes and a duration as its two fields; a map is a list of entries, none of
which looks like a group. What is written so is read back as the same value. -/

namespace CelSuite

/-! ### Writing -/

/-- A double as a payload: a number, or a word for an infinity. -/
def Double.toDocument (x : Double) : Document :=
  if x.isFinite then .number x else .string (if x.isNegative then "-inf" else "inf")

/-- A key as a literal. -/
def MapKey.toDocument : MapKey → Document
  | .int n => .literal ScalarKind.int64.name (.string n.repr)
  | .uint n => .literal ScalarKind.uint64.name (.string n.repr)
  | .bool b => .literal ScalarKind.bool.name (.bool b)
  | .string s => .literal ScalarKind.string.name (.string s)

/-- An entry of a map literal. -/
def Document.entry (k v : Document) : Document := .object .mapping [("key", k), ("value", v)]

/-- An integer field of an object literal. -/
def Document.field (name : String) (n : Int) : Document :=
  .object .mapping [("name", .string name), ("value", (MapKey.int n).toDocument)]

/-- A duration as an object literal. -/
def Duration.toDocument (total : Int) : Document :=
  .literal "object_value" (.object .mapping [("type_url", .string durationNamespace),
    ("fields", .array [.field "seconds" (seconds total), .field "nanos" (nanos total)])])

namespace Value

mutual

/-- A value as a literal. A message has none. -/
def toDocument : Value → Document
  | .int n => (MapKey.int n).toDocument
  | .uint n => (MapKey.uint n).toDocument
  | .double x => .literal ScalarKind.double.name x.toDocument
  | .string s => (MapKey.string s).toDocument
  | .bytes bs => .literal ScalarKind.bytes.name (.string (String.ofList (bs.flatMap renderByte)))
  | .bool b => (MapKey.bool b).toDocument
  | .null => .literal ScalarKind.null.name .null
  | .list items => .literal "list_value" (.array (itemsToDocuments items))
  | .map entries => .literal "map_value" (.array (entriesToDocuments entries))
  | .duration total => Duration.toDocument total
  | .type name => .literal ScalarKind.type.name (.string name)
  | .message _ _ _ => .undefined

def itemsToDocuments : List Value → List Document
  | [] => []
  | v :: vs => toDocument v :: itemsToDocuments vs

def entriesToDocuments : Entries → List Document
  | [] => []
  | (k, v) :: r => .entry k.toDocument (toDocument v) :: entriesToDocuments r

end

theorem itemsToDocuments_eq (items : List Value) : itemsToDocuments items = items.map toDocument := by
  induction items with
  | nil => rfl
  | cons v vs ih => rw [itemsToDocuments, ih, List.map_cons]

theorem entriesToDocuments_eq (entries : Entries) :
    entriesToDocuments entries = entries.map fun e => .entry e.1.toDocument e.2.toDocument := by
  induction entries with
  | nil => rfl
  | cons e r ih => rw [entriesToDocuments, ih, List.map_cons]

/-- What a value on its own has to keep to have a literal: numbers and keys are in their ranges, keys are distinct, a
    type is a built-in one, and the value is neither a NaN nor a message. -/
def Expressible : Value → Prop
  | .double x => x.isNaN = false
  | .type name => name ∈ typeNames
  | .message _ _ _ => False
  | v => v.Sound

end Value

/-! ### Plain data -/

namespace Document

theorem json_scalar (k : ScalarKind) {body : Document} (h : Json body) : Json (literal k.name body) :=
  json_literal (by cases k <;> decide) h

theorem json_key (k : MapKey) : Json k.toDocument := by
  cases k with
  | int n => exact json_scalar .int64 (.string _)
  | uint n => exact json_scalar .uint64 (.string _)
  | bool b => exact json_scalar .bool (.bool b)
  | string s => exact json_scalar .string (.string s)

theorem json_double (x : Double) : Json x.toDocument := by
  unfold Double.toDocument
  split
  · rename_i hfinite
    exact .number hfinite
  · exact .string _

theorem json_duration (total : Int) : Json (Duration.toDocument total) := by
  have hfield (name : String) (n : Int) : Json (field name n) :=
    json_pair (by decide) (by decide) (.string name) (json_key (.int n))
  have hfields : Json (.array [field "seconds" (Duration.seconds total), field "nanos" (Duration.nanos total)]) :=
    .array (List.forall_mem_cons.mpr ⟨hfield _ _, List.forall_mem_singleton.mpr (hfield _ _)⟩)
  exact json_literal (by decide) (json_pair (by decide) (by decide) (.string _) hfields)

end Document

open Document

theorem Value.json_toDocument {v : Value} (h : v.Every Expressible) : v.toDocument.Json := by
  induction h with
  | @intro v here inside ih =>
    cases v with
    | int n => exact json_key (.int n)
    | uint n => exact json_key (.uint n)
    | double x => exact json_scalar .double (json_double x)
    | string s => exact json_key (.string s)
    | bytes bs => exact json_scalar .bytes (.string _)
    | bool b => exact json_key (.bool b)
    | null => exact json_scalar .null .null
    | list items =>
      rw [toDocument, itemsToDocuments_eq]
      exact json_literal (by decide) (.array (List.forall_mem_map.mpr ih))
    | map entries =>
      rw [toDocument, entriesToDocuments_eq]
      refine json_literal (by decide) (.array (List.forall_mem_map.mpr fun e he => ?_))
      exact json_pair (by decide) (by decide) (json_key e.1) (ih e.2 (List.mem_map_of_mem he))
    | duration total => exact json_duration total
    | type name => exact json_scalar .type (.string name)
    | message => exact here.elim

/-! ### Reading back -/

/-- A double that is neither finite nor a NaN is an infinity. -/
theorem Double.eq_infinity {x : Double} (hnan : x.isNaN = false) (hfinite : ¬x.isFinite = true) :
    x = infinity x.isNegative := by
  rw [isNaN, decide_eq_false_iff_not] at hnan
  rw [isFinite, decide_eq_true_eq] at hfinite
  have hmagnitude : x.bits.toNat % signBit = infinityBits := by
    rw [magnitude] at hnan hfinite
    omega
  have hbits : x.bits.toNat = if x.isNegative = true then signBit + infinityBits else infinityBits := by
    have hlt : x.bits.toNat < 18446744073709551616 := x.bits.toNat_lt
    rw [signBit, infinityBits] at hmagnitude ⊢
    split
    · rename_i hneg
      rw [isNegative, decide_eq_true_eq, signBit] at hneg
      omega
    · rename_i hneg
      rw [isNegative, decide_eq_true_eq, signBit] at hneg
      omega
  rw [infinity, ofMagnitude, ← hbits]
  exact congrArg Double.mk (UInt64.ofNat_toNat).symm

namespace Document

/-- A document that is read as a literal for a value. -/
def Denotes (d : Document) (v : Value) : Prop := ∃ n : Node, d.toNode = .ok n ∧ n.toValue .standard = .ok v

variable {body d k : Document} {ds : List Document} {key : MapKey} {v : Value} {vs : List Value} {entries : Entries}
  {p : Payload}

theorem denotes_scalar (kind : ScalarKind) (hp : body.toPayload kind.name = .ok p) (hv : Reads kind p v) :
    (literal kind.name body).Denotes v :=
  ⟨.scalar kind.name p, toNode_scalar kind hp, Node.toValue_scalar_eq_ok.mpr ⟨kind, rfl, hv⟩⟩

theorem denotes_list (h : List.Forall₂ Denotes ds vs) : (literal "list_value" (.array ds)).Denotes (.list vs) := by
  obtain ⟨ns, hns, hvs⟩ := exists_forall₂_middle h
  exact ⟨.list ns, toNode_list hns, Node.toValue_list_eq_ok.mpr ⟨vs, hvs, rfl⟩⟩

/-- A document that is read as an entry for a key and a value. -/
def DenotesEntry (d : Document) (e : MapKey × Value) : Prop :=
  ∃ nm : Node × Node, d.toEntry = .ok nm ∧
    nm.1.toValue .standard = .ok e.1.toValue ∧ nm.2.toValue .standard = .ok e.2

theorem denotes_entry (hk : k.Denotes key.toValue) (hd : d.Denotes v) : (entry k d).DenotesEntry (key, v) := by
  obtain ⟨n, hn, hkey⟩ := hk
  obtain ⟨m, hm, hv⟩ := hd
  exact ⟨(n, m), toEntry_eq_ok.mpr ⟨k, d, rfl, rfl, hn, hm⟩, hkey, hv⟩

theorem denotes_map (hgroup : ∀ d ∈ ds, d.isGroup = false) (h : List.Forall₂ DenotesEntry ds entries)
    (distinct : (entries.map (·.1)).Nodup) : (literal "map_value" (.array ds)).Denotes (.map entries) := by
  obtain ⟨es, hes, hentries⟩ := exists_forall₂_middle h
  have hput : Assoc.putAll [] entries = entries := Assoc.putAll_fresh distinct
  refine ⟨.map [es], toNode_map hgroup hes, Node.toValue_map_eq_ok.mpr ⟨entries, ?_, congrArg Value.map hput⟩⟩
  rw [List.flatten_cons, List.flatten_nil, List.append_nil]
  refine hentries.imp fun e kv hekv => ⟨kv.1.toValue, hekv.1, ?_, hekv.2⟩
  rw [Node.asKey, Value.key?_toValue]

theorem denotes_key (key : MapKey) (h : key.InRange) : key.toDocument.Denotes key.toValue := by
  cases key with
  | int n => exact denotes_scalar .int64 rfl (.int64 (.text (Text.signedInteger?_repr n)) h)
  | uint n => exact denotes_scalar .uint64 rfl (.uint64 (.text (Text.signedInteger?_repr n)) h)
  | bool b => exact denotes_scalar .bool rfl (.bool (.bool b))
  | string s => exact denotes_scalar .string rfl (.string s)

theorem denotes_double {x : Double} (h : x.isNaN = false) :
    (literal ScalarKind.double.name x.toDocument).Denotes (.double x) := by
  unfold Double.toDocument
  split
  · exact denotes_scalar .double rfl (.double (.number x))
  · rename_i hfinite
    have hx := Double.eq_infinity h hfinite
    cases hneg : x.isNegative with
    | false =>
      rw [hneg] at hx
      rw [hx]
      exact denotes_scalar .double rfl (.double .infinity)
    | true =>
      rw [hneg] at hx
      rw [hx]
      exact denotes_scalar .double rfl (.double .negativeInfinity)

theorem denotes_bytes (bs : List UInt8) :
    (literal ScalarKind.bytes.name (.string (String.ofList (bs.flatMap renderByte)))).Denotes (.bytes bs) := by
  have hdecode : Text.decodeBytes (String.ofList (bs.flatMap renderByte)).toList = .ok bs := by
    rw [String.toList_ofList, decodeBytes_rendered]
  exact denotes_scalar .bytes rfl (.bytes (.text hdecode))

theorem denotes_type {name : String} (h : name ∈ typeNames) :
    (literal ScalarKind.type.name (.string name)).Denotes (.type name) := by
  have hself : ∀ name ∈ typeNames, (name, name) ∈ fixtureTypes := by decide
  exact denotes_scalar .type rfl (.type (hself name h))

theorem denotes_duration (total : Int) : (Duration.toDocument total).Denotes (.duration total) := by
  have hfield (name : String) (n : Int) :
      (field name n).toField = .ok ⟨name, ScalarKind.int64.name, .string n.repr⟩ :=
    toField_eq_ok.mpr ⟨_, rfl, rfl, toNode_scalar .int64 rfl⟩
  -- The fields are read without a look at the range of their kind, so durations of any size are written so.
  have hvalue : durationOfFields [⟨"seconds", ScalarKind.int64.name, .string (Duration.seconds total).repr⟩,
      ⟨"nanos", ScalarKind.int64.name, .string (Duration.nanos total).repr⟩] = .ok (.duration total) :=
    durationOfFields_eq_ok.mpr ⟨_, _, _, _, _, _, rfl, .text (Text.signedInteger?_repr _),
      .text (Text.signedInteger?_repr _), Duration.parts_of_total total,
      congrArg Value.duration (Duration.ofParts_of_total total).symm⟩
  exact ⟨.object durationNamespace _, toNode_object rfl rfl (.cons (hfield _ _) (.cons (hfield _ _) .nil)),
    Node.toValue_object_eq_ok.mpr ⟨rfl, hvalue⟩⟩

end Document

namespace Value

variable {v : Value}

theorem denotes_toDocument (h : v.Every Expressible) : v.toDocument.Denotes v := by
  -- On all that is inside the value, so that items and values of entries are read back by hypothesis.
  induction h with
  | @intro v here inside ih =>
    cases v with
    | int n => exact denotes_key (.int n) here
    | uint n => exact denotes_key (.uint n) here
    | double x => exact denotes_double here
    | string s => exact denotes_key (.string s) trivial
    | bytes bs => exact denotes_bytes bs
    | bool b => exact denotes_key (.bool b) trivial
    | null => exact denotes_scalar .null rfl (.null .null)
    | list items =>
      rw [toDocument, itemsToDocuments_eq]
      exact denotes_list (List.forall₂_map_left_iff.mpr (List.forall₂_same.mpr ih))
    | map entries =>
      obtain ⟨hrange, distinct⟩ := here
      rw [toDocument, entriesToDocuments_eq]
      refine denotes_map (List.forall_mem_map.mpr fun e he => rfl)
        (List.forall₂_map_left_iff.mpr (List.forall₂_same.mpr fun e he => ?_)) distinct
      exact denotes_entry (denotes_key e.1 (hrange e he)) (ih e.2 (List.mem_map_of_mem he))
    | duration total => exact denotes_duration total
    | type name => exact denotes_type here
    | message => exact here.elim

/-- The literal of a value, in data that a JSON text can hold, is read as a literal with that very value, which is
    equal to itself. -/
theorem toDocument_reads_back (h : v.Every Expressible) :
    v.toDocument.Json ∧ ∃ n, v.toDocument.toNode = .ok n ∧ n.toValue .standard = .ok v ∧ v.equal v = true := by
  have hequal : v.equal v = true := by
    refine equal_self (h.mono fun w hw => ?_)
    cases w with
    | double x => exact ⟨trivial, hw⟩
    | map entries => exact ⟨hw.2, trivial⟩
    | _ => exact ⟨trivial, trivial⟩
  obtain ⟨n, hn, hv⟩ := denotes_toDocument h
  exact ⟨json_toDocument h, n, hn, hv, hequal⟩

/-- A map from a negative key to an infinity and a negative duration. -/
theorem negative_duration_reads_back :
    (map [(.int (-1), list [double (.infinity true), duration (-1500000000)])]).Every Expressible ∧
      ∃ n, (Document.literal "map_value" (.array [.entry (.literal "int64_value" (.string "-1"))
        (.literal "list_value" (.array [.literal "double_value" (.string "-inf"), .literal "object_value"
          (.object .mapping [("type_url", .string "type.googleapis.com/google.protobuf.Duration"),
            ("fields", .array [.field "seconds" (-1), .field "nanos" (-500000000)])])]))])).toNode = .ok n ∧
        n.toValue .standard = .ok (map [(.int (-1), list [double (.infinity true), duration (-1500000000)])]) := by
  have hv : (map [(.int (-1), list [double (.infinity true), duration (-1500000000)])]).Every Expressible := by
    refine every_map_iff.mpr ⟨⟨by decide, by decide⟩, List.forall_mem_singleton.mpr (every_list_iff.mpr ⟨trivial, ?_⟩)⟩
    exact List.forall_mem_cons.mpr ⟨every_of_leaf rfl rfl, List.forall_mem_singleton.mpr (every_of_leaf rfl trivial)⟩
  obtain ⟨-, n, hn, hvalue, -⟩ := toDocument_reads_back hv
  exact ⟨hv, n, hn, hvalue⟩

end Value

end CelSuite
