import CelSuite.Proofs.Assoc
import CelSuite.StandIns

/-! # Paths of fields through stand-in messages

A stand-in answers a field by what was supplied for it, and else as a new message of its type would. So what was
supplied is seen at the first field of a path only. A path from the nested type without supplied fields is answered
when it goes to `child` any number of times, then perhaps to `payload`, then perhaps to a scalar. -/

namespace CelSuite.StandIns

/-! ### What a stand-in answers -/

inductive Scalar where
  | int32
  | int64
  | sint32
  | sint64
  | string
  | bool

namespace Scalar

def name : Scalar → String
  | .int32 => "single_int32"
  | .int64 => "single_int64"
  | .sint32 => "single_sint32"
  | .sint64 => "single_sint64"
  | .string => "single_string"
  | .bool => "single_bool"

/-- What a scalar is when nothing was supplied for it. -/
def value : Scalar → Value
  | .int32 | .int64 | .sint32 | .sint64 => .int 0
  | .string => .string ""
  | .bool => .bool false

def typeName : Scalar → String
  | .int32 | .int64 | .sint32 | .sint64 => "int"
  | .string => "string"
  | .bool => "bool"

end Scalar

/-- The two stand-ins of a container. -/
inductive Kind where
  | flat
  | nested

namespace Kind

def type (c : String) : Kind → MessageType
  | .flat => flatType c
  | .nested => nestedType c

def make (k : Kind) (c : String) (o : Origin) (fields : List (String × Value)) : Value :=
  (k.type c).create o fields

def typeName (c : String) : Kind → String
  | .flat => c ++ ".TestAllTypes"
  | .nested => c ++ ".NestedTestAllTypes"

end Kind

/-- What a stand-in answers for a field. A message that it answers without having been supplied with it is new and
    has no supplied fields. -/
inductive Answers (c : String) (o : Origin) (k : Kind) (fields : List (String × Value)) : String → Option Value → Prop
  | supplied {name : String} {v : Value} (given : Assoc.get? name fields = some v) : Answers c o k fields name (some v)
  | child (nested : k = .nested) (unset : Assoc.get? "child" fields = none) :
    Answers c o k fields "child" (some (Kind.nested.make c o []))
  | payload (nested : k = .nested) (unset : Assoc.get? "payload" fields = none) :
    Answers c o k fields "payload" (some (Kind.flat.make c o []))
  | scalar (s : Scalar) (unset : Assoc.get? s.name fields = none) : Answers c o k fields s.name (some s.value)
  | nothing {name : String} (unset : Assoc.get? name fields = none) (scalar : ∀ s : Scalar, s.name ≠ name)
    (message : k = .nested → name ≠ "child" ∧ name ≠ "payload") : Answers c o k fields name none

variable {c name : String} {o o₁ : Origin} {k : Kind} {fields : List (String × Value)} {answer : Option Value}
  {v x : Value} {names : List String} {s : Scalar}

theorem flatName_ne_nestedName (c : String) : flatName c ≠ nestedName c := by
  intro h
  have hlength := congrArg String.length h
  rw [flatName, nestedName, String.length_append, String.length_append] at hlength
  have hsuffix := Nat.add_left_cancel hlength
  revert hsuffix
  decide

theorem defaults_flat (c : String) : (flatType c).defaults = scalars := by
  rw [MessageType.defaults, flatType, schema, Assoc.get?, if_pos rfl]
  rfl

theorem defaults_nested (c : String) : (nestedType c).defaults =
    ("child", .message (nestedName c)) :: ("payload", .message (flatName c)) :: scalars := by
  rw [MessageType.defaults, nestedType, schema, Assoc.get?, if_neg (flatName_ne_nestedName c), Assoc.get?, if_pos rfl]
  rfl

theorem get?_scalars (sch : Schema) (o : Origin) (s : Scalar) :
    (Assoc.get? s.name scalars).map (·.value sch o) = some s.value := by
  cases s <;> rfl

theorem get?_scalars_of_ne (h : ∀ s : Scalar, s.name ≠ name) : Assoc.get? name scalars = none := by
  refine Assoc.get?_eq_none_iff.mpr fun hmem => ?_
  simp only [scalars, List.map_cons, List.map_nil, List.mem_cons, List.not_mem_nil, or_false] at hmem
  rcases hmem with rfl | rfl | rfl | rfl | rfl | rfl
  · exact h .int32 rfl
  · exact h .int64 rfl
  · exact h .sint32 rfl
  · exact h .sint64 rfl
  · exact h .string rfl
  · exact h .bool rfl

theorem field?_supplied (given : Assoc.get? name fields = some v) :
    (k.make c o₁ fields).field? o name = some v := by
  rw [Kind.make, MessageType.create, Value.field?, MessageType.answer, given]

theorem field?_unset (h : Assoc.get? name fields = none) :
    (k.make c o₁ fields).field? o name =
      (Assoc.get? name (k.type c).defaults).map (·.value (k.type c).schema o) := by
  rw [Kind.make, MessageType.create, Value.field?, MessageType.answer, h]

theorem get?_defaults (hmessage : k = .nested → name ≠ "child" ∧ name ≠ "payload") :
    Assoc.get? name (k.type c).defaults = Assoc.get? name scalars := by
  cases k with
  | flat => rw [Kind.type, defaults_flat]
  | nested =>
    obtain ⟨hchild, hpayload⟩ := hmessage rfl
    rw [Kind.type, defaults_nested, Assoc.get?, if_neg hchild.symm, Assoc.get?, if_neg hpayload.symm]

theorem scalar_name_ne (s : Scalar) : s.name ≠ "child" ∧ s.name ≠ "payload" := by
  cases s <;> decide

theorem field?_of_answers (h : Answers c o k fields name answer) :
    (k.make c o₁ fields).field? o name = answer := by
  cases h with
  | supplied given => exact field?_supplied given
  | child nested unset =>
    subst nested
    rw [field?_unset unset, Kind.type, defaults_nested]
    rfl
  | payload nested unset =>
    subst nested
    rw [field?_unset unset, Kind.type, defaults_nested]
    rfl
  | scalar s unset => rw [field?_unset unset, get?_defaults fun _ => scalar_name_ne s, get?_scalars]
  | nothing unset scalar message =>
    rw [field?_unset unset, get?_defaults message, get?_scalars_of_ne scalar, Option.map_none]

theorem exists_answer (c : String) (o : Origin) (k : Kind) (fields : List (String × Value)) (name : String) :
    ∃ answer, Answers c o k fields name answer := by
  cases hunset : Assoc.get? name fields with
  | some v => exact ⟨_, .supplied hunset⟩
  | none =>
    -- Nothing was supplied, so it is the name that tells which default there is.
    by_cases hscalar : ∃ s : Scalar, s.name = name
    · obtain ⟨s, rfl⟩ := hscalar
      exact ⟨_, .scalar s hunset⟩
    · by_cases hchild : k = .nested ∧ name = "child"
      · obtain ⟨hk, rfl⟩ := hchild
        exact ⟨_, .child hk hunset⟩
      · by_cases hpayload : k = .nested ∧ name = "payload"
        · obtain ⟨hk, rfl⟩ := hpayload
          exact ⟨_, .payload hk hunset⟩
        · exact ⟨_, .nothing hunset (not_exists.mp hscalar) fun hk =>
            ⟨fun h => hchild ⟨hk, h⟩, fun h => hpayload ⟨hk, h⟩⟩⟩

theorem field?_eq_iff : (k.make c o₁ fields).field? o name = answer ↔ Answers c o k fields name answer := by
  constructor
  · rintro rfl
    obtain ⟨answer, h⟩ := exists_answer c o k fields name
    rw [field?_of_answers h]
    exact h
  · exact field?_of_answers

/-! ### Paths -/

theorem follow?_cons (v : Value) (o : Origin) (name : String) (names : List String) :
    v.follow? o (name :: names) = (v.field? o name).bind fun w => w.follow? o names :=
  rfl

/-- What was supplied is not seen beyond the field it was supplied for. -/
theorem follow?_supplied : (k.make c o₁ fields).follow? o (name :: names) =
    match Assoc.get? name fields with
    | some v => v.follow? o names
    | none => (k.make c o []).follow? o (name :: names) := by
  rw [follow?_cons]
  split
  case h_1 v given =>
    rw [field?_supplied given]
    rfl
  case h_2 hunset =>
    rw [follow?_cons, field?_unset hunset, field?_unset rfl]

theorem follow?_scalar (s : Scalar) : s.value.follow? o names = some x ↔ names = [] ∧ s.value = x := by
  cases names with
  | nil => simp [Value.follow?]
  | cons name names =>
    have hfield : s.value.field? o name = none := by cases s <;> rfl
    simp [follow?_cons, hfield]

/-- A way through messages of the nested type: to the child some number of times, then perhaps to the payload, then
    perhaps to a scalar. -/
structure Route where
  depth : Nat
  payload : Bool
  scalar : Option Scalar

namespace Route

def path (r : Route) : List String :=
  List.replicate r.depth "child" ++ ((if r.payload then ["payload"] else []) ++ (r.scalar.map Scalar.name).toList)

example : (⟨2, true, some .int64⟩ : Route).path = ["child", "child", "payload", "single_int64"] := rfl

/-- What is at the end of a route that begins at an instance with the origin `o₁`. -/
def target (c : String) (o₁ o : Origin) (r : Route) : Value :=
  match r.scalar, r.payload with
  | some s, _ => s.value
  | none, true => Kind.flat.make c o []
  | none, false => Kind.nested.make c (if r.depth = 0 then o₁ else o) []

def typeName (c : String) (r : Route) : String :=
  match r.scalar, r.payload with
  | some s, _ => s.typeName
  | none, true => Kind.flat.typeName c
  | none, false => Kind.nested.typeName c

def deeper (r : Route) : Route := { r with depth := r.depth + 1 }

theorem path_deeper (r : Route) : r.deeper.path = "child" :: r.path := rfl

theorem target_deeper (c : String) (o₁ o : Origin) (r : Route) : r.deeper.target c o₁ o = r.target c o o := by
  obtain ⟨depth, payload, scalar⟩ := r
  rcases scalar with - | s
  · cases payload
    · show Kind.nested.make c o [] = Kind.nested.make c (if depth = 0 then o else o) []
      rw [ite_self]
    · rfl
  · rfl

theorem typeName_target (c : String) (o₁ o : Origin) (r : Route) : (r.target c o₁ o).typeName = r.typeName c := by
  obtain ⟨depth, payload, scalar⟩ := r
  rcases scalar with - | s
  · cases payload <;> rfl
  · cases s <;> rfl

end Route

/-- Every route is answered by what is at its end. -/
theorem follow?_route (c : String) (o₁ o : Origin) (r : Route) :
    (Kind.nested.make c o₁ []).follow? o r.path = some (r.target c o₁ o) := by
  obtain ⟨depth, payload, scalar⟩ := r
  induction depth generalizing o₁ with
  | zero =>
    have hscalar (o₁ : Origin) (k : Kind) (s : Scalar) : (k.make c o₁ []).follow? o [s.name] = some s.value := by
      rw [follow?_cons, field?_of_answers (.scalar s rfl)]
      rfl
    have hpayload (names : List String) :
        (Kind.nested.make c o₁ []).follow? o ("payload" :: names) = (Kind.flat.make c o []).follow? o names := by
      rw [follow?_cons, field?_of_answers (.payload rfl rfl)]
      rfl
    cases payload with
    | false =>
      cases scalar with
      | none => rfl
      | some s => exact hscalar o₁ .nested s
    | true =>
      cases scalar with
      | none => exact hpayload []
      | some s => exact (hpayload [s.name]).trans (hscalar o .flat s)
  | succ depth ih =>
    -- The child is a new instance, and from there the route is one step shorter.
    let r : Route := ⟨depth, payload, scalar⟩
    show (Kind.nested.make c o₁ []).follow? o r.deeper.path = some (r.deeper.target c o₁ o)
    rw [Route.path_deeper, Route.target_deeper, follow?_cons, field?_of_answers (.child rfl rfl)]
    exact ih o

/-- What is answered from a flat instance without supplied fields is the instance itself or a scalar. -/
theorem follow?_flat (h : (Kind.flat.make c o₁ []).follow? o names = some x) :
    (names = [] ∧ Kind.flat.make c o₁ [] = x) ∨ ∃ s : Scalar, names = [s.name] ∧ s.value = x := by
  cases names with
  | nil => exact .inl ⟨rfl, Option.some.inj h⟩
  | cons name names =>
    obtain ⟨answer, hanswer⟩ := exists_answer c o .flat [] name
    rw [follow?_cons, field?_of_answers hanswer] at h
    cases hanswer with
    | supplied given => cases given
    | child nested | payload nested => cases nested
    | scalar s =>
      obtain ⟨rfl, hx⟩ := (follow?_scalar s).mp h
      exact .inr ⟨s, rfl, hx⟩
    | nothing => cases h

/-- Only routes are answered. -/
theorem exists_route (h : (Kind.nested.make c o₁ []).follow? o names = some x) :
    ∃ r : Route, r.path = names ∧ r.target c o₁ o = x := by
  induction names generalizing o₁ with
  | nil => exact ⟨⟨0, false, none⟩, rfl, Option.some.inj h⟩
  | cons name names ih =>
    obtain ⟨answer, hanswer⟩ := exists_answer c o .nested [] name
    rw [follow?_cons, field?_of_answers hanswer] at h
    cases hanswer with
    | supplied given => cases given
    | child =>
      obtain ⟨r, rfl, rfl⟩ := ih h
      exact ⟨r.deeper, r.path_deeper, r.target_deeper c o₁ o⟩
    | payload =>
      rcases follow?_flat h with ⟨rfl, hx⟩ | ⟨s, rfl, hx⟩
      · exact ⟨⟨0, true, none⟩, rfl, hx⟩
      · exact ⟨⟨0, true, some s⟩, rfl, hx⟩
    | scalar s =>
      obtain ⟨rfl, hx⟩ := (follow?_scalar s).mp h
      exact ⟨⟨0, false, some s⟩, rfl, hx⟩
    | nothing => cases h

/-- Stand-ins answer every path of fields: what was supplied, else a message of the nested type for `child` and one
    of the flat type for `payload` on the nested type, else a scalar on either, else nothing, and the rest of the
    path goes on from there. Without supplied fields it is the routes that are answered. -/
theorem stand_ins_answer_paths (c : String) (o₁ o : Origin) (fields : List (String × Value)) :
    (∀ k : Kind, (k.make c o₁ fields).typeName = k.typeName c) ∧
    (∀ (k : Kind) name answer, (k.make c o₁ fields).field? o name = answer ↔ Answers c o k fields name answer) ∧
    (∀ k : Kind, (k.make c o₁ fields).follow? o [] = some (k.make c o₁ fields)) ∧
    (∀ (k : Kind) name names x, (k.make c o₁ fields).follow? o (name :: names) = some x ↔
      ∃ v, Answers c o k fields name (some v) ∧ v.follow? o names = some x) ∧
    (∀ names x, (Kind.nested.make c o₁ []).follow? o names = some x ↔
      ∃ r : Route, r.path = names ∧ r.target c o₁ o = x) ∧
    (∀ r : Route, (r.target c o₁ o).typeName = r.typeName c) ∧
    ∀ (k : Kind) name names, (k.make c o₁ fields).follow? o (name :: names) =
      match Assoc.get? name fields with
      | some v => v.follow? o names
      | none => (k.make c o []).follow? o (name :: names) := by
  refine ⟨?typeName, fun k name answer => field?_eq_iff, fun k => rfl, ?step, ?routes,
    Route.typeName_target c o₁ o, ?supplied⟩
  case typeName => exact fun k => by cases k <;> rfl
  case step =>
    intro k name names x
    rw [follow?_cons, Option.bind_eq_some_iff]
    exact exists_congr fun v => and_congr_left fun _ => field?_eq_iff
  case routes =>
    intro names x
    constructor
    · exact exists_route
    · rintro ⟨r, rfl, rfl⟩
      exact follow?_route c o₁ o r
  case supplied => exact fun k name names => follow?_supplied

end CelSuite.StandIns
