import CelSuite.Expr.Eval
import Mathlib.Data.List.Induction

/-! # A chain of selections stands for its longest name

A chain of selections spells a dotted name with each of its beginnings. Evaluation asks for the name of the whole chain
first and goes on to the operand when it stands for nothing, so the longest name that stands for a value decides, and
the fields after it are selected from that value one by one. -/

namespace CelSuite.Expr

variable {s : Scope} {act : Activation} {x name field : String} {fields : List String} {k : Nat} {v : Value}

/-- An identifier and the fields selected from it in turn. -/
def chain (x : String) (fields : List String) : Expr := fields.foldl select (.ident x)

/-- The name that a chain spells. -/
def dotted (x : String) (fields : List String) : String := ".".intercalate (x :: fields)

/-- What a name stands for: its binding, or else the built-in type of that name. -/
inductive Stands (act : Activation) (name : String) : Value → Prop
  | bound {v : Value} (h : Assoc.get? name act = some v) : Stands act name v
  | builtin (unbound : Assoc.get? name act = none) (h : name ∈ typeNames) : Stands act name (.type name)

/-- The most fields that an identifier forms a name with that stands for a value, and the value. -/
structure Longest (act : Activation) (x : String) (fields : List String) (k : Nat) (v : Value) : Prop where
  within : k ≤ fields.length
  stands : Stands act (dotted x (fields.take k)) v
  longest : ∀ j, k < j → j ≤ fields.length → ∀ w, ¬Stands act (dotted x (fields.take j)) w

/-- No beginning of a chain forms a name that stands for a value. -/
def Unnamed (act : Activation) (x : String) (fields : List String) : Prop :=
  ∀ k ≤ fields.length, ∀ v, ¬Stands act (dotted x (fields.take k)) v

/-- What the evaluation of a chain gives: the selections from the value of its longest name, or the error of its
    identifier. -/
def Outcome [MessageSystem] (s : Scope) (act : Activation) (x : String) (fields : List String)
    (r : Except EvalError Value) : Prop :=
  (∃ k v, Longest act x fields k v ∧ r = (fields.drop k).foldlM Operators.select v) ∨
    (Unnamed act x fields ∧ r = .error (if s.declares x then .unknownVariable else .undeclared x s.container))

/-! ### Names -/

theorem resolve?_eq_some : act.resolve? name = some v ↔ Stands act name v := by
  unfold Activation.resolve?
  constructor
  · intro h
    split at h
    · rename_i hget
      exact .bound (hget.trans h)
    · rename_i hget
      unfold builtinType? at h
      split at h
      · rename_i hmem
        cases h
        exact .builtin hget hmem
      · cases h
  · rintro (h | ⟨hget, hmem⟩)
    · rw [h]
    · rw [hget]
      exact if_pos hmem

theorem resolve?_eq_none : act.resolve? name = none ↔ ∀ v, ¬Stands act name v := by
  rw [Option.eq_none_iff_forall_ne_some]
  exact forall_congr' fun v => not_congr resolve?_eq_some

theorem dotted_nil (x : String) : dotted x [] = x := String.intercalate_singleton

theorem dotted_concat (x : String) (fields : List String) (field : String) :
    dotted x (fields ++ [field]) = dotted x fields ++ "." ++ field := by
  rw [dotted, ← List.cons_append, String.intercalate_append_of_ne_nil (List.cons_ne_nil _ _) (List.cons_ne_nil _ _),
    String.intercalate_singleton, dotted]

theorem chain_concat (x : String) (fields : List String) (field : String) :
    chain x (fields ++ [field]) = .select (chain x fields) field := by
  rw [chain, List.foldl_append]
  rfl

theorem qualifiedName?_chain (x : String) (fields : List String) :
    (chain x fields).qualifiedName? = some (dotted x fields) := by
  induction fields using List.reverseRecOn with
  | nil => rfl
  | append_singleton fields field ih => rw [chain_concat, qualifiedName?, ih, Option.map_some, dotted_concat]

/-! ### One field more -/

/-- A chain asks for its own name first and selects its last field when the name stands for nothing. -/
theorem eval_concat [MessageSystem] (s : Scope) (act : Activation) (x : String) (fields : List String)
    (field : String) :
    (chain x (fields ++ [field])).eval s act =
      match act.resolve? (dotted x (fields ++ [field])) with
      | some v => .ok v
      | none => (chain x fields).eval s act >>= fun v => Operators.select v field := by
  have hname : (Expr.select (chain x fields) field).qualifiedName? = some (dotted x (fields ++ [field])) := by
    rw [← chain_concat, qualifiedName?_chain]
  rw [chain_concat, eval, hname]
  rfl

/-- A beginning of a chain with a field more is a beginning of the chain or all of it. -/
theorem take_concat (hk : k ≤ (fields ++ [field]).length) :
    (k ≤ fields.length ∧ (fields ++ [field]).take k = fields.take k) ∨
      (fields ++ [field]).take k = fields ++ [field] := by
  rw [List.length_append, List.length_singleton] at hk
  obtain hk | rfl : k ≤ fields.length ∨ k = fields.length + 1 := by omega
  · exact .inl ⟨hk, List.take_append_of_le_length hk⟩
  · exact .inr (List.take_of_length_le (by simp))

theorem Longest.of_stands (h : Stands act (dotted x fields) v) : Longest act x fields fields.length v where
  within := Nat.le_refl _
  stands := by
    rw [List.take_length]
    exact h
  longest j hlt hle := absurd hlt (Nat.not_lt.mpr hle)

/-- A field more leaves the longest name when the name of the whole chain stands for nothing. -/
theorem Longest.concat (h : Longest act x fields k v) (hwhole : ∀ w, ¬Stands act (dotted x (fields ++ [field])) w) :
    Longest act x (fields ++ [field]) k v where
  within := by
    rw [List.length_append]
    exact Nat.le_add_right_of_le h.within
  stands := by
    rw [List.take_append_of_le_length h.within]
    exact h.stands
  longest j hlt hle := by
    obtain ⟨hj, htake⟩ | htake := take_concat hle
    · rw [htake]
      exact h.longest j hlt hj
    · rw [htake]
      exact hwhole

theorem Unnamed.concat (h : Unnamed act x fields) (hwhole : ∀ w, ¬Stands act (dotted x (fields ++ [field])) w) :
    Unnamed act x (fields ++ [field]) := by
  intro k hk
  obtain ⟨hk, htake⟩ | htake := take_concat hk
  · rw [htake]
    exact h k hk
  · rw [htake]
    exact hwhole

/-! ### Chains of any length -/

theorem outcome_ident [MessageSystem] (s : Scope) (act : Activation) (x : String) :
    Outcome s act x [] ((chain x []).eval s act) := by
  rw [chain, List.foldl_nil, eval, resolve]
  cases hname : act.resolve? x with
  | some v => exact .inl ⟨0, v, .of_stands (resolve?_eq_some.mp (dotted_nil x ▸ hname)), rfl⟩
  | none =>
    refine .inr ⟨fun k _ => ?_, ?_⟩
    · rw [List.take_nil, dotted_nil]
      exact resolve?_eq_none.mp hname
    · exact (apply_ite Except.error _ _ _).symm

theorem outcome_concat [MessageSystem] (h : Outcome s act x fields ((chain x fields).eval s act)) :
    Outcome s act x (fields ++ [field]) ((chain x (fields ++ [field])).eval s act) := by
  rw [eval_concat]
  cases hname : act.resolve? (dotted x (fields ++ [field])) with
  | some v =>
    refine .inl ⟨_, v, .of_stands (resolve?_eq_some.mp hname), ?_⟩
    rw [List.drop_length]
    rfl
  | none =>
    have hwhole := resolve?_eq_none.mp hname
    obtain ⟨k, v, hlongest, heval⟩ | ⟨hunnamed, heval⟩ := h
    · refine .inl ⟨k, v, hlongest.concat hwhole, ?_⟩
      rw [heval, List.drop_append_of_le_length hlongest.within, List.foldlM_append]
      simp only [List.foldlM_cons, List.foldlM_nil, bind_pure]
    · exact .inr ⟨hunnamed.concat hwhole, by rw [heval]; rfl⟩

theorem select_map_eq_ok [MessageSystem] {entries : Entries} {field : String} {v : Value} :
    Operators.select (.map entries) field = .ok v ↔ Operators.index (.map entries) (.string field) = .ok v := by
  simp only [Operators.select, Operators.index]
  cases Value.lookup entries (.string field) with
  | some w => exact Iff.rfl
  | none => exact ⟨nofun, nofun⟩

/-- The longest name at the beginning of a chain that stands for a value decides: the value of the chain is what the
    fields after it select from that value in turn, to the first selection that fails. A chain without such a name is
    in error about its identifier, whatever its fields. From a map a field selects what indexing by its name gives. -/
theorem chain_stands_for_longest_name [MessageSystem] (s : Scope) (act : Activation) (x : String)
    (fields : List String) :
    ((∃ k v, Longest act x fields k v ∧
        (chain x fields).eval s act = (fields.drop k).foldlM Operators.select v) ∨
      ((∀ k ≤ fields.length, ∀ v, ¬Stands act (dotted x (fields.take k)) v) ∧
        (chain x fields).eval s act =
          .error (if s.declares x then .unknownVariable else .undeclared x s.container))) ∧
    ∀ entries field v,
      Operators.select (.map entries) field = .ok v ↔ Operators.index (.map entries) (.string field) = .ok v := by
  refine ⟨?_, fun _ _ _ => select_map_eq_ok⟩
  -- from the end: a chain asks for its own name before those of its beginnings
  induction fields using List.reverseRecOn with
  | nil => exact outcome_ident s act x
  | append_singleton fields field ih => exact outcome_concat ih

end CelSuite.Expr
