import CelSuite.Expr.Check
import CelSuite.Proofs.Safety.Exceptions

/-! # Chains of selections

An identifier or a chain of selections from one can mean any of its dotted names, the longest first. What
it evaluates to when none of them has a value depends on its head alone, while the check looks at every
dotted name of it. -/

namespace CelSuite.Expr

variable {s : Scope} {act : Activation} {c e : Expr} {head : String} {err : EvalError}

/-- The identifier that a chain begins with. -/
def head? : Expr → Option String
  | .ident name => some name
  | .select operand _ => operand.head?
  | _ => none

/-- The dotted names of a chain and of the chains it begins with, the longest first. -/
def chainNames : Expr → List String
  | .ident name => [name]
  | .select operand field => (Expr.select operand field).qualifiedName?.toList ++ operand.chainNames
  | _ => []

mutual

/-- The chains of an expression that are not part of a longer one. -/
def chains : Expr → List Expr
  | .literal _ | .text _ => []
  | .ident name => [.ident name]
  | .select operand field =>
    if (Expr.select operand field).qualifiedName? = none then operand.chains else [.select operand field]
  | .index operand i => operand.chains ++ i.chains
  | .call _ args => chainsAll args
  | .methodCall target _ args => target.chains ++ chainsAll args
  | .list items => chainsAll items
  | .map entries => chainsEntries entries
  | .message _ fields => chainsFields fields
  | .unary _ operand => operand.chains
  | .binary _ left right => left.chains ++ right.chains
  | .conditional cond yes no => cond.chains ++ yes.chains ++ no.chains

def chainsAll : List Expr → List Expr
  | [] => []
  | e :: es => e.chains ++ chainsAll es

def chainsEntries : List (Expr × Expr) → List Expr
  | [] => []
  | (k, v) :: r => k.chains ++ v.chains ++ chainsEntries r

def chainsFields : List (String × Expr) → List Expr
  | [] => []
  | (_, v) :: r => v.chains ++ chainsFields r

end

/-- A chain that the check lets pass for a dotted name of it and that has no value: the identifier it
    begins with is neither declared nor a type, and no dotted name of it has a value. -/
structure Dangling (s : Scope) (act : Activation) (c : Expr) (head : String) : Prop where
  begins : c.head? = some head
  known : ∃ name ∈ c.chainNames, s.knows name = true
  unknown : s.knows head = false
  unresolved : ∀ name ∈ c.chainNames, act.resolve? name = none

/-! ### Names -/

theorem head?_eq_none_iff : ∀ {c : Expr}, c.head? = none ↔ c.qualifiedName? = none
  | .ident _ => by simp [head?, qualifiedName?]
  | .select operand _ => by
    rw [head?, qualifiedName?, Option.map_eq_none_iff]
    exact head?_eq_none_iff
  | .literal _ | .text _ | .index .. | .call .. | .methodCall .. | .list _ | .map _ | .message .. | .unary ..
    | .binary .. | .conditional .. => by simp [head?, qualifiedName?]

theorem head_mem_chainNames : ∀ {c : Expr}, c.head? = some head → head ∈ c.chainNames
  | .ident _, h => by
    cases h
    exact List.mem_singleton.mpr rfl
  | .select _ _, h => List.mem_append.mpr (Or.inr (head_mem_chainNames h))

theorem knows_of_unresolved {name : String} (h : act.resolve? name = none) :
    s.knows name = s.declares name := by
  have htype : name ∉ typeNames := by
    intro hmem
    unfold Activation.resolve? at h
    split at h
    · cases h
    · rw [builtinType?, if_pos hmem] at h
      cases h
  rw [Scope.knows, List.contains_eq_mem, decide_eq_false htype, Bool.or_false]

/-! ### Evaluating a chain -/

section
variable [MessageSystem]

/-- A chain without a value is told by its head. -/
theorem eval_unresolved (hh : c.head? = some head) (hn : ∀ name ∈ c.chainNames, act.resolve? name = none) :
    c.eval s act =
      if s.declares head then .error .unknownVariable else .error (.undeclared head s.container) := by
  induction c using chainNames.induct with
  | case1 name =>
    cases hh
    rw [eval, resolve, hn head (by simp [chainNames])]
  | case2 operand field ih =>
    rw [head?] at hh
    have ihe := ih hh fun name hmem => hn name (by simp [chainNames, hmem])
    have hnone : (Expr.select operand field).qualifiedName?.bind act.resolve? = none := by
      rw [Option.bind_eq_none_iff]
      intro name hname
      exact hn name (by simp [chainNames, hname])
    rw [eval, hnone]
    simp only [ihe]
    split <;> rfl
  | case3 c hident hselect =>
    cases c <;> first | exact absurd rfl (hident _) | exact absurd rfl (hselect _ _) | cases hh

/-- An undeclared reference in a chain means that none of its names has a value. -/
theorem unresolved_of_eval (hh : c.head? = some head) (he : c.eval s act = .error err)
    (hu : err.isUndeclared = true) : ∀ name ∈ c.chainNames, act.resolve? name = none := by
  induction c using chainNames.induct generalizing err with
  | case1 name =>
    intro name' hmem
    obtain rfl := List.mem_singleton.mp hmem
    rw [eval, resolve] at he
    split at he
    · cases he
    · assumption
  | case2 operand field ih =>
    rw [head?] at hh
    rw [eval] at he
    split at he
    · cases he
    · rename_i hnone
      rw [Option.bind_eq_none_iff] at hnone
      rcases bind_eq_error.mp he with he | ⟨v, -, he⟩
      · intro name hmem
        rcases List.mem_append.mp hmem with hmem | hmem
        · exact hnone name (Option.mem_toList.mp hmem)
        · exact ih hh he hu name hmem
      · exact absurd hu (by simp [(Operators.select_plain v field err he).nameless])
  | case3 c hident hselect =>
    cases c <;> first | exact absurd rfl (hident _) | exact absurd rfl (hselect _ _) | cases hh

end

/-! ### Checking a chain -/

/-- The check lets a chain pass exactly for a dotted name that it knows. -/
theorem check_chain_iff (hh : c.head? = some head) :
    c.check s = .ok () ↔ ∃ name ∈ c.chainNames, s.knows name = true := by
  induction c using chainNames.induct with
  | case1 name =>
    rw [check]
    split <;> simp_all [chainNames]
  | case2 operand field ih =>
    rw [head?] at hh
    have hname : (Expr.select operand field).qualifiedName? ≠ none := fun h => by
      rw [← head?_eq_none_iff, head?, hh] at h
      cases h
    obtain ⟨name, hname⟩ := Option.ne_none_iff_exists'.mp hname
    rw [check, hname, chainNames, hname]
    simp only [Option.toList_some, List.singleton_append, List.mem_cons, exists_eq_or_imp]
    by_cases hk : s.knows name = true
    · simp [hk]
    · rw [if_neg hk, ih hh]
      simp [hk]
  | case3 c hident hselect =>
    cases c <;> first | exact absurd rfl (hident _) | exact absurd rfl (hselect _ _) | cases hh

/-- A chain that passed the check and meets an undeclared reference is dangling, and the reference is its
    head. -/
theorem dangling_of_eval [MessageSystem] (hc : c.check s = .ok ()) (hh : c.head? = some head)
    (he : c.eval s act = .error err) (hu : err.isUndeclared = true) :
    Dangling s act c head ∧ err = .undeclared head s.container := by
  have hn := unresolved_of_eval hh he hu
  rw [eval_unresolved hh hn] at he
  split at he
  · cases he
    cases hu
  · rename_i hdecl
    cases he
    have hknown := knows_of_unresolved (s := s) (hn head (head_mem_chainNames hh))
    exact ⟨⟨hh, (check_chain_iff hh).mp hc, by simpa [hknown] using hdecl, hn⟩, rfl⟩

end CelSuite.Expr
