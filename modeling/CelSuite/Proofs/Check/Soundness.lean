import CelSuite.Proofs.Check.Chains
import CelSuite.Proofs.Lexing.Lexemes

/-! # What the check rules out

An expression that passed the check meets an undeclared reference only at a dangling chain: one that was
let pass for a dotted name that is declared, and that has no value under any of its names. -/

namespace CelSuite

/-! ### Messages -/

/-- A text whose first three letters are not those of an undeclared reference. -/
structure OtherStart (s : String) : Prop where
  long : 3 ≤ s.toList.length
  differs : s.toList.take 3 ≠ ['u', 'n', 'd']

theorem OtherStart.append {l : String} (h : OtherStart l) (r : String) : OtherStart (l ++ r) := by
  have htake : (l ++ r).toList.take 3 = l.toList.take 3 := by
    rw [String.toList_append, List.take_append_of_le_length h.long]
  refine ⟨?_, htake ▸ h.differs⟩
  rw [String.toList_append, List.length_append]
  exact Nat.le_add_right_of_le h.long

theorem Exception.otherStart (x : Exception) : OtherStart x.message := by
  cases x with
  | value e =>
    cases e with
    | intOutOfRange | uintOutOfRange =>
      refine (OtherStart.append ?_ _).append _
      exact ⟨by decide, by decide⟩
    | unsupportedKey =>
      refine OtherStart.append ?_ _
      exact ⟨by decide, by decide⟩
  | noIntegerText | noInteger =>
    refine (OtherStart.append ?_ _).append _
    exact ⟨by decide, by decide⟩
  | invalidCodePoint =>
    refine OtherStart.append ?_ _
    exact ⟨by decide, by decide⟩
  | _ => exact ⟨by decide, by decide⟩

/-- Only the message of an undeclared reference begins like one; the third letter tells. -/
theorem EvalError.isUndeclared_of_message {err : EvalError}
    (h : "undeclared reference".toList <+: err.message.toList) : err.isUndeclared = true := by
  have hthird : err.message.toList.take 3 = ['u', 'n', 'd'] := by
    obtain ⟨t, ht⟩ := h
    rw [← ht]
    rfl
  cases err with
  | undeclared name container => rfl
  | noSuchKeyNamed field | noSuchField field | indexOutOfRange i | invalidDuration t =>
    refine absurd hthird (OtherStart.append ?_ _).differs
    exact ⟨by decide, by decide⟩
  | caught x | exception x => exact absurd hthird x.otherStart.differs
  | _ => exact absurd hthird (by decide)

theorem starts_append (l r : String) : l.toList <+: (l ++ r).toList := by
  rw [String.toList_append]
  exact List.prefix_append _ _

theorem EvalError.undeclared_message (name container : String) :
    "undeclared reference".toList <+: (EvalError.undeclared name container).message.toList := by
  have hlit : "undeclared reference".toList <+: "undeclared reference to '".toList := by decide
  have hname := hlit.trans (starts_append _ name)
  have hin := hname.trans (starts_append _ "' (in container '")
  have hcontainer := hin.trans (starts_append _ container)
  exact hcontainer.trans (starts_append _ "')")

end CelSuite

namespace CelSuite.Expr

variable {s : Scope} {act : Activation} {err : EvalError} {cs ds : List Expr}

/-- An error is an undeclared reference to the head of a dangling chain among some. -/
def Blames (s : Scope) (act : Activation) (err : EvalError) (cs : List Expr) : Prop :=
  ∃ c ∈ cs, ∃ head, Dangling s act c head ∧ err = .undeclared head s.container

theorem Blames.mono (h : Blames s act err cs) (hcs : ∀ c ∈ cs, c ∈ ds) : Blames s act err ds := by
  obtain ⟨c, hc, h⟩ := h
  exact ⟨c, hcs c hc, h⟩

theorem Blames.left (h : Blames s act err cs) : Blames s act err (cs ++ ds) :=
  h.mono fun _ => List.mem_append_left ds

theorem Blames.right (h : Blames s act err ds) : Blames s act err (cs ++ ds) :=
  h.mono fun _ => List.mem_append_right cs

/-- An undeclared reference in a step, if there is one, is to a dangling chain among some. -/
def Blamed {α : Type} (s : Scope) (act : Activation) (cs : List Expr) (x : Except EvalError α) : Prop :=
  ∀ err, x = .error err → err.isUndeclared = true → Blames s act err cs

theorem blamed_of_plain {α : Type} {x : Except EvalError α} (h : Refuses EvalError.Plain x) : Blamed s act cs x :=
  fun err he hu => absurd hu (by simp [(h err he).nameless])

theorem Blamed.left {α : Type} {x : Except EvalError α} (h : Blamed s act cs x) :
    Blamed s act (cs ++ ds) x := fun err he hu => (h err he hu).left

theorem Blamed.right {α : Type} {x : Except EvalError α} (h : Blamed s act ds x) :
    Blamed s act (cs ++ ds) x := fun err he hu => (h err he hu).right

theorem Blamed.bind {α β : Type} {x : Except EvalError α} {f : α → Except EvalError β}
    (hx : Blamed s act cs x) (hf : ∀ a, Blamed s act cs (f a)) : Blamed s act cs (x >>= f) :=
  fun err h hu => by
    rcases bind_eq_error.mp h with h | ⟨a, -, h⟩
    · exact hx err h hu
    · exact hf a err h hu

theorem blamed_ok {α : Type} (a : α) : Blamed s act cs (.ok a) := blamed_of_plain refuses_ok

theorem blamed_pure {α : Type} (a : α) : Blamed s act cs (pure a : Except EvalError α) := blamed_ok a

variable [MessageSystem]

theorem binary_blamed {op : BinaryOp} {left right : Expr} (hleft : Blamed s act cs (left.eval s act))
    (hright : Blamed s act cs (right.eval s act)) : Blamed s act cs ((Expr.binary op left right).eval s act) := by
  cases op with
  | and | or =>
    rw [eval]
    intro err he hu
    rcases Operators.logical_error he with he | he | rfl
    · exact hleft err he hu
    · exact hright err he hu
    · cases hu
  | _ =>
    rw [eval]
    · exact hleft.bind fun l => hright.bind fun r => blamed_of_plain (Operators.binary_plain _ _ _)
    all_goals rintro ⟨⟩

mutual

/-- After the check, an undeclared reference is to a dangling chain of the expression. -/
theorem eval_blamed : ∀ e : Expr, e.check s = .ok () → Blamed s act e.chains (e.eval s act)
  | .literal _, _ | .text _, _ => by
    rw [eval]
    exact blamed_ok _
  | .ident name, hc => fun err he hu =>
    ⟨.ident name, by simp [chains], name, dangling_of_eval hc rfl he hu⟩
  | .select operand field, hc => by
    by_cases hq : (Expr.select operand field).qualifiedName? = none
    · rw [chains, if_pos hq, eval, hq]
      rw [check, hq] at hc
      exact (eval_blamed operand hc).bind fun v => blamed_of_plain (Operators.select_plain v field)
    · obtain ⟨head, hh⟩ := Option.ne_none_iff_exists'.mp (mt head?_eq_none_iff.mp hq)
      rw [chains, if_neg hq]
      exact fun err he hu => ⟨_, List.mem_singleton.mpr rfl, head, dangling_of_eval hc hh he hu⟩
  | .index operand i, hc => by
    rw [check] at hc
    obtain ⟨_, ho, hi⟩ := bind_eq_ok.mp hc
    rw [chains, eval]
    exact (eval_blamed operand ho).left.bind fun v => (eval_blamed i hi).right.bind fun i =>
      blamed_of_plain (Operators.index_plain v i)
  | .call function args, hc => by
    rw [check] at hc
    split at hc
    · rename_i hf
      rw [chains, eval]
      exact (evalAll_blamed args 0 hc).bind fun vs => blamed_of_plain (Functions.call_plain hf vs)
    · cases hc
  | .methodCall target function args, hc => by
    rw [check] at hc
    split at hc
    · rename_i hf
      obtain ⟨_, ht, ha⟩ := bind_eq_ok.mp hc
      rw [chains, eval]
      exact (eval_blamed target ht).left.bind fun v => (evalAll_blamed args 1 ha).right.bind fun vs =>
        blamed_of_plain (Functions.call_plain hf (v :: vs))
    · cases hc
  | .list items, hc => by
    rw [chains, eval]
    exact (evalAll_blamed items 0 hc).bind fun vs => blamed_pure _
  | .map entries, hc => by
    rw [chains, eval]
    exact (evalEntries_blamed entries 0 hc).bind fun es => blamed_of_plain (buildMap_plain es)
  | .message name fields, hc => by
    rw [check] at hc
    split at hc
    · rename_i t ht
      rw [chains, eval, ht]
      exact (evalFields_blamed fields 0 hc).bind fun fs => blamed_pure _
    · cases hc
  | .unary op operand, hc => by
    rw [chains, eval]
    exact (eval_blamed operand hc).bind fun v => blamed_of_plain (Operators.unary_plain op v)
  | .binary op left right, hc => by
    rw [check] at hc
    obtain ⟨_, hl, hr⟩ := bind_eq_ok.mp hc
    have hleft : Blamed s act (left.chains ++ right.chains) (left.eval s act) := (eval_blamed left hl).left
    have hright : Blamed s act (left.chains ++ right.chains) (right.eval s act) := (eval_blamed right hr).right
    rw [chains]
    exact binary_blamed hleft hright
  | .conditional cond yes no, hc => by
    rw [check] at hc
    obtain ⟨_, hcond, hc⟩ := bind_eq_ok.mp hc
    obtain ⟨_, hyes, hno⟩ := bind_eq_ok.mp hc
    rw [chains, eval]
    refine (eval_blamed cond hcond).left.left.bind fun v => ?_
    split
    · exact (eval_blamed yes hyes).right.left
    · exact (eval_blamed no hno).right
    · exact blamed_of_plain (refuses_error ⟨rfl, rfl⟩)

theorem evalAll_blamed : ∀ (es : List Expr) (i : Nat), checkAll s es = .ok () →
    Blamed s act (chainsAll es) (evalAll s act i es)
  | [], _, _ => by
    rw [evalAll]
    exact blamed_ok _
  | e :: es, i, hc => by
    rw [checkAll] at hc
    obtain ⟨_, he, hes⟩ := bind_eq_ok.mp hc
    rw [chainsAll, evalAll]
    exact (eval_blamed e he).left.bind fun v => (evalAll_blamed es (i + 1) hes).right.bind fun vs =>
      blamed_pure _

theorem evalEntries_blamed : ∀ (es : List (Expr × Expr)) (i : Nat), checkEntries s es = .ok () →
    Blamed s act (chainsEntries es) (evalEntries s act i es)
  | [], _, _ => by
    rw [evalEntries]
    exact blamed_ok _
  | (k, v) :: es, i, hc => by
    rw [checkEntries] at hc
    obtain ⟨_, hk, hc⟩ := bind_eq_ok.mp hc
    obtain ⟨_, hv, hes⟩ := bind_eq_ok.mp hc
    rw [chainsEntries, evalEntries]
    exact (eval_blamed k hk).left.left.bind fun k => (eval_blamed v hv).right.left.bind fun v =>
      (evalEntries_blamed es (i + 1) hes).right.bind fun vs => blamed_pure _

theorem evalFields_blamed : ∀ (fs : List (String × Expr)) (i : Nat), checkFields s fs = .ok () →
    Blamed s act (chainsFields fs) (evalFields s act i fs)
  | [], _, _ => by
    rw [evalFields]
    exact blamed_ok _
  | (name, v) :: fs, i, hc => by
    rw [checkFields] at hc
    obtain ⟨_, hv, hfs⟩ := bind_eq_ok.mp hc
    rw [chainsFields, evalFields]
    exact (eval_blamed v hv).left.bind fun v => (evalFields_blamed fs (i + 1) hfs).right.bind fun vs =>
      blamed_pure _

end

end CelSuite.Expr

namespace CelSuite.Evaluator

variable {s : Scope} {act : Activation} {text message : String} {e : Expr} {p : Program}

theorem standard_checked [MessageSystem] (hparse : parse text = .ok e) :
    standard ⟨text, s.declarations, s.container, false⟩ = .ok p ↔
      e.check s = .ok () ∧ p = program s e := by
  rw [standard, hparse]
  dsimp only
  rw [if_neg Bool.false_ne_true]
  cases e.check s with
  | ok u => simp [eq_comm]
  | error err => simp

theorem standard_unchecked [MessageSystem] (ds : Declarations) (container : String) (hparse : parse text = .ok e) :
    standard ⟨text, ds, container, true⟩ = .ok (program ⟨ds, container⟩ e) := by
  unfold standard
  rw [hparse]
  rfl

theorem standard_ok [MessageSystem] {r : Request} {p : Program} (h : standard r = .ok p) :
    ∃ e, parse r.expression = .ok e ∧ p = program ⟨r.declarations, r.container⟩ e := by
  unfold standard at h
  split at h
  · cases h
  · rename_i e hparse
    dsimp only at h
    split at h
    · cases h
      exact ⟨e, hparse, rfl⟩
    · split at h
      · cases h
        exact ⟨e, hparse, rfl⟩
      · cases h

/-- What evaluates without an exception fails with an error message. -/
theorem program_error [MessageSystem] : program s e act = .error (.error message) ↔
    ∃ err, e.eval s act = .error err ∧ message = err.message := by
  rw [program, mapError_eq_error]
  constructor
  · rintro ⟨err, he, hmessage⟩
    rw [EvalError.failure_of_caught (Expr.eval_contained e err he)] at hmessage
    cases hmessage
    exact ⟨err, he, rfl⟩
  · rintro ⟨err, he, rfl⟩
    exact ⟨err, he, EvalError.failure_of_caught (Expr.eval_contained e err he)⟩

/-- A checked program meets an undeclared reference only at a dangling chain of its expression. An
    expression that is a chain meets one exactly when it is dangling. A chain with a known name but without a
    value is an unknown variable when its head is declared, and an undeclared reference otherwise. -/
theorem undeclared_iff_dangling [MessageSystem] (s : Scope) (act : Activation) :
    (∀ text e p message, parse text = .ok e → standard ⟨text, s.declarations, s.container, false⟩ = .ok p →
        p act = .error (.error message) → "undeclared reference".toList <+: message.toList →
        ∃ c ∈ e.chains, ∃ head, Expr.Dangling s act c head ∧
          message = (EvalError.undeclared head s.container).message) ∧
      (∀ text c head, parse text = .ok c → c.head? = some head →
        ((∃ p message, standard ⟨text, s.declarations, s.container, false⟩ = .ok p ∧
            p act = .error (.error message) ∧ "undeclared reference".toList <+: message.toList) ↔
          Expr.Dangling s act c head)) ∧
      ∀ text c head, parse text = .ok c → c.head? = some head →
        (∃ name ∈ c.chainNames, s.knows name = true) → (∀ name ∈ c.chainNames, act.resolve? name = none) →
        ∃ p, standard ⟨text, s.declarations, s.container, false⟩ = .ok p ∧
          p act = .error (.error (if s.declares head then EvalError.unknownVariable
            else .undeclared head s.container).message) := by
  refine ⟨?_, ?_, ?_⟩
  · intro text e p message hparse hp hm hprefix
    obtain ⟨hc, rfl⟩ := (standard_checked hparse).mp hp
    obtain ⟨err, he, rfl⟩ := program_error.mp hm
    obtain ⟨c, hmem, head, hd, rfl⟩ := Expr.eval_blamed e hc err he (EvalError.isUndeclared_of_message hprefix)
    exact ⟨c, hmem, head, hd, rfl⟩
  · intro text c head hparse hh
    constructor
    · rintro ⟨p, message, hp, hm, hprefix⟩
      obtain ⟨hc, rfl⟩ := (standard_checked hparse).mp hp
      obtain ⟨err, he, rfl⟩ := program_error.mp hm
      exact (Expr.dangling_of_eval hc hh he (EvalError.isUndeclared_of_message hprefix)).1
    · intro hd
      have hc := (Expr.check_chain_iff hh).mpr hd.known
      have hdecl : s.declares head = false := by
        rw [← Expr.knows_of_unresolved (hd.unresolved head (Expr.head_mem_chainNames hh)), hd.unknown]
      have he := Expr.eval_unresolved (s := s) hh hd.unresolved
      rw [hdecl] at he
      exact ⟨program s c, _, (standard_checked hparse).mpr ⟨hc, rfl⟩, program_error.mpr ⟨_, he, rfl⟩,
        EvalError.undeclared_message head s.container⟩
  · intro text c head hparse hh hknown hn
    have hc := (Expr.check_chain_iff hh).mpr hknown
    have he := Expr.eval_unresolved (s := s) hh hn
    refine ⟨program s c, (standard_checked hparse).mpr ⟨hc, rfl⟩, program_error.mpr ⟨_, ?_, rfl⟩⟩
    rw [he]
    split <;> rfl

theorem parse_dotted : parse "a.b" = .ok (.select (.ident "a") "b") := by
  have hlexes : Lexer.Lexes "a.b".toList
      [⟨.ident, ['a'], ['a']⟩, ⟨.op, ['.'], ['.']⟩, ⟨.ident, ['b'], ['b']⟩] :=
    .of_leads (.ident rfl (by decide)) rfl (.of_leads (.operator rfl rfl rfl rfl) rfl
      (.of_leads (.ident rfl nofun) rfl .nil))
  refine parse_ok_iff_lexes.mpr ⟨_, hlexes, .of_unary (.member (.select (.primary (.name ?_))))⟩
  decide

/-- A declared dotted name whose head is not declared, with no binding. -/
theorem declared_dotted_name_undeclared :
    ∃ p, standard ⟨"a.b", [("a.b", .ident "int")], "", false⟩ = .ok p ∧
      p [] = .error (.error "undeclared reference to 'a' (in container '')") :=
  (undeclared_iff_dangling ⟨[("a.b", .ident "int")], ""⟩ []).2.2 "a.b" (.select (.ident "a") "b") "a"
    parse_dotted rfl (by decide) (by decide)

end CelSuite.Evaluator
