/-! # Results that may be errors

How a result, or an error, of two steps came about. -/

namespace CelSuite

variable {ε α β : Type}

theorem bind_eq_ok {x : Except ε α} {f : α → Except ε β} {b : β} :
    x >>= f = .ok b ↔ ∃ a, x = .ok a ∧ f a = .ok b := by
  cases x with
  | error e => simp [bind, Except.bind]
  | ok a => simp [bind, Except.bind]

theorem bind_eq_error {x : Except ε α} {f : α → Except ε β} {e : ε} :
    x >>= f = .error e ↔ x = .error e ∨ ∃ a, x = .ok a ∧ f a = .error e := by
  cases x with
  | error e => simp [bind, Except.bind]
  | ok a => simp [bind, Except.bind]

theorem map_eq_ok {x : Except ε α} {f : α → β} {b : β} :
    x.map f = .ok b ↔ ∃ a, x = .ok a ∧ f a = b := by
  cases x with
  | error e => simp [Except.map]
  | ok a => simp [Except.map]

theorem map_eq_error {x : Except ε α} {f : α → β} {e : ε} : x.map f = .error e ↔ x = .error e := by
  cases x with
  | error e => simp [Except.map]
  | ok a => simp [Except.map]

theorem mapError_ok {ε' : Type} (f : ε → ε') (a : α) : (Except.ok a : Except ε α).mapError f = .ok a := rfl

theorem mapError_error {ε' : Type} (f : ε → ε') (e : ε) : (Except.error e : Except ε α).mapError f = .error (f e) := rfl

theorem mapError_eq_ok {ε' : Type} {x : Except ε α} {f : ε → ε'} {a : α} : x.mapError f = .ok a ↔ x = .ok a := by
  cases x with
  | error e => simp [mapError_error]
  | ok a => simp [mapError_ok]

theorem mapError_eq_error {ε' : Type} {x : Except ε α} {f : ε → ε'} {e : ε'} :
    x.mapError f = .error e ↔ ∃ e', x = .error e' ∧ f e' = e := by
  cases x with
  | error e => simp [mapError_error]
  | ok a => simp [mapError_ok]

/-! ### The error of a result -/

/-- The error of a result, if it is one. -/
def fault? : Except ε α → Option ε
  | .ok _ => none
  | .error e => some e

section
variable {x : Except ε α} {e : ε}

theorem fault?_eq_some : fault? x = some e ↔ x = .error e := by
  cases x <;> simp [fault?]

theorem fault?_eq_none : fault? x = none ↔ ∃ a, x = .ok a := by
  cases x <;> simp [fault?]

theorem fault?_map (f : α → β) (x : Except ε α) : fault? (x.map f) = fault? x := by
  cases x <;> rfl

/-- Of two steps the first one that fails has the error. -/
theorem fault?_bind (x : Except ε α) (f : α → Except ε β) :
    fault? (x >>= f) = (fault? x).or (x.toOption.bind fun a => fault? (f a)) := by
  cases x <;> simp [bind, Except.bind, fault?, Except.toOption]

end

/-! ### What a result satisfies -/

/-- A result that has a property if it is no error. -/
def Yields (P : α → Prop) (x : Except ε α) : Prop := ∀ a, x = .ok a → P a

section
variable {P : α → Prop} {Q : β → Prop} {x : Except ε α} {f : α → Except ε β} {a : α} {e : ε}

theorem yields_ok (h : P a) : Yields P (.ok a : Except ε α) := fun _ heq => by
  cases heq
  exact h

theorem yields_error : Yields P (.error e) := fun _ heq => by
  cases heq

theorem Yields.mono {P' : α → Prop} (hx : Yields P x) (hP : ∀ a, P a → P' a) : Yields P' x := fun a ha =>
  hP a (hx a ha)

theorem Yields.bind (hx : Yields P x) (hf : ∀ a, P a → Yields Q (f a)) : Yields Q (x >>= f) := fun b h => by
  obtain ⟨a, ha, hb⟩ := bind_eq_ok.mp h
  exact hf a (hx a ha) b hb

theorem Yields.bind_last (hf : ∀ a, Yields Q (f a)) : Yields Q (x >>= f) := fun b h => by
  obtain ⟨a, -, hb⟩ := bind_eq_ok.mp h
  exact hf a b hb

end

/-- A result whose error has a property if it is one. -/
def Refuses (P : ε → Prop) (x : Except ε α) : Prop := ∀ e, x = .error e → P e

section
variable {P : ε → Prop} {x : Except ε α} {f : α → Except ε β} {a : α} {e : ε}

theorem refuses_ok : Refuses P (.ok a) := fun _ heq => by
  cases heq

theorem refuses_error (h : P e) : Refuses P (.error e : Except ε α) := fun _ heq => by
  cases heq
  exact h

/-- A result behind a test. -/
theorem refuses_ite {c : Prop} [Decidable c] (h : P e) : Refuses P (if c then .ok a else .error e) := by
  split
  · exact refuses_ok
  · exact refuses_error h

theorem Refuses.bind (hx : Refuses P x) (hf : ∀ a, Refuses P (f a)) : Refuses P (x >>= f) := fun e h => by
  rcases bind_eq_error.mp h with he | ⟨a, -, he⟩
  · exact hx e he
  · exact hf a e he

theorem Refuses.map (hx : Refuses P x) (g : α → β) : Refuses P (x.map g) := fun e h => hx e (map_eq_error.mp h)

theorem Refuses.mapError {ε' : Type} {P : ε' → Prop} {g : ε → ε'} (hx : Refuses (fun e => P (g e)) x) :
    Refuses P (x.mapError g) := fun e h => by
  obtain ⟨e', he', rfl⟩ := mapError_eq_error.mp h
  exact hx e' he'

end

/-! ### Two results that cannot be told apart -/

/-- Two results of which both are related values or both are one error. -/
inductive Agree (R : α → β → Prop) : Except ε α → Except ε β → Prop
  | ok {a : α} {b : β} (h : R a b) : Agree R (.ok a) (.ok b)
  | error (e : ε) : Agree R (.error e) (.error e)

theorem Agree.bind {α' β' : Type} {R : α → β → Prop} {S : α' → β' → Prop} {x : Except ε α} {y : Except ε β}
    {f : α → Except ε α'} {g : β → Except ε β'} (hxy : Agree R x y) (hfg : ∀ a b, R a b → Agree S (f a) (g b)) :
    Agree S (x >>= f) (y >>= g) := by
  cases hxy with
  | ok h => exact hfg _ _ h
  | error e => exact .error e

theorem Agree.mapError {ε' : Type} {R : α → β → Prop} {x : Except ε α} {y : Except ε β} (f : ε → ε')
    (h : Agree R x y) : Agree R (x.mapError f) (y.mapError f) := by
  cases h with
  | ok h => exact .ok h
  | error e => exact .error _

/-- A result agrees with itself by a relation that what it yields has to itself. -/
theorem Yields.agree {R : α → α → Prop} {x : Except ε α} (h : Yields (fun a => R a a) x) : Agree R x x := by
  cases x with
  | ok a => exact .ok (h a rfl)
  | error e => exact .error e

end CelSuite
