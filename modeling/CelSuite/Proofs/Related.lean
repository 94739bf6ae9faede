import Mathlib.Data.List.Forall2

/-! # Related lists and options

Two lists whose elements are related place by place, and two options of which both are empty or both hold related
elements. -/

namespace CelSuite

variable {α β γ : Type} {R S : α → β → Prop}

/-! ### Lists -/

section
variable {Q : β → γ → Prop} {T : α → γ → Prop} {a : α} {xs : List α} {ys : List β} {zs : List γ}

theorem forall₂_imp_of_mem (h : List.Forall₂ R xs ys)
    (hRS : ∀ a ∈ xs, ∀ b ∈ ys, R a b → S a b) : List.Forall₂ S xs ys := by
  induction h with
  | nil => exact .nil
  | cons hab _ ih =>
    refine .cons (hRS _ List.mem_cons_self _ List.mem_cons_self hab) (ih fun a ha b hb => ?_)
    exact hRS a (List.mem_cons_of_mem _ ha) b (List.mem_cons_of_mem _ hb)

theorem forall₂_comp (hxy : List.Forall₂ R xs ys) (hyz : List.Forall₂ Q ys zs)
    (hRQ : ∀ a ∈ xs, ∀ b c, R a b → Q b c → T a c) : List.Forall₂ T xs zs := by
  induction hxy generalizing zs with
  | nil =>
    cases hyz
    exact .nil
  | cons hab _ ih =>
    cases hyz with
    | cons hbc hyz =>
      refine .cons (hRQ _ List.mem_cons_self _ _ hab hbc) (ih hyz fun a ha => ?_)
      exact hRQ a (List.mem_cons_of_mem _ ha)

/-- What every pair has in the middle can be collected in a list. -/
theorem exists_forall₂_middle (h : List.Forall₂ (fun a c => ∃ b, R a b ∧ Q b c) xs zs) :
    ∃ ys, List.Forall₂ R xs ys ∧ List.Forall₂ Q ys zs := by
  induction h with
  | nil => exact ⟨[], .nil, .nil⟩
  | cons hac _ ih =>
    obtain ⟨b, hab, hbc⟩ := hac
    obtain ⟨ys, hxy, hyz⟩ := ih
    exact ⟨b :: ys, .cons hab hxy, .cons hbc hyz⟩

/-- What is related to each element can be collected in a list. -/
theorem exists_forall₂ (h : ∀ a ∈ xs, ∃ b, R a b) : ∃ ys, List.Forall₂ R xs ys := by
  induction xs with
  | nil => exact ⟨[], .nil⟩
  | cons a xs ih =>
    obtain ⟨⟨b, hab⟩, hxs⟩ := List.forall_mem_cons.mp h
    obtain ⟨ys, hys⟩ := ih hxs
    exact ⟨b :: ys, .cons hab hys⟩

theorem exists_of_forall₂ (h : List.Forall₂ R xs ys) : ∀ a ∈ xs, ∃ b, R a b := by
  induction h with
  | nil => exact nofun
  | cons hab _ ih => exact List.forall_mem_cons.mpr ⟨⟨_, hab⟩, ih⟩

/-- If having a property is to be related to something, a list has it all through if it is related to a list. -/
theorem forall_mem_iff_forall₂ {P : α → Prop} (h : ∀ a ∈ xs, P a ↔ ∃ b, R a b) :
    (∀ a ∈ xs, P a) ↔ ∃ ys, List.Forall₂ R xs ys := by
  constructor
  · exact fun hP => exists_forall₂ fun a ha => (h a ha).mp (hP a ha)
  · rintro ⟨ys, hys⟩ a ha
    exact (h a ha).mpr (exists_of_forall₂ hys a ha)

theorem forall₂_append_cons {xs' : List α} (h : List.Forall₂ R (xs ++ a :: xs') ys) :
    ∃ us b vs, ys = us ++ b :: vs ∧ R a b ∧ List.Forall₂ R xs' vs := by
  induction xs generalizing ys with
  | nil =>
    obtain ⟨b, vs, hab, hvs, rfl⟩ := List.forall₂_cons_left_iff.mp h
    exact ⟨[], b, vs, rfl, hab, hvs⟩
  | cons x xs ih =>
    obtain ⟨c, ys, -, hys, rfl⟩ := List.forall₂_cons_left_iff.mp h
    obtain ⟨us, b, vs, rfl, hab, hvs⟩ := ih hys
    exact ⟨c :: us, b, vs, rfl, hab, hvs⟩

theorem rel_getElem? (h : List.Forall₂ R xs ys) (i : Nat) : Option.Rel R xs[i]? ys[i]? := by
  induction h generalizing i with
  | nil => exact .none
  | cons hab _ ih =>
    cases i with
    | zero => exact .some hab
    | succ i => exact ih i

/-- A change at one place, where the element on the left occurs nowhere else. -/
theorem forall₂_modify {f : β → β} {i : Nat} (h : List.Forall₂ R xs ys) (hxs : xs.Nodup) (hi : xs[i]? = some a)
    (hself : ∀ b, R a b → S a (f b)) (hother : ∀ x b, x ≠ a → R x b → S x b) :
    List.Forall₂ S xs (ys.modify i f) := by
  induction h generalizing i with
  | nil => cases hi
  | cons hxb hrest ih =>
    obtain ⟨hfresh, hxs⟩ := List.nodup_cons.mp hxs
    cases i with
    | zero =>
      cases hi
      refine .cons (hself _ hxb) (forall₂_imp_of_mem hrest fun x hx b _ hxb => hother x b ?_ hxb)
      rintro rfl
      exact hfresh hx
    | succ i =>
      refine .cons (hother _ _ ?_ hxb) (ih hxs hi)
      rintro rfl
      exact hfresh (List.mem_of_getElem? hi)

theorem forall_right_of_forall₂ {P : α → Prop} {P' : β → Prop} (h : List.Forall₂ R xs ys) (hxs : ∀ a ∈ xs, P a)
    (hP : ∀ a b, R a b → P a → P' b) : ∀ b ∈ ys, P' b := by
  induction h with
  | nil => exact nofun
  | cons hab _ ih =>
    obtain ⟨ha, hxs⟩ := List.forall_mem_cons.mp hxs
    exact List.forall_mem_cons.mpr ⟨hP _ _ hab ha, ih hxs⟩

end

/-! ### Options -/

section
variable {a : α} {x : Option α} {y : Option β}

theorem rel_imp_of_eq (h : Option.Rel R x y)
    (hRS : ∀ a, x = some a → ∀ b, y = some b → R a b → S a b) : Option.Rel S x y := by
  cases h with
  | some hab => exact .some (hRS _ rfl _ rfl hab)
  | none => exact .none

theorem rel_flip (h : Option.Rel R x y) : Option.Rel (flip R) y x := by
  cases h with
  | some hab => exact .some hab
  | none => exact .none

theorem rel_cases (h : Option.Rel R x y) : (∃ a b, x = some a ∧ y = some b ∧ R a b) ∨ x = none ∧ y = none := by
  cases h with
  | some hab => exact Or.inl ⟨_, _, rfl, rfl, hab⟩
  | none => exact Or.inr ⟨rfl, rfl⟩

theorem isSome_of_rel (h : Option.Rel R x y) : x.isSome = y.isSome := by
  cases h <;> rfl

theorem exists_of_rel (h : Option.Rel R (some a) y) : ∃ b, y = some b ∧ R a b := by
  cases h with
  | some hab => exact ⟨_, rfl, hab⟩

end

end CelSuite
