import CelSuite.Proofs.Assoc
import CelSuite.Proofs.Related
import CelSuite.Proofs.Values.Every
import CelSuite.Proofs.Values.Scalars
import Mathlib.Data.List.Perm.Subperm

/-! # Equality of values

Equality looks at one layer of two values at a time. Lists are equal item by item, and maps with distinct keys
key by key, whatever the order. So between values all of whose maps have distinct keys equality is symmetric
and transitive, and such a value without a NaN in it is equal to itself. -/

namespace CelSuite

theorem Double.equal_symm {x y : Double} (h : x.equal y = true) : y.equal x = true := by
  simp only [Double.equal, Bool.and_eq_true, beq_iff_eq] at h ⊢
  obtain ⟨⟨hx, hy⟩, hrank⟩ := h
  exact ⟨⟨hy, hx⟩, hrank.symm⟩

theorem Double.equal_trans {x y z : Double} (hxy : x.equal y = true) (hyz : y.equal z = true) :
    x.equal z = true := by
  simp only [Double.equal, Bool.and_eq_true, beq_iff_eq] at hxy hyz ⊢
  obtain ⟨⟨hx, -⟩, hxy⟩ := hxy
  obtain ⟨⟨-, hz⟩, hyz⟩ := hyz
  exact ⟨⟨hx, hz⟩, hxy.trans hyz⟩

/-- NaN is the one double that differs from itself. -/
theorem Double.equal_self_iff {x : Double} : x.equal x = true ↔ x.isNaN = false := by
  simp [Double.equal]

namespace Value

variable {u v w : Value} {xs ys : List Value} {as bs : Entries}

/-! ### One layer -/

/-- The values that look equal when what is inside them is compared by a relation. -/
inductive Alike (R : Value → Value → Prop) : Value → Value → Prop
  | scalar {v : Value} (hv : v.IsScalar) : Alike R v v
  | double {x y : Double} (h : x.equal y = true) : Alike R (.double x) (.double y)
  | list {xs ys : List Value} (h : List.Forall₂ R xs ys) : Alike R (.list xs) (.list ys)
  | map {as bs : Entries} (hlen : as.length = bs.length)
      (h : ∀ e ∈ as, ∃ b, Assoc.get? e.1 bs = some b ∧ R e.2 b) : Alike R (.map as) (.map bs)
  | message {origin : Origin} {t t' : MessageType} {fs fs' : List (String × Value)} :
      Alike R (.message origin t fs) (.message origin t' fs')

theorem equalItems_iff : equalItems xs ys = true ↔ List.Forall₂ (fun a b => a.equal b = true) xs ys := by
  induction xs generalizing ys with
  | nil => cases ys <;> simp [equalItems]
  | cons x xs ih =>
    cases ys with
    | nil => simp [equalItems]
    | cons y ys => rw [equalItems, Bool.and_eq_true, List.forall₂_cons, ih]

theorem equalEntries_iff :
    equalEntries as bs = true ↔ ∀ e ∈ as, ∃ b, Assoc.get? e.1 bs = some b ∧ e.2.equal b = true := by
  induction as with
  | nil => simp [equalEntries]
  | cons e as ih =>
    obtain ⟨k, a⟩ := e
    rw [equalEntries, Bool.and_eq_true, List.forall_mem_cons, ih]
    cases Assoc.get? k bs <;> simp

theorem equal_iff_alike : v.equal w = true ↔ Alike (fun a b => a.equal b = true) v w := by
  constructor
  · intro h
    unfold equal at h
    split at h
    · cases beq_iff_eq.mp h
      exact .scalar trivial
    · cases beq_iff_eq.mp h
      exact .scalar trivial
    · exact .double h
    · cases beq_iff_eq.mp h
      exact .scalar trivial
    · cases beq_iff_eq.mp h
      exact .scalar trivial
    · cases beq_iff_eq.mp h
      exact .scalar trivial
    · exact .scalar trivial
    · exact .list (equalItems_iff.mp h)
    · obtain ⟨hlen, hentries⟩ := Bool.and_eq_true_iff.mp h
      exact .map (beq_iff_eq.mp hlen) (equalEntries_iff.mp hentries)
    · cases beq_iff_eq.mp h
      exact .scalar trivial
    · cases beq_iff_eq.mp h
      exact .scalar trivial
    · cases beq_iff_eq.mp h
      exact .message
    · cases h
  · intro h
    cases h with
    | scalar hv =>
      cases v with
      | double | list | map | message => exact hv.elim
      | null => rw [equal]
      | _ => rw [equal, beq_self_eq_true]
    | double h => rwa [equal]
    | list h => rwa [equal, equalItems_iff]
    | map hlen h => rw [equal, equalEntries_iff.mpr h, hlen, beq_self_eq_true, Bool.and_self]
    | message => rw [equal, beq_self_eq_true]

theorem alike_map {R : Value → Value → Prop} (h : Alike R (.map as) (.map bs)) :
    as.length = bs.length ∧ ∀ e ∈ as, ∃ b, Assoc.get? e.1 bs = some b ∧ R e.2 b := by
  cases h with
  | scalar hv => exact hv.elim
  | map hlen h => exact ⟨hlen, h⟩

/-- Maps with distinct keys are alike when every key has related values in both or none in both. -/
theorem alike_map_iff {R : Value → Value → Prop} (ha : (as.map (·.1)).Nodup) (hb : (bs.map (·.1)).Nodup) :
    Alike R (.map as) (.map bs) ↔ ∀ k, Option.Rel R (Assoc.get? k as) (Assoc.get? k bs) := by
  constructor
  · intro h k
    obtain ⟨hlen, hentries⟩ := alike_map h
    -- The keys of the first map are keys of the second, and the second has no more of them.
    have hsub : as.map (·.1) ⊆ bs.map (·.1) := by
      intro k hk
      obtain ⟨e, he, rfl⟩ := List.mem_map.mp hk
      obtain ⟨b, hb, -⟩ := hentries e he
      exact Assoc.isSome_get?_iff.mp (Option.isSome_of_eq_some hb)
    have hperm := (List.subperm_of_subset ha hsub).perm_of_length_le (by simp [hlen])
    cases hk : Assoc.get? k as with
    | some a =>
      obtain ⟨b, hb, hab⟩ := hentries _ (Assoc.mem_of_get? hk)
      rw [hb]
      exact .some hab
    | none =>
      have hnone : Assoc.get? k bs = none := by
        rw [← Option.not_isSome_iff_eq_none, Assoc.isSome_get?_iff, ← hperm.mem_iff, ← Assoc.isSome_get?_iff, hk]
        exact Bool.false_ne_true
      rw [hnone]
      exact .none
  · intro h
    have hkeys : ∀ k, k ∈ as.map (·.1) ↔ k ∈ bs.map (·.1) := by
      intro k
      rw [← Assoc.isSome_get?_iff, ← Assoc.isSome_get?_iff, isSome_of_rel (h k)]
    have hperm := (List.perm_ext_iff_of_nodup ha hb).mpr hkeys
    refine .map (by simpa using hperm.length_eq) fun e he => ?_
    have hrel := h e.1
    rw [Assoc.get?_of_mem ha he] at hrel
    exact exists_of_rel hrel

/-! ### Symmetry and transitivity -/

/-- A map has distinct keys. -/
def KeysDistinct : Value → Prop
  | .map entries => (entries.map (·.1)).Nodup
  | _ => True

theorem Alike.symm {R S : Value → Value → Prop} (h : Alike R v w) (hv : v.KeysDistinct) (hw : w.KeysDistinct)
    (hRS : ∀ a ∈ v.children, ∀ b ∈ w.children, R a b → S b a) : Alike S w v := by
  cases h with
  | scalar hv => exact .scalar hv
  | double h => exact .double (Double.equal_symm h)
  | list h => exact .list (.flip (forall₂_imp_of_mem h hRS))
  | map hlen hentries =>
    have hrel := (alike_map_iff hv hw).mp (.map hlen hentries)
    refine (alike_map_iff hw hv).mpr fun k => ?_
    refine rel_imp_of_eq (rel_flip (hrel k)) fun b hb a ha hab => hRS a ?_ b ?_ hab
    · exact List.mem_map_of_mem (Assoc.mem_of_get? ha)
    · exact List.mem_map_of_mem (Assoc.mem_of_get? hb)
  | message => exact .message

theorem Alike.trans {R S T : Value → Value → Prop} (huv : Alike R u v) (hvw : Alike S v w)
    (hRST : ∀ a ∈ u.children, ∀ b c, R a b → S b c → T a c) : Alike T u w := by
  cases huv with
  | scalar hu =>
    cases hvw with
    | scalar => exact .scalar hu
    | double | list | map | message => exact hu.elim
  | double hxy =>
    cases hvw with
    | scalar hv => exact hv.elim
    | double hyz => exact .double (Double.equal_trans hxy hyz)
  | list hxy =>
    cases hvw with
    | scalar hv => exact hv.elim
    | list hyz => exact .list (forall₂_comp hxy hyz hRST)
  | map hlen hentries =>
    cases hvw with
    | scalar hv => exact hv.elim
    | map hlen' hentries' =>
      refine .map (hlen.trans hlen') fun e he => ?_
      obtain ⟨b, hb, hab⟩ := hentries e he
      obtain ⟨c, hc, hbc⟩ := hentries' _ (Assoc.mem_of_get? hb)
      exact ⟨c, hc, hRST e.2 (List.mem_map_of_mem he) b c hab hbc⟩
  | message =>
    cases hvw with
    | scalar hv => exact hv.elim
    | message => exact .message

theorem equal_symm (hv : v.Every KeysDistinct) (hw : w.Every KeysDistinct) (h : v.equal w = true) :
    w.equal v = true := by
  -- On what is inside the first value; what is inside the second is met layer by layer.
  induction hv generalizing w with
  | intro here inside ih =>
    obtain ⟨hw, hinside⟩ := every_iff.mp hw
    refine equal_iff_alike.mpr ((equal_iff_alike.mp h).symm here hw fun a ha b hb hab => ?_)
    exact ih a ha (hinside b hb) hab

theorem equal_trans (hu : u.Every KeysDistinct) (huv : u.equal v = true) (hvw : v.equal w = true) :
    u.equal w = true := by
  induction hu generalizing v w with
  | intro here inside ih =>
    refine equal_iff_alike.mpr ((equal_iff_alike.mp huv).trans (equal_iff_alike.mp hvw) fun a ha b c hab hbc => ?_)
    exact ih a ha hab hbc

/-! ### Reflexivity -/

/-- A value is no NaN. -/
def NotNaN : Value → Prop
  | .double x => x.isNaN = false
  | _ => True

theorem Alike.refl {R : Value → Value → Prop} (hkeys : v.KeysDistinct) (hnumber : v.NotNaN)
    (hR : ∀ a ∈ v.children, R a a) : Alike R v v := by
  cases v with
  | double x => exact .double (Double.equal_self_iff.mpr hnumber)
  | list items => exact .list (List.forall₂_same.mpr hR)
  | map entries =>
    exact .map rfl fun e he => ⟨e.2, Assoc.get?_of_mem hkeys he, hR e.2 (List.mem_map_of_mem he)⟩
  | message => exact .message
  | _ => exact .scalar trivial

theorem equal_self (h : v.Every fun w => w.KeysDistinct ∧ w.NotNaN) : v.equal v = true := by
  induction h with
  | intro here _ ih => exact equal_iff_alike.mpr (.refl here.1 here.2 ih)

end Value

end CelSuite
