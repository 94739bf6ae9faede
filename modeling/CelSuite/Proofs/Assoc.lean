import CelSuite.Assoc
import Mathlib.Data.List.Induction

/-! # Association lists that were filled by `put`

What a list holds after `put`: the new pair and the other pairs as they were, under keys that stay distinct.
Giving a key a value again replaces the value and moves nothing. So the pairs that a list was filled with
last can be put in once more and the list stays as it is. -/

namespace CelSuite.Assoc

variable {κ α : Type} [DecidableEq κ] {k k' : κ} {a a' : α} {m ps : List (κ × α)}

/-! ### Pairs and keys -/

theorem mem_of_get? (h : get? k m = some a) : (k, a) ∈ m := by
  induction m with
  | nil => cases h
  | cons e r ih =>
    obtain ⟨k₀, a₀⟩ := e
    rw [get?] at h
    split at h
    · rename_i hk
      cases h
      rw [hk]
      exact List.mem_cons_self
    · exact List.mem_cons_of_mem _ (ih h)

theorem isSome_get?_iff : (get? k m).isSome ↔ k ∈ m.map (·.1) := by
  induction m with
  | nil => simp [get?]
  | cons e r ih =>
    obtain ⟨k₀, a₀⟩ := e
    rw [get?, List.map_cons, List.mem_cons]
    split
    · rename_i hk
      simp [hk]
    · rename_i hk
      simp [ih, Ne.symm hk]

theorem get?_eq_none_iff : get? k m = none ↔ k ∉ m.map (·.1) := by
  rw [← isSome_get?_iff, Bool.not_eq_true, Option.isSome_eq_false_iff, Option.isNone_iff_eq_none]

theorem get?_of_mem (hm : (m.map (·.1)).Nodup) (h : (k, a) ∈ m) : get? k m = some a := by
  induction m with
  | nil => cases h
  | cons e r ih =>
    obtain ⟨k₀, a₀⟩ := e
    obtain ⟨hfresh, hr⟩ := List.nodup_cons.mp hm
    rw [get?]
    rcases List.mem_cons.mp h with heq | hmem
    · cases heq
      rw [if_pos rfl]
    · have hne : k₀ ≠ k := by
        rintro rfl
        exact hfresh (List.mem_map.mpr ⟨_, hmem, rfl⟩)
      rw [if_neg hne, ih hr hmem]

theorem get?_eq_some_iff (hm : (m.map (·.1)).Nodup) : get? k m = some a ↔ (k, a) ∈ m :=
  ⟨mem_of_get?, get?_of_mem hm⟩

theorem get?_perm {m' : List (κ × α)} (h : m.Perm m') (hm : (m.map (·.1)).Nodup) : get? k m = get? k m' := by
  have hm' : (m'.map (·.1)).Nodup := (h.map _).nodup_iff.mp hm
  ext a
  rw [get?_eq_some_iff hm, get?_eq_some_iff hm', h.mem_iff]

/-- The keys are told by what is found. -/
theorem keys_perm {m' : List (κ × α)} (hm : (m.map (·.1)).Nodup) (hm' : (m'.map (·.1)).Nodup)
    (h : ∀ k, get? k m = get? k m') : (m.map (·.1)).Perm (m'.map (·.1)) := by
  refine (List.perm_ext_iff_of_nodup hm hm').mpr fun k => ?_
  rw [← isSome_get?_iff, ← isSome_get?_iff, h k]

theorem mem_put {e : κ × α} (h : e ∈ put k a m) : e = (k, a) ∨ e ∈ m := by
  induction m with
  | nil => exact Or.inl (List.mem_singleton.mp h)
  | cons e₀ r ih =>
    obtain ⟨k₀, a₀⟩ := e₀
    rw [put] at h
    split at h
    · rename_i hk
      rcases List.mem_cons.mp h with rfl | hmem
      · exact Or.inl (by rw [hk])
      · exact Or.inr (List.mem_cons_of_mem _ hmem)
    · rcases List.mem_cons.mp h with rfl | hmem
      · exact Or.inr List.mem_cons_self
      · exact (ih hmem).imp_right (List.mem_cons_of_mem _)

theorem nodup_put (k : κ) (a : α) (hm : (m.map (·.1)).Nodup) : ((put k a m).map (·.1)).Nodup := by
  induction m with
  | nil => simp [put]
  | cons e r ih =>
    obtain ⟨k₀, a₀⟩ := e
    obtain ⟨hfresh, hr⟩ := List.nodup_cons.mp hm
    rw [put]
    split
    · exact List.nodup_cons.mpr ⟨hfresh, hr⟩
    · rename_i hk
      refine List.nodup_cons.mpr ⟨fun hmem => ?_, ih hr⟩
      obtain ⟨e, he, hfst⟩ := List.mem_map.mp hmem
      rcases mem_put he with rfl | he
      · exact hk hfst.symm
      · exact hfresh (List.mem_map.mpr ⟨e, he, hfst⟩)

theorem mem_putAll {e : κ × α} (h : e ∈ putAll m ps) : e ∈ m ∨ e ∈ ps := by
  induction ps generalizing m with
  | nil => exact Or.inl h
  | cons p ps ih =>
    rcases ih h with he | he
    · rcases mem_put he with rfl | he
      · exact Or.inr List.mem_cons_self
      · exact Or.inl he
    · exact Or.inr (List.mem_cons_of_mem _ he)

/-- A new key goes to the end. -/
theorem put_fresh (hk : k ∉ m.map (·.1)) : put k a m = m ++ [(k, a)] := by
  induction m with
  | nil => rfl
  | cons e r ih =>
    rw [List.map_cons, List.mem_cons, not_or] at hk
    rw [put, if_neg (Ne.symm hk.1), ih hk.2, List.cons_append]

/-- A key that is there keeps its place. -/
theorem keys_put_of_mem (hk : k ∈ m.map (·.1)) : (put k a m).map (·.1) = m.map (·.1) := by
  induction m with
  | nil => cases hk
  | cons e r ih =>
    rw [put]
    split
    · rfl
    · rename_i hne
      rcases List.mem_cons.mp hk with heq | hmem
      · exact absurd heq.symm hne
      · rw [List.map_cons, ih hmem, List.map_cons]

/-! ### Filling -/

/-- The keys that a list was filled with, each at the place where it came first. -/
theorem keys_putAll (ps : List (κ × α)) : (putAll [] ps).map (·.1) = (ps.map (·.1)).eraseDups := by
  induction ps using List.reverseRecOn with
  | nil => rfl
  | append_singleton ps p ih =>
    have hput : putAll [] (ps ++ [p]) = put p.1 p.2 (putAll [] ps) := List.foldl_append
    rw [hput, List.map_append, List.eraseDups_append, ← ih]
    by_cases hp : p.1 ∈ (putAll [] ps).map (·.1)
    · have hold : p.1 ∈ ps.map (·.1) := List.mem_eraseDups.mp (ih ▸ hp)
      rw [keys_put_of_mem hp]
      simp [List.removeAll, hold]
    · have hnew : p.1 ∉ ps.map (·.1) := fun hmem => hp (ih ▸ List.mem_eraseDups.mpr hmem)
      rw [put_fresh hp]
      simp [List.removeAll, hnew, List.eraseDups_cons]

theorem get?_putAll_of_not_mem (hps : ∀ p ∈ ps, p.1 ≠ k) : get? k (putAll m ps) = get? k m := by
  induction ps generalizing m with
  | nil => rfl
  | cons p ps ih =>
    obtain ⟨hp, hps⟩ := List.forall_mem_cons.mp hps
    exact (ih hps).trans (get?_put_of_ne hp p.2 m)

/-- The last value that is given for a key holds. -/
theorem get?_putAll_last {qs : List (κ × α)} (hqs : ∀ q ∈ qs, q.1 ≠ k) :
    get? k (putAll m (ps ++ (k, a) :: qs)) = some a := by
  have happ : putAll m (ps ++ (k, a) :: qs) = putAll (put k a (putAll m ps)) qs := List.foldl_append
  rw [happ, get?_putAll_of_not_mem hqs, get?_put_self]

/-- A key has the last value that it is given, or else the value from before. -/
theorem get?_putAll (k : κ) (m ps : List (κ × α)) :
    get? k (putAll m ps) = ((ps.filter fun p => p.1 = k).getLast?.map (·.2)).or (get? k m) := by
  induction ps using List.reverseRecOn with
  | nil => rfl
  | append_singleton ps p ih =>
    have hput : putAll m (ps ++ [p]) = put p.1 p.2 (putAll m ps) := List.foldl_append
    rw [hput, List.filter_append]
    by_cases hp : p.1 = k
    · subst hp
      simp [get?_put_self]
    · simp [get?_put_of_ne hp, ih, hp]

theorem get?_putAll_or (k : κ) (m ps : List (κ × α)) :
    get? k (putAll m ps) = (get? k (putAll [] ps)).or (get? k m) := by
  rw [get?_putAll k m, get?_putAll k [], get?, Option.or_none]

theorem nodup_putAll (hm : (m.map (·.1)).Nodup) (ps : List (κ × α)) : ((putAll m ps).map (·.1)).Nodup := by
  induction ps generalizing m with
  | nil => exact hm
  | cons p ps ih => exact ih (nodup_put p.1 p.2 hm)

/-- Pairs with keys of their own go to the end as they are. -/
theorem putAll_fresh (h : ((m ++ ps).map (·.1)).Nodup) : putAll m ps = m ++ ps := by
  induction ps generalizing m with
  | nil =>
    rw [List.append_nil]
    rfl
  | cons p ps ih =>
    have happ : m ++ p :: ps = m ++ [p] ++ ps := by rw [List.append_assoc, List.singleton_append]
    have hp : p.1 ∉ m.map (·.1) := by
      rw [List.map_append, List.map_cons] at h
      exact fun hmem => (List.nodup_append.mp h).2.2 _ hmem _ List.mem_cons_self rfl
    have hput : putAll m (p :: ps) = putAll (put p.1 p.2 m) ps := rfl
    rw [hput, put_fresh hp, happ]
    exact ih (happ ▸ h)

/-! ### Changing every value -/

section
variable {β : Type} (f : α → β)

theorem get?_mapValues (k : κ) (m : List (κ × α)) : get? k (m.map fun e => (e.1, f e.2)) = (get? k m).map f := by
  induction m with
  | nil => rfl
  | cons e r ih =>
    rw [List.map_cons, get?, get?]
    split
    · rfl
    · exact ih

theorem put_mapValues (k : κ) (a : α) (m : List (κ × α)) :
    put k (f a) (m.map fun e => (e.1, f e.2)) = (put k a m).map fun e => (e.1, f e.2) := by
  induction m with
  | nil => rfl
  | cons e r ih =>
    rw [List.map_cons, put, put]
    split
    · rfl
    · rw [ih, List.map_cons]

theorem putAll_mapValues (m ps : List (κ × α)) :
    putAll (m.map fun e => (e.1, f e.2)) (ps.map fun e => (e.1, f e.2)) =
      (putAll m ps).map fun e => (e.1, f e.2) := by
  induction ps generalizing m with
  | nil => rfl
  | cons p ps ih =>
    show putAll (put p.1 (f p.2) (m.map fun e => (e.1, f e.2))) (ps.map fun e => (e.1, f e.2)) = _
    rw [put_mapValues, ih]
    rfl

end

/-! ### Putting in again -/

theorem get?_put (k k' : κ) (a : α) (m : List (κ × α)) :
    get? k (put k' a m) = if k' = k then some a else get? k m := by
  by_cases h : k' = k
  · rw [if_pos h, h, get?_put_self]
  · rw [if_neg h, get?_put_of_ne h]

theorem put_put_self (k : κ) (a a' : α) (m : List (κ × α)) : put k a (put k a' m) = put k a m := by
  induction m with
  | nil => simp [put]
  | cons e r ih =>
    obtain ⟨k₀, a₀⟩ := e
    by_cases h : k₀ = k
    · simp [put, h]
    · simp [put, h, ih]

/-- Two keys of which one is there take their values in either order. -/
theorem put_comm (h : k ≠ k') (hk' : (get? k' m).isSome) : put k' a' (put k a m) = put k a (put k' a' m) := by
  induction m with
  | nil => cases hk'
  | cons e r ih =>
    obtain ⟨k₀, a₀⟩ := e
    by_cases h₀ : k₀ = k
    · subst h₀
      simp [put, h]
    · by_cases h₁ : k₀ = k'
      · subst h₁
        simp [put, h₀]
      · rw [get?, if_neg h₁] at hk'
        simp [put, h₀, h₁, ih hk']

theorem isSome_get?_put (hk : (get? k m).isSome) : (get? k (put k' a m)).isSome := by
  rw [get?_put]
  split
  · rfl
  · exact hk

theorem isSome_get?_putAll (h : (get? k m).isSome ∨ k ∈ ps.map (·.1)) : (get? k (putAll m ps)).isSome := by
  induction ps generalizing m with
  | nil =>
    rcases h with hk | hk
    · exact hk
    · cases hk
  | cons p ps ih =>
    refine ih ?_
    rcases h with hk | hk
    · exact Or.inl (isSome_get?_put hk)
    · rcases List.mem_cons.mp hk with rfl | hk
      · exact Or.inl (by rw [get?_put_self]; rfl)
      · exact Or.inr hk

theorem putAll_append (m ps qs : List (κ × α)) : putAll m (ps ++ qs) = putAll (putAll m ps) qs :=
  List.foldl_append

/-- Among keys that are all there, the value that a key has before does not matter if it gets one after. -/
theorem put_putAll_put (hps : ∀ p ∈ ps, (get? p.1 m).isSome) :
    put k a (putAll (put k a' m) ps) = put k a (putAll m ps) := by
  induction ps generalizing m with
  | nil => exact put_put_self k a a' m
  | cons p ps ih =>
    obtain ⟨k', b⟩ := p
    obtain ⟨hk', hps⟩ := List.forall_mem_cons.mp hps
    have hps' : ∀ p ∈ ps, (get? p.1 (put k' b m)).isSome := fun p hp => isSome_get?_put (hps p hp)
    show put k a (putAll (put k' b (put k a' m)) ps) = put k a (putAll (put k' b m) ps)
    by_cases h : k = k'
    · subst h
      rw [put_put_self]
    · rw [put_comm h hk', ih hps']

/-- What was put in last can be put in again. -/
theorem putAll_again (m ps : List (κ × α)) : putAll (putAll m ps) ps = putAll m ps := by
  induction ps using List.reverseRecOn with
  | nil => rfl
  | append_singleton ps p ih =>
    have hps : ∀ q ∈ ps, (get? q.1 (putAll m ps)).isSome := fun q hq =>
      isSome_get?_putAll (Or.inr (List.mem_map_of_mem hq))
    rw [putAll_append, putAll_append]
    show put p.1 p.2 (putAll (put p.1 p.2 (putAll m ps)) ps) = put p.1 p.2 (putAll m ps)
    rw [put_putAll_put hps, ih]

end CelSuite.Assoc
