import CelSuite.Unicode.CaseMap

/-! # Lower case and beginnings

The lower case of a text begins with the lower case of each of its beginnings, but for one letter: the last sigma of a
word is written another way, and whether a sigma is the last letter of a word cannot be told from what stands before
it. -/

namespace CelSuite.Text

/-- The next character that counts has case. -/
def CasedNext (cs : List Char) : Prop :=
  ∃ skipped c rest, cs = skipped ++ c :: rest ∧ (∀ x ∈ skipped, isIgnorable x) ∧ ¬isIgnorable c ∧ isCased c

/-- The last character that counts is a capital sigma, and it ends a word, where the characters before those of `cs`
    are those of `done`, the nearest first. -/
def SigmaEnds (done cs : List Char) : Prop :=
  ∃ before skipped, cs = before ++ '\u03A3' :: skipped ∧ CasedNext (before.reverse ++ done) ∧
    ∀ x ∈ skipped, isIgnorable x

section
variable {c : Char} {cs a b done : List Char}

theorem meetsCased_cons_ignorable (h : isIgnorable c) : meetsCased (c :: cs) = meetsCased cs := by
  rw [meetsCased, List.dropWhile_cons_of_pos h, meetsCased]

theorem meetsCased_cons (h : ¬isIgnorable c) : meetsCased (c :: cs) = isCased c := by
  rw [meetsCased, List.dropWhile_cons_of_neg h]
  rfl

theorem meetsCased_append_of_ignorable (h : ∀ x ∈ a, isIgnorable x) : meetsCased (a ++ b) = meetsCased b := by
  induction a with
  | nil => rfl
  | cons c a ih =>
    rw [List.cons_append, meetsCased_cons_ignorable (h c List.mem_cons_self)]
    exact ih fun x hx => h x (List.mem_cons_of_mem c hx)

theorem meetsCased_append_of_counts (h : ¬∀ x ∈ a, isIgnorable x) : meetsCased (a ++ b) = meetsCased a := by
  induction a with
  | nil => exact absurd (fun x hx => absurd hx List.not_mem_nil) h
  | cons c a ih =>
    by_cases hc : isIgnorable c
    · rw [List.cons_append, meetsCased_cons_ignorable hc, meetsCased_cons_ignorable hc]
      exact ih fun ha => h (List.forall_mem_cons.mpr ⟨hc, ha⟩)
    · rw [List.cons_append, meetsCased_cons hc, meetsCased_cons hc]

theorem meetsCased_iff : meetsCased cs ↔ CasedNext cs := by
  constructor
  · intro h
    induction cs with
    | nil => exact absurd h Bool.false_ne_true
    | cons c cs ih =>
      by_cases hc : isIgnorable c
      · obtain ⟨skipped, d, rest, rfl, hskip, hd⟩ := ih (meetsCased_cons_ignorable hc ▸ h)
        exact ⟨c :: skipped, d, rest, rfl, List.forall_mem_cons.mpr ⟨hc, hskip⟩, hd⟩
      · exact ⟨[], c, cs, rfl, fun x hx => absurd hx List.not_mem_nil, hc, meetsCased_cons hc ▸ h⟩
  · rintro ⟨skipped, c, rest, rfl, hskip, hc, hcased⟩
    rw [meetsCased_append_of_ignorable hskip, meetsCased_cons hc]
    exact hcased

/-- More text after a text changes whether a character with case comes next only if nothing in it counts. -/
theorem meetsCased_append_eq_iff :
    meetsCased (a ++ b) = meetsCased a ↔ ¬((∀ x ∈ a, isIgnorable x) ∧ CasedNext b) := by
  by_cases ha : ∀ x ∈ a, isIgnorable x
  · have hnone : meetsCased a = false := by
      have := meetsCased_append_of_ignorable (b := []) ha
      rwa [List.append_nil] at this
    rw [meetsCased_append_of_ignorable ha, hnone, ← meetsCased_iff, and_iff_right ha, Bool.not_eq_true]
  · exact iff_of_true (meetsCased_append_of_counts ha) fun h => ha h.1

theorem sigmaEnds_cons :
    SigmaEnds done (c :: cs) ↔
      (c = '\u03A3' ∧ CasedNext done ∧ ∀ x ∈ cs, isIgnorable x) ∨ SigmaEnds (c :: done) cs := by
  constructor
  · rintro ⟨before, skipped, heq, hcased, hskip⟩
    cases before with
    | nil =>
      obtain ⟨rfl, rfl⟩ := List.cons.inj heq
      exact .inl ⟨rfl, hcased, hskip⟩
    | cons d before =>
      obtain ⟨rfl, rfl⟩ := List.cons.inj heq
      rw [List.reverse_cons, List.append_assoc] at hcased
      exact .inr ⟨before, skipped, rfl, hcased, hskip⟩
  · rintro (⟨rfl, hcased, hskip⟩ | ⟨before, skipped, rfl, hcased, hskip⟩)
    · exact ⟨[], cs, rfl, hcased, hskip⟩
    · refine ⟨c :: before, skipped, rfl, ?_, hskip⟩
      rwa [List.reverse_cons, List.append_assoc]

end

/-- The lower case of a character that has those of `done` before it, the nearest first, and those of `cs` after it. -/
def lowerAt (done : List Char) (c : Char) (cs : List Char) : List Char :=
  if c = '\u03A3' then [if meetsCased done && !meetsCased cs then '\u03C2' else '\u03C3'] else lowerChar c

theorem lowerFrom_cons (done : List Char) (c : Char) (cs : List Char) :
    lowerFrom done (c :: cs) = lowerAt done c cs ++ lowerFrom (c :: done) cs := rfl

theorem length_lowerAt (done : List Char) (c : Char) (cs cs' : List Char) :
    (lowerAt done c cs).length = (lowerAt done c cs').length := by
  unfold lowerAt
  split <;> rfl

/-- What comes after is of matter only to a sigma. -/
theorem lowerAt_append_iff (done : List Char) (c : Char) (cs s : List Char) :
    lowerAt done c cs = lowerAt done c (cs ++ s) ↔
      ¬((c = '\u03A3' ∧ CasedNext done ∧ ∀ x ∈ cs, isIgnorable x) ∧ CasedNext s) := by
  unfold lowerAt
  by_cases hc : c = '\u03A3'
  · rw [if_pos hc, if_pos hc, ← meetsCased_iff]
    by_cases hdone : meetsCased done
    · have hcut := meetsCased_append_eq_iff (a := cs) (b := s)
      simp only [hc, hdone, Bool.true_and, true_and]
      rw [← hcut]
      cases meetsCased cs <;> cases meetsCased (cs ++ s) <;> simp
    · simp [hdone]
  · simp [hc]

/-- The lower case of a beginning is the beginning of the lower case, unless a sigma ends the beginning and the word
    goes on. -/
theorem lowerFrom_prefix_iff (done p s : List Char) :
    lowerFrom done p <+: lowerFrom done (p ++ s) ↔ ¬(SigmaEnds done p ∧ CasedNext s) := by
  induction p generalizing done with
  | nil =>
    have hnil : ¬SigmaEnds done [] := by
      rintro ⟨before, skipped, heq, -⟩
      exact List.cons_ne_nil _ _ (List.append_eq_nil_iff.mp heq.symm).2
    simp [lowerFrom, hnil]
  | cons c cs ih =>
    -- The first character has as many letters either way, so the two lower cases can be told apart letter by letter.
    rw [List.cons_append, lowerFrom_cons, lowerFrom_cons, List.prefix_append_inj_of_length_eq (length_lowerAt ..), ih,
      lowerAt_append_iff, sigmaEnds_cons, or_and_right, not_or]

end CelSuite.Text
