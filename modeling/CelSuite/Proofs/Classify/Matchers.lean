import CelSuite.Classify.TextMatcher
import CelSuite.Proofs.Text.LowerCase
import CelSuite.Proofs.Text.Ranges

/-! # Matching without regard to case

A matcher that does not regard case lowers its pattern and the message, each by itself. For whole texts it matches all
that it matches with regard to case. For beginnings it does so too, but for a pattern whose last word ends in a sigma:
by itself that is a final sigma, and in a message where the word goes on it is none. -/

namespace CelSuite.TextMatcher
open Text

variable {p s t : String}

/-! ### Whole texts -/

theorem exact_matches_iff {ignoreCase : Bool} :
    (exact p ignoreCase).matchesText t ↔ folded ignoreCase t = folded ignoreCase p := beq_iff_eq

theorem exact_widens (h : (exact p false).matchesText t) : (exact p true).matchesText t := by
  have heq : t = p := exact_matches_iff.mp h
  exact exact_matches_iff.mpr (congrArg _ heq)

/-! ### Beginnings -/

theorem beginning_matches_iff {ignoreCase : Bool} :
    (beginning p ignoreCase).matchesText t ↔ (folded ignoreCase p).toList <+: (folded ignoreCase t).toList :=
  List.isPrefixOf_iff_prefix

theorem beginning_matches_iff_exists : (beginning p false).matchesText t ↔ ∃ s, t = p ++ s := by
  rw [beginning_matches_iff]
  constructor
  · rintro ⟨cs, hcs⟩
    refine ⟨String.ofList cs, String.toList_inj.mp ?_⟩
    rw [String.toList_append, String.toList_ofList]
    exact hcs.symm
  · rintro ⟨s, rfl⟩
    exact ⟨s.toList, String.toList_append.symm⟩

/-- The pattern ends in a sigma that is the last letter of a word, and in the message the word goes on. -/
def PartsWord (p s : String) : Prop := SigmaEnds [] p.toList ∧ CasedNext s.toList

theorem beginning_matches_append_iff : (beginning p true).matchesText (p ++ s) ↔ ¬PartsWord p s := by
  have hlower : ∀ u, (folded true u).toList = lowerFrom [] u.toList := fun u => String.toList_ofList
  rw [beginning_matches_iff, hlower, hlower, String.toList_append]
  exact lowerFrom_prefix_iff [] p.toList s.toList

/-- A matcher that does not regard case matches each message that it matches with regard to case, unless it is one for
    beginnings, its pattern ends in a sigma at the end of a word and the word goes on in the message. -/
theorem ignoring_case_widens_unless_parted (p t s : String) :
    ((exact p false).matchesText t → (exact p true).matchesText t) ∧
    (((beginning p false).matchesText t → (beginning p true).matchesText t) ↔
      ¬∃ rest, t = p ++ rest ∧ PartsWord p rest) ∧
    ((beginning p true).matchesText (p ++ s) ↔ ¬PartsWord p s) := by
  refine ⟨exact_widens, ?_, beginning_matches_append_iff⟩
  rw [beginning_matches_iff_exists]
  constructor
  · rintro hwiden ⟨rest, rfl, hparts⟩
    exact beginning_matches_append_iff.mp (hwiden ⟨rest, rfl⟩) hparts
  · rintro hnone ⟨rest, rfl⟩
    exact beginning_matches_append_iff.mpr fun hparts => hnone ⟨rest, rfl, hparts⟩

/-- A message that begins with a word and is no longer matched by it without regard to case. -/
theorem word_parted_after_sigma :
    PartsWord "ΑΣ" "Α" ∧ (beginning "ΑΣ" false).matchesText "ΑΣΑ" ∧ ¬(beginning "ΑΣ" true).matchesText "ΑΣΑ" := by
  have hcased : isCased 'Α' := by
    rw [isCased, Unicode.casedRanges, Unicode.Ranges.contains_ofText]
    simp only [String.toList_append]
    decide +kernel
  have hcounts : ¬isIgnorable 'Α' := by
    rw [isIgnorable, Unicode.ignorableRanges, Unicode.Ranges.contains_ofText]
    simp only [String.toList_append]
    decide +kernel
  have hnext : CasedNext ['Α'] := ⟨[], 'Α', [], rfl, fun x hx => absurd hx List.not_mem_nil, hcounts, hcased⟩
  have hparts : PartsWord "ΑΣ" "Α" := ⟨⟨['Α'], [], rfl, hnext, fun x hx => absurd hx List.not_mem_nil⟩, hnext⟩
  have hbegins : (beginning "ΑΣ" false).matchesText "ΑΣΑ" := by decide
  refine ⟨hparts, hbegins, fun hmatch => ?_⟩
  exact (ignoring_case_widens_unless_parted "ΑΣ" "ΑΣΑ" "Α").2.1.mp (fun _ => hmatch) ⟨"Α", rfl, hparts⟩

end CelSuite.TextMatcher
