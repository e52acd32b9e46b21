/-
The entry rule of every document.

A document with rules is an object between blanks, with one entry that is named for
the rules and whose value is an object again.  `RulesDocument` says so by composition:
the text is put together from its parts, and nothing is said of how it is gone through.
`entryRule?_of_document` says that the first of the rules is found in every such
document, or that none is when there is none.  What the other entries hold does not
matter, however deep it is and whatever names are in it.
-/
import Mathlib.Data.List.Forall2
import TaintFlow.Proofs.Artifact.EntryRule
import TaintFlow.Proofs.Json.Composing

namespace TaintFlow
namespace Artifact

open Json (Blank Continues EntriesForm Entry EntryForm Forms Input ObjectForm ObjectText StringText
  forms_item_iff skipSpace_eq_nil_iff skipValue stringRest stringRest_eq_ok_iff)

/-- The text of a document with these rules. -/
inductive RulesDocument : List Entry → Input → Prop where
  | object {entries rules : List Entry} {lead object tail before inner after : Input}
      (hlead : Blank lead) (hobject : ObjectForm entries object) (htail : Blank tail)
      (hbefore : Blank before) (hrules : ObjectForm rules inner) (hafter : Blank after)
      (honly : (entries.filter fun entry => entry.1 == "rules") =
        [("rules", before ++ (inner ++ after))]) :
      RulesDocument rules (lead ++ (object ++ tail))

/-- In a longer text there is still one entry of the name, and its value is longer. -/
theorem filter_of_continues {entries longer : List Entry} {name : String} {value : Input}
    (h : List.Forall₂ Continues entries longer)
    (honly : (entries.filter fun entry => entry.1 == name) = [(name, value)]) :
    ∃ more, (longer.filter fun entry => entry.1 == name) = [(name, value ++ more)] := by
  have hkey : ∀ entry other, Continues entry other →
      ((entry.1 == name) = true ↔ (other.1 == name) = true) := fun entry other hcontinues => by
    rw [hcontinues.1]
  have hfilter := List.rel_filter hkey h
  rw [honly] at hfilter
  cases hlonger : longer.filter fun entry => entry.1 == name with
  | nil =>
    rw [hlonger] at hfilter
    cases hfilter
  | cons entry others =>
    rw [hlonger] at hfilter
    obtain ⟨⟨hname, more, hvalue⟩, hothers⟩ := List.forall₂_cons.mp hfilter
    cases hothers
    exact ⟨more, congrArg (fun entry => [entry]) (Prod.ext hname hvalue)⟩

theorem head?_map_of_continues {rules longer : List Entry}
    (h : List.Forall₂ Continues rules longer) :
    longer.head?.map Prod.fst = rules.head?.map Prod.fst := by
  cases h with
  | nil => rfl
  | cons hfirst _ => exact congrArg some hfirst.1

/-- The entry rule of a document with rules is the first of them, if there is one. -/
theorem entryRule?_of_document {text : String} {rules : List Entry}
    (h : RulesDocument rules text.toList) : entryRule? text = rules.head?.map Prod.fst := by
  generalize htext : text.toList = chars at h
  obtain @⟨entries, rules, lead, object, tail, before, inner, after, hlead, hobject, htail,
    hbefore, hrules, hafter, honly⟩ := h
  obtain ⟨longer, hlonger, hdocument⟩ := hobject.objectText tail hlead
  obtain ⟨more, hfilter⟩ := filter_of_continues hlonger honly
  obtain ⟨found, hfound, hinner⟩ := hrules.objectText (after ++ more) hbefore
  have hvalue : ObjectText found ((before ++ (inner ++ after)) ++ more) (after ++ more) := by
    rw [List.append_assoc, List.append_assoc]
    exact hinner
  have htextRules : RulesText text found := by
    refine ⟨longer, tail, _, _, ?_, skipSpace_eq_nil_iff.mpr htail, hfilter, hvalue⟩
    rw [htext]
    exact hdocument
  rw [entryRule?_eq_of_rulesText htextRules, head?_map_of_continues hfound]

/-- A list with rules of its own, a lone surrogate and a bracket in a string, and an
empty list. -/
def decoy : String :=
  " [\x7b\"rules\":\x7b\"z\":\"\\ud800\\\"\x7d\"\x7d\x7d, -1.5e+3,[ ]] "

/-- A document with this list in front of its rules, and with escapes in the name for
the rules and in the name of the first of them. -/
def thicket : String :=
  "\n\x7b\"x\" :" ++ decoy ++
    ",\"r\\u0075les\": \x7b\"\\u0062\":\x7b\"rules\":0\x7d,\"a\":null \x7d\x7d\t"

theorem entryRule?_of_document_thicket :
    RulesDocument [("b", "\x7b\"rules\":0\x7d".toList), ("a", "null ".toList)] thicket.toList ∧
      entryRule? thicket = some "b" := by
  have hkey : ∀ {name key : String}, stringRest key.toList = .ok (name.toList, []) →
      StringText name.toList key.toList [] := stringRest_eq_ok_iff.mp
  have hvalue : ∀ {value : String} (rest : Input), Blank rest → skipValue value.toList = .ok rest →
      Forms (.item .square) value.toList := fun rest hrest hskip =>
    forms_item_iff.mpr ⟨rest, hrest, hskip⟩
  have hnone : Blank [] := by decide
  have hspace : Blank [' '] := by decide
  have hfirst := EntryForm.keyed hnone
    (hkey (show stringRest "\\u0062\"".toList = .ok ("b".toList, []) by decide +kernel)) hnone
    (hvalue [] hnone (show skipValue "\x7b\"rules\":0\x7d".toList = .ok [] by decide +kernel))
  have hsecond := EntryForm.keyed hnone
    (hkey (show stringRest "a\"".toList = .ok ("a".toList, []) by decide +kernel)) hnone
    (hvalue [' '] hspace (show skipValue "null ".toList = .ok [' '] by decide +kernel))
  have hrules := ObjectForm.filled hfirst (.more hsecond .close)
  have hother := EntryForm.keyed hnone
    (hkey (show stringRest "x\"".toList = .ok ("x".toList, []) by decide +kernel)) hspace
    (hvalue [' '] hspace (show skipValue decoy.toList = .ok [' '] by decide +kernel))
  have hentry := EntryForm.keyed hnone
    (hkey (show stringRest "r\\u0075les\"".toList = .ok ("rules".toList, []) by decide +kernel))
    hnone (.item hspace hrules.forms hnone)
  have hobject := ObjectForm.filled hother (.more hentry .close)
  have hlead : Blank ['\n'] := by decide
  have htail : Blank ['\t'] := by decide
  obtain ⟨chars, htext, hdocument⟩ : ∃ chars, chars = thicket.toList ∧
      RulesDocument [("b", "\x7b\"rules\":0\x7d".toList), ("a", "null ".toList)] chars :=
    ⟨_, by decide +kernel, .object hlead hobject htail hspace hrules hnone rfl⟩
  subst htext
  exact ⟨hdocument, entryRule?_of_document hdocument⟩

end Artifact
end TaintFlow
