/-
Artifacts that are cut off.

An artifact is a value in brackets, and what stands in brackets is not over before
the last of them.  So of two artifacts of which one starts with the other, what the
longer one has more is blank.  A text that was cut
from an artifact, with more than blanks behind the cut, cannot be read, and whatever
version it is for, it is not loaded (`load_truncated`).
-/
import TaintFlow.Proofs.Artifact.Reading
import TaintFlow.Proofs.Binding.Outcomes
import TaintFlow.Proofs.Json.Extending

namespace TaintFlow

namespace Grammar

open Json (Bracket Reader Record isSpace skipSpace)

theorem spells_reader (budget : Nat) : (reader budget).Spells :=
  (spells_record (budget - 1)).reader budget

/-- An artifact starts with a bracket. -/
theorem exists_opening_of_read {text : String} {grammar : Grammar}
    (h : read text = .ok grammar) :
    ∃ (bracket : Bracket) (body : Json.Input),
      skipSpace text.toList = bracket.opening :: body := by
  obtain ⟨rest, hrun, -⟩ := Reader.readAll_eq_ok_iff.mp h
  rcases Record.head_of_reader_run hrun with hopen | hopen
  · obtain ⟨body, hbody⟩ := List.head?_eq_some_iff.mp hopen
    exact ⟨.curly, body, hbody⟩
  · obtain ⟨body, hbody⟩ := List.head?_eq_some_iff.mp hopen
    exact ⟨.square, body, hbody⟩

/-- An artifact that is cut before the end of its value is no artifact. -/
theorem read_truncated {part rest : String} {grammar : Grammar}
    (hread : read (part ++ rest) = .ok grammar) (hrest : ∃ c ∈ rest.toList, isSpace c = false) :
    ∃ failure, read part = .error failure := by
  cases hpart : read part with
  | error failure => exact ⟨failure, rfl⟩
  | ok other =>
    obtain ⟨bracket, body, hopen⟩ := exists_opening_of_read hpart
    obtain ⟨c, hc, hblank⟩ := hrest
    have hmore : (reader Json.greatestDepth).readAll (part.toList ++ rest.toList) =
        .ok grammar := by
      rw [← String.toList_append]
      exact hread
    have hspace := (spells_reader _).isSpace_of_readAll_append hopen hpart hmore c hc
    rw [hblank] at hspace
    cases hspace

end Grammar

namespace Binding

/-- Without a grammar a handle is refused, and not for what its grammar is like. -/
theorem load_of_read_eq_error {handle : Handle} {failure : Json.Failure}
    (h : Grammar.read handle.text = .error failure) :
    ∃ error, handle.load.result = .error error ∧
      (error = .empty ∨ error = .incompatible handle.version 13 15 ∨
        error = .unreadable failure) := by
  rcases load_cases handle with ⟨error, hrefuses, hload⟩ | ⟨language, haccepts, -⟩
  · refine ⟨error, by rw [hload], ?_⟩
    cases hrefuses with
    | empty => exact .inl rfl
    | incompatible => exact .inr (.inl rfl)
    | unreadable hread =>
      cases h.symm.trans hread
      exact .inr (.inr rfl)
    | noRules hread => cases h.symm.trans hread
    | invalid hread => cases h.symm.trans hread
  · cases h.symm.trans haccepts.read

/-- A text that was cut from an artifact is not read, and for no version is it
loaded. -/
theorem load_truncated {part rest : String} {grammar : Grammar}
    (hread : Grammar.read (part ++ rest) = .ok grammar)
    (hrest : ∃ c ∈ rest.toList, Json.isSpace c = false) :
    ∃ failure, Grammar.read part = .error failure ∧
      ∀ version, ∃ error, ({ text := part, version } : Handle).load.result = .error error ∧
        (error = .empty ∨ error = .incompatible version 13 15 ∨ error = .unreadable failure) := by
  obtain ⟨failure, hfailure⟩ := Grammar.read_truncated hread hrest
  exact ⟨failure, hfailure, fun version => load_of_read_eq_error hfailure⟩

/-- A grammar up to the inside of an escape in the name of its rule. -/
def jetty : String := "\x7b\"name\":\"jetty\",\"rules\":\x7b\"pi\\u00"

/-- The rest of that grammar, with a line break behind it. -/
def jettyEnd : String := "65r\":\x7b\"type\":\"BLANK\"\x7d\x7d\x7d\n"

theorem load_truncated_jetty :
    (∃ grammar, Grammar.read (jetty ++ jettyEnd) = .ok grammar) ∧
    (∃ c ∈ jettyEnd.toList, Json.isSpace c = false) ∧
    ∃ failure, Grammar.read jetty = .error failure ∧
      ∀ version, ∃ error, ({ text := jetty, version } : Handle).load.result = .error error ∧
        (error = .empty ∨ error = .incompatible version 13 15 ∨ error = .unreadable failure) := by
  obtain ⟨grammar, hread, -⟩ := Grammar.exists_read_of_keys
    (show (Grammar.read (jetty ++ jettyEnd)).toOption.map (fun grammar => grammar.rules.keys) =
      some ["pier"] by decide +kernel)
  have hrest : ∃ c ∈ jettyEnd.toList, Json.isSpace c = false := ⟨'r', by decide, rfl⟩
  exact ⟨⟨grammar, hread⟩, hrest, load_truncated hread hrest⟩

end Binding
end TaintFlow
