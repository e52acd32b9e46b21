/-
The outcomes of loading a handle.

`Handle.Refuses` has the condition for each error, and `Handle.Accepts` what a
language and its handle have to do with each other.  `load_cases` says that a
load is one of the two, and what is noted in each case: nothing with an error, and
with a language the notices of its check and one more.  What is known of loading
is read off from these cases.
-/
import TaintFlow.Binding.Loading
import TaintFlow.Proofs.Json.Reading

namespace TaintFlow
namespace Grammar

/-- A check finds a defect and notes nothing, or it finds none and notes what is
odd. -/
theorem check_cases (grammar : Grammar) (start : String) :
    (∃ defect, grammar.defect? start = some defect ∧
      grammar.check start = { result := .error defect }) ∨
    (grammar.defect? start = none ∧
      grammar.check start = { result := .ok (), notices := grammar.oddities start }) := by
  unfold check
  cases hdefect : grammar.defect? start with
  | none => exact .inr ⟨rfl, rfl⟩
  | some defect => exact .inl ⟨defect, rfl, rfl⟩

end Grammar

namespace Binding

/-- The handle is refused with this error. -/
inductive Handle.Refuses (handle : Handle) : LoadError → Prop where
  | empty (h : Text.isAllBlank handle.text.toList = true) : Refuses handle .empty
  | incompatible (h : isSupported handle.version = false) :
      Refuses handle (.incompatible handle.version oldestVersion newestVersion)
  | unreadable {failure : Json.Failure} (h : Grammar.read handle.text = .error failure) :
      Refuses handle (.unreadable failure)
  | noRules {grammar : Grammar} (hread : Grammar.read handle.text = .ok grammar)
      (h : startRule? handle.text grammar = none) : Refuses handle .noRules
  | invalid {grammar : Grammar} {start : String} {defect : Defect}
      (hread : Grammar.read handle.text = .ok grammar)
      (hstart : startRule? handle.text grammar = some start)
      (h : grammar.defect? start = some defect) : Refuses handle (.invalid defect)

/-- The handle is accepted as this language. -/
structure Handle.Accepts (handle : Handle) (language : Language) : Prop where
  version_eq : language.version = handle.version
  supported : isSupported handle.version = true
  read : Grammar.read handle.text = .ok language.grammar
  start : startRule? handle.text language.grammar = some language.start
  defect : language.grammar.defect? language.start = none

/-- A handle is refused without a notice, or it is accepted with the notices of
the check and one that the language is there. -/
theorem load_cases (handle : Handle) :
    (∃ error, handle.Refuses error ∧ handle.load = { result := .error error }) ∨
    ∃ language, handle.Accepts language ∧
      handle.load =
        { result := .ok language
          notices := (language.grammar.check language.start).notices ++ [language.notice] } := by
  unfold Handle.load
  split
  · next hblank => exact .inl ⟨_, .empty hblank, rfl⟩
  · split
    · next hversion =>
      rw [Bool.not_eq_true'] at hversion
      exact .inl ⟨_, .incompatible hversion, rfl⟩
    · next hversion =>
      have hsupported : isSupported handle.version = true := by simpa using hversion
      split
      · next hread => exact .inl ⟨_, .unreadable hread, rfl⟩
      · next grammar hread =>
        split
        · next hstart => exact .inl ⟨_, .noRules hread hstart, rfl⟩
        · next start hstart =>
          rcases grammar.check_cases start with ⟨defect, hdefect, hcheck⟩ | ⟨hdefect, hcheck⟩
          · refine .inl ⟨_, .invalid hread hstart hdefect, ?_⟩
            rw [Language.ofGrammar, hcheck]
          · refine .inr ⟨⟨grammar, start, handle.version⟩,
              ⟨rfl, hsupported, hread, hstart, hdefect⟩, ?_⟩
            rw [Language.ofGrammar, hcheck]

theorem accepts_of_load {handle : Handle} {language : Language}
    (h : handle.load.result = .ok language) : handle.Accepts language := by
  rcases load_cases handle with ⟨error, -, hload⟩ | ⟨other, haccepts, hload⟩
  · rw [hload] at h
    cases h
  · rw [hload] at h
    cases h
    exact haccepts

theorem refuses_of_load {handle : Handle} {error : LoadError}
    (h : handle.load.result = .error error) : handle.Refuses error := by
  rcases load_cases handle with ⟨other, hrefuses, hload⟩ | ⟨language, -, hload⟩
  · rw [hload] at h
    cases h
    exact hrefuses
  · rw [hload] at h
    cases h

/-- A handle is loaded when something is known of its language. -/
theorem exists_load_of_map {α : Type} {handle : Handle} {view : Language → α} {seen : α}
    (h : handle.load.result.toOption.map view = some seen) :
    ∃ language, handle.load.result = .ok language ∧ view language = seen :=
  Json.exists_ok_of_toOption_map h

/-- A start rule is a rule of the grammar. -/
theorem contains_of_startRule? {text start : String} {grammar : Grammar}
    (h : startRule? text grammar = some start) : grammar.rules.contains start = true :=
  (Option.filter_eq_some_iff.mp h).2

end Binding
end TaintFlow
