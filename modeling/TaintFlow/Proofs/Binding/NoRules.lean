/-
When a handle has no rules.

That a grammar has no rules is found by the second reading of its text, the one
for the entry rule.  For a document that is an object the second reading agrees
with the first, so it is the grammars without rules that are refused.  A document
that is a list gives its fields by place, and there the second reading looks for
the rules in the place of another field: it finds none, and the grammar is
refused whatever rules it has.  `load_eq_noRules_iff` says so, and
`load_listed_eq_noRules` is a grammar with a rule that is refused.
-/
import TaintFlow.Binding.Loading
import TaintFlow.Proofs.Artifact.EntryRule

namespace TaintFlow
namespace Binding

open Artifact (entryRecord entryRule? firstNameReader)
open Json (Field Input ObjectText Reader Record nextItem skipSpace)

/-! ## Documents that are lists -/

/-- What may be a string starts with a quote or with the first letter of a null. -/
theorem head_of_optional_string {text rest : Input} {s : Option String}
    (h : Reader.string.optional.run text = .ok (s, rest)) :
    (skipSpace text).head? = some 'n' ∨ (skipSpace text).head? = some '"' := by
  simp only [Reader.optional, Reader.string] at h
  split at h
  · next heq => exact .inl (congrArg List.head? heq)
  · split at h
    · cases h
    · next hs =>
      split at hs
      · cases hs
      · next heq =>
        rw [Json.skipSpace_skipSpace] at heq
        exact .inr (congrArg List.head? heq)
      · cases hs

theorem head_of_firstNameReader {text rest : Input} {name : Option String}
    (h : firstNameReader.run text = .ok (name, rest)) :
    (skipSpace text).head? = some '\x7b' := by
  obtain ⟨entries, ⟨body, hopen, -⟩, -⟩ := Artifact.firstNameReader_run_eq_ok_iff.mp h
  exact congrArg List.head? hopen

/-- The first item of a list is the schema for one reading, and for the other the
rules. -/
theorem entryRule?_eq_none_of_list {text : String} {grammar : Grammar}
    (hopen : (skipSpace text.toList).head? = some '[') (hread : Grammar.read text = .ok grammar) :
    entryRule? text = none := by
  obtain ⟨body, hbody⟩ := List.head?_eq_some_iff.mp hopen
  obtain ⟨tail, hrun, -⟩ := Reader.readAll_eq_ok_iff.mp hread
  obtain ⟨start, update, next, hnext, hupdate⟩ :=
    Record.exists_first_of_listed ⟨_, List.mem_cons_of_mem _ List.mem_cons_self, rfl⟩
      (Record.listed_of_reader_run hbody hrun)
  obtain ⟨schema, hschema, -⟩ := Reader.map_run_eq_ok_iff.mp hupdate
  unfold entryRule?
  split
  · next name hentry =>
    obtain ⟨tail, hrun, -⟩ := Reader.readAll_eq_ok_iff.mp hentry
    obtain ⟨start', update', next', hnext', hupdate'⟩ :=
      Record.exists_first_of_listed ⟨_, List.mem_cons_self, rfl⟩
        (Record.listed_of_reader_run hbody hrun)
    obtain ⟨found, hfound, -⟩ := Reader.map_run_eq_ok_iff.mp hupdate'
    -- Both readings look at the same item, and it cannot be both a string and an object.
    cases hnext.symm.trans hnext'
    have hcurly := head_of_firstNameReader hfound
    rcases head_of_optional_string hschema with hhead | hhead
    · cases hhead.symm.trans hcurly
    · cases hhead.symm.trans hcurly
  · rfl

/-! ## Loading -/

theorem ofGrammar_ne_noRules (grammar : Grammar) (start : String) (version : Nat) :
    (Language.ofGrammar grammar start version).result ≠ .error .noRules := by
  simp only [Language.ofGrammar]
  split
  · simp
  · simp

/-- Once its text is read, a handle has no rules when it has no start rule. -/
theorem load_eq_noRules_iff_startRule? {handle : Handle} {grammar : Grammar}
    (hblank : Text.isAllBlank handle.text.toList = false)
    (hversion : 13 ≤ handle.version ∧ handle.version ≤ 15)
    (hread : Grammar.read handle.text = .ok grammar) :
    handle.load.result = .error .noRules ↔ startRule? handle.text grammar = none := by
  have hsupported : isSupported handle.version = true := by
    simp [isSupported, oldestVersion, newestVersion, hversion]
  simp only [Handle.load, hblank, hsupported, hread]
  cases startRule? handle.text grammar with
  | none => simp
  | some start => simpa using ofGrammar_ne_noRules grammar start handle.version

theorem startRule?_eq_none_iff_of_object {text : String} {grammar : Grammar}
    (hopen : (skipSpace text.toList).head? = some '\x7b') (hread : Grammar.read text = .ok grammar) :
    startRule? text grammar = none ↔ grammar.rules.entries = [] := by
  obtain ⟨rules, hrules, hnames⟩ := Artifact.exists_rulesText_of_read hopen hread
  rw [startRule?, Artifact.entryRule?_eq_of_rulesText hrules, Artifact.entries_eq_nil_iff hnames]
  cases rules with
  | nil => simp
  | cons first others =>
    have hfirst : grammar.rules.contains first.1 = true :=
      List.contains_iff_mem.mpr ((hnames first.1).mpr List.mem_cons_self)
    simp [hfirst]

/-- A handle whose text is read as a grammar has no rules when the grammar has
none, and when the document is a list. -/
theorem load_eq_noRules_iff {handle : Handle} {grammar : Grammar}
    (hblank : Text.isAllBlank handle.text.toList = false)
    (hversion : 13 ≤ handle.version ∧ handle.version ≤ 15)
    (hread : Grammar.read handle.text = .ok grammar) :
    handle.load.result = .error .noRules ↔
      grammar.rules.entries = [] ∨ (skipSpace handle.text.toList).head? = some '[' := by
  rw [load_eq_noRules_iff_startRule? hblank hversion hread]
  obtain ⟨tail, hrun, -⟩ := Reader.readAll_eq_ok_iff.mp hread
  rcases Record.head_of_reader_run hrun with hopen | hopen
  · rw [startRule?_eq_none_iff_of_object hopen hread, hopen]
    simp
  · rw [startRule?, entryRule?_eq_none_of_list hopen hread]
    exact ⟨fun _ => .inr hopen, fun _ => rfl⟩

/-- A grammar without rules, for the oldest version. -/
def bare : Handle := { text := "\x7b\"name\":\"x\",\"rules\":\x7b\x7d\x7d", version := 13 }

theorem load_eq_noRules_iff_bare :
    Text.isAllBlank bare.text.toList = false ∧ (13 ≤ bare.version ∧ bare.version ≤ 15) ∧
    ∃ grammar, Grammar.read bare.text = .ok grammar ∧
      (bare.load.result = .error .noRules ↔
        grammar.rules.entries = [] ∨ (skipSpace bare.text.toList).head? = some '[') := by
  have hblank : Text.isAllBlank bare.text.toList = false := by decide +kernel
  obtain ⟨grammar, hread, -⟩ := Grammar.exists_read_of_keys
    (show (Grammar.read bare.text).toOption.map (fun grammar => grammar.rules.keys) = some [] by
      decide +kernel)
  exact ⟨hblank, by decide, grammar, hread, load_eq_noRules_iff hblank (by decide) hread⟩

/-- A grammar with one rule, whose fields are given by place. -/
def listed : Handle :=
  { text := "[null,\"x\",null,\x7b\"a\":\x7b\"type\":\"BLANK\"\x7d\x7d]" }

/-- The grammar has a rule, and the handle is refused because it has none. -/
theorem load_listed_eq_noRules :
    Text.isAllBlank listed.text.toList = false ∧ (13 ≤ listed.version ∧ listed.version ≤ 15) ∧
    ∃ grammar, Grammar.read listed.text = .ok grammar ∧ grammar.rules.keys = ["a"] ∧
      listed.load.result = .error .noRules := by
  have hblank : Text.isAllBlank listed.text.toList = false := by decide +kernel
  have hentry : entryRule? listed.text = none := by decide +kernel
  obtain ⟨grammar, hread, hkeys⟩ := Grammar.exists_read_of_keys
    (show (Grammar.read listed.text).toOption.map (fun grammar => grammar.rules.keys) =
      some ["a"] by decide +kernel)
  refine ⟨hblank, by decide, grammar, hread, hkeys, ?_⟩
  rw [load_eq_noRules_iff_startRule? hblank (by decide) hread, startRule?, hentry]
  rfl

end Binding
end TaintFlow
