/-
Languages agree with their artifacts.

What a language tells of itself comes by different ways: its version from the
handle, its start rule from a second reading of the artifact, its rules from a
table in which a name that comes again replaces what was there, and its names from
sorted views of that table.  `Coherent` says how these fit together, and
`coherent_of_load` that they do in every language that was loaded.  Since the start
rule is looked up before it is used, a load never ends with the defect that it is
missing.
-/
import TaintFlow.Proofs.Binding.NoRules
import TaintFlow.Proofs.Binding.Outcomes
import TaintFlow.Proofs.Grammar.Usability

namespace TaintFlow
namespace Grammar

/-! ## Names of a grammar -/

theorem mem_ruleNames_iff {grammar : Grammar} {name : String} :
    name ∈ grammar.ruleNames ↔ name ∈ grammar.rules.keys :=
  Text.mem_ordered

theorem mem_fieldNames_iff {grammar : Grammar} {field : String} :
    field ∈ grammar.fieldNames ↔
      ∃ name rule, (name, rule) ∈ grammar.rules.entries ∧ rule.HasField field := by
  rw [fieldNames, Text.mem_ordered, List.mem_flatMap]
  simp only [Table.values, List.mem_map, Rule.mem_filterMap_fieldName_iff]
  constructor
  · rintro ⟨_, ⟨⟨name, rule⟩, hentry, rfl⟩, hfield⟩
    exact ⟨name, rule, hentry, hfield⟩
  · rintro ⟨name, rule, hentry, hfield⟩
    exact ⟨rule, ⟨(name, rule), hentry, rfl⟩, hfield⟩

/-- The names of the rules are distinct in the table as well as in order, so there
are as many here as there. -/
theorem length_ruleNames (grammar : Grammar) : grammar.ruleNames.length = grammar.rules.size := by
  have hnodup : grammar.ruleNames.Nodup :=
    (Text.pairwise_lt_ordered grammar.rules.keys).imp String.ne_of_lt
  have hperm : grammar.ruleNames.Perm grammar.rules.keys :=
    (List.perm_ext_iff_of_nodup hnodup grammar.rules.nodup).mpr fun _ => mem_ruleNames_iff
  rw [hperm.length_eq, Table.keys, List.length_map, Table.size]

/-- The start rule is missing only when it is not in the table. -/
theorem contains_of_defect?_eq_missingStart {grammar : Grammar} {start missing : String}
    (h : grammar.defect? start = some (.missingStart missing)) :
    grammar.rules.contains start = false := by
  rw [← Bool.not_eq_true]
  intro hcontains
  rw [defect?, hcontains, Bool.not_true, if_neg Bool.false_ne_true] at h
  simp only [Option.orElse_eq_orElse, Option.orElse_eq_or, Option.or_eq_some_iff] at h
  -- Each of the searches reports defects of its own kind.
  rcases h with h | ⟨-, h | ⟨-, h⟩⟩
  all_goals
    obtain ⟨_, -, h⟩ := List.exists_of_findSome?_eq_some h
    obtain ⟨_, -, h⟩ := Option.map_eq_some_iff.mp h
    cases h

end Grammar

namespace Binding

open Json (Reader Record skipSpace)

theorem bounds_of_isSupported {version : Nat} (h : isSupported version = true) :
    13 ≤ version ∧ version ≤ 15 := by
  rw [isSupported, Bool.and_eq_true, decide_eq_true_eq, decide_eq_true_eq] at h
  exact h

/-- An artifact that is accepted is an object: one that is a list has no start
rule. -/
theorem Handle.Accepts.opens {handle : Handle} {language : Language}
    (h : handle.Accepts language) :
    (skipSpace handle.text.toList).head? = some '\x7b' := by
  obtain ⟨tail, hrun, -⟩ := Reader.readAll_eq_ok_iff.mp h.read
  rcases Record.head_of_reader_run hrun with hopen | hopen
  · exact hopen
  · have hstart := h.start
    rw [startRule?, entryRule?_eq_none_of_list hopen h.read] at hstart
    cases hstart

/-- What a language tells of itself fits its handle, and one thing fits the
other. -/
structure Coherent (handle : Handle) (language : Language) : Prop where
  read : Grammar.read handle.text = .ok language.grammar
  version_eq : language.version = handle.version
  version_bounds : 13 ≤ language.version ∧ language.version ≤ 15
  start_mem : language.start ∈ language.ruleNames
  ruleNames_increasing : language.ruleNames.Pairwise (· < ·)
  mem_ruleNames : ∃ rules, Artifact.RulesText handle.text rules ∧
    ∀ name, name ∈ language.ruleNames ↔ name ∈ rules.map Prod.fst
  ruleCount_eq : language.ruleCount = language.ruleNames.length
  ruleCount_pos : 1 ≤ language.ruleCount
  fieldNames_increasing : language.fieldNames.Pairwise (· < ·)
  mem_fieldNames : ∀ field, field ∈ language.fieldNames ↔
    ∃ name rule, (name, rule) ∈ language.grammar.rules.entries ∧ rule.HasField field

theorem Handle.Accepts.coherent {handle : Handle} {language : Language}
    (h : handle.Accepts language) : Coherent handle language := by
  obtain ⟨rules, hrules, hnames⟩ := Artifact.exists_rulesText_of_read h.opens h.read
  have hstart : language.start ∈ language.ruleNames :=
    Grammar.mem_ruleNames_iff.mpr (Grammar.contains_rules_iff.mp (contains_of_startRule? h.start))
  have hcount : language.ruleCount = language.ruleNames.length :=
    language.grammar.length_ruleNames.symm
  exact
    { read := h.read
      version_eq := h.version_eq
      version_bounds := h.version_eq ▸ bounds_of_isSupported h.supported
      start_mem := hstart
      ruleNames_increasing := Text.pairwise_lt_ordered _
      mem_ruleNames :=
        ⟨rules, hrules, fun name => Grammar.mem_ruleNames_iff.trans (hnames name)⟩
      ruleCount_eq := hcount
      ruleCount_pos := hcount ▸ List.length_pos_of_mem hstart
      fieldNames_increasing := Text.pairwise_lt_ordered _
      mem_fieldNames := fun _ => Grammar.mem_fieldNames_iff }

theorem Handle.Refuses.ne_missingStart {handle : Handle} {error : LoadError}
    (h : handle.Refuses error) (start : String) : error ≠ .invalid (.missingStart start) := by
  cases h with
  | invalid hread hstart hdefect =>
    intro herror
    cases herror
    have hmissing := Grammar.contains_of_defect?_eq_missingStart hdefect
    rw [contains_of_startRule? hstart] at hmissing
    cases hmissing
  | _ => simp

/-- A load gives a coherent language, or an error that is not about a missing start
rule. -/
theorem coherent_of_load (handle : Handle) :
    (∀ language, handle.load.result = .ok language → Coherent handle language) ∧
    ∀ start, handle.load.result ≠ .error (.invalid (.missingStart start)) :=
  ⟨fun _ hload => (accepts_of_load hload).coherent,
    fun start hload => (refuses_of_load hload).ne_missingStart start rfl⟩

/-- A grammar whose one rule comes twice, the second time with an escape in its
name and a field below a repetition. -/
def estuary : Handle :=
  { text := "\x7b\"rules\":\x7b\"bank\":\x7b\"type\":\"BLANK\"\x7d,\"b\\u0061nk\":\x7b\"type\":\"REPEAT\"," ++
      "\"content\":\x7b\"type\":\"FIELD\",\"name\":\"reed\",\"content\":\x7b\"type\":\"BLANK\"\x7d\x7d\x7d\x7d," ++
      "\"name\":\"estuary\"\x7d"
    version := 14 }

theorem coherent_of_load_estuary :
    ∃ language, estuary.load.result = .ok language ∧ Coherent estuary language ∧
      language.ruleNames = ["bank"] ∧ language.fieldNames = ["reed"] := by
  have hloaded : (estuary.load.result.toOption.map fun language : Language =>
      (language.ruleNames, language.fieldNames)) = some (["bank"], ["reed"]) := by decide +kernel
  obtain ⟨language, hload, hnames⟩ := exists_load_of_map hloaded
  exact ⟨language, hload, (coherent_of_load estuary).1 language hload, Prod.ext_iff.mp hnames⟩

end Binding
end TaintFlow
