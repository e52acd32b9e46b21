/-
References in accepted grammars.

A grammar has trees that refer to symbols at four places: its rules, its extras, its
externals and its reserved words.  A grammar that is accepted has no symbol in a
rule that refers to nothing.  The other three places are not looked at, and
`references_of_load` says both: what holds of the rules, and that a grammar stays
acceptable whatever is put into the other places.  `load_stray` is a grammar that
is accepted with a symbol at each of the three that refers to nothing.
-/
import TaintFlow.Proofs.Binding.Bundled

namespace TaintFlow
namespace Grammar

/-- A name stays defined when more external tokens are there. -/
theorem IsDefined.mono {grammar other : Grammar} {symbol : String} (h : grammar.IsDefined symbol)
    (hrules : grammar.rules = other.rules) (hexternals : grammar.externals ⊆ other.externals) :
    other.IsDefined symbol := by
  rcases h with hrule | ⟨token, htoken, hname⟩
  · rw [hrules] at hrule
    exact .inl hrule
  · exact .inr ⟨token, hexternals htoken, hname⟩

/-- A usable grammar stays usable with other extras, with other reserved words,
and with more external tokens. -/
theorem Usable.replace {grammar : Grammar} {start : String} (h : grammar.Usable start)
    (extras externals : List Rule) (reserved : Table (List Rule)) :
    { grammar with extras, externals := grammar.externals ++ externals, reserved }.Usable start where
  start_mem := h.start_mem
  symbols_defined name rule hrule symbol hrefers :=
    (h.symbols_defined name rule hrule symbol hrefers).mono rfl
      (List.subset_append_left grammar.externals externals)
  precedences_declared := h.precedences_declared
  conflicts_mem := h.conflicts_mem

end Grammar

namespace Binding

/-- The grammar of a language that was loaded has passed the check. -/
theorem check_of_load {handle : Handle} {language : Language}
    (h : handle.load.result = .ok language) :
    (language.grammar.check language.start).result = .ok () :=
  Grammar.check_result_eq_ok_iff.mpr (accepts_of_load h).defect

/-- In an accepted grammar every symbol in a rule is defined.  Nothing is asked of
its extras, its reserved words and further externals. -/
theorem references_of_load {handle : Handle} {language : Language}
    (h : handle.load.result = .ok language) :
    (∀ name rule, (name, rule) ∈ language.grammar.rules.entries →
      ∀ symbol, rule.RefersTo symbol → language.grammar.IsDefined symbol) ∧
    ∀ (extras externals : List Rule) (reserved : Table (List Rule)),
      ({ language.grammar with
          extras, externals := language.grammar.externals ++ externals, reserved }.check
        language.start).result = .ok () := by
  have hcheck := check_of_load h
  have husable : language.grammar.Usable language.start :=
    Grammar.defect?_eq_none_iff.mp (Grammar.check_result_eq_ok_iff.mp hcheck)
  refine ⟨husable.symbols_defined, fun extras externals reserved => ?_⟩
  have hother := husable.replace extras externals reserved
  exact Grammar.check_result_eq_ok_iff.mpr (Grammar.defect?_eq_none_iff.mpr hother)

/-- A rule that refers to two names, to one of them further inside. -/
def knot : Rule :=
  Bundled.seq [Bundled.symbol "loop", Bundled.oneOrMore (Bundled.symbol "cord")]

/-- A grammar in which one of the names is a rule and the other an external token. -/
def tied : Grammar where
  name := "tied"
  rules := .ofEntries [("knot", knot), ("loop", Bundled.blank)]
  externals := [Bundled.symbol "cord"]

theorem usable_tied : tied.Usable "knot" :=
  .of_entries (by decide +kernel) (by decide +kernel) (by decide +kernel) (by decide +kernel)

theorem references_of_load_tied :
    (Handle.ofGrammar tied).load.result = .ok ⟨tied, "knot", newestVersion⟩ ∧
    knot.RefersTo "loop" ∧ knot.RefersTo "cord" ∧
    tied.IsDefined "loop" ∧ tied.IsDefined "cord" ∧ "cord" ∉ tied.rules.keys ∧
    ({ tied with
        extras := [Bundled.symbol "fray"], externals := tied.externals ++ [],
        reserved := .empty }.check "knot").result = .ok () := by
  have hload := load_ofGrammar (by decide +kernel) (by decide +kernel) usable_tied
  have hmem : ("knot", knot) ∈ tied.rules.entries := List.mem_cons_self
  have hloop := Rule.mem_references_iff.mp (by decide +kernel : "loop" ∈ knot.references)
  have hcord := Rule.mem_references_iff.mp (by decide +kernel : "cord" ∈ knot.references)
  obtain ⟨hdefined, hother⟩ := references_of_load hload
  exact ⟨hload, hloop, hcord, hdefined _ _ hmem _ hloop, hdefined _ _ hmem _ hcord,
    by decide +kernel, hother [Bundled.symbol "fray"] [] .empty⟩

/-! ## A grammar with symbols that refer to nothing -/

/-- Trees whose references are one symbol hold a reference to it. -/
theorem exists_refersTo_of_references {trees : List Rule} {symbol : String}
    (h : trees.flatMap Rule.references = [symbol]) : ∃ tree ∈ trees, tree.RefersTo symbol := by
  have hmem : symbol ∈ trees.flatMap Rule.references := h ▸ List.mem_singleton_self symbol
  obtain ⟨tree, htree, hsymbol⟩ := List.mem_flatMap.mp hmem
  exact ⟨tree, htree, Rule.mem_references_iff.mp hsymbol⟩

/-- A grammar with one rule, and with symbols outside of it that name nothing. -/
def stray : Handle :=
  { text := "\x7b\"name\":\"x\",\"rules\":\x7b\"a\":\x7b\"type\":\"BLANK\"\x7d\x7d," ++
      "\"extras\":[\x7b\"type\":\"SYMBOL\",\"name\":\"fog\"\x7d]," ++
      "\"externals\":[\x7b\"type\":\"TOKEN\",\"content\":\x7b\"type\":\"SYMBOL\",\"name\":\"haze\"\x7d\x7d]," ++
      "\"reserved\":\x7b\"words\":[\x7b\"type\":\"SYMBOL\",\"name\":\"mist\"\x7d]\x7d\x7d" }

/-- What the counterexample needs to know of the grammar of `stray`. -/
structure IsStray (grammar : Grammar) : Prop where
  keys : grammar.rules.keys = ["a"]
  names : grammar.externalNames = []
  extras : grammar.extras.flatMap Rule.references = ["fog"]
  externals : grammar.externals.flatMap Rule.references = ["haze"]
  reserved : (grammar.reserved.entries.flatMap Prod.snd).flatMap Rule.references = ["mist"]

theorem exists_load_stray :
    ∃ language, stray.load.result = .ok language ∧ IsStray language.grammar := by
  have hloaded : (stray.load.result.toOption.map fun language : Language =>
      (language.grammar.rules.keys, language.grammar.externalNames,
        language.grammar.extras.flatMap Rule.references,
        language.grammar.externals.flatMap Rule.references,
        (language.grammar.reserved.entries.flatMap Prod.snd).flatMap Rule.references)) =
      some (["a"], [], ["fog"], ["haze"], ["mist"]) := by decide +kernel
  obtain ⟨language, hload, hseen⟩ := exists_load_of_map hloaded
  simp only [Prod.mk.injEq] at hseen
  obtain ⟨hkeys, hnames, hextras, hexternals, hreserved⟩ := hseen
  exact ⟨language, hload, hkeys, hnames, hextras, hexternals, hreserved⟩

theorem IsStray.not_isDefined {grammar : Grammar} (h : IsStray grammar) {symbol : String}
    (hne : symbol ≠ "a") : ¬ grammar.IsDefined symbol := by
  intro hdefined
  have hdefines := Grammar.defines_iff.mpr hdefined
  rw [Grammar.defines, Table.contains, h.keys, h.names] at hdefines
  simp [hne] at hdefines

/-- A grammar is accepted with symbols that refer to nothing in its extras, inside
an external token and among its reserved words. -/
theorem load_stray :
    ∃ language, stray.load.result = .ok language ∧
      ∀ symbol place, (symbol, place) ∈ [("fog", Grammar.TreePlace.extras), ("haze", .externals),
        ("mist", .reserved)] →
        ¬ language.grammar.IsDefined symbol ∧
          ∃ tree, language.grammar.HasTreeAt tree place ∧ tree.RefersTo symbol := by
  obtain ⟨language, hload, hstray⟩ := exists_load_stray
  refine ⟨language, hload, fun symbol place hmem => ?_⟩
  simp only [List.mem_cons, Prod.mk.injEq, List.not_mem_nil, or_false] at hmem
  rcases hmem with ⟨rfl, rfl⟩ | ⟨rfl, rfl⟩ | ⟨rfl, rfl⟩
  · obtain ⟨tree, hmem, hrefers⟩ := exists_refersTo_of_references hstray.extras
    exact ⟨hstray.not_isDefined (by decide), tree, .extra hmem, hrefers⟩
  · obtain ⟨tree, hmem, hrefers⟩ := exists_refersTo_of_references hstray.externals
    exact ⟨hstray.not_isDefined (by decide), tree, .external hmem, hrefers⟩
  · obtain ⟨tree, hmem, hrefers⟩ := exists_refersTo_of_references hstray.reserved
    obtain ⟨⟨name, words⟩, hwords, htree⟩ := List.mem_flatMap.mp hmem
    exact ⟨hstray.not_isDefined (by decide), tree, .reserved hwords htree, hrefers⟩

end Binding
end TaintFlow
