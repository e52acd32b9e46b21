/-
Usable grammars.

`Usable grammar start` states what a grammar needs in order to be used from the
rule `start`, node by node and with no search in it.  `check_eq_ok_iff_usable`
says that the check passes exactly the usable grammars.  Each of the three
searches for a defect is described first: it comes back empty when its condition
holds at every node of every rule, or at every member of every conflict group.
-/
import TaintFlow.Grammar.Consistency
import TaintFlow.Proofs.Grammar.Occurrence

namespace TaintFlow
namespace Grammar

/-- A symbol of this name refers to something: a rule or an external token. -/
def IsDefined (grammar : Grammar) (symbol : String) : Prop :=
  symbol ∈ grammar.rules.keys ∨ ∃ token ∈ grammar.externals, token.name = some symbol

/-- An entry of a precedence group, a fixed text or a symbol, gives this name. -/
def IsDeclared (grammar : Grammar) (precedence : String) : Prop :=
  ∃ group ∈ grammar.precedences, ∃ level ∈ group,
    (level.kind = .string ∧ level.value = some (.text precedence)) ∨ level.IsSymbol precedence

/-- What a grammar that is used from `start` has to satisfy. -/
structure Usable (grammar : Grammar) (start : String) : Prop where
  start_mem : start ∈ grammar.rules.keys
  symbols_defined : ∀ name rule, (name, rule) ∈ grammar.rules.entries →
    ∀ symbol, rule.RefersTo symbol → grammar.IsDefined symbol
  precedences_declared : ∀ name rule, (name, rule) ∈ grammar.rules.entries →
    ∀ precedence, rule.UsesPrecedence precedence → grammar.IsDeclared precedence
  conflicts_mem : ∀ group ∈ grammar.conflicts, ∀ member ∈ group, member ∈ grammar.rules.keys

/-! ## Names that are known -/

theorem contains_rules_iff {grammar : Grammar} {name : String} :
    grammar.rules.contains name = true ↔ name ∈ grammar.rules.keys := by
  rw [Table.contains, List.contains_iff_mem]

theorem defines_iff {grammar : Grammar} {symbol : String} :
    grammar.defines symbol = true ↔ grammar.IsDefined symbol := by
  rw [defines, Bool.or_eq_true, contains_rules_iff, List.contains_iff_mem, externalNames,
    List.mem_filterMap, IsDefined]

theorem declaredPrecedence_eq_some_iff {level : Rule} {precedence : String} :
    declaredPrecedence level = some precedence ↔
      (level.kind = .string ∧ level.value = some (.text precedence)) ∨
        level.IsSymbol precedence := by
  rw [← Rule.stringValue_eq_some_iff, ← Rule.symbolName_eq_some_iff, declaredPrecedence]
  cases hstring : level.stringValue with
  | none => simp
  | some text =>
    -- a node of one kind is not of the other, so the symbol has nothing to add
    have hkind := (Rule.stringValue_eq_some_iff.mp hstring).1
    have hsymbol : level.symbolName = none := by rw [Rule.symbolName, hkind, if_neg (by decide)]
    rw [hsymbol]
    simp

theorem declares_iff {grammar : Grammar} {precedence : String} :
    grammar.declares precedence = true ↔ grammar.IsDeclared precedence := by
  rw [declares, List.contains_iff_mem, declaredPrecedences, Text.mem_ordered, List.mem_filterMap]
  constructor
  · rintro ⟨level, hlevel, heq⟩
    obtain ⟨group, hgroup, hmem⟩ := List.mem_flatten.mp hlevel
    exact ⟨group, hgroup, level, hmem, declaredPrecedence_eq_some_iff.mp heq⟩
  · rintro ⟨group, hgroup, level, hmem, h⟩
    exact ⟨level, List.mem_flatten.mpr ⟨group, hgroup, hmem⟩,
      declaredPrecedence_eq_some_iff.mpr h⟩

/-- A grammar is usable if what its check looks at is right, entry by entry.  The
precedences need not be put in order for that. -/
theorem Usable.of_entries {grammar : Grammar} {start : String} (hstart : start ∈ grammar.rules.keys)
    (hsymbols : ∀ entry ∈ grammar.rules.entries, ∀ symbol ∈ entry.2.references,
      grammar.defines symbol = true)
    (hprecedences : ∀ entry ∈ grammar.rules.entries, ∀ precedence ∈ entry.2.precedenceNames,
      precedence ∈ grammar.precedences.flatten.filterMap declaredPrecedence)
    (hconflicts : ∀ group ∈ grammar.conflicts, ∀ member ∈ group, member ∈ grammar.rules.keys) :
    grammar.Usable start where
  start_mem := hstart
  symbols_defined name rule hmem symbol hrefers :=
    defines_iff.mp (hsymbols (name, rule) hmem symbol (Rule.mem_references_iff.mpr hrefers))
  precedences_declared := by
    intro name rule hmem precedence huses
    rw [← declares_iff, declares, List.contains_iff_mem, declaredPrecedences, Text.mem_ordered]
    exact hprecedences (name, rule) hmem precedence (Rule.mem_precedenceNames_iff.mpr huses)
  conflicts_mem := hconflicts

/-! ## The searches for a defect -/

/-- A search through named things, each for the first bad name that it holds,
comes back empty when every name is good. -/
theorem findSome?_find?_eq_none_iff {α β : Type} (things : List α) (names : α → List String)
    (good : String → Bool) (report : α → String → β) :
    (things.findSome? fun thing =>
        ((names thing).find? fun name => !good name).map (report thing)) = none ↔
      ∀ thing ∈ things, ∀ name ∈ names thing, good name = true := by
  simp only [List.findSome?_eq_none_iff, Option.map_eq_none_iff, List.find?_eq_none,
    Bool.not_eq_true', Bool.not_eq_false]

theorem undefinedSymbol?_eq_none_iff {grammar : Grammar} :
    grammar.undefinedSymbol? = none ↔
      ∀ name rule, (name, rule) ∈ grammar.rules.entries →
        ∀ symbol, rule.RefersTo symbol → grammar.IsDefined symbol := by
  rw [undefinedSymbol?, findSome?_find?_eq_none_iff grammar.rules.sorted fun entry =>
    entry.2.references]
  simp only [Table.mem_sorted, Prod.forall, Rule.mem_references_iff, defines_iff]

theorem undeclaredPrecedence?_eq_none_iff {grammar : Grammar} :
    grammar.undeclaredPrecedence? = none ↔
      ∀ name rule, (name, rule) ∈ grammar.rules.entries →
        ∀ precedence, rule.UsesPrecedence precedence → grammar.IsDeclared precedence := by
  rw [undeclaredPrecedence?, findSome?_find?_eq_none_iff grammar.rules.sorted fun entry =>
    entry.2.precedenceNames]
  simp only [Table.mem_sorted, Prod.forall, Rule.mem_precedenceNames_iff, declares_iff]

theorem undefinedConflictMember?_eq_none_iff {grammar : Grammar} :
    grammar.undefinedConflictMember? = none ↔
      ∀ group ∈ grammar.conflicts, ∀ member ∈ group, member ∈ grammar.rules.keys := by
  rw [undefinedConflictMember?, findSome?_find?_eq_none_iff grammar.conflicts fun group => group]
  simp only [contains_rules_iff]

theorem defect?_eq_none_iff {grammar : Grammar} {start : String} :
    grammar.defect? start = none ↔ grammar.Usable start := by
  unfold defect?
  by_cases hstart : grammar.rules.contains start = true
  · rw [hstart, Bool.not_true, if_neg Bool.false_ne_true]
    simp only [Option.orElse_eq_orElse, Option.orElse_eq_or, Option.or_eq_none_iff,
      undefinedSymbol?_eq_none_iff, undeclaredPrecedence?_eq_none_iff,
      undefinedConflictMember?_eq_none_iff]
    constructor
    · rintro ⟨hsymbols, hprecedences, hconflicts⟩
      exact ⟨contains_rules_iff.mp hstart, hsymbols, hprecedences, hconflicts⟩
    · rintro ⟨_, hsymbols, hprecedences, hconflicts⟩
      exact ⟨hsymbols, hprecedences, hconflicts⟩
  · rw [Bool.not_eq_true] at hstart
    rw [hstart, Bool.not_false, if_pos rfl]
    constructor
    · intro h
      cases h
    · intro h
      rw [contains_rules_iff.mpr h.start_mem] at hstart
      cases hstart

theorem check_result_eq_ok_iff {grammar : Grammar} {start : String} :
    (grammar.check start).result = .ok () ↔ grammar.defect? start = none := by
  unfold check
  split
  · next hdefect => simp [hdefect]
  · next hnone => simp [hnone]

/-- The check passes exactly the usable grammars. -/
theorem check_eq_ok_iff_usable (grammar : Grammar) (start : String) :
    (grammar.check start).result = .ok () ↔ grammar.Usable start := by
  rw [check_result_eq_ok_iff, defect?_eq_none_iff]

end Grammar
end TaintFlow
