/-
The defect that a check reports.

`FirstDefect grammar start defect` says which of the defects of a grammar is the
first one: a missing start rule, then undefined symbols, then undeclared
precedences, then conflict groups, and among the rules the one with the least
name, in its tree the earliest node by its path.  Nothing in it is a search.
`check_result_eq_error_iff` says that a check fails with this defect and no other.

A search finds a first defect, which is read off the parts that it went through.
The converse needs no second look at the searches: a grammar has only one first
defect (`FirstDefect.unique`), and one with a first defect does not pass.
-/
import TaintFlow.Proofs.Grammar.Paths
import TaintFlow.Proofs.Grammar.Usability

namespace TaintFlow
namespace Rule

/-- Of the bad names that the nodes of a tree give, the one at the earliest path. -/
def FirstBad (gives : Rule → String → Prop) (good : String → Prop) (tree : Rule)
    (name : String) : Prop :=
  ∃ path node, tree.node? path = some node ∧ gives node name ∧ ¬good name ∧
    ∀ other earlier, Path.Before other path → tree.node? other = some earlier →
      ∀ given, gives earlier given → good given

/-- Some node of the tree gives a bad name. -/
def HasBad (gives : Rule → String → Prop) (good : String → Prop) (tree : Rule) : Prop :=
  ∃ node name, Occurs node tree ∧ gives node name ∧ ¬good name

theorem FirstBad.hasBad {gives : Rule → String → Prop} {good : String → Prop} {tree : Rule}
    {name : String} (h : tree.FirstBad gives good name) : tree.HasBad gives good := by
  obtain ⟨path, node, hnode, hgives, hbad, -⟩ := h
  exact ⟨node, name, occurs_of_node? hnode, hgives, hbad⟩

/-- Only one name is the first bad one, if a node gives one name at most. -/
theorem FirstBad.unique {gives : Rule → String → Prop} {good : String → Prop} {tree : Rule}
    {name other : String}
    (hgives : ∀ node given again, gives node given → gives node again → given = again)
    (hname : tree.FirstBad gives good name) (hother : tree.FirstBad gives good other) :
    name = other := by
  obtain ⟨path, node, hnode, hgiven, hbad, hearlier⟩ := hname
  obtain ⟨path', node', hnode', hgiven', hbad', hearlier'⟩ := hother
  by_cases hpath : path = path'
  · subst hpath
    obtain rfl : node = node' := Option.some.inj (hnode.symm.trans hnode')
    exact hgives node name other hgiven hgiven'
  · rcases Path.before_or_before hpath with hbefore | hbefore
    · exact absurd (hearlier' path node hbefore hnode name hgiven) hbad
    · exact absurd (hearlier path' node' hbefore hnode' other hgiven') hbad'

/-- What a search for a bad name in a walk finds is the first bad name of the tree. -/
theorem firstBad_of_find? {gives : Rule → String → Prop} {good : String → Prop}
    {given? : Rule → Option String} {isGood : String → Bool} {tree : Rule} {name : String}
    (hgives : ∀ node given, given? node = some given ↔ gives node given)
    (hgood : ∀ given, isGood given = true ↔ good given)
    (h : (tree.walk.filterMap given?).find? (fun given => !isGood given) = some name) :
    tree.FirstBad gives good name := by
  rw [List.find?_filterMap, Option.bind_eq_some_iff] at h
  obtain ⟨node, hfind, hgiven⟩ := h
  obtain ⟨hnode, front, back, hwalk, hfront⟩ := List.find?_eq_some_iff_append.mp hfind
  obtain ⟨path, hpath, hearlier⟩ := exists_path_of_walk tree front hwalk
  refine ⟨path, node, hpath, (hgives node name).mp hgiven, ?_, ?_⟩
  · intro hname
    rw [hgiven, Option.any_some, (hgood name).mpr hname] at hnode
    exact absurd hnode (by decide)
  · intro other earlier hbefore hother given hgiven
    have hquiet := hfront earlier (hearlier other earlier hbefore hother)
    rw [(hgives earlier given).mpr hgiven, Option.any_some, Bool.not_not] at hquiet
    exact (hgood given).mp hquiet

end Rule

namespace Grammar

/-- `rule` is the least name of a rule with something bad in its tree, and `name`
the first bad name there. -/
def FirstBadRule (grammar : Grammar) (gives : Rule → String → Prop) (good : String → Prop)
    (rule name : String) : Prop :=
  ∃ tree, (rule, tree) ∈ grammar.rules.entries ∧ tree.FirstBad gives good name ∧
    ∀ other tree', (other, tree') ∈ grammar.rules.entries → tree'.HasBad gives good →
      rule ≤ other

/-- No rule has anything bad in its tree. -/
def NoBadRule (grammar : Grammar) (gives : Rule → String → Prop) (good : String → Prop) : Prop :=
  ∀ rule tree, (rule, tree) ∈ grammar.rules.entries → ¬tree.HasBad gives good

/-- The first conflict group with an unknown member, and its first such member. -/
def FirstBadGroup (grammar : Grammar) (group : List String) (symbol : String) : Prop :=
  (∃ before behind, grammar.conflicts = before ++ group :: behind ∧
    ∀ earlier ∈ before, ∀ member ∈ earlier, member ∈ grammar.rules.keys) ∧
  (∃ front rest, group = front ++ symbol :: rest ∧
    ∀ member ∈ front, member ∈ grammar.rules.keys) ∧
  symbol ∉ grammar.rules.keys

/-- The defect of a grammar that comes first. -/
inductive FirstDefect (grammar : Grammar) (start : String) : Defect → Prop where
  | missingStart (h : start ∉ grammar.rules.keys) : FirstDefect grammar start (.missingStart start)
  | undefinedSymbol {symbol rule : String} (hstart : start ∈ grammar.rules.keys)
      (h : grammar.FirstBadRule Rule.IsSymbol grammar.IsDefined rule symbol) :
      FirstDefect grammar start (.undefinedSymbol symbol rule)
  | undeclaredPrecedence {precedence rule : String} (hstart : start ∈ grammar.rules.keys)
      (hsymbols : grammar.NoBadRule Rule.IsSymbol grammar.IsDefined)
      (h : grammar.FirstBadRule Rule.IsNamedPrecedence grammar.IsDeclared rule precedence) :
      FirstDefect grammar start (.undeclaredPrecedence precedence rule)
  | undefinedConflictMember {symbol : String} {group : List String}
      (hstart : start ∈ grammar.rules.keys)
      (hsymbols : grammar.NoBadRule Rule.IsSymbol grammar.IsDefined)
      (hprecedences : grammar.NoBadRule Rule.IsNamedPrecedence grammar.IsDeclared)
      (h : grammar.FirstBadGroup group symbol) :
      FirstDefect grammar start (.undefinedConflictMember symbol group)

/-! ## What comes first is unique -/

theorem FirstBadRule.not_noBadRule {grammar : Grammar} {gives : Rule → String → Prop}
    {good : String → Prop} {rule name : String} (h : grammar.FirstBadRule gives good rule name) :
    ¬grammar.NoBadRule gives good := by
  obtain ⟨tree, hmem, hfirst, -⟩ := h
  exact fun hnone => hnone rule tree hmem hfirst.hasBad

theorem noBadRule_iff {grammar : Grammar} {gives : Rule → String → Prop} {good : String → Prop} :
    grammar.NoBadRule gives good ↔
      ∀ rule tree, (rule, tree) ∈ grammar.rules.entries →
        ∀ name, (∃ node, Rule.Occurs node tree ∧ gives node name) → good name := by
  constructor
  · intro h rule tree hmem name hname
    obtain ⟨node, hoccurs, hgives⟩ := hname
    exact Classical.byContradiction fun hbad => h rule tree hmem ⟨node, name, hoccurs, hgives, hbad⟩
  · intro h rule tree hmem hhas
    obtain ⟨node, name, hoccurs, hgives, hbad⟩ := hhas
    exact hbad (h rule tree hmem name ⟨node, hoccurs, hgives⟩)

theorem FirstBadRule.unique {grammar : Grammar} {gives : Rule → String → Prop}
    {good : String → Prop} {rule name rule' name' : String}
    (hgives : ∀ node given again, gives node given → gives node again → given = again)
    (h : grammar.FirstBadRule gives good rule name)
    (h' : grammar.FirstBadRule gives good rule' name') : rule = rule' ∧ name = name' := by
  obtain ⟨tree, hmem, hfirst, hleast⟩ := h
  obtain ⟨tree', hmem', hfirst', hleast'⟩ := h'
  obtain rfl : rule = rule' := String.le_antisymm (hleast rule' tree' hmem' hfirst'.hasBad)
    (hleast' rule tree hmem hfirst.hasBad)
  have htree : tree = tree' := by
    have hget := Table.get?_eq_some_iff.mpr hmem
    rw [Table.get?_eq_some_iff.mpr hmem'] at hget
    exact (Option.some.inj hget).symm
  subst htree
  exact ⟨rfl, hfirst.unique hgives hfirst'⟩

/-- Two places in a list whose elements are bad, with good ones in front, are one. -/
theorem eq_of_first {α : Type} {good : α → Prop} {before before' behind behind' : List α}
    {a a' : α} (h : before ++ a :: behind = before' ++ a' :: behind')
    (hbefore : ∀ earlier ∈ before, good earlier) (hbad : ¬good a)
    (hbefore' : ∀ earlier ∈ before', good earlier) (hbad' : ¬good a') : a = a' := by
  rcases place_in_append h with ⟨rest, hrest⟩ | ⟨rest, hrest, htail⟩
  · have hmem : a' ∈ before := by
      rw [hrest]
      exact List.mem_append_right _ List.mem_cons_self
    exact absurd (hbefore a' hmem) hbad'
  · cases rest with
    | nil => exact (List.cons.inj htail).1
    | cons first rest =>
      obtain rfl : a = first := (List.cons.inj htail).1
      have hmem : a ∈ before' := by
        rw [hrest]
        exact List.mem_append_right _ List.mem_cons_self
      exact absurd (hbefore' a hmem) hbad

theorem FirstBadGroup.exists_not_mem {grammar : Grammar} {group : List String} {symbol : String}
    (h : grammar.FirstBadGroup group symbol) :
    group ∈ grammar.conflicts ∧ ¬∀ member ∈ group, member ∈ grammar.rules.keys := by
  obtain ⟨⟨before, behind, hconflicts, -⟩, ⟨front, rest, hgroup, -⟩, hsymbol⟩ := h
  constructor
  · rw [hconflicts]
    exact List.mem_append_right _ List.mem_cons_self
  · intro hall
    refine hsymbol (hall symbol ?_)
    rw [hgroup]
    exact List.mem_append_right _ List.mem_cons_self

theorem FirstBadGroup.unique {grammar : Grammar} {group group' : List String}
    {symbol symbol' : String} (h : grammar.FirstBadGroup group symbol)
    (h' : grammar.FirstBadGroup group' symbol') : group = group' ∧ symbol = symbol' := by
  have hbad := h.exists_not_mem.2
  have hbad' := h'.exists_not_mem.2
  obtain ⟨⟨before, behind, hconflicts, hbefore⟩, ⟨front, rest, hgroup, hfront⟩, hsymbol⟩ := h
  obtain ⟨⟨before', behind', hconflicts', hbefore'⟩, ⟨front', rest', hgroup', hfront'⟩,
    hsymbol'⟩ := h'
  have hgroups : group = group' :=
    eq_of_first (hconflicts.symm.trans hconflicts') hbefore hbad hbefore' hbad'
  refine ⟨hgroups, ?_⟩
  have hmembers : front ++ symbol :: rest = front' ++ symbol' :: rest' := by
    rw [← hgroup, ← hgroup', hgroups]
  exact eq_of_first hmembers hfront hsymbol hfront' hsymbol'

theorem isSymbol_unique (node : Rule) (given again : String) (h : node.IsSymbol given)
    (h' : node.IsSymbol again) : given = again :=
  Option.some.inj (h.2.symm.trans h'.2)

theorem isNamedPrecedence_unique (node : Rule) (given again : String)
    (h : node.IsNamedPrecedence given) (h' : node.IsNamedPrecedence again) : given = again :=
  RuleValue.text.inj (Option.some.inj (h.2.symm.trans h'.2))

/-- A grammar has one first defect at most. -/
theorem FirstDefect.unique {grammar : Grammar} {start : String} {defect defect' : Defect}
    (h : grammar.FirstDefect start defect) (h' : grammar.FirstDefect start defect') :
    defect = defect' := by
  cases h with
  | missingStart hmissing =>
    cases h' with
    | missingStart _ => rfl
    | undefinedSymbol hstart _ => exact absurd hstart hmissing
    | undeclaredPrecedence hstart _ _ => exact absurd hstart hmissing
    | undefinedConflictMember hstart _ _ _ => exact absurd hstart hmissing
  | undefinedSymbol hstart hrule =>
    cases h' with
    | missingStart hmissing => exact absurd hstart hmissing
    | undefinedSymbol _ hrule' =>
      obtain ⟨rfl, rfl⟩ := hrule.unique isSymbol_unique hrule'
      rfl
    | undeclaredPrecedence _ hsymbols _ => exact absurd hsymbols hrule.not_noBadRule
    | undefinedConflictMember _ hsymbols _ _ => exact absurd hsymbols hrule.not_noBadRule
  | undeclaredPrecedence hstart hsymbols hrule =>
    cases h' with
    | missingStart hmissing => exact absurd hstart hmissing
    | undefinedSymbol _ hrule' => exact absurd hsymbols hrule'.not_noBadRule
    | undeclaredPrecedence _ _ hrule' =>
      obtain ⟨rfl, rfl⟩ := hrule.unique isNamedPrecedence_unique hrule'
      rfl
    | undefinedConflictMember _ _ hprecedences _ => exact absurd hprecedences hrule.not_noBadRule
  | undefinedConflictMember hstart hsymbols hprecedences hgroup =>
    cases h' with
    | missingStart hmissing => exact absurd hstart hmissing
    | undefinedSymbol _ hrule' => exact absurd hsymbols hrule'.not_noBadRule
    | undeclaredPrecedence _ _ hrule' => exact absurd hprecedences hrule'.not_noBadRule
    | undefinedConflictMember _ _ _ hgroup' =>
      obtain ⟨rfl, rfl⟩ := hgroup.unique hgroup'
      rfl

/-! ## What the searches find -/

/-- A search that goes through the rules by name and through each tree by its walk
finds the first bad name. -/
theorem firstBadRule_of_findSome? {grammar : Grammar} {gives : Rule → String → Prop}
    {good : String → Prop} {given? : Rule → Option String} {isGood : String → Bool}
    {report : String → String → Defect} {defect : Defect}
    (hgives : ∀ node given, given? node = some given ↔ gives node given)
    (hgood : ∀ given, isGood given = true ↔ good given)
    (h : (grammar.rules.sorted.findSome? fun entry =>
      ((entry.2.walk.filterMap given?).find? fun given => !isGood given).map
        (report · entry.1)) = some defect) :
    ∃ rule name, defect = report name rule ∧ grammar.FirstBadRule gives good rule name := by
  obtain ⟨before, ⟨rule, tree⟩, behind, hsorted, hfound, hbefore⟩ :=
    List.findSome?_eq_some_iff.mp h
  obtain ⟨name, hfind, rfl⟩ := Option.map_eq_some_iff.mp hfound
  have hmem : (rule, tree) ∈ grammar.rules.entries := by
    rw [← Table.mem_sorted, hsorted]
    exact List.mem_append_right _ List.mem_cons_self
  refine ⟨rule, name, rfl, tree, hmem, Rule.firstBad_of_find? hgives hgood hfind, ?_⟩
  rintro other tree' hother ⟨node, given, hoccurs, hgiven, hbad⟩
  have hincreasing := grammar.rules.pairwise_lt_sorted
  rw [hsorted, List.map_append, List.map_cons, List.pairwise_append, List.pairwise_cons]
    at hincreasing
  rw [← Table.mem_sorted, hsorted, List.mem_append, List.mem_cons] at hother
  rcases hother with hmem | heq | hmem
  · -- the search went past this rule, so nothing in it is bad
    have hpast := Option.map_eq_none_iff.mp (hbefore _ hmem)
    have hmem : given ∈ tree'.walk.filterMap given? :=
      List.mem_filterMap.mpr ⟨node, Rule.mem_walk_iff.mpr hoccurs, (hgives node given).mpr hgiven⟩
    have hfine : isGood given = true := by
      simpa using List.find?_eq_none.mp hpast given hmem
    exact absurd ((hgood given).mp hfine) hbad
  · obtain rfl : other = rule := congrArg Prod.fst heq
    exact String.le_refl other
  · have hlt : rule < other := hincreasing.2.1.1 other (List.mem_map_of_mem hmem)
    exact Std.le_of_lt hlt

theorem firstBadGroup_of_findSome? {grammar : Grammar} {defect : Defect}
    (h : grammar.undefinedConflictMember? = some defect) :
    ∃ group symbol, defect = .undefinedConflictMember symbol group ∧
      grammar.FirstBadGroup group symbol := by
  obtain ⟨before, group, behind, hconflicts, hfound, hbefore⟩ := List.findSome?_eq_some_iff.mp h
  obtain ⟨symbol, hfind, rfl⟩ := Option.map_eq_some_iff.mp hfound
  obtain ⟨hsymbol, front, rest, hgroup, hfront⟩ := List.find?_eq_some_iff_append.mp hfind
  refine ⟨group, symbol, rfl, ⟨before, behind, hconflicts, ?_⟩, ⟨front, rest, hgroup, ?_⟩, ?_⟩
  · intro earlier hearlier member hmember
    have hpast := Option.map_eq_none_iff.mp (hbefore earlier hearlier)
    have hknown : grammar.rules.contains member = true := by
      simpa using List.find?_eq_none.mp hpast member hmember
    exact contains_rules_iff.mp hknown
  · intro member hmember
    have hknown : grammar.rules.contains member = true := by
      simpa using hfront member hmember
    exact contains_rules_iff.mp hknown
  · intro hmem
    rw [contains_rules_iff.mpr hmem] at hsymbol
    exact absurd hsymbol (by decide)

theorem firstDefect_of_defect? {grammar : Grammar} {start : String} {defect : Defect}
    (h : grammar.defect? start = some defect) : grammar.FirstDefect start defect := by
  unfold defect? at h
  by_cases hstart : start ∈ grammar.rules.keys
  · rw [contains_rules_iff.mpr hstart, Bool.not_true, if_neg Bool.false_ne_true] at h
    simp only [Option.orElse_eq_orElse, Option.orElse_eq_or] at h
    cases hsymbol : grammar.undefinedSymbol? with
    | some found =>
      rw [hsymbol, Option.some_or] at h
      obtain ⟨rule, symbol, rfl, hrule⟩ := firstBadRule_of_findSome?
        (fun _ _ => Rule.symbolName_eq_some_iff) (fun _ => defines_iff) hsymbol
      rw [← Option.some.inj h]
      exact .undefinedSymbol hstart hrule
    | none =>
      have hsymbols : grammar.NoBadRule Rule.IsSymbol grammar.IsDefined :=
        noBadRule_iff.mpr (undefinedSymbol?_eq_none_iff.mp hsymbol)
      rw [hsymbol, Option.none_or] at h
      cases hprecedence : grammar.undeclaredPrecedence? with
      | some found =>
        rw [hprecedence, Option.some_or] at h
        obtain ⟨rule, precedence, rfl, hrule⟩ := firstBadRule_of_findSome?
          (fun _ _ => Rule.precedenceName_eq_some_iff) (fun _ => declares_iff) hprecedence
        rw [← Option.some.inj h]
        exact .undeclaredPrecedence hstart hsymbols hrule
      | none =>
        have hprecedences : grammar.NoBadRule Rule.IsNamedPrecedence grammar.IsDeclared :=
          noBadRule_iff.mpr (undeclaredPrecedence?_eq_none_iff.mp hprecedence)
        rw [hprecedence, Option.none_or] at h
        obtain ⟨group, symbol, rfl, hgroup⟩ := firstBadGroup_of_findSome? h
        exact .undefinedConflictMember hstart hsymbols hprecedences hgroup
  · have hcontains : grammar.rules.contains start = false := by
      rw [← Bool.not_eq_true, contains_rules_iff]
      exact hstart
    rw [hcontains, Bool.not_false, if_pos rfl] at h
    rw [← Option.some.inj h]
    exact .missingStart hstart

/-! ## The defect of a check -/

theorem FirstDefect.not_usable {grammar : Grammar} {start : String} {defect : Defect}
    (h : grammar.FirstDefect start defect) : ¬grammar.Usable start := by
  intro husable
  cases h with
  | missingStart hmissing => exact hmissing husable.start_mem
  | undefinedSymbol _ hrule =>
    exact hrule.not_noBadRule (noBadRule_iff.mpr husable.symbols_defined)
  | undeclaredPrecedence _ _ hrule =>
    exact hrule.not_noBadRule (noBadRule_iff.mpr husable.precedences_declared)
  | undefinedConflictMember _ _ _ hgroup =>
    obtain ⟨hmem, hbad⟩ := hgroup.exists_not_mem
    exact hbad (husable.conflicts_mem _ hmem)

theorem defect?_eq_some_iff {grammar : Grammar} {start : String} {defect : Defect} :
    grammar.defect? start = some defect ↔ grammar.FirstDefect start defect := by
  constructor
  · exact firstDefect_of_defect?
  · intro hfirst
    cases hdefect : grammar.defect? start with
    | none => exact absurd (defect?_eq_none_iff.mp hdefect) hfirst.not_usable
    | some found => rw [(firstDefect_of_defect? hdefect).unique hfirst]

/-- A check fails with the first defect of the grammar. -/
theorem check_result_eq_error_iff (grammar : Grammar) (start : String) (defect : Defect) :
    (grammar.check start).result = .error defect ↔ grammar.FirstDefect start defect := by
  rw [← defect?_eq_some_iff, check]
  cases grammar.defect? start with
  | none => simp
  | some found => simp

/-- A grammar with undefined symbols in two rules and in a conflict group, and with an
undeclared precedence.  The rule that stands first is not the one of the least name. -/
def shoals : Grammar where
  name := "shoals"
  rules := .ofEntries [("reef", { kind := .symbol, name := some "tide" }),
    ("bar", {
      kind := .prec
      value := some (.text "high")
      content := some { kind := .symbol, name := some "gull" }
      members := [{ kind := .symbol, name := some "fog" }] })]
  conflicts := [["bar", "reef"], ["reef", "spray"]]

example : (shoals.check "reef").result = .error (.undefinedSymbol "gull" "bar") := by cbv

end Grammar
end TaintFlow
