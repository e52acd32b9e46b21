/-
Nodes of a rule, wherever they stand.

`Occurs node rule` says that `node` is the rule itself, or stands in its content
or in one of its members, at any depth.  The relation knows nothing of an order.
`mem_walk_iff` says that a walk meets the nodes that occur in a rule and no
others, and what the walk collects is then described by the nodes themselves.
-/
import TaintFlow.Grammar.Definition

namespace TaintFlow

theorem RuleKind.isPrecedence_iff {kind : RuleKind} :
    kind.isPrecedence = true ↔ kind ∈ [prec, precLeft, precRight, precDynamic] := by
  cases kind <;> decide

namespace Rule

/-- The node stands somewhere in the tree of the rule. -/
inductive Occurs (node : Rule) : Rule → Prop where
  | self : Occurs node node
  | inContent {rule content : Rule} (hcontent : rule.content = some content)
      (h : Occurs node content) : Occurs node rule
  | inMember {rule member : Rule} (hmember : member ∈ rule.members)
      (h : Occurs node member) : Occurs node rule

/- The recursion is that of the walk: a rule, what it has as content, and its
members one after the other. -/
mutual
theorem occurs_of_mem_walk {node : Rule} : ∀ rule : Rule, node ∈ rule.walk → Occurs node rule
  | ⟨kind, value, name, content, members, named, flags, contextName⟩, h => by
    rw [walk, List.mem_cons, List.mem_append] at h
    rcases h with rfl | h | h
    · exact .self
    · obtain ⟨inner, hinner, hocc⟩ := occurs_of_mem_walkContent content h
      exact .inContent hinner hocc
    · obtain ⟨member, hmember, hocc⟩ := occurs_of_mem_walkMembers members h
      exact .inMember hmember hocc

theorem occurs_of_mem_walkContent {node : Rule} :
    ∀ content : Option Rule, node ∈ walkContent content →
      ∃ inner, content = some inner ∧ Occurs node inner
  | none, h => by
    rw [walkContent] at h
    cases h
  | some inner, h => by
    rw [walkContent] at h
    exact ⟨inner, rfl, occurs_of_mem_walk inner h⟩

theorem occurs_of_mem_walkMembers {node : Rule} :
    ∀ members : List Rule, node ∈ walkMembers members →
      ∃ member, member ∈ members ∧ Occurs node member
  | [], h => by
    rw [walkMembers] at h
    cases h
  | first :: rest, h => by
    rw [walkMembers, List.mem_append] at h
    rcases h with h | h
    · exact ⟨first, List.mem_cons_self, occurs_of_mem_walk first h⟩
    · obtain ⟨member, hmember, hocc⟩ := occurs_of_mem_walkMembers rest h
      exact ⟨member, List.mem_cons_of_mem first hmember, hocc⟩
end

theorem mem_walk_of_mem_child {node child rule : Rule} (hchild : child ∈ rule.children)
    (h : node ∈ child.walk) : node ∈ rule.walk := by
  rw [walk_eq rule]
  exact List.mem_cons_of_mem rule (List.mem_flatMap.mpr ⟨child, hchild, h⟩)

/-- A walk meets exactly the nodes that occur in the rule. -/
theorem mem_walk_iff {node rule : Rule} : node ∈ rule.walk ↔ Occurs node rule := by
  constructor
  · exact occurs_of_mem_walk rule
  · intro h
    induction h with
    | self =>
      rw [walk_eq node]
      exact List.mem_cons_self
    | inContent hcontent _ ih =>
      refine mem_walk_of_mem_child ?_ ih
      rw [children, hcontent]
      exact List.mem_cons_self
    | inMember hmember _ ih =>
      exact mem_walk_of_mem_child (List.mem_append_right _ hmember) ih

/-! ## Names in a tree -/

def IsSymbol (node : Rule) (symbol : String) : Prop :=
  node.kind = .symbol ∧ node.name = some symbol

def RefersTo (rule : Rule) (symbol : String) : Prop :=
  ∃ node, Occurs node rule ∧ node.IsSymbol symbol

/-- The node is a precedence that is given by this name. -/
def IsNamedPrecedence (node : Rule) (precedence : String) : Prop :=
  node.kind ∈ [RuleKind.prec, .precLeft, .precRight, .precDynamic] ∧
    node.value = some (.text precedence)

/-- A precedence somewhere in the rule is given by this name. -/
def UsesPrecedence (rule : Rule) (precedence : String) : Prop :=
  ∃ node, Occurs node rule ∧ node.IsNamedPrecedence precedence

/-- The node is a precedence that is given by this number. -/
def IsLevel (node : Rule) (level : Int32) : Prop :=
  node.kind ∈ [RuleKind.prec, .precLeft, .precRight, .precDynamic] ∧
    node.value = some (.level level)

/-- A precedence somewhere in the rule is given by this number. -/
def UsesLevel (rule : Rule) (level : Int32) : Prop :=
  ∃ node, Occurs node rule ∧ node.IsLevel level

/-- A field of this name stands somewhere in the rule. -/
def HasField (rule : Rule) (name : String) : Prop :=
  ∃ node, Occurs node rule ∧ node.kind = .field ∧ node.name = some name

theorem textValue_eq_some_iff {rule : Rule} {text : String} :
    rule.textValue = some text ↔ rule.value = some (.text text) := by
  unfold textValue
  split
  · next s hs => rw [hs, Option.some.injEq, Option.some.injEq, RuleValue.text.injEq]
  · next hnone =>
    constructor
    · intro h
      cases h
    · intro h
      exact absurd h (hnone text)

theorem symbolName_eq_some_iff {rule : Rule} {symbol : String} :
    rule.symbolName = some symbol ↔ rule.IsSymbol symbol := by
  unfold symbolName IsSymbol
  by_cases hkind : rule.kind = .symbol
  · rw [if_pos hkind]
    exact (and_iff_right hkind).symm
  · rw [if_neg hkind]
    simp [hkind]

theorem fieldName_eq_some_iff {rule : Rule} {name : String} :
    rule.fieldName = some name ↔ rule.kind = .field ∧ rule.name = some name := by
  unfold fieldName
  by_cases hkind : rule.kind = .field
  · rw [if_pos hkind]
    exact (and_iff_right hkind).symm
  · rw [if_neg hkind]
    simp [hkind]

theorem precedenceName_eq_some_iff {rule : Rule} {precedence : String} :
    rule.precedenceName = some precedence ↔ rule.IsNamedPrecedence precedence := by
  unfold precedenceName IsNamedPrecedence
  rw [← RuleKind.isPrecedence_iff]
  by_cases hkind : rule.kind.isPrecedence = true
  · rw [if_pos hkind, textValue_eq_some_iff]
    exact (and_iff_right hkind).symm
  · rw [if_neg hkind]
    simp [hkind]

theorem precedence_eq_some_iff {rule : Rule} {level : Int32} :
    rule.precedence = some level ↔ rule.IsLevel level := by
  unfold precedence IsLevel
  rw [← RuleKind.isPrecedence_iff]
  by_cases hkind : rule.kind.isPrecedence = true
  · rw [if_pos hkind, and_iff_right hkind]
    split
    · next n hn => rw [hn, Option.some.injEq, Option.some.injEq, RuleValue.level.injEq]
    · next hnone =>
      constructor
      · intro h
        cases h
      · intro h
        exact absurd h (hnone level)
  · rw [if_neg hkind]
    simp [hkind]

theorem stringValue_eq_some_iff {rule : Rule} {text : String} :
    rule.stringValue = some text ↔ rule.kind = .string ∧ rule.value = some (.text text) := by
  unfold stringValue
  by_cases hkind : rule.kind = .string
  · rw [if_pos hkind, textValue_eq_some_iff]
    exact (and_iff_right hkind).symm
  · rw [if_neg hkind]
    simp [hkind]

theorem mem_references_iff {rule : Rule} {symbol : String} :
    symbol ∈ rule.references ↔ rule.RefersTo symbol := by
  simp only [references, List.mem_filterMap, mem_walk_iff, symbolName_eq_some_iff, RefersTo]

theorem mem_filterMap_fieldName_iff {rule : Rule} {name : String} :
    name ∈ rule.walk.filterMap fieldName ↔ rule.HasField name := by
  simp only [List.mem_filterMap, mem_walk_iff, fieldName_eq_some_iff, HasField]

theorem mem_precedenceNames_iff {rule : Rule} {precedence : String} :
    precedence ∈ rule.precedenceNames ↔ rule.UsesPrecedence precedence := by
  simp only [precedenceNames, List.mem_filterMap, mem_walk_iff, precedenceName_eq_some_iff,
    UsesPrecedence]

theorem mem_precedences_iff {rule : Rule} {level : Int32} :
    level ∈ rule.precedences ↔ rule.UsesLevel level := by
  simp only [precedences, List.mem_filterMap, mem_walk_iff, precedence_eq_some_iff, UsesLevel]

end Rule

/-! ## Trees of a grammar -/

namespace Grammar

/-- The places of a grammar that have trees in them. -/
inductive TreePlace where
  | rules
  | extras
  | externals
  | precedences
  | reserved

/-- The tree stands at this place of the grammar. -/
inductive HasTreeAt (grammar : Grammar) (tree : Rule) : TreePlace → Prop where
  | rule {name : String} (h : (name, tree) ∈ grammar.rules.entries) :
      HasTreeAt grammar tree .rules
  | extra (h : tree ∈ grammar.extras) : HasTreeAt grammar tree .extras
  | external (h : tree ∈ grammar.externals) : HasTreeAt grammar tree .externals
  | precedence {group : List Rule} (hgroup : group ∈ grammar.precedences) (h : tree ∈ group) :
      HasTreeAt grammar tree .precedences
  | reserved {name : String} {trees : List Rule}
      (hentry : (name, trees) ∈ grammar.reserved.entries) (h : tree ∈ trees) :
      HasTreeAt grammar tree .reserved

/-- The rule is one of the trees that a grammar is made of. -/
def HasTree (grammar : Grammar) (tree : Rule) : Prop := ∃ place, grammar.HasTreeAt tree place

end Grammar
end TaintFlow
