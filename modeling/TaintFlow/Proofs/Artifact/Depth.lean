/-
How deep the trees of an artifact are.

A reader counts the brackets that are open, and the budget of a rule says how many
more there may be.  A content takes one bracket for its parent, and a member one more
for the list around it, so the rules that are read with a budget fit in it
(`Rule.yields_fitsIn`).  The trees of a grammar are read with what its own brackets
leave, and `depth_of_read` says for a grammar that comes from a text that no path in
any of its trees weighs more than 124, and that going through its trees takes no more
than 125 calls inside one another.
-/
import TaintFlow.Proofs.Artifact.Reading
import TaintFlow.Proofs.Grammar.Depth
import TaintFlow.Proofs.Json.Yielding

namespace TaintFlow

open Json (Field Reader Record)

/-! ## Rules -/

namespace Rule

/-- A record of rules yields nodes with children that are as its readers yield them. -/
theorem yields_record {budget inside : Nat} {content member : Reader Rule}
    (hcontent : content.Yields (FitsIn inside)) (hmember : member.Yields (FitsIn (inside - 1))) :
    (record budget content member).Yields (ChildrenFit inside) := by
  have hdefault : ChildrenFit inside { kind := .blank } :=
    ⟨fun _ hnone => absurd hnone (Option.some_ne_none _).symm, List.forall_mem_nil _⟩
  refine ⟨hdefault, ?_⟩
  simp only [record, List.forall_mem_cons]
  refine ⟨?_, ?_, ?_, ?_, ?_, ?_, ?_, ?_, List.forall_mem_nil _⟩
  · exact .of (.trivial _) fun _ _ _ h => ⟨h.content, h.members⟩
  · exact .of (.trivial _) fun _ _ _ h => ⟨h.content, h.members⟩
  · exact .of (.trivial _) fun _ _ _ h => ⟨h.content, h.members⟩
  · exact .of hcontent.optional fun _ _ hread h => ⟨hread, h.members⟩
  · exact .of (hmember.list budget) fun _ _ hread h => ⟨h.content, hread⟩
  · exact .of (.trivial _) fun _ _ _ h => ⟨h.content, h.members⟩
  · exact .of (.trivial _) fun _ _ _ h => ⟨h.content, h.members⟩
  · exact .of (.trivial _) fun _ _ _ h => ⟨h.content, h.members⟩

/-- A rule that is read with a budget fits in it. -/
theorem yields_fitsIn : ∀ budget, (reader budget).Yields (FitsIn budget)
  | 0 => Record.yields_reader_zero _ _
  | 1 =>
    have hrecord : (record 0 (reader 0) closedReader).Yields (ChildrenFit 0) :=
      yields_record (yields_fitsIn 0) (Record.yields_reader_zero _ _)
    .delay ((hrecord.reader 1).imp fun _ h => h.fitsIn)
  | budget + 2 =>
    have hrecord : (record (budget + 1) (reader (budget + 1)) (reader budget)).Yields
        (ChildrenFit (budget + 1)) :=
      yields_record (yields_fitsIn (budget + 1)) (yields_fitsIn budget)
    .delay ((hrecord.reader (budget + 2)).imp fun _ h => h.fitsIn)

end Rule

/-! ## Grammars -/

namespace Grammar

/-- All trees of the grammar fit in a budget. -/
structure TreesFit (budget : Nat) (grammar : Grammar) : Prop where
  rules : ∀ entry ∈ grammar.rules.entries, entry.2.FitsIn budget
  extras : ∀ tree ∈ grammar.extras, tree.FitsIn budget
  externals : ∀ tree ∈ grammar.externals, tree.FitsIn budget
  precedences : ∀ group ∈ grammar.precedences, ∀ tree ∈ group, tree.FitsIn budget
  reserved : ∀ entry ∈ grammar.reserved.entries, ∀ tree ∈ entry.2, tree.FitsIn budget

theorem TreesFit.fitsIn {budget : Nat} {grammar : Grammar} (h : grammar.TreesFit budget)
    {tree : Rule} (htree : grammar.HasTree tree) : tree.FitsIn budget := by
  obtain ⟨place, hplace⟩ := htree
  cases hplace with
  | rule hmem => exact h.rules _ hmem
  | extra hmem => exact h.extras tree hmem
  | external hmem => exact h.externals tree hmem
  | precedence hgroup hmem => exact h.precedences _ hgroup tree hmem
  | reserved hentry hmem => exact h.reserved _ hentry tree hmem

theorem yields_rulesReader {budget inside : Nat} (hle : budget ≤ inside + 1) :
    (rulesReader budget).Yields fun trees => ∀ tree ∈ trees, tree.FitsIn inside := by
  have hrule : (Rule.reader (budget - 1)).Yields (Rule.FitsIn inside) :=
    (Rule.yields_fitsIn (budget - 1)).imp fun _ h => h.mono (Nat.sub_le_of_le_add hle)
  exact hrule.list budget

theorem yields_tableReader {α : Type} {value : Reader α} {good : α → Prop}
    (h : value.Yields good) (budget : Nat) :
    (tableReader budget value).Yields fun table => ∀ entry ∈ table.entries, good entry.2 :=
  (h.object budget).map fun _ hentries entry hmem =>
    hentries entry (Table.mem_of_mem_ofEntries hmem)

/-- What is read inside a grammar fits in its budget less the bracket around the rules. -/
theorem yields_record (budget : Nat) : (record (budget + 1)).Yields (TreesFit budget) := by
  have hdefault : TreesFit budget { name := "", rules := .empty } :=
    ⟨List.forall_mem_nil _, List.forall_mem_nil _, List.forall_mem_nil _,
      List.forall_mem_nil _, List.forall_mem_nil _⟩
  have hrules := yields_rulesReader (Nat.le_refl (budget + 1))
  have hgroups := yields_rulesReader (Nat.le_succ budget)
  refine ⟨hdefault, ?_⟩
  simp only [record, List.forall_mem_cons]
  refine ⟨?_, ?_, ?_, ?_, ?_, ?_, ?_, ?_, ?_, ?_, ?_, ?_, List.forall_mem_nil _⟩
  · exact .of (.trivial _) fun _ _ _ h => { h with }
  · exact .of (.trivial _) fun _ _ _ h => { h with }
  · exact .of (.trivial _) fun _ _ _ h => { h with }
  · exact .of (yields_tableReader (Rule.yields_fitsIn budget) _) fun _ _ hread h =>
      { h with rules := hread }
  · exact .of hrules fun _ _ hread h => { h with extras := hread }
  · exact .of hrules fun _ _ hread h => { h with externals := hread }
  · exact .of (.trivial _) fun _ _ _ h => { h with }
  · exact .of (hgroups.list _) fun _ _ hread h => { h with precedences := hread }
  · exact .of (.trivial _) fun _ _ _ h => { h with }
  · exact .of (yields_tableReader hgroups _) fun _ _ hread h => { h with reserved := hread }
  · exact .of (.trivial _) fun _ _ _ h => { h with }
  · exact .of (.trivial _) fun _ _ _ h => { h with }

/-- The trees of a grammar that is read from a text fit in 125 brackets. -/
theorem treesFit_of_read {text : String} {grammar : Grammar} (h : read text = .ok grammar) :
    grammar.TreesFit 125 :=
  ((yields_record 125).reader Json.greatestDepth).readAll h

/-- The trees of a grammar that is read from a text are not deep: the steps to a
content and twice the steps to a member come to 124 at most on any path.  Going through
them, whole or only through what they start with, takes 125 levels of calls at most. -/
theorem depth_of_read {text : String} {grammar : Grammar} (h : read text = .ok grammar) :
    ∀ tree, grammar.HasTree tree →
      (∀ path node, tree.node? path = some node → path.weight ≤ 124) ∧
      tree.walkWithin 125 = some tree.walk ∧
      ∀ name, tree.startsWithWithin name 125 = some (tree.startsWith name) := by
  intro tree htree
  have hfits : tree.FitsIn 125 := (treesFit_of_read h).fitsIn htree
  refine ⟨?_, Rule.walkWithin_eq hfits.hasLevels, Rule.startsWithWithin_eq hfits.hasLevels⟩
  intro path node hnode
  exact Nat.le_of_lt_succ (hfits path node hnode)

/-- A text of a grammar with a rule in a rule in a rule, the innermost two as lists. -/
def nested : String :=
  "\x7b\"name\":\"x\",\"rules\":\x7b\"a\":\x7b\"type\":\"SEQ\"," ++
    "\"members\":[[\"FIELD\",null,\"f\",[\"BLANK\"]]]\x7d\x7d\x7d"

theorem depth_of_read_nested :
    ∃ grammar tree, read nested = .ok grammar ∧ grammar.HasTree tree ∧
      (tree.node? [.member 0, .content]).map Rule.kind = some .blank ∧
      (∀ path node, tree.node? path = some node → path.weight ≤ 124) ∧
      tree.walkWithin 125 = some tree.walk ∧
      ∀ name, tree.startsWithWithin name 125 = some (tree.startsWith name) := by
  have hkind : (read nested).toOption.bind (fun grammar => (grammar.rule? "a").bind fun tree =>
      (tree.node? [.member 0, .content]).map Rule.kind) = some .blank := by decide +kernel
  obtain ⟨grammar, hgrammar, hrule⟩ := Option.bind_eq_some_iff.mp hkind
  obtain ⟨tree, htree, hnode⟩ := Option.bind_eq_some_iff.mp hrule
  have hread : read nested = .ok grammar := by
    cases hread : read nested with
    | error failure =>
      rw [hread] at hgrammar
      cases hgrammar
    | ok found =>
      rw [hread] at hgrammar
      rw [Option.some.inj hgrammar]
  have hmem : grammar.HasTree tree := ⟨.rules, .rule (Table.get?_eq_some_iff.mp htree)⟩
  exact ⟨grammar, tree, hread, hmem, hnode, depth_of_read hread tree hmem⟩

end Grammar
end TaintFlow
