/-
The levels that a rule mixes, in the order of their first uses.

Levels are gathered from what is read so far: `FirstUses read levels` says that
`levels` are those that were read, each once, and that of two the first was read
before the second ever was.  Reading one more level keeps this (`FirstUses.step`).

What a rule uses is read in the order of its walk, so its levels are in the pre-order
of paths (`inOrder_levels`): some node with the first of two levels comes before every
node with the second.  `mixedLevels_notices` says what a check tells of all this.
-/
import Mathlib
import TaintFlow.Proofs.Grammar.Levels
import TaintFlow.Proofs.Grammar.Paths
import TaintFlow.Proofs.Grammar.Usability

namespace TaintFlow

/-! ## Gathering levels -/

/-- The first level was read at least once before the second was. -/
def ReadBefore (read : List Int32) (first second : Int32) : Prop :=
  first ≠ second ∧ ∃ front back, read = front ++ first :: back ∧ second ∉ front

theorem ReadBefore.append {read : List Int32} {first second : Int32}
    (h : ReadBefore read first second) (more : List Int32) :
    ReadBefore (read ++ more) first second := by
  obtain ⟨hne, front, back, rfl, hfront⟩ := h
  exact ⟨hne, front, back ++ more, by rw [List.append_assoc, List.cons_append], hfront⟩

/-- The levels are those that were read, each once, in the order in which they were
read first. -/
structure FirstUses (read levels : List Int32) : Prop where
  nodup : levels.Nodup
  mem_iff : ∀ level, level ∈ levels ↔ level ∈ read
  order : levels.Pairwise (ReadBefore read)

theorem FirstUses.nil : FirstUses [] [] := ⟨.nil, fun _ => .rfl, .nil⟩

theorem FirstUses.step {read levels : List Int32} (h : FirstUses read levels) (level : Int32) :
    FirstUses (read ++ [level]) (addLevel levels level) := by
  have horder : levels.Pairwise (ReadBefore (read ++ [level])) :=
    h.order.imp fun hbefore => hbefore.append [level]
  unfold addLevel
  by_cases hold : level ∈ levels
  · rw [if_pos (List.contains_iff_mem.mpr hold)]
    refine ⟨h.nodup, fun other => ?_, horder⟩
    rw [h.mem_iff, List.mem_append, List.mem_singleton]
    refine ⟨.inl, fun hmem => hmem.elim id ?_⟩
    rintro rfl
    exact (h.mem_iff other).mp hold
  · have hnew : level ∉ read := fun hmem => hold ((h.mem_iff level).mpr hmem)
    rw [if_neg (mt List.contains_iff_mem.mp hold)]
    refine ⟨?_, fun other => ?_, ?_⟩
    · rw [List.nodup_append]
      refine ⟨h.nodup, List.pairwise_singleton _ _, fun other hother last hlast heq => ?_⟩
      obtain rfl := List.mem_singleton.mp hlast
      exact hold (heq ▸ hother)
    · rw [List.mem_append, List.mem_append, h.mem_iff]
    · rw [List.pairwise_append]
      refine ⟨horder, List.pairwise_singleton _ _, fun other hother last hlast => ?_⟩
      obtain rfl := List.mem_singleton.mp hlast
      obtain ⟨front, back, hread⟩ := List.append_of_mem ((h.mem_iff other).mp hother)
      have hfront : last ∉ front := fun hmem =>
        hnew (hread ▸ List.mem_append_left _ hmem)
      have hne : other ≠ last := fun heq => hold (heq ▸ hother)
      exact ReadBefore.append ⟨hne, front, back, hread, hfront⟩ [last]

theorem FirstUses.run {read levels : List Int32} (h : FirstUses read levels)
    (more : List Int32) : FirstUses (read ++ more) (more.foldl addLevel levels) := by
  induction more generalizing read levels with
  | nil =>
    rw [List.append_nil]
    exact h
  | cons level more ih =>
    have hrun := ih (h.step level)
    rwa [List.append_assoc] at hrun

namespace Rule

theorem firstUses_levels (rule : Rule) : FirstUses rule.precedences rule.levels := by
  rw [levels_eq_foldl]
  exact FirstUses.nil.run rule.precedences

/-! ## Levels by the paths that lead to them -/

/-- Some node with the first level comes before every node with the second. -/
def UsesBefore (rule : Rule) (first second : Int32) : Prop :=
  ∃ path node, rule.node? path = some node ∧ node.IsLevel first ∧
    ∀ other later, rule.node? other = some later → later.IsLevel second → Path.Before path other

/-- The levels are those that the rule uses, each once, in the order in which nodes
with them come first. -/
structure InOrder (rule : Rule) (levels : List Int32) : Prop where
  nodup : levels.Nodup
  mem_iff : ∀ level, level ∈ levels ↔ rule.UsesLevel level
  order : levels.Pairwise rule.UsesBefore

/-- What is read before in a walk is used before in the tree. -/
theorem usesBefore_of_readBefore {rule : Rule} {first second : Int32}
    (h : ReadBefore rule.precedences first second) : rule.UsesBefore first second := by
  obtain ⟨hne, front, back, hread, hfront⟩ := h
  obtain ⟨walked, rest, hwalk, hwalked, hrest⟩ := List.filterMap_eq_append_iff.mp hread
  obtain ⟨quiet, node, behind, rfl, hquiet, hnode, -⟩ := List.filterMap_eq_cons_iff.mp hrest
  rw [← List.append_assoc] at hwalk
  have hnone : ∀ earlier ∈ walked ++ quiet, earlier.precedence ≠ some second := by
    intro earlier hearlier hsecond
    rcases List.mem_append.mp hearlier with hmem | hmem
    · exact hfront (hwalked ▸ List.mem_filterMap.mpr ⟨earlier, hmem, hsecond⟩)
    · rw [hquiet earlier hmem] at hsecond
      cases hsecond
  obtain ⟨path, hpath, hearlier⟩ := exists_path_of_walk rule (walked ++ quiet) hwalk
  refine ⟨path, node, hpath, precedence_eq_some_iff.mp hnode, fun other later hother hlater => ?_⟩
  have hsecond : later.precedence = some second := precedence_eq_some_iff.mpr hlater
  have hpaths : path ≠ other := by
    rintro rfl
    obtain rfl : node = later := Option.some.inj (hpath.symm.trans hother)
    exact hne (Option.some.inj (hnode.symm.trans hsecond))
  refine (Path.before_or_before hpaths).resolve_right fun hbefore => ?_
  exact hnone later (hearlier other later hbefore hother) hsecond

theorem inOrder_levels (rule : Rule) : rule.InOrder rule.levels where
  nodup := rule.firstUses_levels.nodup
  mem_iff level := by rw [rule.firstUses_levels.mem_iff, mem_precedences_iff]
  order := rule.firstUses_levels.order.imp usesBefore_of_readBefore

/-- Two precedences in the rule are given by different numbers. -/
def MixesLevels (rule : Rule) : Prop :=
  ∃ first second, first ≠ second ∧ rule.UsesLevel first ∧ rule.UsesLevel second

theorem InOrder.one_lt_length_iff {rule : Rule} {levels : List Int32} (h : rule.InOrder levels) :
    1 < levels.length ↔ rule.MixesLevels := by
  unfold MixesLevels
  simp only [← h.mem_iff]
  have hnodup := h.nodup
  cases levels with
  | nil => simp
  | cons first rest =>
    cases rest with
    | nil => simp
    | cons second rest =>
      rw [List.nodup_cons, List.mem_cons, not_or] at hnodup
      refine ⟨fun _ => ⟨first, second, hnodup.1.1, ?_, ?_⟩, fun _ => Nat.lt_of_sub_pos ?_⟩
      · exact List.mem_cons_self
      · exact List.mem_cons_of_mem first List.mem_cons_self
      · exact Nat.succ_pos _

end Rule

namespace Grammar

theorem mem_map_mixedLevels_iff {grammar : Grammar} {name : String} :
    name ∈ grammar.mixedLevels.map Prod.fst ↔
      ∃ rule, (name, rule) ∈ grammar.rules.entries ∧ rule.MixesLevels := by
  constructor
  · intro h
    obtain ⟨⟨_, levels⟩, hmem, rfl⟩ := List.mem_map.mp h
    obtain ⟨rule, hrule, rfl, hlength⟩ := mem_mixedLevels_iff.mp hmem
    exact ⟨rule, hrule, rule.inOrder_levels.one_lt_length_iff.mp hlength⟩
  · rintro ⟨rule, hrule, hmixes⟩
    have hlength := rule.inOrder_levels.one_lt_length_iff.mpr hmixes
    exact List.mem_map.mpr
      ⟨(name, rule.levels), mem_mixedLevels_iff.mpr ⟨rule, hrule, rfl, hlength⟩, rfl⟩

/-- Of the notices of a check, those about levels come from the rules that mix some. -/
theorem filter_mixed_oddities (grammar : Grammar) (start : String) :
    ((grammar.oddities start).filter fun notice =>
      notice.message == "multiple precedence levels") =
      grammar.mixedLevels.map fun (rule, levels) =>
        .multiplePrecedenceLevels grammar.name rule levels := by
  rw [oddities, List.filter_append, List.filter_append, List.filter_map, List.filter_map,
    List.filter_map]
  rw [List.filter_eq_nil_iff.mpr, List.filter_eq_nil_iff.mpr, List.filter_eq_self.mpr,
    List.map_nil, List.map_nil, List.append_nil, List.nil_append]
  · intro _ _
    rfl
  · intro _ _
    exact Bool.false_ne_true
  · intro _ _
    exact Bool.false_ne_true

/-- A check that passes gives one notice about levels, in increasing order of names,
for each rule in which precedences are given by different numbers.  It tells these
numbers, each once, in the order in which they come first in the pre-order of the
rule. -/
theorem mixedLevels_notices {grammar : Grammar} {start : String}
    (h : (grammar.check start).result = .ok ()) :
    ∃ mixed : List (String × List Int32),
      ((grammar.check start).notices.filter fun notice =>
        notice.message == "multiple precedence levels") =
          mixed.map (fun (rule, levels) =>
            .multiplePrecedenceLevels grammar.name rule levels) ∧
      (mixed.map Prod.fst).Pairwise (· < ·) ∧
      (∀ name, name ∈ mixed.map Prod.fst ↔
        ∃ rule, (name, rule) ∈ grammar.rules.entries ∧ rule.MixesLevels) ∧
      ∀ name levels, (name, levels) ∈ mixed →
        ∀ rule, (name, rule) ∈ grammar.rules.entries → rule.InOrder levels := by
  have hnotices : (grammar.check start).notices = grammar.oddities start := by
    rw [check, check_result_eq_ok_iff.mp h]
  refine ⟨grammar.mixedLevels, ?_, grammar.pairwise_lt_mixedLevels,
    fun _ => mem_map_mixedLevels_iff, fun name levels hmem rule hrule => ?_⟩
  · rw [hnotices]
    exact grammar.filter_mixed_oddities start
  · obtain ⟨other, hother, rfl, -⟩ := mem_mixedLevels_iff.mp hmem
    have hget := Table.get?_eq_some_iff.mpr hother
    rw [Table.get?_eq_some_iff.mpr hrule] at hget
    obtain rfl := Option.some.inj hget
    exact rule.inOrder_levels

/-- A rule that gives 7, then 2 below it, then 7 again beside a precedence by name. -/
def bed : Rule where
  kind := .precLeft
  value := some (.level 7)
  content := some {
    kind := .choice
    members := [
      { kind := .precDynamic, value := some (.level 2), content := some { kind := .blank } },
      { kind := .prec, value := some (.level 7), content := some { kind := .symbol, name := some "seam" } },
      { kind := .precRight, value := some (.text "fold"), content := some { kind := .blank } }] }

/-- Beside the bed stands a rule that gives 4 twice. -/
def strata : Grammar where
  name := "strata"
  rules := .ofEntries [("bed", bed),
    ("seam", {
      kind := .prec
      value := some (.level 4)
      content := some { kind := .prec, value := some (.level 4), content := some { kind := .blank } } })]
  precedences := [[{ kind := .string, value := some (.text "fold") }]]

theorem mixedLevels_notices_strata :
    (strata.check "bed").result = .ok () ∧
    ∃ mixed : List (String × List Int32),
      ((strata.check "bed").notices.filter fun notice =>
        notice.message == "multiple precedence levels") =
          mixed.map (fun (rule, levels) => .multiplePrecedenceLevels "strata" rule levels) ∧
      (mixed.map Prod.fst).Pairwise (· < ·) ∧
      (∀ name, name ∈ mixed.map Prod.fst ↔
        ∃ rule, (name, rule) ∈ strata.rules.entries ∧ rule.MixesLevels) ∧
      ∀ name levels, (name, levels) ∈ mixed →
        ∀ rule, (name, rule) ∈ strata.rules.entries → rule.InOrder levels := by
  have hcheck : (strata.check "bed").result = .ok () := by cbv
  exact ⟨hcheck, mixedLevels_notices hcheck⟩

example : (strata.check "bed").notices =
    [.multiplePrecedenceLevels "strata" "bed" [7, 2]] := by cbv

end Grammar
end TaintFlow
