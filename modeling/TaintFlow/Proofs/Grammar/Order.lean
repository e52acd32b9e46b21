/-
The order of a table does not show.

A table lists its entries in the order in which their names first came, and a
check that went by this order would tell how a grammar was written down.  Two
grammars are the same when they are equal but for the order of the entries in
their tables.  Then they are checked with one result and with the same notices in
the same order (`check_eq_of_same`).

The searches for a defect look at sorted rules and ask whether names are there.
The search for unreachable rules goes through a list in an order of its own, and
what it sees was described by chains of references, which know of no order.  The
levels are noted in the order of the table, and what the notes hold was described
without it.
-/
import TaintFlow.Proofs.Grammar.Levels
import TaintFlow.Proofs.Grammar.Search

namespace TaintFlow

/-! ## Lists under increasing names -/

/-- A list under increasing names is determined by its members. -/
theorem eq_of_pairwise_lt_of_mem_iff {α : Type} {xs ys : List (String × α)}
    (hx : (xs.map Prod.fst).Pairwise (· < ·)) (hy : (ys.map Prod.fst).Pairwise (· < ·))
    (h : ∀ entry, entry ∈ xs ↔ entry ∈ ys) : xs = ys := by
  rw [List.pairwise_map] at hx hy
  have hne : ∀ {a b : String × α}, a.1 < b.1 → a ≠ b :=
    fun hlt heq => String.ne_of_lt hlt (congrArg Prod.fst heq)
  have hperm : xs.Perm ys := (List.perm_ext_iff_of_nodup (hx.imp hne) (hy.imp hne)).mpr h
  refine List.Perm.eq_of_pairwise (fun a b _ _ hab hba => ?_) hx hy hperm
  exact absurd (String.lt_trans hab hba) (String.lt_irrefl a.1)

/-! ## Tables with the same entries -/

namespace Table

variable {α : Type} {table other : Table α}

/-- The tables have the same entries, perhaps in another order. -/
def Same (table other : Table α) : Prop := table.entries.Perm other.entries

theorem Same.mem_iff (h : table.Same other) {entry : String × α} :
    entry ∈ table.entries ↔ entry ∈ other.entries :=
  List.Perm.mem_iff h

theorem Same.contains_eq (h : table.Same other) (name : String) :
    table.contains name = other.contains name :=
  (List.Perm.map Prod.fst h).contains_eq

theorem Same.sorted_eq (h : table.Same other) : table.sorted = other.sorted := by
  refine eq_of_pairwise_lt_of_mem_iff table.pairwise_lt_sorted other.pairwise_lt_sorted ?_
  intro entry
  rw [mem_sorted, mem_sorted]
  exact h.mem_iff

end Table

namespace Grammar

/-- The grammars are equal, but for the order of the entries in their tables. -/
structure Same (grammar other : Grammar) : Prop where
  rules : grammar.rules.Same other.rules
  reserved : grammar.reserved.Same other.reserved
  rest : grammar = { other with rules := grammar.rules, reserved := grammar.reserved }

/-! ## Defects -/

section

variable {grammar : Grammar} {rules : Table Rule} {reserved : Table (List Rule)}

theorem defines_eq_of_same (h : rules.Same grammar.rules) (symbol : String) :
    { grammar with rules, reserved }.defines symbol = grammar.defines symbol := by
  unfold defines
  rw [h.contains_eq]
  rfl

theorem undefinedSymbol?_eq_of_same (h : rules.Same grammar.rules) :
    { grammar with rules, reserved }.undefinedSymbol? = grammar.undefinedSymbol? := by
  unfold undefinedSymbol?
  simp only [defines_eq_of_same h, h.sorted_eq]

theorem undeclaredPrecedence?_eq_of_same (h : rules.Same grammar.rules) :
    { grammar with rules, reserved }.undeclaredPrecedence? = grammar.undeclaredPrecedence? := by
  unfold undeclaredPrecedence?
  rw [h.sorted_eq]
  rfl

theorem undefinedConflictMember?_eq_of_same (h : rules.Same grammar.rules) :
    { grammar with rules, reserved }.undefinedConflictMember? =
      grammar.undefinedConflictMember? := by
  unfold undefinedConflictMember?
  simp only [h.contains_eq]

theorem defect?_eq_of_same (h : rules.Same grammar.rules) (start : String) :
    { grammar with rules, reserved }.defect? start = grammar.defect? start := by
  unfold defect?
  rw [h.contains_eq, undefinedSymbol?_eq_of_same h, undeclaredPrecedence?_eq_of_same h,
    undefinedConflictMember?_eq_of_same h]

/-! ## Notices -/

theorem refers_iff_of_same (h : rules.Same grammar.rules) {source target : String} :
    { grammar with rules, reserved }.Refers source target ↔ grammar.Refers source target := by
  unfold Refers
  simp only [h.mem_iff]

theorem reaches_iff_of_same (h : rules.Same grammar.rules) {start name : String} :
    { grammar with rules, reserved }.Reaches start name ↔ grammar.Reaches start name := by
  have hrefers : { grammar with rules, reserved }.Refers = grammar.Refers := by
    funext source target
    exact propext (refers_iff_of_same h)
  unfold Reaches
  rw [hrefers]
  rfl

theorem unreachableRules_eq_of_same (h : rules.Same grammar.rules) (start : String) :
    { grammar with rules, reserved }.unreachableRules start = grammar.unreachableRules start := by
  unfold unreachableRules
  rw [h.sorted_eq]
  refine List.filter_congr fun name _ => ?_
  have hreached : ({ grammar with rules, reserved }.reachable start).contains name =
      (grammar.reachable start).contains name := by
    rw [Bool.eq_iff_iff, List.contains_iff_mem, List.contains_iff_mem, mem_reachable_iff,
      mem_reachable_iff]
    exact reaches_iff_of_same h
  rw [hreached]

theorem leftRecursiveRules_eq_of_same (h : rules.Same grammar.rules) :
    { grammar with rules, reserved }.leftRecursiveRules = grammar.leftRecursiveRules := by
  unfold leftRecursiveRules
  rw [h.sorted_eq]

theorem mixedLevels_eq_of_same (h : rules.Same grammar.rules) :
    { grammar with rules, reserved }.mixedLevels = grammar.mixedLevels := by
  refine eq_of_pairwise_lt_of_mem_iff (pairwise_lt_mixedLevels _) (pairwise_lt_mixedLevels _) ?_
  intro entry
  obtain ⟨name, levels⟩ := entry
  rw [mem_mixedLevels_iff, mem_mixedLevels_iff]
  simp only [h.mem_iff]

theorem oddities_eq_of_same (h : rules.Same grammar.rules) (start : String) :
    { grammar with rules, reserved }.oddities start = grammar.oddities start := by
  unfold oddities
  rw [unreachableRules_eq_of_same h, leftRecursiveRules_eq_of_same h, mixedLevels_eq_of_same h]

end

/-- Grammars that differ in the order of their tables only are checked alike: with
the same result and the same notices. -/
theorem check_eq_of_same {grammar other : Grammar} (h : grammar.Same other) (start : String) :
    grammar.check start = other.check start := by
  rw [h.rest]
  unfold check
  rw [defect?_eq_of_same h.rules, oddities_eq_of_same h.rules]

/-- A grammar whose second rule mixes two levels, and two rules that are not
reached. -/
def tiers : Grammar where
  name := "tiers"
  rules := .ofEntries [("top", { kind := .symbol, name := some "mix" }),
    ("mix", {
      kind := .prec
      value := some (.level 2)
      content := some { kind := .precLeft, value := some (.level (-1)) } }),
    ("west", { kind := .blank }), ("east", { kind := .blank })]

/-- The same grammar with its rules from the last to the first. -/
def reversedTiers : Grammar :=
  { tiers with rules := .ofEntries tiers.rules.entries.reverse }

theorem check_eq_of_same_tiers :
    reversedTiers.Same tiers ∧ reversedTiers.check "top" = tiers.check "top" := by
  have hsame : reversedTiers.Same tiers :=
    { rules := List.reverse_perm tiers.rules.entries, reserved := .refl _, rest := rfl }
  exact ⟨hsame, check_eq_of_same hsame "top"⟩

example : (reversedTiers.check "top").notices = [.unreachableRule "tiers" "east",
    .unreachableRule "tiers" "west", .multiplePrecedenceLevels "tiers" "mix" [2, -1]] := by cbv

end Grammar
end TaintFlow
