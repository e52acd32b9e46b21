/-
Which rules can be reached.

A rule refers to another when a symbol in its tree names it.  A grammar is
entered at the start rule, and also at whatever its extras, externals and
supertypes name.  `visit` follows the references with a list of names that are
still to be visited.  It ends because each step either meets a rule for the first
time, of which there are finitely many, or takes a name off the list and adds
none.
-/
import TaintFlow.Grammar.Definition

namespace TaintFlow
namespace Grammar

/-- The names that the rule of this name refers to; none if there is no such rule. -/
def referencesOf (grammar : Grammar) (name : String) : List String :=
  ((grammar.rule? name).map Rule.references).getD []

/-- The names at which a grammar is entered. -/
def roots (grammar : Grammar) (start : String) : List String :=
  start :: (grammar.extras ++ grammar.externals).flatMap Rule.references ++ grammar.supertypes

/-- The number of rules whose names are not in `seen`. -/
def unseen (grammar : Grammar) (seen : List String) : Nat :=
  grammar.rules.keys.countP fun name => !seen.contains name

theorem unseen_cons_le (grammar : Grammar) (seen : List String) (name : String) :
    grammar.unseen (name :: seen) ≤ grammar.unseen seen := by
  apply List.countP_mono_left
  intro key _
  simp only [List.contains_cons, Bool.not_or, Bool.and_eq_true]
  exact fun h => h.2

/-- Seeing a rule for the first time leaves fewer rules unseen. -/
theorem unseen_cons_lt {grammar : Grammar} {seen : List String} {name : String}
    (hmem : name ∈ grammar.rules.keys) (hnew : name ∉ seen) :
    grammar.unseen (name :: seen) < grammar.unseen seen := by
  unfold unseen
  obtain ⟨before, behind, hkeys⟩ := List.append_of_mem hmem
  have hle : ∀ keys : List String,
      keys.countP (fun key => !(name :: seen).contains key) ≤
        keys.countP (fun key => !seen.contains key) := by
    intro keys
    apply List.countP_mono_left
    intro key _
    simp only [List.contains_cons, Bool.not_or, Bool.and_eq_true]
    exact fun h => h.2
  rw [hkeys, List.countP_append, List.countP_append, List.countP_cons, List.countP_cons]
  have hb := hle before
  have ha := hle behind
  simp [hnew]
  simp at hb ha
  omega

/-- The names that can be reached from those in `todo`, together with `seen`. -/
def visit (grammar : Grammar) (seen todo : List String) : List String :=
  match todo with
  | [] => seen
  | name :: rest =>
    if _hseen : name ∈ seen then visit grammar seen rest
    else if _hrule : name ∈ grammar.rules.keys then
      visit grammar (name :: seen) (grammar.referencesOf name ++ rest)
    else visit grammar (name :: seen) rest
termination_by (grammar.unseen seen, todo.length)
decreasing_by
  · exact Prod.Lex.right _ (Nat.lt_succ_self _)
  · exact Prod.Lex.left _ _ (unseen_cons_lt _hrule _hseen)
  · rcases Nat.lt_or_eq_of_le (unseen_cons_le grammar seen name) with hlt | heq
    · exact Prod.Lex.left _ _ hlt
    · rw [heq]; exact Prod.Lex.right _ (Nat.lt_succ_self _)

def reachable (grammar : Grammar) (start : String) : List String :=
  grammar.visit [] (grammar.roots start)

/-- The rules that are neither reached nor inlined, in increasing order. -/
def unreachableRules (grammar : Grammar) (start : String) : List String :=
  let reached := grammar.reachable start
  (grammar.rules.sorted.map Prod.fst).filter fun name =>
    !reached.contains name && !grammar.inline.contains name

end Grammar
end TaintFlow
