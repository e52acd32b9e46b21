/-
The keyword that is suggested for a misspelt one.

A keyword is away from a word by the least number of edits that turn the word into it.
`IsNearest` says of an operation that no other is offered whose keyword is less far
away, and none in front of it whose keyword is as far away.  Looking at one more
operation keeps the nearest one of those looked at (`IsNearest.step`), so the
suggestion names the nearest one of all.

A word that is one edit away from a keyword is at least two away from any other
keyword, since any two keywords are at least three apart.  So the suggestion for it
names this keyword (`suggestion_of_unknownOperation`).
-/
import TaintFlow.Proofs.Text.EditDistance
import TaintFlow.Summary.Suggestion

namespace TaintFlow
namespace Summary
namespace Operation

/-! ## The nearest operation -/

/-- So many edits turn the word into the keyword, and fewer do not. -/
def Away (word : String) (op : Operation) (n : Nat) : Prop :=
  Text.Edits n word.toList op.keyword.toList ∧
    ∀ m, Text.Edits m word.toList op.keyword.toList → n ≤ m

/-- Of the operations that are offered, the first one whose keyword is the least
number of edits away from the word. -/
def IsNearest (word : String) (offered : List Operation) (op : Operation) : Prop :=
  ∃ before behind, offered = before ++ op :: behind ∧
    ∃ n, op.Away word n ∧ (∀ other ∈ before, ∀ m, other.Away word m → n < m) ∧
      ∀ other ∈ behind, ∀ m, other.Away word m → n ≤ m

/-- The computed distance of a keyword is the number of edits that it is away. -/
theorem away_iff {word : String} {op : Operation} {n : Nat} :
    op.Away word n ↔ n = op.distance word := by
  constructor
  · intro h
    exact Nat.le_antisymm (h.2 _ (Text.edits_editDistance _ _)) (Text.editDistance_le_of_edits h.1)
  · rintro rfl
    exact ⟨Text.edits_editDistance _ _, fun _ => Text.editDistance_le_of_edits⟩

theorem isNearest_iff {word : String} {offered : List Operation} {op : Operation} :
    op.IsNearest word offered ↔
      ∃ before behind, offered = before ++ op :: behind ∧
        (∀ other ∈ before, op.distance word < other.distance word) ∧
          ∀ other ∈ behind, op.distance word ≤ other.distance word := by
  simp only [IsNearest, away_iff, forall_eq, exists_eq_left]

/-- No operation that is offered is nearer than the nearest one. -/
theorem IsNearest.distance_le {word : String} {offered : List Operation} {op other : Operation}
    (h : op.IsNearest word offered) (hother : other ∈ offered) :
    op.distance word ≤ other.distance word := by
  obtain ⟨before, behind, rfl, hbefore, hbehind⟩ := isNearest_iff.mp h
  rw [List.mem_append, List.mem_cons] at hother
  rcases hother with hmem | rfl | hmem
  · exact Nat.le_of_lt (hbefore other hmem)
  · exact Nat.le_refl _
  · exact hbehind other hmem

/-- With one more operation offered, the nearest is that one only if it is nearer than
the nearest so far. -/
theorem IsNearest.step {word : String} {offered : List Operation} {best : Operation}
    (h : best.IsNearest word offered) (op : Operation) :
    (nearer word best op).IsNearest word (offered ++ [op]) := by
  unfold nearer
  rw [isNearest_iff]
  by_cases hlt : op.distance word < best.distance word
  · rw [if_pos hlt]
    refine ⟨offered, [], rfl, fun other hother => ?_, List.forall_mem_nil _⟩
    exact Nat.lt_of_lt_of_le hlt (h.distance_le hother)
  · obtain ⟨before, behind, rfl, hbefore, hbehind⟩ := isNearest_iff.mp h
    rw [if_neg hlt]
    refine ⟨before, behind ++ [op], by rw [List.append_assoc, List.cons_append], hbefore, ?_⟩
    rw [List.forall_mem_append, List.forall_mem_singleton]
    exact ⟨hbehind, Nat.le_of_not_lt hlt⟩

theorem IsNearest.run {word : String} {offered : List Operation} {best : Operation}
    (h : best.IsNearest word offered) (ops : List Operation) :
    (ops.foldl (nearer word) best).IsNearest word (offered ++ ops) := by
  induction ops generalizing offered best with
  | nil =>
    rw [List.append_nil]
    exact h
  | cons op ops ih =>
    have hrun := ih (h.step op)
    rwa [List.append_assoc] at hrun

theorem isNearest_nearest (word : String) : (nearest word).IsNearest word all := by
  have hfirst : setSink.IsNearest word [setSink] :=
    isNearest_iff.mpr ⟨[], [], rfl, List.forall_mem_nil _, List.forall_mem_nil _⟩
  exact hfirst.run [transitive, sanitize, swapTaint]

example : all.map (distance "swapSink") = [3, 8, 6, 3] ∧ nearest "swapSink" = setSink := by decide

/-! ## Words next to a keyword -/

theorem mem_all (op : Operation) : op ∈ all := by
  cases op <;> decide

/-- At least three edits lead from a keyword to another. -/
theorem three_le_editDistance {op other : Operation} (hne : op ≠ other) :
    3 ≤ Text.editDistance op.keyword.toList other.keyword.toList := by
  have hall : ∀ op ∈ all, ∀ other ∈ all, op ≠ other →
      3 ≤ Text.editDistance op.keyword.toList other.keyword.toList := by
    decide +kernel
  exact hall op op.mem_all other other.mem_all hne

/-- A word next to a keyword is not next to another one. -/
theorem nearest_of_edit {word : String} {op : Operation}
    (h : Text.Edit op.keyword.toList word.toList) : nearest word = op := by
  have hone : op.distance word ≤ 1 :=
    Text.editDistance_le_of_edits (.edit h.symm (.done _))
  have hle : (nearest word).distance word ≤ op.distance word :=
    (isNearest_nearest word).distance_le op.mem_all
  refine Classical.byContradiction fun hne => ?_
  have hapart := three_le_editDistance (Ne.symm hne)
  have hedit : Text.editDistance op.keyword.toList (nearest word).keyword.toList ≤
      (nearest word).distance word + 1 := h.editDistance_le _
  omega

end Operation

/-! ## Suggestions -/

/-- The sentence that offers the keyword of an operation for a word. -/
def hint (word : String) (op : Operation) : String :=
  "unknown operation name \"" ++ word ++ "\", did you mean \"" ++ op.keyword ++ "\"?"

/-- The suggestion for a misspelt keyword names the nearest keyword, and of several as
near the one that is offered first.  A word that is one insertion, deletion or
substitution away from a keyword has this keyword named. -/
theorem suggestion_of_unknownOperation {finding : Finding}
    (h : finding.kind = .unknownOperation) :
    (∃ op : Operation, finding.suggestion = hint finding.code op ∧
      op.IsNearest finding.code Operation.all) ∧
    ∀ op : Operation, Text.Edit op.keyword.toList finding.code.toList →
      finding.suggestion = hint finding.code op := by
  have hsuggestion : finding.suggestion = hint finding.code (.nearest finding.code) := by
    rw [Finding.suggestion, h]
    rfl
  refine ⟨⟨_, hsuggestion, Operation.isNearest_nearest finding.code⟩, fun op hedit => ?_⟩
  rw [hsuggestion, Operation.nearest_of_edit hedit]

/-- A keyword with one letter that is another, and a word that is as near to two keywords. -/
theorem suggestion_of_unknownOperation_sanitise :
    Text.Edit "sanitize".toList "sanitise".toList ∧
    (Finding.about .unknownOperation ⟨0, 2⟩ ⟨0, 10⟩ "sanitise".toList).suggestion =
      hint "sanitise" .sanitize ∧
    ∃ op : Operation, (Finding.about .unknownOperation ⟨0, 2⟩ ⟨0, 10⟩ "swapSink".toList).suggestion =
      hint "swapSink" op ∧ op.IsNearest "swapSink" Operation.all := by
  have hedit : Text.Edit "sanitize".toList "sanitise".toList :=
    .substitution "saniti".toList 'z' 's' "e".toList
  have hmisspelt : (Finding.about .unknownOperation ⟨0, 2⟩ ⟨0, 10⟩ "sanitise".toList).kind =
      .unknownOperation := rfl
  have hmixed : (Finding.about .unknownOperation ⟨0, 2⟩ ⟨0, 10⟩ "swapSink".toList).kind =
      .unknownOperation := rfl
  exact ⟨hedit, (suggestion_of_unknownOperation hmisspelt).2 .sanitize hedit,
    (suggestion_of_unknownOperation hmixed).1⟩

end Summary
end TaintFlow
