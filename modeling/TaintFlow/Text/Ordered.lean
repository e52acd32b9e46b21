/-
Sets of names in increasing order.

Names are ordered by code point, and each occurs once.  Things that have distinct
names come in increasing order of their names when they are sorted by them.
-/
namespace TaintFlow
namespace Text

/-- The names of a list in increasing order, each once. -/
def ordered (names : List String) : List String :=
  names.eraseDups.mergeSort fun a b => decide (a ≤ b)

theorem mem_ordered {name : String} {names : List String} :
    name ∈ ordered names ↔ name ∈ names := by
  simp [ordered]

/-- Sorted by names that are distinct, things have increasing names. -/
theorem pairwise_lt_mergeSort {α : Type} {name : α → String} {things : List α}
    (h : (things.map name).Nodup) :
    ((things.mergeSort fun a b => decide (name a ≤ name b)).map name).Pairwise (· < ·) := by
  have hle : ((things.mergeSort fun a b => decide (name a ≤ name b)).map name).Pairwise
      (· ≤ ·) := by
    rw [List.pairwise_map]
    refine (List.pairwise_mergeSort ?_ ?_ things).imp (fun h => of_decide_eq_true h)
    · intro a b c hab hbc
      exact decide_eq_true (String.le_trans (of_decide_eq_true hab) (of_decide_eq_true hbc))
    · intro a b
      rw [Bool.or_eq_true, decide_eq_true_eq, decide_eq_true_eq]
      exact String.le_total (name a) (name b)
  have hne : ((things.mergeSort fun a b => decide (name a ≤ name b)).map name).Pairwise
      (· ≠ ·) := ((List.mergeSort_perm _ _).map name).nodup_iff.mpr h
  refine hle.imp₂ (fun a b hab hdiff => ?_) hne
  exact String.not_le.mp fun hba => hdiff (String.le_antisymm hab hba)

theorem nodup_eraseDups {names : List String} : names.eraseDups.Nodup := by
  generalize hlength : names.length = n
  -- What is left after the first name may be shorter by more than one.
  induction n using Nat.strongRecOn generalizing names with
  | ind n ih =>
    cases names with
    | nil => exact List.nodup_nil
    | cons first rest =>
      rw [List.eraseDups_cons, List.nodup_cons]
      have hless : (rest.filter fun name => !name == first).length < n := by
        rw [← hlength]
        exact Nat.lt_succ_of_le (List.length_filter_le _ rest)
      exact ⟨by simp, ih _ hless rfl⟩

theorem pairwise_lt_ordered (names : List String) : (ordered names).Pairwise (· < ·) := by
  have hnodup : (names.eraseDups.map id).Nodup := by
    rw [List.map_id]
    exact nodup_eraseDups
  have hsorted := pairwise_lt_mergeSort hnodup
  rw [List.map_id] at hsorted
  exact hsorted

end Text
end TaintFlow
