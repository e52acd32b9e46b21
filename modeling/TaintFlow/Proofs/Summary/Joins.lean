/-
Two texts, one under the other.

The findings of the first text stay, those of the second move down by the lines of
the first, and nothing else is found but a comma missed between the two texts, on
the last line of the first (`inspect_joined`).  A brace is missed where it is missed
in both.
-/
import TaintFlow.Proofs.Summary.Neighbours

namespace TaintFlow
namespace Summary

/-! ## Lines and braces apart -/

/-- What is found on the lines of a text, without the missing braces. -/
def body (source : String) : List Finding :=
  (inspect source).filter fun finding => !finding.kind.isBrace

def Misses (kind : Finding.Kind) (source : String) : Prop :=
  ∃ finding ∈ inspect source, finding.kind = kind

theorem body_eq (source : String) : body source = lineFindings 0 (Text.lines source.toList) := by
  have hlines : (lineFindings 0 (Text.lines source.toList)).filter (!·.kind.isBrace) =
      lineFindings 0 (Text.lines source.toList) :=
    List.filter_eq_self.mpr fun finding h => by
      rw [(row_of_mem_lineFindings h).2]
      rfl
  have hbraces : (braceFindings (Text.lines source.toList)).filter (!·.kind.isBrace) = [] :=
    List.filter_eq_nil_iff.mpr fun finding h => by
      rw [isBrace_of_mem_braceFindings h]
      exact Bool.false_ne_true
  show (lineFindings 0 _ ++ braceFindings _).filter _ = _
  rw [List.filter_append, hlines, hbraces, List.append_nil]

/-- Only in the text as a whole is a brace missed. -/
theorem misses_iff_of_isBrace {kind : Finding.Kind} (hkind : kind.isBrace = true)
    (source : String) : Misses kind source ↔
      ∃ finding ∈ braceFindings (Text.lines source.toList), finding.kind = kind := by
  constructor
  · rintro ⟨finding, hfinding, rfl⟩
    refine ⟨finding, (List.mem_append.mp hfinding).resolve_left fun hline => ?_, rfl⟩
    rw [(row_of_mem_lineFindings hline).2] at hkind
    cases hkind
  · rintro ⟨finding, hfinding, rfl⟩
    exact ⟨finding, List.mem_append_right _ hfinding, rfl⟩

theorem misses_openBrace_iff (source : String) : Misses .missingOpenBrace source ↔
    ∀ line ∈ Text.lines source.toList, '\x7b' ∉ line := by
  rw [misses_iff_of_isBrace rfl, braceFindings_eq]
  simp only [List.mem_append, mem_missedBrace_iff]
  constructor
  · rintro ⟨finding, ⟨-, hnone⟩ | ⟨rfl, -⟩, hkind⟩
    · exact hnone
    · cases hkind
  · exact fun hnone => ⟨_, .inl ⟨rfl, hnone⟩, rfl⟩

theorem misses_closingBrace_iff (source : String) : Misses .missingClosingBrace source ↔
    ∀ line ∈ Text.lines source.toList, '\x7d' ∉ line := by
  rw [misses_iff_of_isBrace rfl, braceFindings_eq]
  simp only [List.mem_append, mem_missedBrace_iff]
  constructor
  · rintro ⟨finding, ⟨rfl, -⟩ | ⟨-, hnone⟩, hkind⟩
    · cases hkind
    · exact hnone
  · exact fun hnone => ⟨_, .inr ⟨rfl, hnone⟩, rfl⟩

/-! ## Joining -/

theorem lines_joined (first second : String) :
    Text.lines (first ++ "\n" ++ second).toList =
      Text.lines first.toList ++ Text.lines second.toList := by
  rw [String.toList_append, String.toList_append, List.append_assoc]
  exact Text.lines_append_newline first.toList second.toList

/-- The comma missed on the last line of a text, if the other text stands under it. -/
def commaBetween (first second : String) : List Finding :=
  let row := (Text.lines first.toList).length - 1
  let last := (Text.lines first.toList).getLastD []
  let text := Text.trim last
  if ')' ∈ text ∧ ',' ∉ text ∧ '\x7d' ∉ text ∧
      startsOperation (Text.trim ((Text.lines second.toList).headD [])) = true then
    [.about .missingComma (lineEnd row last) (lineEnd row last) text]
  else []

/-- Under its last line a text has the other text, and misses a comma more there. -/
theorem commaFindings_eq_commaBetween {first second : String} {above : List (List Char)}
    {last : List Char} (h : Text.lines first.toList = above ++ [last]) :
    (Line.trimmed above.length last).commaFindings ((Text.lines second.toList).headD []) =
      commaBetween first second := by
  have hrow : (Text.lines first.toList).length - 1 = above.length := by
    rw [h, List.length_append, List.length_singleton, Nat.add_sub_cancel]
  have hlast : (Text.lines first.toList).getLastD [] = last := by
    rw [h, List.getLastD_concat]
  rw [commaFindings_trimmed, commaBetween, hrow, hlast]
  simp only [Text.mem_trim_iff (c := ')') (by decide), Text.mem_trim_iff (c := ',') (by decide),
    Text.mem_trim_iff (c := '\x7d') (by decide)]

section

variable {first second : String} {above : List (List Char)} {last : List Char}
  (h : Text.lines first.toList = above ++ [last])

include h

theorem body_eq_append : body first =
    findingsOver last 0 above ++ (Line.trimmed above.length last).findings [] := by
  rw [body_eq, h, lineFindings_append, lineFindings, lineFindings, List.append_nil, Nat.zero_add]
  rfl

theorem body_joined : body (first ++ "\n" ++ second) =
    findingsOver last 0 above ++ commaBetween first second ++
      (Line.trimmed above.length last).findings [] ++
      (body second).map (Finding.move (Text.lines first.toList).length 0) := by
  have hmoved : lineFindings (0 + (above ++ [last]).length) (Text.lines second.toList) =
      (body second).map (Finding.move (above ++ [last]).length 0) := by
    rw [lineFindings_move, ← body_eq]
  have hlast : (Line.trimmed above.length last).findings ((Text.lines second.toList).headD []) =
      commaBetween first second ++ (Line.trimmed above.length last).findings [] := by
    rw [Line.findings_eq_append, commaFindings_eq_commaBetween h]
  rw [body_eq, lines_joined, h, lineFindings_append, hmoved, findingsOver_concat, Nat.zero_add,
    hlast, ← List.append_assoc, List.append_assoc (findingsOver last 0 above)]

end

/-- Of two texts, one under the other, the first keeps its findings and the second
has its own further down.  Between them a comma can be missed, and it comes in front
of what else is found on the last line of the first.  A brace is missed if both
texts miss it. -/
theorem inspect_joined (first second : String) :
    (∃ above row, body first = above ++ row ∧
      (∀ finding ∈ above, finding.start.row + 1 < (Text.lines first.toList).length) ∧
      (∀ finding ∈ row, finding.start.row + 1 = (Text.lines first.toList).length) ∧
      body (first ++ "\n" ++ second) = above ++ commaBetween first second ++ row ++
        (body second).map (Finding.move (Text.lines first.toList).length 0)) ∧
    (Misses .missingOpenBrace (first ++ "\n" ++ second) ↔
      Misses .missingOpenBrace first ∧ Misses .missingOpenBrace second) ∧
    (Misses .missingClosingBrace (first ++ "\n" ++ second) ↔
      Misses .missingClosingBrace first ∧ Misses .missingClosingBrace second) := by
  refine ⟨?_, ?_, ?_⟩
  · obtain ⟨above, last, hfirst⟩ :=
      (List.eq_nil_or_concat' _).resolve_left (List.splitOn_ne_nil '\n' first.toList)
    have hfirst : Text.lines first.toList = above ++ [last] := hfirst
    have hlength : (Text.lines first.toList).length = above.length + 1 := by
      rw [hfirst, List.length_append, List.length_singleton]
    refine ⟨_, _, body_eq_append hfirst, fun finding hfinding => ?_, fun finding hfinding => ?_,
      body_joined hfirst⟩
    · obtain ⟨-, hlt, -⟩ := row_of_mem_findingsOver hfinding
      omega
    · have hrow : finding.start.row = above.length := Line.row_of_mem_findings hfinding
      omega
  · rw [misses_openBrace_iff, misses_openBrace_iff, misses_openBrace_iff, lines_joined,
      List.forall_mem_append]
  · rw [misses_closingBrace_iff, misses_closingBrace_iff, misses_closingBrace_iff, lines_joined,
      List.forall_mem_append]

example : commaBetween "\x7b\n  sanitize(<1>)" " setSink(<2>)" =
    [.about .missingComma ⟨1, 15⟩ ⟨1, 15⟩ "sanitize(<1>)".toList] := by decide +kernel

end Summary
end TaintFlow
