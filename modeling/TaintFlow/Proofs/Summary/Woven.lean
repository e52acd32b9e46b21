/-
Woven texts: stretches of a well-formed summary.

A line of a summary is a stretch of it that may start or end anywhere between two
tokens.  `Woven owed text last` says that a text is put together from blanks,
braces, commas and whole calls, and that no call in it comes before the comma
that the call before it needs.  The flags say whether a comma is owed in front of
the text and behind it.  A layout is woven (`LayoutText.woven`), so are its lines,
each from the flag the line before it ends with (`Woven.lines`), and a woven line
stays woven when it is trimmed (`Woven.trim`).
-/
import TaintFlow.Proofs.Summary.Layout

namespace TaintFlow
namespace Summary

/-- Blanks and braces, which may stand anywhere between calls and commas. -/
def isFiller (c : Char) : Bool := Text.isBlank c || c == '\x7b' || c == '\x7d'

inductive Woven : Bool → List Char → Bool → Prop where
  | nil {owed : Bool} : Woven owed [] owed
  | filler {owed last : Bool} {c : Char} {text : List Char} (hc : isFiller c = true)
      (h : Woven owed text last) : Woven owed (c :: text) last
  | comma {owed last : Bool} {text : List Char} (h : Woven false text last) :
      Woven owed (',' :: text) last
  | call {last : Bool} {call : Call} {written text : List Char} (hcall : CallText call written)
      (h : Woven true text last) : Woven false (written ++ text) last

/-! ## Fillers -/

theorem isFiller_of_isBlank {c : Char} (h : Text.isBlank c = true) : isFiller c = true := by
  rw [isFiller, h]
  rfl

theorem isAlpha_of_isFiller {c : Char} (h : isFiller c = true) : c.isAlpha = false := by
  rw [isFiller, Bool.or_eq_true, Bool.or_eq_true, beq_iff_eq, beq_iff_eq] at h
  rcases h with (hblank | hopen) | hclose
  · exact Text.isAlpha_of_isBlank hblank
  · rw [hopen]
    decide
  · rw [hclose]
    decide

theorem ne_of_isFiller {c d : Char} (hc : isFiller c = true) (hd : isFiller d = false) : c ≠ d := by
  intro heq
  rw [heq, hd] at hc
  cases hc

/-! ## Both ends of a call -/

theorem Operation.keyword_eq_cons (op : Operation) :
    ∃ c letters, op.keyword.toList = c :: letters ∧ c.isAlpha = true := by
  cases op <;> exact ⟨_, _, rfl, by decide⟩

theorem CallText.eq_cons {call : Call} {text : List Char} (h : CallText call text) :
    ∃ c behind, text = c :: behind ∧ c.isAlpha = true := by
  obtain ⟨gap, arguments, htext, -⟩ := h.exists_append
  obtain ⟨c, letters, hkeyword, hc⟩ := call.op.keyword_eq_cons
  rw [hkeyword] at htext
  exact ⟨c, _, htext, hc⟩

/-- A text ends with the last of its tokens. -/
theorem Spread.exists_append_getLast {between : Char → Bool} {tokens : List (List Char)}
    {text : List Char} (h : Spread between tokens text) {token : List Char}
    (hlast : tokens.getLast? = some token) : ∃ before, text = before ++ token := by
  induction h with
  | last => exact ⟨[], by simpa using hlast⟩
  | cons gap hgap h ih =>
    rw [List.getLast?_cons_cons] at hlast
    obtain ⟨before, htext⟩ := ih hlast
    rw [htext]
    exact ⟨_, (List.append_assoc _ _ _).symm⟩

theorem CallText.exists_append_close {call : Call} {text : List Char} (h : CallText call text) :
    ∃ before, text = before ++ [')'] := by
  refine h.exists_append_getLast ?_
  cases call <;> rfl

/-- A call stands on one line. -/
theorem CallText.newline_not_mem {call : Call} {text : List Char} (h : CallText call text) :
    '\n' ∉ text :=
  h.not_mem (by decide) (by decide) (by decide) (by decide)

/-! ## Layouts are woven -/

theorem Woven.append {owed middle last : Bool} {text next : List Char} (h : Woven owed text middle)
    (hnext : Woven middle next last) : Woven owed (text ++ next) last := by
  induction h with
  | nil => exact hnext
  | filler hc _ ih => exact .filler hc (ih hnext)
  | comma _ ih => exact .comma (ih hnext)
  | call hcall _ ih =>
    rw [List.append_assoc]
    exact .call hcall (ih hnext)

theorem Woven.of_blank {text : List Char} (h : text.all Text.isBlank = true) (owed : Bool) :
    Woven owed text owed := by
  induction text with
  | nil => exact .nil
  | cons c text ih =>
    rw [List.all_cons, Bool.and_eq_true] at h
    exact .filler (isFiller_of_isBlank h.1) (ih h.2)

/-- The calls with the commas between them, up to the closing brace. -/
theorem woven_of_forall₂ {calls : List Call} {texts : List (List Char)}
    (hcalls : List.Forall₂ CallText calls texts) {body : List Char}
    (h : Spread Text.isBlank (texts.intersperse [','] ++ [['\x7d']]) body) :
    ∃ last, Woven false body last := by
  have hend : Woven true ['\x7d'] true := .filler (by decide) .nil
  induction hcalls generalizing body with
  | nil =>
    cases h
    exact ⟨false, .filler (by decide) .nil⟩
  | @cons call written calls texts hcall hcalls ih =>
    cases texts with
    | nil =>
      obtain ⟨gap, behind, rfl, hgap, h⟩ := Spread.exists_append (List.cons_ne_nil _ _) h
      cases h
      exact ⟨true, .call hcall ((Woven.of_blank hgap true).append hend)⟩
    | cons next texts =>
      obtain ⟨gap, behind, rfl, hgap, h⟩ := Spread.exists_append (List.cons_ne_nil _ _) h
      obtain ⟨gap', behind', rfl, hgap', h⟩ := Spread.exists_append (by simp) h
      obtain ⟨last, hbehind⟩ := ih h
      have hcomma : Woven true (',' :: (gap' ++ behind')) last :=
        .comma ((Woven.of_blank hgap' false).append hbehind)
      exact ⟨last, .call hcall ((Woven.of_blank hgap true).append hcomma)⟩

theorem LayoutText.woven {calls : List Call} {text : List Char} (h : LayoutText calls text) :
    ∃ last, Woven false text last := by
  obtain ⟨before, behind, hcalls, hbefore, hbody, hbehind⟩ := h
  obtain ⟨gap, body, rfl, hgap, hbody⟩ := Spread.exists_append (by simp) hbody
  obtain ⟨last, hbody⟩ := woven_of_forall₂ hcalls hbody
  have hinner := ((Woven.of_blank hgap false).append hbody).filler (c := '\x7b') (by decide)
  exact ⟨last, ((Woven.of_blank hbefore false).append hinner).append (.of_blank hbehind last)⟩

/-! ## Lines of a woven text -/

/-- Lines that are woven, each from the flag that the line before it ends with. -/
inductive WovenLines : Bool → List (List Char) → Prop where
  | last {owed last : Bool} {line : List Char} (h : Woven owed line last) : WovenLines owed [line]
  | cons {owed next : Bool} {line : List Char} {lines : List (List Char)}
      (h : Woven owed line next) (hlines : WovenLines next lines) : WovenLines owed (line :: lines)

/-- A piece that can stand in front of a woven text can stand on the first of the
lines. -/
theorem WovenLines.modifyHead {owed middle : Bool} {lines : List (List Char)}
    (h : WovenLines middle lines) (piece : List Char)
    (hpiece : ∀ line last, Woven middle line last → Woven owed (piece ++ line) last) :
    WovenLines owed (lines.modifyHead (piece ++ ·)) := by
  cases h with
  | last h => exact .last (hpiece _ _ h)
  | cons h hlines => exact .cons (hpiece _ _ h) hlines

theorem Woven.lines {owed last : Bool} {text : List Char} (h : Woven owed text last) :
    WovenLines owed (Text.lines text) := by
  induction h with
  | nil =>
    rw [Text.lines_nil]
    exact .last .nil
  | @filler owed last c text hc _ ih =>
    by_cases hnewline : c = '\n'
    · rw [hnewline, Text.lines_newline_cons]
      exact .cons .nil ih
    · rw [Text.lines_cons hnewline]
      exact ih.modifyHead [c] fun _ _ h => .filler hc h
  | comma _ ih =>
    rw [Text.lines_cons (by decide)]
    exact ih.modifyHead [','] fun _ _ h => .comma h
  | call hcall _ ih =>
    rw [Text.lines_append hcall.newline_not_mem]
    exact ih.modifyHead _ fun _ _ h => .call hcall h

/-! ## Trimmed lines -/

theorem Woven.of_filler_cons {owed last : Bool} {c : Char} {text : List Char}
    (hc : isFiller c = true) (h : Woven owed (c :: text) last) : Woven owed text last := by
  generalize hwhole : c :: text = whole at h
  cases h with
  | nil => cases hwhole
  | filler _ h =>
    cases hwhole
    exact h
  | comma h =>
    cases hwhole
    exact absurd hc (by decide)
  | call hcall h =>
    obtain ⟨d, behind, rfl, hd⟩ := hcall.eq_cons
    cases hwhole
    rw [isAlpha_of_isFiller hc] at hd
    cases hd

theorem Woven.trimStart {owed last : Bool} {text : List Char} (h : Woven owed text last) :
    Woven owed (Text.trimStart text) last := by
  induction text with
  | nil => exact h
  | cons c text ih =>
    rw [Text.trimStart, List.dropWhile_cons]
    by_cases hc : Text.isBlank c = true
    · rw [if_pos hc]
      exact ih (h.of_filler_cons (isFiller_of_isBlank hc))
    · rw [if_neg hc]
      exact h

theorem Woven.of_append_filler {owed last : Bool} {c : Char} {text : List Char}
    (hc : isFiller c = true) (h : Woven owed (text ++ [c]) last) : Woven owed text last := by
  generalize hwhole : text ++ [c] = whole at h
  induction h generalizing text with
  | nil => cases List.append_ne_nil_of_right_ne_nil text (List.cons_ne_nil c []) hwhole
  | filler hd h ih =>
    cases text with
    | nil =>
      cases hwhole
      exact h
    | cons d text =>
      cases hwhole
      exact .filler hd (ih rfl)
  | comma _ ih =>
    cases text with
    | nil =>
      cases hwhole
      exact absurd hc (by decide)
    | cons d text =>
      cases hwhole
      exact .comma (ih rfl)
  | @call last call written rest hcall _ ih =>
    rcases List.append_eq_append_iff.mp hwhole with ⟨behind, hwritten, hrest⟩ | ⟨behind, rfl, hrest⟩
    · rcases List.append_eq_singleton_iff.mp hrest.symm with ⟨rfl, rfl⟩ | ⟨rfl, rfl⟩
      · rw [List.append_nil] at hwritten
        rw [← hwritten, ← List.append_nil written]
        exact .call hcall (ih rfl)
      · -- The last character of a call is its closing parenthesis.
        obtain ⟨before, hclose⟩ := hcall.exists_append_close
        have hlast := congrArg List.getLast? (hwritten.symm.trans hclose)
        rw [List.getLast?_concat, List.getLast?_concat, Option.some_inj] at hlast
        rw [hlast] at hc
        exact absurd hc (by decide)
    · exact .call hcall (ih hrest.symm)

theorem Woven.trimEnd {owed last : Bool} {text : List Char} (h : Woven owed text last) :
    Woven owed (Text.trimEnd text) last := by
  obtain ⟨blanks, htext, hblanks⟩ := Text.exists_trimEnd_append text
  rw [← htext] at h
  generalize Text.trimEnd text = trimmed at h
  clear htext
  induction blanks generalizing trimmed with
  | nil =>
    rw [List.append_nil] at h
    exact h
  | cons c blanks ih =>
    rw [List.forall_mem_cons] at hblanks
    rw [List.append_cons] at h
    exact (ih hblanks.2 _ h).of_append_filler (isFiller_of_isBlank hblanks.1)

theorem Woven.trim {owed last : Bool} {text : List Char} (h : Woven owed text last) :
    Woven owed (Text.trim text) last :=
  h.trimStart.trimEnd

end Summary
end TaintFlow
