/-
Well-formed summaries and their layouts.

A summary is a list of calls between braces, with commas between the calls.  A
call is a keyword with one key or two in parentheses.  `Spread` says that a text
consists of some tokens in order with blanks between them, and it is used twice:
for the tokens of a call, which stay on one line, and for the braces, calls and
commas of a summary, between which there may be line feeds.
-/
import Mathlib.Data.List.Forall2
import TaintFlow.Proofs.Text.Lines
import TaintFlow.Summary.Operation

namespace TaintFlow
namespace Summary

/-- The number of an argument, or -1 for what a call returns. -/
structure Key where
  number : Int
  least : -1 ≤ number
  greatest : number ≤ 9

def Key.text (key : Key) : List Char := '<' :: key.number.repr.toList ++ ['>']

/-- An operation with as many keys as it takes. -/
inductive Call where
  | setSink (key : Key)
  | sanitize (key : Key)
  | transitive (source target : Key)
  | swapTaint (first second : Key)

namespace Call

def op : Call → Operation
  | setSink _ => .setSink
  | sanitize _ => .sanitize
  | transitive .. => .transitive
  | swapTaint .. => .swapTaint

def keys : Call → List Key
  | setSink key => [key]
  | sanitize key => [key]
  | transitive source target => [source, target]
  | swapTaint first second => [first, second]

/-- What stands behind the keyword of a call. -/
def argumentTokens (call : Call) : List (List Char) :=
  ['('] :: ((call.keys.map Key.text).intersperse [','] ++ [[')']])

def tokens (call : Call) : List (List Char) := call.op.keyword.toList :: call.argumentTokens

end Call

/-- The tokens in order, and between any two of them characters that may stand
there. -/
inductive Spread (between : Char → Bool) : List (List Char) → List Char → Prop where
  | last {token : List Char} : Spread between [token] token
  | cons {token next : List Char} {tokens : List (List Char)} {text : List Char}
      (gap : List Char) (hgap : gap.all between = true)
      (h : Spread between (next :: tokens) text) :
      Spread between (token :: next :: tokens) (token ++ gap ++ text)

/-- Blanks that do not end a line. -/
def isInlineBlank (c : Char) : Bool := Text.isBlank c && c != '\n'

/-- A call that is written on one line. -/
def CallText (call : Call) (text : List Char) : Prop := Spread isInlineBlank call.tokens text

/-- The calls between braces, with commas between them and blanks anywhere around
all of these. -/
inductive LayoutText (calls : List Call) : List Char → Prop where
  | braced {texts : List (List Char)} {body : List Char} (before behind : List Char)
      (hcalls : List.Forall₂ CallText calls texts)
      (hbefore : before.all Text.isBlank = true)
      (hbody : Spread Text.isBlank (['\x7b'] :: (texts.intersperse [','] ++ [['\x7d']])) body)
      (hbehind : behind.all Text.isBlank = true) :
      LayoutText calls (before ++ body ++ behind)

/-! ## Tokens and what is between them -/

/-- A text starts with its first token, and the other tokens start behind a gap. -/
theorem Spread.exists_append {between : Char → Bool} {token : List Char}
    {tokens : List (List Char)} (hne : tokens ≠ []) {text : List Char}
    (h : Spread between (token :: tokens) text) :
    ∃ gap behind, text = token ++ (gap ++ behind) ∧ gap.all between = true ∧
      Spread between tokens behind := by
  cases h with
  | last => exact absurd rfl hne
  | cons gap hgap h => exact ⟨gap, _, List.append_assoc _ _ _, hgap, h⟩

/-- A character that may not stand between tokens stands in one of them. -/
theorem Spread.exists_token_of_mem {between : Char → Bool} {tokens : List (List Char)}
    {text : List Char} (h : Spread between tokens text) {c : Char} (hc : c ∈ text)
    (hbetween : between c = false) : ∃ token ∈ tokens, c ∈ token := by
  induction h with
  | last => exact ⟨_, List.mem_cons_self, hc⟩
  | cons gap hgap _ ih =>
    rcases List.mem_append.mp hc with hc | hc
    · rcases List.mem_append.mp hc with hc | hc
      · exact ⟨_, List.mem_cons_self, hc⟩
      · rw [List.all_eq_true.mp hgap c hc] at hbetween
        cases hbetween
    · obtain ⟨token, htoken, hmem⟩ := ih hc
      exact ⟨token, List.mem_cons_of_mem _ htoken, hmem⟩

theorem Spread.mem {between : Char → Bool} {tokens : List (List Char)} {text : List Char}
    (h : Spread between tokens text) {token : List Char} (htoken : token ∈ tokens) {c : Char}
    (hc : c ∈ token) : c ∈ text := by
  induction h with
  | last =>
    rw [← List.mem_singleton.mp htoken]
    exact hc
  | cons _ _ _ ih =>
    rcases List.mem_cons.mp htoken with rfl | htoken
    · exact List.mem_append_left _ (List.mem_append_left _ hc)
    · exact List.mem_append_right _ (ih htoken)

/-- A character that may not stand between tokens occurs as often as in them. -/
theorem Spread.count_eq {between : Char → Bool} {tokens : List (List Char)} {text : List Char}
    (h : Spread between tokens text) {c : Char} (hc : between c = false) :
    text.count c = tokens.flatten.count c := by
  induction h with
  | last => rw [List.flatten_singleton]
  | cons gap hgap _ ih =>
    have hnone : gap.count c = 0 := List.count_eq_zero.mpr fun hmem => by
      rw [List.all_eq_true.mp hgap c hmem] at hc
      cases hc
    rw [List.count_append, List.count_append, hnone, ih, Nat.add_zero]
    exact List.count_append.symm

theorem isInlineBlank_iff {c : Char} :
    isInlineBlank c = true ↔ Text.isBlank c = true ∧ c ≠ '\n' := by
  rw [isInlineBlank, Bool.and_eq_true, bne_iff_ne]

/-! ## Keys and keywords -/

/-- The texts of the keys that there are. -/
def keyTexts : List (List Char) :=
  ["<-1>".toList, "<0>".toList, "<1>".toList, "<2>".toList, "<3>".toList, "<4>".toList,
    "<5>".toList, "<6>".toList, "<7>".toList, "<8>".toList, "<9>".toList]

theorem Key.text_mem (key : Key) : key.text ∈ keyTexts := by
  have hleast := key.least
  have hgreatest := key.greatest
  unfold Key.text
  generalize key.number = number at *
  have hcases : number = -1 ∨ number = 0 ∨ number = 1 ∨ number = 2 ∨ number = 3 ∨ number = 4 ∨
      number = 5 ∨ number = 6 ∨ number = 7 ∨ number = 8 ∨ number = 9 := by omega
  rcases hcases with rfl | rfl | rfl | rfl | rfl | rfl | rfl | rfl | rfl | rfl | rfl <;> decide

/-- What holds of the parentheses, the comma and every key holds of all that
stands behind a keyword. -/
theorem Call.forall_argumentTokens {p : List Char → Prop} (hmarks : ∀ mark ∈ [['('], [','], [')']], p mark)
    (hkeys : ∀ text ∈ keyTexts, p text) (call : Call) : ∀ token ∈ call.argumentTokens, p token := by
  have hopen := hmarks ['('] (by decide)
  have hcomma := hmarks [','] (by decide)
  have hclose := hmarks [')'] (by decide)
  cases call with
  | setSink key | sanitize key =>
    simp [argumentTokens, keys, hopen, hclose, hkeys _ key.text_mem]
  | transitive first second | swapTaint first second =>
    simp [argumentTokens, keys, hopen, hcomma, hclose, hkeys _ first.text_mem,
      hkeys _ second.text_mem]

theorem Operation.keyword_mem (op : Operation) : op.keyword.toList ∈ keywords := by
  cases op <;> decide

/-- A call starts with its keyword, and the rest starts behind it. -/
theorem CallText.exists_append {call : Call} {text : List Char} (h : CallText call text) :
    ∃ gap arguments, text = call.op.keyword.toList ++ (gap ++ arguments) ∧
      gap.all isInlineBlank = true ∧ Spread isInlineBlank call.argumentTokens arguments :=
  Spread.exists_append (List.cons_ne_nil _ _) h

theorem CallText.mem_iff {call : Call} {text : List Char} (h : CallText call text) {c : Char}
    (hblank : isInlineBlank c = false) (hkeyword : ∀ keyword ∈ Operation.keywords, c ∉ keyword) :
    c ∈ text ↔ ∃ token ∈ call.argumentTokens, c ∈ token := by
  constructor
  · intro hmem
    obtain ⟨token, htoken, hc⟩ := Spread.exists_token_of_mem h hmem hblank
    rcases List.mem_cons.mp htoken with heq | htoken
    · rw [heq] at hc
      exact absurd hc (hkeyword _ call.op.keyword_mem)
    · exact ⟨token, htoken, hc⟩
  · rintro ⟨token, htoken, hc⟩
    exact Spread.mem h (List.mem_cons_of_mem _ htoken) hc

theorem CallText.not_mem {call : Call} {text : List Char} (h : CallText call text) {c : Char}
    (hblank : isInlineBlank c = false) (hkeyword : ∀ keyword ∈ Operation.keywords, c ∉ keyword)
    (hmarks : ∀ mark ∈ [['('], [','], [')']], c ∉ mark) (hkeys : ∀ text ∈ keyTexts, c ∉ text) :
    c ∉ text := by
  rw [h.mem_iff hblank hkeyword]
  rintro ⟨token, htoken, hc⟩
  exact call.forall_argumentTokens hmarks hkeys token htoken hc

end Summary
end TaintFlow
