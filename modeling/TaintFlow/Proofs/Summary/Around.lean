/-
A call, taken apart around one of its characters.

An edit of a call changes it at one place, so the text in front of that place and
the text behind it are looked at apart.  A character that is no blank is inside a
token, and what is on either side of the token is made of tokens too
(`Spread.exists_token`).  So all keys are sound on both sides of a parenthesis
(`CallText.around_parenthesis`) and on both sides of a key (`CallText.around_key`),
and only the name in front has letters (`CallText.exists_name`).
-/
import Mathlib.Data.List.Basic
import TaintFlow.Proofs.Summary.Silence

namespace TaintFlow
namespace Summary

/-! ## Tokens around a character -/

theorem Spread.cons_of {between : Char → Bool} {tokens : List (List Char)} {text gap : List Char}
    (token : List Char) (hgap : gap.all between = true) (h : Spread between tokens text) :
    Spread between (token :: tokens) (token ++ gap ++ text) := by
  cases tokens with
  | nil => cases h
  | cons next tokens => exact .cons gap hgap h

/-- A character that is not in the middle of three texts is in the first or in the
last of them. -/
theorem token_or_text_of_append_eq {front back token gap text : List Char} {c : Char}
    (hgap : c ∉ gap) (h : front ++ c :: back = token ++ gap ++ text) :
    (∃ tail, token = front ++ c :: tail ∧ back = tail ++ (gap ++ text)) ∨
      ∃ inner, front = token ++ gap ++ inner ∧ text = inner ++ c :: back := by
  rcases List.append_eq_append_iff.mp h with ⟨rest, hfirst, hrest⟩ | ⟨inner, hfront, htext⟩
  · rcases List.cons_eq_append_iff.mp hrest with ⟨rfl, htext⟩ | ⟨rest, rfl, hback⟩
    · rw [List.append_nil] at hfirst
      exact .inr ⟨[], by rw [List.append_nil, hfirst], htext⟩
    · rcases List.append_eq_append_iff.mp hfirst with ⟨tail, -, rfl⟩ | ⟨tail, htoken, hsplit⟩
      · exact absurd (List.mem_append_right _ List.mem_cons_self) hgap
      · rcases List.cons_eq_append_iff.mp hsplit with ⟨-, rfl⟩ | ⟨tail, rfl, rfl⟩
        · exact absurd List.mem_cons_self hgap
        · exact .inl ⟨tail, htoken, hback.trans (List.append_assoc _ _ _)⟩
  · exact .inr ⟨inner, hfront, htext⟩

/-- A character that may not stand between tokens is in one of them.  The text in
front of that token and the text behind it are tokens too, with blanks on the side
of the token. -/
theorem Spread.exists_token {between : Char → Bool} {tokens : List (List Char)}
    {front back : List Char} {c : Char} (h : Spread between tokens (front ++ c :: back))
    (hc : between c = false) :
    ∃ before after head tail first rest, tokens = before ++ (head ++ c :: tail) :: after ∧
      front = first ++ head ∧ back = tail ++ rest ∧
      Spread between (before ++ [[]]) first ∧ Spread between ([] :: after) rest := by
  generalize hwhole : front ++ c :: back = whole at h
  induction h generalizing front with
  | last => exact ⟨[], [], front, back, [], [], by rw [hwhole]; rfl, rfl,
      (List.append_nil back).symm, .last, .last⟩
  | @cons token next tokens text gap hgap h ih =>
    have hnotgap : c ∉ gap := fun hmem => by
      rw [List.all_eq_true.mp hgap c hmem] at hc
      cases hc
    rcases token_or_text_of_append_eq hnotgap hwhole with ⟨tail, rfl, rfl⟩ | ⟨inner, rfl, rfl⟩
    · exact ⟨[], next :: tokens, front, tail, [], gap ++ text, rfl, rfl, rfl, .last,
        Spread.cons_of [] hgap h⟩
    · obtain ⟨before, after, head, tail, first, rest, htokens, rfl, hback, hfirst, hrest⟩ := ih rfl
      refine ⟨token :: before, after, head, tail, token ++ gap ++ first, rest, ?_, ?_, hback,
        Spread.cons_of token hgap hfirst, hrest⟩
      · rw [htokens]
        rfl
      · rw [List.append_assoc (token ++ gap)]

/-! ## The parts of a call -/

/-- There is one way to cut a text at the first occurrence of a character. -/
theorem eq_of_append_cons_eq {c : Char} {front back front' back' : List Char} (hfront : c ∉ front)
    (hfront' : c ∉ front') (h : front ++ c :: back = front' ++ c :: back') :
    front = front' ∧ back = back' := by
  have hlength := congrArg (List.idxOf c) h
  rw [List.idxOf_append_of_notMem hfront, List.idxOf_append_of_notMem hfront',
    List.idxOf_cons_self, Nat.add_zero, List.idxOf_cons_self, Nat.add_zero] at hlength
  obtain ⟨heq, hrest⟩ := List.append_inj h hlength
  exact ⟨heq, (List.cons.inj hrest).2⟩

/-- A text in which no key is out of range, wherever it stands. -/
abbrev PassesKeys (text : List Char) : Prop :=
  Passes (fun column => keySpansFrom column none) (Line.isInvalidKey · = false) text

namespace CallText

variable {call : Call} {front back : List Char}

/-- Around any character of a call that is no blank there is the rest of a token,
and then text with sound keys only. -/
theorem exists_around {c : Char} (h : CallText call (front ++ c :: back))
    (hc : isInlineBlank c = false) :
    ∃ head tail first rest, head ++ c :: tail ∈ call.tokens ∧ front = first ++ head ∧
      back = tail ++ rest ∧ PassesKeys first ∧ PassesKeys rest := by
  obtain ⟨before, after, head, tail, first, rest, htokens, hfront, hback, hfirst, hrest⟩ :=
    Spread.exists_token h hc
  have hpass := call.passes_keys_of_mem_tokens
  rw [htokens, List.forall_mem_append, List.forall_mem_cons] at hpass
  refine ⟨head, tail, first, rest, ?_, hfront, hback, ?_, ?_⟩
  · rw [htokens]
    exact List.mem_append_right _ List.mem_cons_self
  · exact hfirst.passes (fun _ => passes_keys_of_inlineBlank)
      (List.forall_mem_append.mpr ⟨hpass.1, List.forall_mem_singleton.mpr .nil⟩)
  · exact hrest.passes (fun _ => passes_keys_of_inlineBlank)
      (List.forall_mem_cons.mpr ⟨.nil, hpass.2.2⟩)

/-- Around a parenthesis all keys are sound. -/
theorem around_parenthesis {mark : Char} (hmark : mark ∈ ['(', ')'])
    (h : CallText call (front ++ mark :: back)) : PassesKeys front ∧ PassesKeys back := by
  have hmarks : ∀ mark ∈ ['(', ')'], isInlineBlank mark = false ∧
      (∀ token ∈ Operation.keywords, mark ∉ token) ∧ (∀ token ∈ keyTexts, mark ∉ token) ∧
      ∀ token ∈ [['('], [','], [')']], mark ∈ token → token = [mark] :=
    List.forall_mem_cons.mpr ⟨by decide, List.forall_mem_singleton.mpr (by decide)⟩
  obtain ⟨hblank, hkeyword, hkey, hother⟩ := hmarks mark hmark
  have htoken : ∀ token ∈ call.tokens, mark ∈ token → token = [mark] := by
    rw [Call.tokens, List.forall_mem_cons]
    exact ⟨fun hmem => absurd hmem (hkeyword _ call.op.keyword_mem),
      call.forall_argumentTokens hother fun token htoken hmem => absurd hmem (hkey token htoken)⟩
  obtain ⟨head, tail, first, rest, hmem, rfl, rfl, hfirst, hrest⟩ := exists_around h hblank
  have hone := htoken _ hmem (List.mem_append_right _ List.mem_cons_self)
  rcases List.append_eq_singleton_iff.mp hone with ⟨rfl, htail⟩ | ⟨-, htail⟩
  · obtain rfl := (List.cons.inj htail).2
    rw [List.append_nil]
    exact ⟨hfirst, hrest⟩
  · cases htail

/-- Between angle brackets stands a key, and around it all keys are sound. -/
theorem around_key {content : List Char} (hcontent : '>' ∉ content)
    (h : CallText call (front ++ '<' :: (content ++ '>' :: back))) :
    '<' :: content ++ ['>'] ∈ keyTexts ∧ PassesKeys front ∧ PassesKeys back := by
  have hkey : ∀ text ∈ keyTexts, ∃ inner, text = '<' :: (inner ++ ['>']) ∧ '<' ∉ inner ++ ['>'] ∧
      '>' ∉ inner := by
    have hall : ∀ text ∈ keyTexts, text = '<' :: (keyContent text ++ ['>']) ∧
        '<' ∉ keyContent text ++ ['>'] ∧ '>' ∉ keyContent text := by decide
    exact fun text htext => ⟨keyContent text, hall text htext⟩
  have hmarks : ∀ mark ∈ [['('], [','], [')']], '<' ∈ mark → mark ∈ keyTexts := by decide
  have hkeyword : ∀ keyword ∈ Operation.keywords, '<' ∉ keyword := by decide
  have htoken : ∀ token ∈ call.tokens, '<' ∈ token → token ∈ keyTexts := by
    rw [Call.tokens, List.forall_mem_cons]
    exact ⟨fun hmem => absurd hmem (hkeyword _ call.op.keyword_mem),
      call.forall_argumentTokens hmarks fun token htoken _ => htoken⟩
  obtain ⟨head, tail, first, rest, hmem, rfl, hback, hfirst, hrest⟩ := exists_around h (by decide)
  have hmem := htoken _ hmem (List.mem_append_right _ List.mem_cons_self)
  obtain ⟨inner, heq, hless, hgreater⟩ := hkey _ hmem
  obtain ⟨rfl, -, rfl⟩ := (List.append_cons_inj_of_notMem List.not_mem_nil hless).mp heq.symm
  rw [List.append_assoc, List.singleton_append] at hback
  obtain ⟨rfl, rfl⟩ := eq_of_append_cons_eq hcontent hgreater hback
  rw [List.append_nil]
  exact ⟨hmem, hfirst, hrest⟩

/-- In front of a character that is no letter a call has its name, and no letter
anywhere else. -/
theorem exists_name {c : Char} (h : CallText call (front ++ c :: back)) (hc : c.isAlpha = false) :
    ∃ gap, front = call.op.keyword.toList ++ gap ∧ gap.any Char.isAlpha = false ∧
      back.any Char.isAlpha = false := by
  have hkeyword : ∀ keyword ∈ Operation.keywords, keyword.all Char.isAlpha = true := by decide
  obtain ⟨gap, arguments, htext, hgap, harguments⟩ := h.exists_append
  have hrest := any_isAlpha_eq hgap harguments
  generalize gap ++ arguments = rest at htext hrest
  have hnotname : c ∉ call.op.keyword.toList := fun hmem => by
    rw [List.all_eq_true.mp (hkeyword _ call.op.keyword_mem) c hmem] at hc
    cases hc
  have hsplit : front ++ c :: back = call.op.keyword.toList ++ [] ++ rest := by
    rw [List.append_nil, htext]
  rcases token_or_text_of_append_eq List.not_mem_nil hsplit with ⟨tail, hname, -⟩ | ⟨inner, hfront, rfl⟩
  · exact absurd (hname ▸ List.mem_append_right _ List.mem_cons_self) hnotname
  · rw [List.append_nil] at hfront
    rw [List.any_append, List.any_cons, Bool.or_eq_false_iff, Bool.or_eq_false_iff] at hrest
    exact ⟨inner, hfront, hrest.1, hrest.2.2⟩

/-- Behind its name a call has no letter and sound keys only. -/
theorem behind_name (h : CallText call (call.op.keyword.toList ++ back)) :
    back.any Char.isAlpha = false ∧ PassesKeys back := by
  obtain ⟨gap, arguments, htext, hgap, harguments⟩ := h.exists_append
  obtain rfl := List.append_cancel_left htext
  have htokens := call.passes_keys_of_mem_tokens
  rw [Call.tokens, List.forall_mem_cons] at htokens
  exact ⟨any_isAlpha_eq hgap harguments, (passes_keys_of_inlineBlank hgap).append
    (harguments.passes (fun _ => passes_keys_of_inlineBlank) htokens.2)⟩

end CallText

end Summary
end TaintFlow
