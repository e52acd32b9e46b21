/-
What the scanners of strings and punctuation find.

There is one lemma for each scanner.  It says that the scanner succeeds exactly
where the grammar has a token, and that it stops where the token ends.
-/
import TaintFlow.Proofs.Json.Spelling

namespace TaintFlow
namespace Json

theorem literal_eq_ok_iff {word text rest : Input} :
    literal word text = .ok rest ↔ text = word ++ rest := by
  fun_induction literal word text with
  | case1 text => rw [Except.ok.injEq, List.nil_append]
  | case2 w word => simp
  | case3 w word text ih => rw [ih, List.cons_append, List.cons.injEq, and_iff_right rfl]
  | case4 w word c text hne => simp [hne]

/-! ## Strings -/

theorem hexUnit_eq_ok_iff {n : Nat} {text rest : Input} :
    hexUnit text = .ok (n, rest) ↔ UnitText n text rest := by
  constructor
  · intro h
    unfold hexUnit at h
    split at h
    · split at h
      · next ha hb hc hd =>
        cases h
        exact .digits ha hb hc hd
      · cases h
    · cases h
  · rintro ⟨ha, hb, hc, hd⟩
    rw [hexUnit, ha, hb, hc, hd]

theorem lowSurrogate_eq_ok_iff {high : Nat} {c : Char} {text rest : Input} :
    lowSurrogate high text = .ok (c, rest) ↔
      ∃ low next, text = '\\' :: 'u' :: next ∧ UnitText low next rest ∧
        isLowSurrogate low = true ∧ c = pairChar high low := by
  constructor
  · intro h
    unfold lowSurrogate at h
    split at h
    · cases h
    · cases h
    · next next =>
      split at h
      · cases h
      · next low _ hunit =>
        split at h
        · next hlow =>
          simp only [Except.ok.injEq, Prod.mk.injEq] at h
          obtain ⟨rfl, rfl⟩ := h
          exact ⟨low, next, rfl, hexUnit_eq_ok_iff.mp hunit, hlow, rfl⟩
        · cases h
    · cases h
    · cases h
  · rintro ⟨low, next, rfl, hunit, hlow, hc⟩
    rw [lowSurrogate, hexUnit_eq_ok_iff.mpr hunit, hc]
    simp [hlow]

/-- No code unit is both halves of a pair. -/
theorem isLowSurrogate_of_high {n : Nat} (h : isHighSurrogate n = true) :
    isLowSurrogate n = false := by
  simp only [isHighSurrogate, isLowSurrogate, Bool.and_eq_true, decide_eq_true_eq,
    Bool.and_eq_false_iff, decide_eq_false_iff_not] at h ⊢
  omega

theorem simpleEscape?_u : simpleEscape? 'u' = none := rfl

theorem unicodeEscape_eq_ok_iff {c : Char} {text rest : Input} :
    unicodeEscape text = .ok (c, rest) ↔ CharText c ('\\' :: 'u' :: text) rest := by
  constructor
  · intro h
    unfold unicodeEscape at h
    split at h
    · cases h
    · next n next hunit =>
      have hunit := hexUnit_eq_ok_iff.mp hunit
      split at h
      · cases h
      · next hlow =>
        split at h
        · next hhigh =>
          obtain ⟨low, tail, rfl, htail, hlow, hc⟩ := lowSurrogate_eq_ok_iff.mp h
          rw [hc]
          exact .pair hunit htail hhigh hlow
        · next hhigh =>
          cases h
          exact .unit hunit (Bool.eq_false_iff.mpr hlow) (Bool.eq_false_iff.mpr hhigh)
  · intro h
    cases h with
    | plain _ hslash _ => exact absurd rfl hslash
    | escape hc => cases simpleEscape?_u.symm.trans hc
    | unit hunit hlow hhigh =>
      rw [unicodeEscape, hexUnit_eq_ok_iff.mpr hunit]
      simp [hlow, hhigh]
    | @pair high low _ next _ hunit hnext hhigh hlow =>
      have hsecond : lowSurrogate high ('\\' :: 'u' :: next) = .ok (pairChar high low, rest) :=
        lowSurrogate_eq_ok_iff.mpr ⟨low, next, rfl, hnext, hlow, rfl⟩
      rw [unicodeEscape, hexUnit_eq_ok_iff.mpr hunit]
      simp [isLowSurrogate_of_high hhigh, hhigh, hsecond]

theorem escapedChar_eq_ok_iff {c : Char} {text rest : Input} :
    escapedChar text = .ok (c, rest) ↔ CharText c ('\\' :: text) rest := by
  unfold escapedChar
  split
  · constructor
    · intro h
      cases h
    · intro h
      cases h with
      | plain _ hslash _ => exact absurd rfl hslash
  · exact unicodeEscape_eq_ok_iff
  · next e tail hu =>
    constructor
    · intro h
      split at h
      · next he =>
        cases h
        exact .escape he
      · cases h
    · intro h
      cases h with
      | plain _ hslash _ => exact absurd rfl hslash
      | escape he => rw [he]
      | unit => exact absurd rfl hu
      | pair => exact absurd rfl hu

/-- A character stands as it is, or a backslash is before it. -/
theorem CharText.plain_or_escaped {c : Char} {text rest : Input} (h : CharText c text rest) :
    (c ≠ '"' ∧ c ≠ '\\' ∧ isControl c = false ∧ text = c :: rest) ∨
      ∃ tail, text = '\\' :: tail ∧ escapedChar tail = .ok (c, rest) := by
  cases h with
  | plain hquote hslash hcontrol => exact .inl ⟨hquote, hslash, hcontrol, rfl⟩
  | escape hc => exact .inr ⟨_, rfl, escapedChar_eq_ok_iff.mpr (.escape hc)⟩
  | unit hunit hlow hhigh =>
    exact .inr ⟨_, rfl, escapedChar_eq_ok_iff.mpr (.unit hunit hlow hhigh)⟩
  | pair htext hnext hhigh hlow =>
    exact .inr ⟨_, rfl, escapedChar_eq_ok_iff.mpr (.pair htext hnext hhigh hlow)⟩

theorem stringRest_eq_ok_iff {cs : List Char} {text rest : Input} :
    stringRest text = .ok (cs, rest) ↔ StringText cs text rest := by
  constructor
  · intro h
    fun_induction stringRest text generalizing cs rest with
    | case1 => cases h
    | case2 => cases h; exact .close
    | case3 => cases h
    | case4 => cases h
    | case5 text c next hc cs left hnext ih =>
      cases h
      exact .char (escapedChar_eq_ok_iff.mp hc) (ih hnext)
    | case6 => cases h
    | case7 => cases h
    | case8 c text hquote hslash hcontrol cs left hnext ih =>
      cases h
      exact .char (.plain hquote hslash (Bool.eq_false_iff.mpr hcontrol)) (ih hnext)
  · intro h
    induction h with
    | close => rw [stringRest]
    | char hchar _ ih =>
      rcases hchar.plain_or_escaped with ⟨hquote, hslash, hcontrol, rfl⟩ | ⟨tail, rfl, htail⟩
      · rw [stringRest.eq_4 _ _ hquote hslash, ih]
        simp [hcontrol]
      · rw [stringRest]
        split
        · next heq => simp [htail] at heq
        · next heq =>
          cases htail.symm.trans heq
          rw [ih]

/-- A loose escape is a letter that stands for a character, or a code unit. -/
theorem skipEscape_eq_ok_iff {text rest : Input} :
    skipEscape text = .ok rest ↔
      (∃ c d, simpleEscape? c = some d ∧ text = c :: rest) ∨
        ∃ n next, text = 'u' :: next ∧ UnitText n next rest := by
  unfold skipEscape
  split
  · simp
  · next tail =>
    constructor
    · intro h
      split at h
      · cases h
      · next hunit =>
        cases h
        exact .inr ⟨_, tail, rfl, hexUnit_eq_ok_iff.mp hunit⟩
    · rintro (⟨c, d, hc, heq⟩ | ⟨n, next, heq, hunit⟩)
      · rw [← (List.cons.inj heq).1, simpleEscape?_u] at hc
        cases hc
      · obtain ⟨-, rfl⟩ := List.cons.inj heq
        rw [hexUnit_eq_ok_iff.mpr hunit]
  · next e tail hu =>
    constructor
    · intro h
      split at h
      · next d he =>
        cases h
        exact .inl ⟨e, d, he, rfl⟩
      · cases h
    · rintro (⟨c, d, hc, heq⟩ | ⟨n, next, heq, _⟩)
      · obtain ⟨rfl, rfl⟩ := List.cons.inj heq
        rw [hc]
      · exact absurd (List.cons.inj heq).1 hu

theorem skipString_eq_ok_iff {text rest : Input} :
    skipString text = .ok rest ↔ LooseText text rest := by
  constructor
  · intro h
    fun_induction skipString text with
    | case1 => cases h
    | case2 => cases h; exact .close
    | case3 => cases h
    | case4 text next hescape ih =>
      rcases skipEscape_eq_ok_iff.mp hescape with ⟨c, d, hc, rfl⟩ | ⟨n, next, rfl, hunit⟩
      · exact .escape hc (ih h)
      · exact .unit hunit (ih h)
    | case5 => cases h
    | case6 c text hquote hslash hcontrol ih =>
      exact .plain hquote hslash (Bool.eq_false_iff.mpr hcontrol) (ih h)
  · intro h
    have hbackslash : ∀ {text next : Input}, skipEscape text = .ok next →
        skipString next = .ok rest → skipString ('\\' :: text) = .ok rest := by
      intro text next hescape hnext
      rw [skipString]
      split
      · next heq => simp [hescape] at heq
      · next heq =>
        cases hescape.symm.trans heq
        exact hnext
    induction h with
    | close => rw [skipString]
    | plain hquote hslash hcontrol _ ih =>
      rw [skipString.eq_4 _ _ hquote hslash, ih hbackslash]
      simp [hcontrol]
    | escape hc _ ih =>
      exact hbackslash (skipEscape_eq_ok_iff.mpr (.inl ⟨_, _, hc, rfl⟩)) (ih hbackslash)
    | unit hunit _ ih =>
      exact hbackslash (skipEscape_eq_ok_iff.mpr (.inr ⟨_, _, rfl, hunit⟩)) (ih hbackslash)

/-! ## Punctuation -/

theorem colon_eq_ok_iff {text rest : Input} :
    colon text = .ok rest ↔ skipSpace text = ':' :: rest := by
  unfold colon
  split
  · next heq => simp [heq]
  · next tail heq => simp [heq]
  · next left _ hcolon =>
    constructor
    · intro h
      cases h
    · intro h
      exact absurd h (hcolon rest)

theorem keyHere_eq_ok_iff {key : String} {text rest : Input} :
    keyHere (skipSpace text) = .ok (.more key rest) ↔ KeyText key text rest := by
  constructor
  · intro h
    unfold keyHere at h
    split at h
    · next hquote =>
      split at h
      · cases h
      · next hs =>
        cases h
        exact .quoted hquote (stringRest_eq_ok_iff.mp hs)
    · cases h
  · rintro ⟨hquote, h⟩
    rw [hquote, keyHere, stringRest_eq_ok_iff.mpr h]

theorem keyHere_ne_close {text rest : Input} : keyHere text ≠ .ok (.close rest) := by
  intro h
  unfold keyHere at h
  split at h
  · split at h <;> cases h
  · cases h

theorem nextKey_eq_close_iff {first : Bool} {text left : Input} :
    nextKey first text = .ok (.close left) ↔
      ∃ rest, left = '\x7d' :: rest ∧ skipSpace text = '\x7d' :: rest := by
  constructor
  · intro h
    unfold nextKey at h
    split at h
    · cases h
    · next rest heq =>
      cases h
      exact ⟨rest, rfl, heq⟩
    · split at h
      · exact absurd h keyHere_ne_close
      · split at h
        · split at h
          · cases h
          · cases h
          · exact absurd h keyHere_ne_close
        · cases h
  · rintro ⟨rest, rfl, heq⟩
    simp [nextKey, heq]

theorem nextKey_eq_more_iff {first : Bool} {key : String} {text rest : Input} :
    nextKey first text = .ok (.more key rest) ↔
      ∃ item, NextText first text item ∧ KeyText key item rest := by
  constructor
  · intro h
    unfold nextKey at h
    split at h
    · cases h
    · cases h
    · next c tail _ heq =>
      split at h
      · next hfirst =>
        rw [hfirst, ← heq] at *
        exact ⟨text, .first, keyHere_eq_ok_iff.mp h⟩
      · next hfirst =>
        rw [Bool.not_eq_true] at hfirst
        rw [hfirst]
        split at h
        · next hcomma =>
          rw [hcomma] at heq
          split at h
          · cases h
          · cases h
          · exact ⟨tail, .comma heq, keyHere_eq_ok_iff.mp h⟩
        · cases h
  · rintro ⟨item, hitem, hkey⟩
    have hhere := keyHere_eq_ok_iff.mpr hkey
    obtain ⟨hquote, -⟩ := hkey
    rw [hquote] at hhere
    cases hitem with
    | first => simp [nextKey, hquote, hhere]
    | comma hcomma => simp [nextKey, hcomma, hquote, hhere]

theorem nextItem_eq_close_iff {first : Bool} {text left : Input} :
    nextItem first text = .ok (.close left) ↔
      ∃ rest, left = ']' :: rest ∧ skipSpace text = ']' :: rest := by
  constructor
  · intro h
    unfold nextItem at h
    split at h
    · cases h
    · next rest heq =>
      cases h
      exact ⟨rest, rfl, heq⟩
    · split at h
      · cases h
      · split at h
        · split at h <;> cases h
        · cases h
  · rintro ⟨rest, rfl, heq⟩
    simp [nextItem, heq]

/-- The reading of an item starts at its first character. -/
theorem exists_nextText_of_nextItem {first : Bool} {text rest : Input}
    (h : nextItem first text = .ok (.more () rest)) :
    ∃ item, NextText first text item ∧ skipSpace item = rest := by
  unfold nextItem at h
  split at h
  · cases h
  · cases h
  · next c tail _ heq =>
    split at h
    · next hfirst =>
      cases h
      rw [hfirst]
      exact ⟨text, .first, heq⟩
    · next hfirst =>
      rw [Bool.not_eq_true] at hfirst
      rw [hfirst]
      split at h
      · next hcomma =>
        rw [hcomma] at heq
        split at h
        · cases h
        · cases h
        · cases h
          exact ⟨tail, .comma heq, rfl⟩
      · cases h

theorem closeList_eq_ok_iff {text rest : Input} :
    closeList text = .ok rest ↔ skipSpace text = ']' :: rest := by
  constructor
  · intro h
    unfold closeList at h
    split at h
    · cases h
    · next heq =>
      cases h
      exact heq
    · split at h <;> cases h
    · cases h
  · intro h
    simp [closeList, h]

end Json
end TaintFlow
