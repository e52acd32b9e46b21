/-
The scanners search for matches.

A search goes over a text from left to right.  At the first place where there is a match
it takes the match, as long as it can be, and goes on behind it (`matchesFrom`).  The
scanners go over a line once and never back.  Still they find what a search does, for
text in angle brackets (`keySpans_eq_matches`) and for runs of letters
(`wordSpans_eq_matches`).
-/
import TaintFlow.Proofs.Summary.Spans
import TaintFlow.Proofs.Summary.WordPlaces

namespace TaintFlow
namespace Summary

/-! ## Searching -/

/-- The length of the match at the front of a text, if there is one. -/
abbrev Matcher := List Char → Option Nat

/-- The matches in a text that starts at `column`.  Its first `taken` characters belong
to a match that has been found. -/
def matchesFrom (matcher : Matcher) (column : Nat) : (taken : Nat) → List Char → List Span
  | _, [] => []
  | taken + 1, _ :: text => matchesFrom matcher (column + 1) taken text
  | 0, c :: text =>
    match matcher (c :: text) with
    | none => matchesFrom matcher (column + 1) 0 text
    | some length =>
      ⟨column, column + length⟩ :: matchesFrom matcher (column + 1) (length - 1) text

section

variable {matcher : Matcher}

theorem matchesFrom_taken (column : Nat) (text behind : List Char) :
    matchesFrom matcher column text.length (text ++ behind) =
      matchesFrom matcher (column + text.length) 0 behind := by
  induction text generalizing column with
  | nil => rfl
  | cons c text ih =>
    have hlength : column + (c :: text).length = column + 1 + text.length := by
      rw [List.length_cons]
      omega
    rw [List.length_cons, List.cons_append, matchesFrom, ih]
    exact congrArg (matchesFrom matcher · 0 behind) hlength.symm

theorem matchesFrom_of_none {c : Char} {text : List Char} (h : matcher (c :: text) = none)
    (column : Nat) :
    matchesFrom matcher column 0 (c :: text) = matchesFrom matcher (column + 1) 0 text := by
  rw [matchesFrom, h]

/-- A match at the front is taken, and the search goes on behind it. -/
theorem matchesFrom_of_some {text behind : List Char} (hne : text ≠ [])
    (h : matcher (text ++ behind) = some text.length) (column : Nat) :
    matchesFrom matcher column 0 (text ++ behind) =
      ⟨column, column + text.length⟩ ::
        matchesFrom matcher (column + text.length) 0 behind := by
  obtain ⟨c, rest, rfl⟩ := List.exists_cons_of_ne_nil hne
  have hlength : column + 1 + rest.length = column + (c :: rest).length := by
    rw [List.length_cons]
    omega
  rw [List.cons_append] at h ⊢
  rw [matchesFrom, h]
  show _ :: matchesFrom matcher (column + 1) rest.length (rest ++ behind) = _
  rw [matchesFrom_taken, hlength]

/-- A scanner searches if it steps over each character where there is no
match, and takes the match where there is one. -/
structure Searches (scan : Nat → List Char → List Span) (matcher : Matcher) : Prop where
  nil : ∀ column, scan column [] = []
  step : ∀ column c text, matcher (c :: text) = none →
    scan column (c :: text) = scan (column + 1) text
  take : ∀ column text length, matcher text = some length →
    ∃ front behind, text = front ++ behind ∧ front ≠ [] ∧ front.length = length ∧
      scan column text = ⟨column, column + length⟩ :: scan (column + length) behind

/- The induction is on the length of the text, since a match is taken as a whole. -/
theorem Searches.eq_matchesFrom {scan : Nat → List Char → List Span} (h : Searches scan matcher)
    (column : Nat) (text : List Char) : scan column text = matchesFrom matcher column 0 text := by
  induction hlength : text.length using Nat.strongRecOn generalizing column text with
  | ind _ ih =>
    subst hlength
    cases text with
    | nil => exact h.nil column
    | cons c text =>
      cases hmatch : matcher (c :: text) with
      | none =>
        rw [h.step column c text hmatch, matchesFrom_of_none hmatch]
        exact ih text.length (Nat.lt_succ_self _) (column + 1) text rfl
      | some length =>
        obtain ⟨front, behind, htext, hne, rfl, hscan⟩ := h.take column _ length hmatch
        have hshorter : behind.length < (c :: text).length := by
          have hpos := List.length_pos_iff.mpr hne
          rw [htext, List.length_append]
          omega
        rw [hscan, ih behind.length hshorter _ behind rfl]
        rw [htext] at hmatch ⊢
        exact (matchesFrom_of_some hne hmatch column).symm

end

/-! ## Keys -/

/-- A key at the front: brackets, and between them at least one character, but no
closing bracket. -/
def keyMatch? : Matcher
  | '<' :: rest =>
    let content := rest.takeWhile (· ≠ '>')
    if content ≠ [] ∧ '>' ∈ rest then some (content.length + 2) else none
  | _ => none

theorem keyMatch?_of_ne {c : Char} (h : c ≠ '<') (rest : List Char) :
    keyMatch? (c :: rest) = none := by
  unfold keyMatch?
  split
  · next heq => exact absurd (List.cons.inj heq).1 h
  · rfl

/-- Behind an opening bracket there is no closing one, or it follows at once, or there is
a key. -/
theorem keyMatch?_cases (rest : List Char) :
    ('>' ∉ rest ∧ keyMatch? ('<' :: rest) = none) ∨
    (∃ behind, rest = '>' :: behind ∧ keyMatch? ('<' :: rest) = none) ∨
    ∃ content behind, rest = content ++ '>' :: behind ∧ content ≠ [] ∧ '>' ∉ content ∧
      keyMatch? ('<' :: rest) = some (content.length + 2) := by
  by_cases hmem : '>' ∈ rest
  case neg => exact .inl ⟨hmem, if_neg fun hkey => hmem hkey.2⟩
  case pos =>
    obtain ⟨content, behind, rfl, hcontent⟩ := List.eq_append_cons_of_mem hmem
    have hall : ∀ c ∈ content, decide (c ≠ '>') = true := fun c hc =>
      decide_eq_true fun heq => hcontent (heq ▸ hc)
    have htake : (content ++ '>' :: behind).takeWhile (· ≠ '>') = content := by
      rw [List.takeWhile_append_of_pos hall]
      exact List.append_nil content
    have hmatch : keyMatch? ('<' :: (content ++ '>' :: behind)) =
        if content ≠ [] then some (content.length + 2) else none := by
      simp only [keyMatch?, htake, hmem, and_true]
    cases content with
    | nil => exact .inr (.inl ⟨behind, rfl, hmatch⟩)
    | cons c content =>
      exact .inr (.inr ⟨c :: content, behind, rfl, List.cons_ne_nil c content, hcontent,
        hmatch.trans (if_pos (List.cons_ne_nil c content))⟩)

/-- Without a closing bracket no key is found. -/
theorem keySpansFrom_of_not_mem {text : List Char} (h : '>' ∉ text) (column : Nat)
    (opened : Option Nat) : keySpansFrom column opened text = [] := by
  induction text generalizing column opened with
  | nil => rfl
  | cons c text ih =>
    rw [List.mem_cons, not_or] at h
    by_cases hless : c = '<'
    · rw [hless]
      exact ih h.2 (column + 1) (opened.or (some column))
    · rw [keySpansFrom_step hless (Ne.symm h.1)]
      exact ih h.2 (column + 1) opened

theorem searches_keySpansFrom : Searches (fun column => keySpansFrom column none) keyMatch? where
  nil _ := rfl
  step column c text hnone := by
    by_cases hless : c = '<'
    case neg =>
      by_cases hgreater : c = '>'
      · rw [hgreater]
        rfl
      · exact keySpansFrom_step hless hgreater column none text
    case pos =>
      subst hless
      rcases keyMatch?_cases text with ⟨hmem, -⟩ | ⟨behind, rfl, -⟩ | ⟨_, _, _, _, _, hsome⟩
      · show keySpansFrom (column + 1) (some column) text = keySpansFrom (column + 1) none text
        rw [keySpansFrom_of_not_mem hmem, keySpansFrom_of_not_mem hmem]
      · show keySpansFrom (column + 1) (some column) ('>' :: behind) =
          keySpansFrom (column + 2) none behind
        rw [keySpansFrom_greater, closeKey, if_neg (Nat.lt_irrefl _), List.nil_append]
      · cases hnone.symm.trans hsome
  take column text length hsome := by
    cases text with
    | nil => cases hsome
    | cons c rest =>
      by_cases hless : c = '<'
      case neg => cases (keyMatch?_of_ne hless rest).symm.trans hsome
      case pos =>
        subst hless
        rcases keyMatch?_cases rest with
          ⟨-, hnone⟩ | ⟨_, -, hnone⟩ | ⟨content, behind, rfl, hne, hcontent, hmatch⟩
        · cases hnone.symm.trans hsome
        · cases hnone.symm.trans hsome
        · have hkey : '<' :: (content ++ '>' :: behind) = '<' :: content ++ ['>'] ++ behind := by
            rw [List.append_assoc, List.singleton_append, List.cons_append]
          have hlength : ('<' :: content ++ ['>']).length = length := by
            rw [List.length_append, List.length_cons, List.length_singleton]
            exact Option.some.inj (hmatch.symm.trans hsome)
          refine ⟨'<' :: content ++ ['>'], behind, hkey, List.cons_ne_nil _ _, hlength, ?_⟩
          rw [hkey, keySpansFrom_key hne hcontent, hlength]

/-- The keys of a line are the matches of a search for keys. -/
theorem keySpans_eq_matches (line : List Char) :
    keySpans line = matchesFrom keyMatch? 0 0 line :=
  searches_keySpansFrom.eq_matchesFrom 0 line

/-! ## Words -/

/-- A run of letters at the front, as long as it goes. -/
def wordMatch? : Matcher := fun text =>
  let letters := text.takeWhile Char.isAlpha
  if letters ≠ [] then some letters.length else none

theorem searches_wordSpansFrom :
    Searches (fun column => wordSpansFrom column none) wordMatch? where
  nil _ := rfl
  step column c text hnone := by
    refine wordSpansFrom_step (Bool.eq_false_iff.mpr fun hc => ?_) column text
    rw [wordMatch?, List.takeWhile_cons_of_pos hc, if_pos (List.cons_ne_nil _ _)] at hnone
    cases hnone
  take column text length hsome := by
    have hne : text.takeWhile Char.isAlpha ≠ [] := by
      intro hnil
      rw [wordMatch?, hnil] at hsome
      cases hsome
    rw [wordMatch?, if_pos hne] at hsome
    have htext : text = text.takeWhile Char.isAlpha ++ text.dropWhile Char.isAlpha :=
      List.takeWhile_append_dropWhile.symm
    have hbehind : ∀ c ∈ (text.dropWhile Char.isAlpha).head?, c.isAlpha = false := by
      intro c hc
      have hhead := List.head?_dropWhile_not Char.isAlpha text
      rw [Option.mem_def.mp hc] at hhead
      exact hhead
    have hword : WordBetween [] (text.takeWhile Char.isAlpha) (text.dropWhile Char.isAlpha) :=
      ⟨hne, List.all_eq_true.mp List.all_takeWhile, fun c hc => absurd hc (Option.not_mem_none c),
        hbehind⟩
    refine ⟨_, _, htext, hne, Option.some.inj hsome, ?_⟩
    show wordSpansFrom column none text = _
    rw [← Option.some.inj hsome, ← wordSpansFrom_word hword, ← htext]

/-- The words of a line are the matches of a search for letters. -/
theorem wordSpans_eq_matches (line : List Char) :
    wordSpans line = matchesFrom wordMatch? 0 0 line :=
  searches_wordSpansFrom.eq_matchesFrom 0 line

end Summary
end TaintFlow
