/-
What skipping a value takes.

Skipping is a loop with a stack of open brackets, and the grammar is a tree.
`Closes` and `Completes` say what a stage of the loop still has to find, as a
list of parts of the grammar, one for each open bracket.  A run of the loop finds
all of them, and conversely a part of the grammar brings the loop from its start
to its end (`Skips`).  So a value is skipped exactly when the grammar has it
(`skipValue_eq_ok_iff`).
-/
import TaintFlow.Proofs.Json.Numerals
import TaintFlow.Proofs.Json.Scanning

namespace TaintFlow
namespace Json

theorem skipSpace_skipSpace (text : Input) : skipSpace (skipSpace text) = skipSpace text := by
  have hnot := List.head?_dropWhile_not isSpace text
  unfold skipSpace
  cases h : text.dropWhile isSpace with
  | nil => rfl
  | cons c rest =>
    rw [h] at hnot
    exact List.dropWhile_cons_of_neg (Bool.eq_false_iff.mp hnot)

/-! ## The first character of a value -/

theorem NumeralText.startsNumeral {n : Numeral} {text rest : Input} (h : NumeralText n text rest) :
    ∃ c tail, text = c :: tail ∧ startsNumeral c = true := by
  cases h with
  | positive _ h =>
    obtain ⟨c, tail, rfl, hc⟩ := h.exists_digit
    exact ⟨c, tail, rfl, by rw [Json.startsNumeral, hc, Bool.or_true]⟩
  | negative => exact ⟨'-', _, rfl, rfl⟩

/-- A character that a numeral starts with starts no other value, and is neither
a blank nor a bracket. -/
theorem ne_of_startsNumeral {c d : Char} (hc : startsNumeral c = true)
    (hd : startsNumeral d = false) : c ≠ d := by
  rintro rfl
  rw [hc] at hd
  cases hd

/-- A value starts with a character that is neither a blank nor a closing
bracket. -/
theorem Spelled.value_head {text rest : Input} (h : Spelled .value text rest) (bracket : Bracket) :
    ∃ c tail, text = c :: tail ∧ isSpace c = false ∧ c ≠ bracket.closing := by
  cases h with
  | word h =>
    simp only [words, List.mem_cons, List.not_mem_nil, or_false] at h
    rcases h with rfl | rfl | rfl
    · exact ⟨'n', _, rfl, rfl, by cases bracket <;> decide⟩
    · exact ⟨'t', _, rfl, rfl, by cases bracket <;> decide⟩
    · exact ⟨'f', _, rfl, rfl, by cases bracket <;> decide⟩
  | numeral h =>
    obtain ⟨c, tail, rfl, hc⟩ := h.startsNumeral
    refine ⟨c, tail, rfl, ?_, ne_of_startsNumeral hc (by cases bracket <;> decide)⟩
    simp only [isSpace, Bool.or_eq_false_iff, beq_eq_false_iff_ne]
    exact ⟨⟨⟨ne_of_startsNumeral hc rfl, ne_of_startsNumeral hc rfl⟩,
      ne_of_startsNumeral hc rfl⟩, ne_of_startsNumeral hc rfl⟩
  | string => exact ⟨'"', _, rfl, rfl, by cases bracket <;> decide⟩
  | @empty other =>
    exact ⟨other.opening, _, rfl, by cases other <;> rfl, by cases other <;> cases bracket <;> decide⟩
  | @filled other =>
    exact ⟨other.opening, _, rfl, by cases other <;> rfl, by cases other <;> cases bracket <;> decide⟩

/-- An item starts with a character that is no closing bracket. -/
theorem Spelled.item_head {bracket : Bracket} {text rest : Input}
    (h : Spelled (.item bracket) text rest) :
    ∃ c tail, skipSpace text = c :: tail ∧ c ≠ bracket.closing := by
  cases h with
  | item h =>
    obtain ⟨c, tail, heq, -, hc⟩ := h.value_head .square
    exact ⟨c, tail, heq, hc⟩
  | entry hquote => exact ⟨'"', _, hquote, by decide⟩

/-- There need not be blanks before a value. -/
theorem Spelled.valueText {text rest : Input} (h : Spelled .value text rest) :
    ValueText text rest := by
  obtain ⟨c, tail, rfl, hc, -⟩ := h.value_head .square
  refine .item ?_
  rw [skipSpace, List.dropWhile_cons_of_neg (Bool.eq_false_iff.mp hc)]
  exact h

/-! ## Scalars and items -/

theorem skipScalar_eq_ok_iff {text rest : Input}
    (hopen : ∀ (bracket : Bracket) tail, text ≠ bracket.opening :: tail) :
    skipScalar text = .ok rest ↔ Spelled .value text rest := by
  constructor
  · intro h
    unfold skipScalar at h
    split at h
    · rw [literal_eq_ok_iff.mp h]
      exact @Spelled.word "null".toList _ (by simp [words])
    · rw [literal_eq_ok_iff.mp h]
      exact @Spelled.word "true".toList _ (by simp [words])
    · rw [literal_eq_ok_iff.mp h]
      exact @Spelled.word "false".toList _ (by simp [words])
    · exact .string (skipString_eq_ok_iff.mp h)
    · cases h
    · split at h
      · split at h
        · cases h
        · next hn =>
          cases h
          exact .numeral (numeral_eq_ok_iff.mp hn)
      · cases h
  · intro h
    cases h with
    | word h =>
      simp only [words, List.mem_cons, List.not_mem_nil, or_false] at h
      rcases h with rfl | rfl | rfl
      · exact literal_eq_ok_iff.mpr rfl
      · exact literal_eq_ok_iff.mpr rfl
      · exact literal_eq_ok_iff.mpr rfl
    | numeral h =>
      obtain ⟨c, tail, rfl, hc⟩ := h.startsNumeral
      rw [skipScalar.eq_6 _ _ (ne_of_startsNumeral hc rfl) (ne_of_startsNumeral hc rfl)
        (ne_of_startsNumeral hc rfl) (ne_of_startsNumeral hc rfl)]
      simp [hc, numeral_eq_ok_iff.mpr h]
    | string h => exact skipString_eq_ok_iff.mpr h
    | empty => exact absurd rfl (hopen _ _)
    | filled => exact absurd rfl (hopen _ _)

theorem skipKey_eq_ok_iff {text value : Input} :
    skipKey text = .ok value ↔
      ∃ key next, skipSpace text = '"' :: key ∧ LooseText key next ∧
        skipSpace next = ':' :: value := by
  constructor
  · intro h
    unfold skipKey at h
    split at h
    · cases h
    · next key hquote =>
      split at h
      · cases h
      · next next hkey =>
        exact ⟨key, next, hquote, skipString_eq_ok_iff.mp hkey, colon_eq_ok_iff.mp h⟩
    · cases h
  · rintro ⟨key, next, hquote, hkey, hcolon⟩
    simp [skipKey, hquote, skipString_eq_ok_iff.mpr hkey, colon_eq_ok_iff.mpr hcolon]

theorem spelled_item_iff {bracket : Bracket} {text rest : Input} :
    Spelled (.item bracket) text rest ↔
      ∃ value, enterItem bracket text = .ok value ∧ ValueText value rest := by
  cases bracket with
  | square => simp [enterItem]
  | curly =>
    constructor
    · intro h
      cases h with
      | entry hquote hkey hcolon hvalue =>
        exact ⟨_, skipKey_eq_ok_iff.mpr ⟨_, _, hquote, hkey, hcolon⟩, hvalue⟩
    · rintro ⟨value, henter, hvalue⟩
      obtain ⟨key, next, hquote, hkey, hcolon⟩ := skipKey_eq_ok_iff.mp henter
      exact .entry hquote hkey hcolon hvalue

theorem spelled_item_skipSpace_iff {bracket : Bracket} {text rest : Input} :
    Spelled (.item bracket) (skipSpace text) rest ↔ Spelled (.item bracket) text rest := by
  constructor
  · intro h
    cases h with
    | item h => exact .item (skipSpace_skipSpace text ▸ h)
    | entry hquote hkey hcolon hvalue =>
      exact .entry (skipSpace_skipSpace text ▸ hquote) hkey hcolon hvalue
  · intro h
    cases h with
    | item h => exact .item ((skipSpace_skipSpace text).symm ▸ h)
    | entry hquote hkey hcolon hvalue =>
      exact .entry ((skipSpace_skipSpace text).trans hquote) hkey hcolon hvalue

/-! ## Turns of the loop -/

theorem enterBracket_eq_close_iff {bracket : Bracket} {text rest : Input} :
    enterBracket bracket text = .ok (.close rest) ↔ skipSpace text = bracket.closing :: rest := by
  unfold enterBracket
  split
  · next heq => simp [heq]
  · next c tail heq =>
    by_cases hc : c = bracket.closing
    · simp [heq, hc]
    · rw [if_neg hc, heq]
      constructor
      · intro h
        split at h <;> cases h
      · intro h
        exact absurd (List.cons.inj h).1 hc

theorem enterBracket_eq_more_iff {bracket : Bracket} {text value : Input} :
    enterBracket bracket text = .ok (.more () value) ↔
      (∃ c tail, skipSpace text = c :: tail ∧ c ≠ bracket.closing) ∧
        enterItem bracket (skipSpace text) = .ok value := by
  unfold enterBracket
  split
  · next heq => simp [heq]
  · next c tail heq =>
    by_cases hc : c = bracket.closing
    · simp [heq, hc]
    · rw [if_neg hc, heq, and_iff_right ⟨c, tail, rfl, hc⟩]
      cases enterItem bracket (c :: tail) <;> simp

theorem leaveItem_eq_close_iff {bracket : Bracket} {text rest : Input} :
    leaveItem bracket text = .ok (.close rest) ↔ skipSpace text = bracket.closing :: rest := by
  unfold leaveItem
  split
  · next heq => simp [heq]
  · next c tail heq =>
    by_cases hc : c = bracket.closing
    · simp [heq, hc]
    · rw [if_neg hc, heq]
      constructor
      · intro h
        split at h
        · split at h <;> cases h
        · cases h
      · intro h
        exact absurd (List.cons.inj h).1 hc

theorem leaveItem_eq_more_iff {bracket : Bracket} {text value : Input} :
    leaveItem bracket text = .ok (.more () value) ↔
      ∃ item, skipSpace text = ',' :: item ∧ enterItem bracket item = .ok value := by
  have hcomma : ',' ≠ bracket.closing := by cases bracket <;> decide
  unfold leaveItem
  split
  · next heq => simp [heq]
  · next c tail heq =>
    by_cases hc : c = ','
    · rw [if_neg (hc ▸ hcomma), if_pos hc, heq, hc]
      cases henter : enterItem bracket tail <;> simp [henter]
    · rw [if_neg hc]
      split <;> simp [heq, hc]

theorem skipFrom_bracket {bracket : Bracket} {stack : List Bracket} {text body : Input}
    (h : skipSpace text = bracket.opening :: body) :
    skipFrom .before stack text =
      match enterBracket bracket body with
      | .error fault => .error fault
      | .ok (.close rest) => skipFrom .behind stack rest
      | .ok (.more _ rest) => skipFrom .before (bracket :: stack) rest := by
  rw [skipFrom]
  cases bracket with
  | square =>
    split
    · next rest heq =>
      obtain ⟨-, rfl⟩ := List.cons.inj (heq.symm.trans h)
      split <;> simp [*]
    · next heq => cases (List.cons.inj (heq.symm.trans h)).1
    · next hsquare _ => exact absurd h (hsquare _)
  | curly =>
    split
    · next heq => cases (List.cons.inj (heq.symm.trans h)).1
    · next rest heq =>
      obtain ⟨-, rfl⟩ := List.cons.inj (heq.symm.trans h)
      split <;> simp [*]
    · next hcurly => exact absurd h (hcurly _)

theorem skipFrom_scalar {stack : List Bracket} {text : Input}
    (h : ∀ (bracket : Bracket) tail, skipSpace text ≠ bracket.opening :: tail) :
    skipFrom .before stack text =
      match skipScalar (skipSpace text) with
      | .error fault => .error fault
      | .ok rest => skipFrom .behind stack rest := by
  rw [skipFrom]
  split
  · next heq => exact absurd heq (h .square _)
  · next heq => exact absurd heq (h .curly _)
  · split <;> simp [*]

theorem skipFrom_behind_cons {bracket : Bracket} {stack : List Bracket} {text : Input} :
    skipFrom .behind (bracket :: stack) text =
      match leaveItem bracket text with
      | .error fault => .error fault
      | .ok (.close rest) => skipFrom .behind stack rest
      | .ok (.more _ rest) => skipFrom .before (bracket :: stack) rest := by
  rw [skipFrom]
  split <;> simp [*]

/-! ## Runs of the loop -/

/-- What the open brackets still demand: for each, the text up to its end. -/
def Closes : List Bracket → Input → Input → Prop
  | [], text, rest => text = rest
  | bracket :: stack, text, rest =>
    ∃ next, Spelled (.tail bracket) text next ∧ Closes stack next rest

/-- What a stage of the loop still demands. -/
def Completes : Stage → List Bracket → Input → Input → Prop
  | .before, stack, text, rest => ∃ next, ValueText text next ∧ Closes stack next rest
  | .behind, stack, text, rest => Closes stack text rest

theorem valueText_of_enterBracket_close (bracket : Bracket) {text body rest : Input}
    (hopen : skipSpace text = bracket.opening :: body)
    (hclose : enterBracket bracket body = .ok (.close rest)) : ValueText text rest :=
  .item (hopen ▸ .empty (enterBracket_eq_close_iff.mp hclose))

theorem valueText_of_enterBracket_more (bracket : Bracket) {text body value next rest : Input}
    (hopen : skipSpace text = bracket.opening :: body)
    (hmore : enterBracket bracket body = .ok (.more () value)) (hvalue : ValueText value next)
    (htail : Spelled (.tail bracket) next rest) : ValueText text rest := by
  obtain ⟨-, henter⟩ := enterBracket_eq_more_iff.mp hmore
  have hitem := spelled_item_skipSpace_iff.mp (spelled_item_iff.mpr ⟨value, henter, hvalue⟩)
  exact .item (hopen ▸ .filled hitem htail)

/-- A run that ends finds all that its first stage demands. -/
theorem completes_of_skipFrom {stage : Stage} {stack : List Bracket} {text rest : Input}
    (h : skipFrom stage stack text = .ok rest) : Completes stage stack text rest := by
  fun_induction skipFrom stage stack text with
  | case1 => cases h
  | case2 text stack body hopen left hclose ih =>
    exact ⟨left, valueText_of_enterBracket_close .square hopen hclose, ih h⟩
  | case3 text stack body hopen u value hmore ih =>
    -- The first thing that the larger stack demands is the rest of this value.
    obtain ⟨next, hvalue, left, htail, hclose⟩ := ih h
    exact ⟨left, valueText_of_enterBracket_more .square hopen hmore hvalue htail, hclose⟩
  | case4 => cases h
  | case5 text stack body hopen left hclose ih =>
    exact ⟨left, valueText_of_enterBracket_close .curly hopen hclose, ih h⟩
  | case6 text stack body hopen u value hmore ih =>
    obtain ⟨next, hvalue, left, htail, hclose⟩ := ih h
    exact ⟨left, valueText_of_enterBracket_more .curly hopen hmore hvalue htail, hclose⟩
  | case7 => cases h
  | case8 text stack left hsquare hcurly hscalar ih =>
    refine ⟨left, .item ((skipScalar_eq_ok_iff fun bracket tail => ?_).mp hscalar), ih h⟩
    cases bracket with
    | square => exact hsquare tail
    | curly => exact hcurly tail
  | case9 text => exact Except.ok.inj h
  | case10 => cases h
  | case11 text bracket stack left hclose ih =>
    exact ⟨left, .close (leaveItem_eq_close_iff.mp hclose), ih h⟩
  | case12 text bracket stack u value hmore ih =>
    obtain ⟨next, hvalue, left, htail, hclose⟩ := ih h
    obtain ⟨item, hcomma, henter⟩ := leaveItem_eq_more_iff.mp hmore
    exact ⟨left, .more hcomma (spelled_item_iff.mpr ⟨value, henter, hvalue⟩) htail, hclose⟩

/-- How a part of the grammar brings the loop forward, from wherever the blanks
before it start. -/
def Skips : Part → Input → Input → Prop
  | .value, text, rest => ∀ start stack, skipSpace start = text →
      skipFrom .before stack start = skipFrom .behind stack rest
  | .item bracket, text, rest => ∀ start, skipSpace start = skipSpace text →
      ∃ value, enterItem bracket start = .ok value ∧
        ∀ stack, skipFrom .before stack value = skipFrom .behind stack rest
  | .tail bracket, text, rest => ∀ stack,
      skipFrom .behind (bracket :: stack) text = skipFrom .behind stack rest

theorem skips_scalar {text rest : Input}
    (hopen : ∀ (bracket : Bracket) tail, text ≠ bracket.opening :: tail)
    (h : Spelled .value text rest) : Skips .value text rest := by
  rintro start stack rfl
  rw [skipFrom_scalar hopen, (skipScalar_eq_ok_iff hopen).mpr h]

/-- Every part of the grammar brings the loop from its start to its end. -/
theorem Spelled.skips {part : Part} {text rest : Input} (h : Spelled part text rest) :
    Skips part text rest := by
  induction h with
  | word h =>
    refine skips_scalar (fun bracket tail heq => ?_) (.word h)
    simp only [words, List.mem_cons, List.not_mem_nil, or_false] at h
    rcases h with rfl | rfl | rfl <;> cases bracket <;> cases (List.cons.inj heq).1
  | numeral h =>
    refine skips_scalar (fun bracket tail heq => ?_) (.numeral h)
    obtain ⟨c, _, rfl, hc⟩ := h.startsNumeral
    exact ne_of_startsNumeral hc (by cases bracket <;> rfl) (List.cons.inj heq).1
  | string h =>
    refine skips_scalar (fun bracket tail heq => ?_) (.string h)
    cases bracket <;> cases (List.cons.inj heq).1
  | empty h =>
    intro start stack hstart
    rw [skipFrom_bracket hstart, enterBracket_eq_close_iff.mpr h]
  | @filled bracket text next rest hitem _ ihitem ihtail =>
    intro start stack hstart
    -- The bracket is entered at the first character behind the blanks.
    obtain ⟨value, henter, hvalue⟩ := ihitem (skipSpace text) (skipSpace_skipSpace text)
    rw [skipFrom_bracket hstart, enterBracket_eq_more_iff.mpr ⟨hitem.item_head, henter⟩]
    exact (hvalue _).trans (ihtail _)
  | item _ ih =>
    intro start hstart
    exact ⟨start, rfl, fun stack => ih start stack hstart⟩
  | entry hquote hkey hcolon _ ih =>
    intro start hstart
    obtain ⟨value, henter, hvalue⟩ := ih _ rfl
    cases henter
    exact ⟨_, skipKey_eq_ok_iff.mpr ⟨_, _, hstart.trans hquote, hkey, hcolon⟩, hvalue⟩
  | close h =>
    intro stack
    rw [skipFrom_behind_cons, leaveItem_eq_close_iff.mpr h]
  | more hcomma _ _ ihitem ihtail =>
    intro stack
    obtain ⟨value, henter, hvalue⟩ := ihitem _ rfl
    rw [skipFrom_behind_cons, leaveItem_eq_more_iff.mpr ⟨_, hcomma, henter⟩]
    exact (hvalue _).trans (ihtail _)

/-- A value is skipped exactly when the grammar has it. -/
theorem skipValue_eq_ok_iff {text rest : Input} :
    skipValue text = .ok rest ↔ ValueText text rest := by
  constructor
  · intro h
    obtain ⟨next, hvalue, rfl⟩ := completes_of_skipFrom h
    exact hvalue
  · intro h
    obtain ⟨value, henter, hvalue⟩ := h.skips _ rfl
    cases henter
    rw [skipValue, hvalue, skipFrom]

/-- A text starts with at most one value. -/
theorem ValueText.eq {text rest other : Input} (h : ValueText text rest)
    (h' : ValueText text other) : rest = other :=
  Except.ok.inj ((skipValue_eq_ok_iff.mpr h).symm.trans (skipValue_eq_ok_iff.mpr h'))

/-- The entries of an object are determined by its text. -/
theorem EntriesText.eq {first : Bool} {entries others : List Entry} {text rest left : Input}
    (h : EntriesText first entries text rest) (h' : EntriesText first others text left) :
    entries = others ∧ rest = left := by
  induction h generalizing others with
  | close hclose =>
    cases h' with
    | close hclose' => exact ⟨rfl, (List.cons.inj (hclose.symm.trans hclose')).2⟩
    | @entry first _ _ text _ _ _ hnext hentry _ =>
      obtain ⟨hkey, -, -⟩ := hentry
      have hmore := nextKey_eq_more_iff.mpr ⟨_, hnext, hkey⟩
      cases (nextKey_eq_close_iff.mpr ⟨_, rfl, hclose⟩).symm.trans hmore
  | entry hnext hentry _ ih =>
    obtain ⟨hkey, hcolon, hvalue⟩ := hentry
    have hmore := nextKey_eq_more_iff.mpr ⟨_, hnext, hkey⟩
    cases h' with
    | close hclose => cases (nextKey_eq_close_iff.mpr ⟨_, rfl, hclose⟩).symm.trans hmore
    | entry hnext' hentry' h' =>
      obtain ⟨hkey', hcolon', hvalue'⟩ := hentry'
      cases hmore.symm.trans (nextKey_eq_more_iff.mpr ⟨_, hnext', hkey'⟩)
      cases hcolon.symm.trans hcolon'
      cases hvalue.eq hvalue'
      obtain ⟨rfl, rfl⟩ := ih h'
      exact ⟨rfl, rfl⟩

theorem ObjectText.eq {entries others : List Entry} {text rest left : Input}
    (h : ObjectText entries text rest) (h' : ObjectText others text left) :
    entries = others ∧ rest = left := by
  obtain ⟨body, hopen, hbody⟩ := h
  obtain ⟨body', hopen', hbody'⟩ := h'
  cases hopen.symm.trans hopen'
  exact hbody.eq hbody'

end Json
end TaintFlow
