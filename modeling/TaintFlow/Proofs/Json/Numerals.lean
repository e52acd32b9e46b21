/-
What the scanners of numerals find.

A numeral is scanned part by part, and each part takes all the characters that
can belong to it.  So there is one way to scan a numeral, and it is the one that
the grammar allows (`numeral_eq_ok_iff`).
-/
import TaintFlow.Proofs.Json.Spelling

namespace TaintFlow
namespace Json

theorem digitsText_iff {ds : List Char} {text rest : Input} :
    DigitsText ds text rest ↔
      text.takeWhile Char.isDigit = ds ∧ text.dropWhile Char.isDigit = rest := by
  constructor
  · rintro ⟨rfl, hdigits, hends⟩
    rw [List.takeWhile_append_of_pos hdigits, List.dropWhile_append_of_pos hdigits]
    cases rest with
    | nil => exact ⟨List.append_nil ds, rfl⟩
    | cons c rest =>
      have hc : ¬ c.isDigit = true := Bool.eq_false_iff.mp (hends c rfl)
      rw [List.takeWhile_cons_of_neg hc, List.dropWhile_cons_of_neg hc, List.append_nil]
      exact ⟨rfl, rfl⟩
  · rintro ⟨rfl, rfl⟩
    refine ⟨List.takeWhile_append_dropWhile.symm, fun d hd => ?_, fun c hc => ?_⟩
    · exact List.all_eq_true.mp List.all_takeWhile d hd
    · have hnot := List.head?_dropWhile_not Char.isDigit text
      rw [Option.mem_def.mp hc] at hnot
      exact hnot

theorem not_digitsText_nil {ds : List Char} {rest : Input} (hne : ds ≠ []) :
    ¬ DigitsText ds [] rest := fun h =>
  hne (List.append_eq_nil_iff.mp h.text_eq.symm).1

/-- At least one digit, where the first character is known. -/
theorem digitsText_cons_iff {d : Char} {ds : List Char} {text rest : Input} :
    DigitsText ds (d :: text) rest ∧ ds ≠ [] ↔
      d.isDigit = true ∧ d :: text.takeWhile Char.isDigit = ds ∧
        text.dropWhile Char.isDigit = rest := by
  rw [digitsText_iff]
  by_cases hd : d.isDigit = true
  · rw [List.takeWhile_cons_of_pos hd, List.dropWhile_cons_of_pos hd, and_iff_right hd]
    refine and_iff_left_of_imp ?_
    rintro ⟨rfl, -⟩
    exact List.cons_ne_nil _ _
  · rw [List.takeWhile_cons_of_neg hd]
    constructor
    · rintro ⟨⟨rfl, -⟩, hne⟩
      exact absurd rfl hne
    · rintro ⟨hdigit, -⟩
      exact absurd hdigit hd

theorem wholeText_cons_iff {c : Char} {ds : List Char} {text rest : Input} :
    WholeText ds (c :: text) rest ↔
      c.isDigit = true ∧ (c = '0' → text.takeWhile Char.isDigit = []) ∧
        c :: text.takeWhile Char.isDigit = ds ∧ text.dropWhile Char.isDigit = rest := by
  constructor
  · intro h
    obtain ⟨hc, rfl, hrest⟩ := digitsText_cons_iff.mp ⟨h.digits, h.nonempty⟩
    refine ⟨hc, fun hzero => ?_, rfl, hrest⟩
    exact (List.cons.inj (h.zero (congrArg some hzero))).2
  · rintro ⟨hc, hzero, rfl, hrest⟩
    obtain ⟨hdigits, hne⟩ := digitsText_cons_iff.mpr ⟨hc, rfl, hrest⟩
    refine ⟨hdigits, hne, fun hhead => ?_⟩
    rw [hzero (Option.some.inj hhead), Option.some.inj hhead]

theorem wholePart_eq_ok_iff {atEnd : Cause} {ds : List Char} {text rest : Input} :
    wholePart atEnd text = .ok (ds, rest) ↔ WholeText ds text rest := by
  cases text with
  | nil =>
    constructor
    · intro h
      cases h
    · intro h
      exact absurd h.digits (not_digitsText_nil h.nonempty)
  | cons c text =>
    rw [wholeText_cons_iff]
    by_cases hzero : c = '0'
    · subst hzero
      have hdigit : '0'.isDigit = true := rfl
      cases text with
      | nil => simp [wholePart, hdigit]
      | cons d text => by_cases hd : d.isDigit = true <;> simp [wholePart, hdigit, hd]
    · by_cases hc : c.isDigit = true
      · simp [wholePart, hzero, hc]
      · simp [wholePart, hzero, hc]

theorem fractionPart_eq_ok_iff {atEnd : Cause} {ds : List Char} {text rest : Input} :
    fractionPart atEnd text = .ok (ds, rest) ↔ FractionText ds text rest := by
  unfold fractionPart
  split
  · next text =>
    have hpresent : FractionText ds ('.' :: text) rest ↔ DigitsText ds text rest ∧ ds ≠ [] := by
      constructor
      · intro h
        cases h with
        | absent h => exact absurd rfl h
        | present h hne => exact ⟨h, hne⟩
      · rintro ⟨h, hne⟩
        exact .present h hne
    rw [hpresent]
    cases text with
    | nil =>
      constructor
      · intro h
        cases h
      · rintro ⟨h, hne⟩
        exact absurd h (not_digitsText_nil hne)
    | cons d text =>
      rw [digitsText_cons_iff]
      by_cases hd : d.isDigit = true <;> simp [hd]
  · next hpoint =>
    constructor
    · intro h
      cases h
      refine .absent fun hhead => ?_
      obtain ⟨tail, rfl⟩ := List.head?_eq_some_iff.mp hhead
      exact hpoint tail rfl
    · intro h
      cases h with
      | absent => rfl
      | present => exact absurd rfl (hpoint _)

/-- Before a digit there is only one way to read a sign. -/
theorem exponentSign_eq_iff {negative : Bool} {d : Char} {text rest : Input}
    (hd : d.isDigit = true) :
    exponentSign text = (negative, d :: rest) ↔ SignText negative text (d :: rest) := by
  unfold exponentSign
  split
  · next text =>
    constructor
    · intro h
      cases h
      exact .plus
    · intro h
      cases h with
      | absent => cases hd
      | plus => rfl
  · next text =>
    constructor
    · intro h
      cases h
      exact .minus
    · intro h
      cases h with
      | absent => cases hd
      | minus => rfl
  · next hplus hminus =>
    constructor
    · intro h
      cases h
      exact .absent
    · intro h
      cases h with
      | absent => rfl
      | plus => exact absurd rfl (hplus _)
      | minus => exact absurd rfl (hminus _)

theorem exponentPart_eq_ok_iff {atEnd : Cause} {e : Option Exponent} {text rest : Input} :
    exponentPart atEnd text = .ok (e, rest) ↔ ExponentText e text rest := by
  constructor
  · intro h
    unfold exponentPart at h
    split at h
    · cases h
      exact .absent (by simp) (by simp)
    · next c text =>
      split at h
      · next hc =>
        split at h
        · cases h
        · next d left heq =>
          split at h
          · next hd =>
            cases h
            have hsign := (exponentSign_eq_iff hd).mp (Prod.ext rfl heq)
            obtain ⟨hdigits, hne⟩ := digitsText_cons_iff.mpr ⟨hd, rfl, rfl⟩
            exact .present hc hsign hdigits hne
          · cases h
      · next hc =>
        cases h
        rw [not_or] at hc
        exact .absent (fun h => hc.1 (Option.some.inj h)) (fun h => hc.2 (Option.some.inj h))
  · intro h
    cases h with
    | absent he hE =>
      cases text with
      | nil => rfl
      | cons c text =>
        have hc : ¬ (c = 'e' ∨ c = 'E') := fun hc =>
          hc.elim (fun hc => he (congrArg some hc)) (fun hc => hE (congrArg some hc))
        rw [exponentPart, if_neg hc]
    | @present c negative ds text next _ hc hsign hdigits hne =>
      cases next with
      | nil => exact absurd hdigits (not_digitsText_nil hne)
      | cons d next =>
        obtain ⟨hd, rfl, rfl⟩ := digitsText_cons_iff.mp ⟨hdigits, hne⟩
        rw [exponentPart, if_pos hc, (exponentSign_eq_iff hd).mpr hsign]
        simp [hd]

theorem unsignedNumeral_eq_ok_iff {atEnd : Cause} {negative : Bool} {n : Numeral}
    {text rest : Input} :
    unsignedNumeral atEnd negative text = .ok (n, rest) ↔
      n.negative = negative ∧ UnsignedText n text rest := by
  constructor
  · intro h
    unfold unsignedNumeral at h
    split at h
    · cases h
    · next hwhole =>
      split at h
      · cases h
      · next hfraction =>
        split at h
        · cases h
        · next hexponent =>
          cases h
          exact ⟨rfl, wholePart_eq_ok_iff.mp hwhole, fractionPart_eq_ok_iff.mp hfraction,
            exponentPart_eq_ok_iff.mp hexponent⟩
  · rintro ⟨rfl, hwhole, hfraction, hexponent⟩
    rw [unsignedNumeral, wholePart_eq_ok_iff.mpr hwhole]
    simp [fractionPart_eq_ok_iff.mpr hfraction, exponentPart_eq_ok_iff.mpr hexponent]

theorem UnsignedText.exists_digit {n : Numeral} {text rest : Input} (h : UnsignedText n text rest) :
    ∃ c tail, text = c :: tail ∧ c.isDigit = true := by
  obtain ⟨hwhole, -, -⟩ := h
  cases text with
  | nil => exact absurd hwhole.digits (not_digitsText_nil hwhole.nonempty)
  | cons c tail => exact ⟨c, tail, rfl, (wholeText_cons_iff.mp hwhole).1⟩

theorem numeral_eq_ok_iff {atEnd : Cause} {n : Numeral} {text rest : Input} :
    numeral atEnd text = .ok (n, rest) ↔ NumeralText n text rest := by
  unfold numeral
  split
  · next text =>
    rw [unsignedNumeral_eq_ok_iff]
    constructor
    · rintro ⟨hsign, h⟩
      exact .negative hsign h
    · intro h
      cases h with
      | positive _ h =>
        obtain ⟨c, tail, heq, hc⟩ := h.exists_digit
        rw [← (List.cons.inj heq).1] at hc
        cases hc
      | negative hsign h => exact ⟨hsign, h⟩
  · next hminus =>
    rw [unsignedNumeral_eq_ok_iff]
    constructor
    · rintro ⟨hsign, h⟩
      exact .positive hsign h
    · intro h
      cases h with
      | positive hsign h => exact ⟨hsign, h⟩
      | negative => exact absurd rfl (hminus _)

end Json
end TaintFlow
