/-
Texts that go on.

What a text starts with, it starts with also when more text comes behind it, unless
the end of the text was where it ended.  Strings and brackets end with a character
of their own.  A numeral has none, and with more digits behind it would be another
numeral.  So a value may go on as long as something is behind it already
(`Spelled.append`), and a value in brackets always (`ValueText.append_of_opening`).
As a text starts with one value only, what comes behind a whole text in brackets is
blank if that is a whole text again.
-/
import Mathlib.Data.List.Basic
import Mathlib.Data.List.TakeWhile
import TaintFlow.Proofs.Json.Reading

namespace TaintFlow
namespace Json

variable {text rest : Input}

theorem skipSpace_append {c : Char} {tail : Input} (h : skipSpace text = c :: tail)
    (more : Input) : skipSpace (text ++ more) = c :: (tail ++ more) := by
  rw [skipSpace] at h
  rw [skipSpace, List.dropWhile_append, h]
  rfl

theorem skipSpace_append_self (h : skipSpace text ≠ []) (more : Input) :
    skipSpace (text ++ more) = skipSpace text ++ more := by
  obtain ⟨c, tail, heq⟩ := List.exists_cons_of_ne_nil h
  rw [skipSpace_append heq, heq, List.cons_append]

/-! ## Strings -/

theorem UnitText.append {n : Nat} (h : UnitText n text rest) (more : Input) :
    UnitText n (text ++ more) (rest ++ more) := by
  obtain ⟨ha, hb, hc, hd⟩ := h
  exact .digits ha hb hc hd

theorem LooseText.append (h : LooseText text rest) (more : Input) :
    LooseText (text ++ more) (rest ++ more) := by
  induction h with
  | close => exact .close
  | plain hquote hslash hcontrol _ ih => exact .plain hquote hslash hcontrol ih
  | escape hc _ ih => exact .escape hc ih
  | unit hunit _ ih => exact .unit (hunit.append more) ih

/-! ## Numerals -/

theorem DigitsText.append {ds : List Char} (h : DigitsText ds text rest) (hrest : rest ≠ [])
    (more : Input) : DigitsText ds (text ++ more) (rest ++ more) where
  text_eq := by rw [h.text_eq, List.append_assoc]
  digits := h.digits
  ends := by
    rw [List.head?_append_of_ne_nil rest hrest]
    exact h.ends

theorem FractionText.ne_nil {ds : List Char} (h : FractionText ds text rest)
    (hrest : rest ≠ []) : text ≠ [] := by
  cases h with
  | absent => exact hrest
  | present => exact List.cons_ne_nil _ _

theorem FractionText.append {ds : List Char} (h : FractionText ds text rest) (hrest : rest ≠ [])
    (more : Input) : FractionText ds (text ++ more) (rest ++ more) := by
  cases h with
  | absent hhead =>
    refine .absent ?_
    rw [List.head?_append_of_ne_nil _ hrest]
    exact hhead
  | present hdigits hne => exact .present (hdigits.append hrest more) hne

theorem SignText.append {negative : Bool} (h : SignText negative text rest) (more : Input) :
    SignText negative (text ++ more) (rest ++ more) := by
  cases h with
  | absent => exact .absent
  | plus => exact .plus
  | minus => exact .minus

theorem ExponentText.ne_nil {exponent : Option Exponent} (h : ExponentText exponent text rest)
    (hrest : rest ≠ []) : text ≠ [] := by
  cases h with
  | absent => exact hrest
  | present => exact List.cons_ne_nil _ _

theorem ExponentText.append {exponent : Option Exponent} (h : ExponentText exponent text rest)
    (hrest : rest ≠ []) (more : Input) :
    ExponentText exponent (text ++ more) (rest ++ more) := by
  cases h with
  | absent hlower hupper =>
    rw [← List.head?_append_of_ne_nil text hrest] at hlower hupper
    exact .absent hlower hupper
  | present hc hsign hdigits hne =>
    exact .present hc (hsign.append more) (hdigits.append hrest more) hne

theorem UnsignedText.append {n : Numeral} (h : UnsignedText n text rest) (hrest : rest ≠ [])
    (more : Input) : UnsignedText n (text ++ more) (rest ++ more) := by
  obtain ⟨hwhole, hfraction, hexponent⟩ := h
  -- Each part is before one that is not empty, from the last to the first.
  have hbehind := hexponent.ne_nil hrest
  exact ⟨⟨hwhole.digits.append (hfraction.ne_nil hbehind) more, hwhole.nonempty, hwhole.zero⟩,
    hfraction.append hbehind more, hexponent.append hrest more⟩

theorem NumeralText.append {n : Numeral} (h : NumeralText n text rest) (hrest : rest ≠ [])
    (more : Input) : NumeralText n (text ++ more) (rest ++ more) := by
  cases h with
  | positive hsign h => exact .positive hsign (h.append hrest more)
  | negative hsign h => exact .negative hsign (h.append hrest more)

/-! ## Values -/

/-- Whether a part has come to its end before what is behind it. -/
def Part.IsOver (rest : Input) : Part → Prop
  | .value | .item _ => rest ≠ []
  | .tail _ => True

theorem Spelled.tail_ne_nil {bracket : Bracket} (h : Spelled (.tail bracket) text rest) :
    text ≠ [] := by
  rintro rfl
  cases h with
  | close hclose => cases hclose
  | more hcomma => cases hcomma

/-- A part that is over is there whatever comes behind. -/
theorem Spelled.append {part : Part} (h : Spelled part text rest) (hover : part.IsOver rest)
    (more : Input) : Spelled part (text ++ more) (rest ++ more) := by
  induction h with
  | word hword =>
    rw [List.append_assoc]
    exact .word hword
  | numeral hnumeral => exact .numeral (hnumeral.append hover more)
  | string hstring => exact .string (hstring.append more)
  | empty hclose => exact .empty (skipSpace_append hclose more)
  | filled _ htail ihitem ihtail => exact .filled (ihitem htail.tail_ne_nil) (ihtail trivial)
  | item hvalue ih =>
    obtain ⟨c, tail, hhead, -, -⟩ := hvalue.value_head .square
    refine .item ?_
    rw [skipSpace_append_self (by rw [hhead]; exact List.cons_ne_nil c tail)]
    exact ih hover
  | entry hquote hkey hcolon _ ih =>
    exact .entry (skipSpace_append hquote more) (hkey.append more) (skipSpace_append hcolon more)
      (ih hover)
  | close hclose => exact .close (skipSpace_append hclose more)
  | more hcomma _ htail ihitem ihtail =>
    exact .more (skipSpace_append hcomma more) (ihitem htail.tail_ne_nil) (ihtail trivial)

/-- A value in brackets is there whatever comes behind. -/
theorem ValueText.append_of_opening {bracket : Bracket} {body : Input}
    (hopen : skipSpace text = bracket.opening :: body) (h : ValueText text rest)
    (more : Input) : ValueText (text ++ more) (rest ++ more) := by
  cases h with
  | item h =>
    refine .item ?_
    rw [skipSpace_append hopen]
    rw [hopen] at h
    generalize hstart : bracket.opening :: body = start at h
    cases h with
    | word hword =>
      simp only [words, List.mem_cons, List.not_mem_nil, or_false] at hword
      rcases hword with rfl | rfl | rfl <;> cases bracket <;> cases hstart
    | numeral hnumeral =>
      obtain ⟨c, tail, rfl, hc⟩ := hnumeral.startsNumeral
      cases hstart
      cases bracket <;> cases hc
    | string => cases bracket <;> cases hstart
    | empty hclose =>
      obtain ⟨hbracket, rfl⟩ := List.cons.inj hstart
      rw [hbracket]
      exact .empty (skipSpace_append hclose more)
    | filled hitem htail =>
      obtain ⟨hbracket, rfl⟩ := List.cons.inj hstart
      rw [hbracket]
      exact .filled (hitem.append htail.tail_ne_nil more) (htail.append trivial more)

/-! ## Whole texts -/

theorem skipSpace_eq_nil_iff {text : Input} :
    skipSpace text = [] ↔ ∀ c ∈ text, isSpace c = true :=
  List.dropWhile_eq_nil_iff

/-- When a text is a value in brackets and stays one when more comes behind, what
comes behind is blank. -/
theorem Reader.Spells.isSpace_of_readAll_append {α : Type} {reader : Reader α}
    (hreader : reader.Spells) {text more body : Input} {bracket : Bracket} {a b : α}
    (hopen : skipSpace text = bracket.opening :: body) (hread : reader.readAll text = .ok a)
    (hmore : reader.readAll (text ++ more) = .ok b) : ∀ c ∈ more, isSpace c = true := by
  obtain ⟨rest, hrun, -⟩ := Reader.readAll_eq_ok_iff.mp hread
  obtain ⟨left, hrunMore, hleft⟩ := Reader.readAll_eq_ok_iff.mp hmore
  have hvalue := (hreader.valueText hrun).append_of_opening hopen more
  obtain rfl := hvalue.eq (hreader.valueText hrunMore)
  intro c hc
  exact skipSpace_eq_nil_iff.mp hleft c (List.mem_append_right rest hc)

end Json
end TaintFlow
