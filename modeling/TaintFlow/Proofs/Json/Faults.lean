/-
How scanners fail.

The cause of a fault that a scanner finds has no words (`Cause.words`), or only what
the caller expected.  So a scanner fails plainly, whatever text it is given.  There
is one lemma for each scanner, and the scanner of numerals takes the cause of a
fault at the end from its caller.
-/
import TaintFlow.Json.Record
import TaintFlow.Proofs.Json.Wording

namespace TaintFlow
namespace Json

variable {α β : Type}

/-- When there is a fault, the words of its cause are plain. -/
def FailsPlainly (outcome : Except Fault α) : Prop :=
  ∀ fault, outcome = .error fault → fault.cause.IsPlain

namespace FailsPlainly

theorem ok (a : α) : FailsPlainly (.ok a) := fun _ h => nomatch h

theorem error {fault : Fault} (h : fault.cause.IsPlain) :
    FailsPlainly (.error fault : Except Fault α) := by
  intro other heq
  cases heq
  exact h

/-- A cause without words. -/
theorem bare {fault : Fault} (h : fault.cause.words = []) :
    FailsPlainly (.error fault : Except Fault α) := by
  refine error fun word hword => ?_
  rw [h] at hword
  cases hword

/-- A fault that is passed on. -/
theorem pass {outcome : Except Fault α} (h : FailsPlainly outcome) {fault : Fault}
    (heq : outcome = .error fault) : FailsPlainly (.error fault : Except Fault β) :=
  error (h fault heq)

end FailsPlainly

/-! ## Strings -/

theorem failsPlainly_literal (word text : Input) : FailsPlainly (literal word text) := by
  fun_induction literal word text with
  | case1 text => exact .ok text
  | case2 => exact .bare rfl
  | case3 _ _ _ ih => exact ih
  | case4 => exact .bare rfl

theorem failsPlainly_hexUnit (text : Input) : FailsPlainly (hexUnit text) := by
  have hwords : ∀ text, (hexFault text).cause.words = [] := by
    intro text
    unfold hexFault
    split <;> rfl
  unfold hexUnit
  split
  · split
    · exact .ok _
    · exact .bare (hwords _)
  · exact .bare (hwords _)

theorem failsPlainly_lowSurrogate (high : Nat) (text : Input) :
    FailsPlainly (lowSurrogate high text) := by
  unfold lowSurrogate
  split
  · exact .bare rfl
  · exact .bare rfl
  · split
    · next hunit => exact (failsPlainly_hexUnit _).pass hunit
    · split
      · exact .ok _
      · exact .bare rfl
  · exact .bare rfl
  · exact .bare rfl

theorem failsPlainly_escapedChar (text : Input) : FailsPlainly (escapedChar text) := by
  unfold escapedChar
  split
  · exact .bare rfl
  · unfold unicodeEscape
    split
    · next hunit => exact (failsPlainly_hexUnit _).pass hunit
    · split
      · exact .bare rfl
      · split
        · exact failsPlainly_lowSurrogate _ _
        · exact .ok _
  · split
    · exact .ok _
    · exact .bare rfl

theorem failsPlainly_stringRest (text : Input) : FailsPlainly (stringRest text) := by
  fun_induction stringRest text with
  | case1 => exact .bare rfl
  | case2 => exact .ok _
  | case3 _ _ hchar => exact (failsPlainly_escapedChar _).pass hchar
  | case4 _ _ _ _ _ hrest ih => exact ih.pass hrest
  | case5 => exact .ok _
  | case6 => exact .bare rfl
  | case7 _ _ _ _ _ _ hrest ih => exact ih.pass hrest
  | case8 => exact .ok _

/-! ## Punctuation -/

theorem failsPlainly_colon (text : Input) : FailsPlainly (colon text) := by
  unfold colon
  split
  · exact .bare rfl
  · exact .ok _
  · exact .bare rfl

theorem failsPlainly_nextItem (first : Bool) (text : Input) :
    FailsPlainly (nextItem first text) := by
  unfold nextItem
  split
  · exact .bare rfl
  · exact .ok _
  · split
    · exact .ok _
    · split
      · split
        · exact .bare rfl
        · exact .bare rfl
        · exact .ok _
      · exact .bare rfl

theorem failsPlainly_keyHere (text : Input) : FailsPlainly (keyHere text) := by
  unfold keyHere
  split
  · split
    · next hstring => exact (failsPlainly_stringRest _).pass hstring
    · exact .ok _
  · exact .bare rfl

theorem failsPlainly_nextKey (first : Bool) (text : Input) : FailsPlainly (nextKey first text) := by
  unfold nextKey
  split
  · exact .bare rfl
  · exact .ok _
  · split
    · exact failsPlainly_keyHere _
    · split
      · split
        · exact .bare rfl
        · exact .bare rfl
        · exact failsPlainly_keyHere _
      · exact .bare rfl

theorem failsPlainly_closeList (text : Input) : FailsPlainly (closeList text) := by
  unfold closeList
  split
  · exact .bare rfl
  · exact .ok _
  · split
    · exact .bare rfl
    · exact .bare rfl
  · exact .bare rfl

/-! ## Numerals

The cause of a fault at the end of a numeral is an argument. -/

section

variable {atEnd : Cause} (hend : atEnd.words = [])
include hend

theorem failsPlainly_wholePart (text : Input) : FailsPlainly (wholePart atEnd text) := by
  unfold wholePart
  split
  · exact .bare hend
  · split
    · split
      · split
        · exact .bare rfl
        · exact .ok _
      · exact .ok _
    · split
      · exact .ok _
      · exact .bare rfl

theorem failsPlainly_fractionPart (text : Input) : FailsPlainly (fractionPart atEnd text) := by
  unfold fractionPart
  split
  · split
    · exact .bare hend
    · split
      · exact .ok _
      · exact .bare rfl
  · exact .ok _

theorem failsPlainly_exponentPart (text : Input) : FailsPlainly (exponentPart atEnd text) := by
  unfold exponentPart
  split
  · exact .ok _
  · split
    · split
      · exact .bare hend
      · split
        · exact .ok _
        · exact .bare rfl
    · exact .ok _

theorem failsPlainly_unsignedNumeral (negative : Bool) (text : Input) :
    FailsPlainly (unsignedNumeral atEnd negative text) := by
  unfold unsignedNumeral
  split
  · next hwhole => exact (failsPlainly_wholePart hend _).pass hwhole
  · split
    · next hfraction => exact (failsPlainly_fractionPart hend _).pass hfraction
    · split
      · next hexponent => exact (failsPlainly_exponentPart hend _).pass hexponent
      · exact .ok _

theorem failsPlainly_numeral (text : Input) : FailsPlainly (numeral atEnd text) := by
  unfold numeral
  split
  · exact failsPlainly_unsignedNumeral hend _ _
  · exact failsPlainly_unsignedNumeral hend _ _

end

theorem failsPlainly_realValue (negative : Bool) (significand : Nat) (exponent : Int)
    (rest : Input) : FailsPlainly (realValue negative significand exponent rest) := by
  unfold realValue
  split
  · exact .ok _
  · exact .bare rfl

theorem failsPlainly_integerValue (negative : Bool) (significand : Nat) (rest : Input) :
    FailsPlainly (integerValue negative significand rest) := by
  unfold integerValue
  split
  · exact .ok _
  · split
    · exact failsPlainly_realValue _ _ _ _
    · exact .ok _

theorem failsPlainly_value (n : Numeral) (rest : Input) : FailsPlainly (n.value rest) := by
  unfold Numeral.value
  dsimp only
  split
  · split
    · exact failsPlainly_integerValue _ _ _
    · exact failsPlainly_realValue _ _ _ _
  · split
    · exact failsPlainly_realValue _ _ _ _
    · split
      · exact .bare rfl
      · exact .ok _

/-! ## Scalars -/

theorem failsPlainly_literalValue (word : List Char) (value : Json) (text : Input) :
    FailsPlainly (literalValue word value text) := by
  unfold literalValue
  split
  · next hliteral => exact (failsPlainly_literal _ _).pass hliteral
  · exact .ok _

theorem failsPlainly_numberHere (text : Input) : FailsPlainly (numberHere text) := by
  unfold numberHere
  split
  · next hnumeral => exact (failsPlainly_numeral rfl _).pass hnumeral
  · split
    · next hvalue => exact (failsPlainly_value _ _).pass hvalue
    · exact .ok _

theorem failsPlainly_scalar (text : Input) : FailsPlainly (scalar text) := by
  unfold scalar
  split
  · exact failsPlainly_literalValue _ _ _
  · exact failsPlainly_literalValue _ _ _
  · exact failsPlainly_literalValue _ _ _
  · split
    · next hstring => exact (failsPlainly_stringRest _).pass hstring
    · exact .ok _
  · exact .bare rfl
  · split
    · split
      · next hnumber => exact (failsPlainly_numberHere _).pass hnumber
      · exact .ok _
    · exact .bare rfl

/-- A value of another type has a plain cause when what was expected is plain. -/
theorem isPlain_typeFault {expected : String} (h : IsPlain expected.toList) (text : Input) :
    (typeFault expected text).cause.IsPlain := by
  have hwrong : ∀ found, (Cause.wrongType found expected).IsPlain := fun _ =>
    List.forall_mem_singleton.mpr h
  unfold typeFault
  split
  · exact hwrong _
  · exact hwrong _
  · split
    · next hscalar => exact failsPlainly_scalar _ _ hscalar
    · exact hwrong _

/-! ## Skipping -/

theorem failsPlainly_skipEscape (text : Input) : FailsPlainly (skipEscape text) := by
  unfold skipEscape
  split
  · exact .bare rfl
  · split
    · next hunit => exact (failsPlainly_hexUnit _).pass hunit
    · exact .ok _
  · split
    · exact .ok _
    · exact .bare rfl

theorem failsPlainly_skipString (text : Input) : FailsPlainly (skipString text) := by
  fun_induction skipString text with
  | case1 => exact .bare rfl
  | case2 => exact .ok _
  | case3 _ _ hescape => exact (failsPlainly_skipEscape _).pass hescape
  | case4 _ _ _ ih => exact ih
  | case5 => exact .bare rfl
  | case6 _ _ _ _ _ ih => exact ih

theorem failsPlainly_skipScalar (text : Input) : FailsPlainly (skipScalar text) := by
  unfold skipScalar
  split
  · exact failsPlainly_literal _ _
  · exact failsPlainly_literal _ _
  · exact failsPlainly_literal _ _
  · exact failsPlainly_skipString _
  · exact .bare rfl
  · split
    · split
      · next hnumeral => exact (failsPlainly_numeral rfl _).pass hnumeral
      · exact .ok _
    · exact .bare rfl

theorem failsPlainly_skipKey (text : Input) : FailsPlainly (skipKey text) := by
  unfold skipKey
  split
  · exact .bare rfl
  · split
    · next hstring => exact (failsPlainly_skipString _).pass hstring
    · exact failsPlainly_colon _
  · exact .bare rfl

theorem failsPlainly_enterItem (bracket : Bracket) (text : Input) :
    FailsPlainly (enterItem bracket text) := by
  cases bracket with
  | square => exact .ok _
  | curly => exact failsPlainly_skipKey text

theorem failsPlainly_enterBracket (bracket : Bracket) (text : Input) :
    FailsPlainly (enterBracket bracket text) := by
  unfold enterBracket
  split
  · cases bracket <;> exact .bare rfl
  · split
    · exact .ok _
    · split
      · next hitem => exact (failsPlainly_enterItem _ _).pass hitem
      · exact .ok _

theorem failsPlainly_leaveItem (bracket : Bracket) (text : Input) :
    FailsPlainly (leaveItem bracket text) := by
  unfold leaveItem
  split
  · cases bracket <;> exact .bare rfl
  · split
    · exact .ok _
    · split
      · split
        · next hitem => exact (failsPlainly_enterItem _ _).pass hitem
        · exact .ok _
      · cases bracket <;> exact .bare rfl

theorem failsPlainly_skipFrom (stage : Stage) (stack : List Bracket) (text : Input) :
    FailsPlainly (skipFrom stage stack text) := by
  fun_induction skipFrom stage stack text with
  | case1 _ _ _ _ _ henter | case4 _ _ _ _ _ henter =>
    exact (failsPlainly_enterBracket _ _).pass henter
  | case2 _ _ _ _ _ _ ih | case3 _ _ _ _ _ _ _ ih | case5 _ _ _ _ _ _ ih
  | case6 _ _ _ _ _ _ _ ih => exact ih
  | case7 _ _ _ _ _ hscalar => exact (failsPlainly_skipScalar _).pass hscalar
  | case8 _ _ _ _ _ _ ih => exact ih
  | case9 => exact .ok _
  | case10 _ _ _ _ hleave => exact (failsPlainly_leaveItem _ _).pass hleave
  | case11 _ _ _ _ _ ih | case12 _ _ _ _ _ _ ih => exact ih

theorem failsPlainly_skipValue (text : Input) : FailsPlainly (skipValue text) :=
  failsPlainly_skipFrom _ _ _

end Json
end TaintFlow
