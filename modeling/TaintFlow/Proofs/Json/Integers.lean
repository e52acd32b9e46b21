/-
Numerals that are read as integers.

A numeral is written as an integer when it has neither a fraction nor an exponent and is
no minus zero.  It is read as one when that integer fits 64 bits too, with or without a
sign, and as a double or as no number at all otherwise (`numberHere_eq_int_iff`).  The
digits are appended to a significand as long as it fits, so an integer that is read is
the one that is written, however many digits there are.
-/
import TaintFlow.Proofs.Json.Composing
import TaintFlow.Proofs.Json.Rendering

namespace TaintFlow
namespace Json

/-! ## Digits -/

theorem le_digitsValue (ds : List Char) (n : Nat) : n ≤ digitsValue n ds := by
  induction ds generalizing n with
  | nil => exact Nat.le_refl n
  | cons d ds ih =>
    calc n ≤ n * 10 := Nat.le_mul_of_pos_right n (by decide)
      _ ≤ n * 10 + digitValue d := Nat.le_add_right _ _
      _ ≤ digitsValue n (d :: ds) := ih _

theorem appendDigits_cons (n : Nat) (d : Char) (ds : List Char) :
    appendDigits n (d :: ds) =
      if n * 10 + digitValue d < significandBound then appendDigits (n * 10 + digitValue d) ds
      else (n, d :: ds) := rfl

/-- No digits are left exactly if the value of all of them stays below the bound. -/
theorem appendDigits_eq_iff {ds : List Char} {n m : Nat} (hn : n < significandBound) :
    appendDigits n ds = (m, []) ↔ digitsValue n ds = m ∧ m < significandBound := by
  induction ds generalizing n with
  | nil =>
    constructor
    · intro h
      obtain ⟨rfl, -⟩ := Prod.mk.inj h
      exact ⟨rfl, hn⟩
    · rintro ⟨rfl, -⟩
      rfl
  | cons d ds ih =>
    rw [appendDigits_cons]
    by_cases hnext : n * 10 + digitValue d < significandBound
    · rw [if_pos hnext]
      exact ih hnext
    · rw [if_neg hnext]
      constructor
      · intro h
        cases (Prod.mk.inj h).2
      · rintro ⟨rfl, hlt⟩
        have hle : n * 10 + digitValue d ≤ digitsValue n (d :: ds) := le_digitsValue ds _
        exact absurd (Nat.lt_of_le_of_lt hle hlt) hnext

/-! ## Values -/

theorem realValue_ne_int {negative : Bool} {significand : Nat} {exponent k : Int} {rest : Input} :
    realValue negative significand exponent rest ≠ .ok (.int k) := by
  intro h
  unfold realValue at h
  split at h
  all_goals cases h

/-- Zero with a sign is a double, and so is what is below the least integer. -/
theorem integerValue_eq_int_iff {negative : Bool} {significand : Nat} {rest : Input} {k : Int} :
    integerValue negative significand rest = .ok (.int k) ↔
      negative = decide (k < 0) ∧ significand = k.natAbs ∧ -0x8000000000000000 ≤ k := by
  cases negative with
  | false =>
    rw [integerValue, if_pos (by decide), Except.ok.injEq, Number.int.injEq, eq_comm (a := false),
      decide_eq_false_iff_not]
    omega
  | true =>
    rw [integerValue, if_neg (by decide), eq_comm (a := true), decide_eq_true_iff]
    split
    · next hreal =>
      rw [Bool.or_eq_true, decide_eq_true_iff, decide_eq_true_iff] at hreal
      refine iff_of_false realValue_ne_int ?_
      omega
    · next hint =>
      rw [Bool.or_eq_true, decide_eq_true_iff, decide_eq_true_iff] at hint
      rw [Except.ok.injEq, Number.int.injEq]
      omega

/-- A numeral without a fraction and an exponent is an integer as long as no digits are
left. -/
theorem value_of_appendDigits (negative : Bool) {whole left : List Char} {significand : Nat}
    (h : appendDigits 0 whole = (significand, left)) (rest : Input) :
    Numeral.value ⟨negative, whole, [], none⟩ rest =
      if left = [] then integerValue negative significand rest
      else realValue negative significand left.length rest := by
  have hsignificand : Numeral.significand ⟨negative, whole, [], none⟩ =
      (significand, (left.length : Int)) := by
    simp [Numeral.significand, h, appendDigits]
  rw [Numeral.value, hsignificand]
  cases left with
  | nil => rfl
  | cons d ds => exact if_neg (by simp; omega)

theorem value_eq_int_iff {n : Numeral} {rest : Input} {k : Int} :
    n.value rest = .ok (.int k) ↔
      n.negative = decide (k < 0) ∧ digitsValue 0 n.whole = k.natAbs ∧ n.fraction = [] ∧
        n.exponent = none ∧ -0x8000000000000000 ≤ k ∧ k < 0x10000000000000000 := by
  obtain ⟨negative, whole, fraction, exponent⟩ := n
  cases exponent with
  | some exponent =>
    refine iff_of_false ?_ ?_
    · unfold Numeral.value
      simp only
      split
      · exact realValue_ne_int
      · split
        · exact fun h => nomatch h
        · exact fun h => nomatch h
    · rintro ⟨-, -, -, hnone, -⟩
      cases hnone
  | none =>
    cases fraction with
    | cons d ds =>
      refine iff_of_false realValue_ne_int ?_
      rintro ⟨-, -, hnil, -⟩
      cases hnil
    | nil =>
      rcases hdigits : appendDigits 0 whole with ⟨significand, left⟩
      rw [value_of_appendDigits negative hdigits rest]
      by_cases hleft : left = []
      · subst hleft
        obtain ⟨hvalue, hlt⟩ := (appendDigits_eq_iff (by decide)).mp hdigits
        rw [significandBound] at hlt
        rw [if_pos rfl, integerValue_eq_int_iff, hvalue]
        constructor
        · rintro ⟨hsign, hk, hleast⟩
          exact ⟨hsign, hk, rfl, rfl, hleast, by omega⟩
        · rintro ⟨hsign, hk, -, -, hleast, -⟩
          exact ⟨hsign, hk, hleast⟩
      · rw [if_neg hleft]
        refine iff_of_false realValue_ne_int ?_
        rintro ⟨-, hvalue, -, -, hleast, hgreatest⟩
        have hlt : k.natAbs < significandBound := by
          rw [significandBound]
          omega
        have hnil := (appendDigits_eq_iff (by decide)).mpr ⟨hvalue, hlt⟩
        exact hleft (Prod.mk.inj (hdigits.symm.trans hnil)).2

/-- A numeral is read as an integer where it is written as one that fits 64 bits. -/
theorem numberHere_eq_int_iff {k : Int} {text rest : Input} :
    numberHere text = .ok (.int k, rest) ↔
      IntegerText k text rest ∧ -0x8000000000000000 ≤ k ∧ k < 0x10000000000000000 := by
  rw [numberHere_eq_ok_iff]
  constructor
  · rintro ⟨n, hnumeral, hvalue⟩
    obtain ⟨hsign, hdigits, hfraction, hexponent, hbounds⟩ := value_eq_int_iff.mp hvalue
    refine ⟨.digits hdigits ?_, hbounds⟩
    rw [← hsign, ← hfraction, ← hexponent]
    exact hnumeral
  · rintro ⟨⟨hdigits, hnumeral⟩, hbounds⟩
    exact ⟨_, hnumeral, value_eq_int_iff.mpr ⟨rfl, hdigits, rfl, rfl, hbounds⟩⟩

/-! ## Tokens -/

/-- A token is at most one integer. -/
theorem IntegerText.eq {n m : Int} {text rest : Input} (hn : IntegerText n text rest)
    (hm : IntegerText m text rest) : n = m := by
  obtain ⟨hvalue, hnumeral⟩ := hn
  obtain ⟨hvalue', hnumeral'⟩ := hm
  have hread : numeral .endInValue text = .ok _ := numeral_eq_ok_iff.mpr hnumeral
  have hread' := hread.symm.trans (numeral_eq_ok_iff.mpr hnumeral')
  simp only [Except.ok.injEq, Prod.mk.injEq, Numeral.mk.injEq, decide_eq_decide] at hread'
  obtain ⟨⟨hsign, rfl, -⟩, -⟩ := hread'
  omega

/-- An integer is the same with nothing behind it. -/
theorem integerText_append_iff {n : Int} {token rest : Input} (hrest : EndsNumeral rest) :
    IntegerText n (token ++ rest) rest ↔ IntegerText n token [] := by
  have hends : EndsNumeral [] := fun _ hc => nomatch hc
  constructor
  · rintro ⟨hvalue, hnumeral⟩
    obtain ⟨used, hused, -, hother⟩ := hnumeral.exists_append
    obtain rfl := List.append_cancel_right hused
    have htoken := hother hends
    rw [List.append_nil] at htoken
    exact .digits hvalue htoken
  · rintro ⟨hvalue, hnumeral⟩
    obtain ⟨used, hused, -, hother⟩ := hnumeral.exists_append
    rw [List.append_nil] at hused
    subst hused
    exact .digits hvalue (hother hrest)

end Json
end TaintFlow
