/-
Skipping a value.

What nobody asks for is skipped without being built: its nesting may be of any
depth, its numbers of any size, and its strings may hold escapes that stand for
no character.  Apart from that a skipped value has to be as well-formed as any
other.  The brackets that are open are kept on a stack, innermost first.
-/
import TaintFlow.Json.Numeral

namespace TaintFlow
namespace Json

/-- Skips an escape behind its backslash.  A code unit escape may be any unit. -/
def skipEscape : Input → Except Fault Input
  | [] => .error (.behind .endInString [])
  | 'u' :: rest =>
    match hexUnit rest with
    | .error fault => .error fault
    | .ok (_, rest) => .ok rest
  | c :: rest =>
    match simpleEscape? c with
    | some _ => .ok rest
    | none => .error (.next .invalidEscape (c :: rest))

theorem length_lt_of_skipEscape {text rest : Input} (h : skipEscape text = .ok rest) :
    rest.length < text.length := by
  unfold skipEscape at h
  split at h
  · cases h
  · split at h
    · cases h
    · next hu => cases h; exact Nat.lt_succ_of_lt (length_lt_of_hexUnit hu)
  · split at h
    · cases h; simp
    · cases h

/-- Skips a string behind its opening quote, up to and with the closing one. -/
def skipString (text : Input) : Except Fault Input :=
  match text with
  | [] => .error (.behind .endInString [])
  | '"' :: rest => .ok rest
  | '\\' :: rest =>
    match _h : skipEscape rest with
    | .error fault => .error fault
    | .ok rest => skipString rest
  | c :: rest =>
    if isControl c then .error (.behind .controlCharacter (c :: rest)) else skipString rest
termination_by text.length
decreasing_by
  · have := length_lt_of_skipEscape _h
    simp only [List.length_cons]; omega
  · simp

theorem length_lt_of_skipString {text rest : Input} (h : skipString text = .ok rest) :
    rest.length < text.length := by
  fun_induction skipString text with
  | case1 => cases h
  | case2 => cases h; simp
  | case3 => cases h
  | case4 rest' tail he ih =>
    have := length_lt_of_skipEscape he
    have := ih h
    simp only [List.length_cons]; omega
  | case5 => cases h
  | case6 c rest' _ _ _ ih =>
    have := ih h
    simp only [List.length_cons]; omega

/-- Skips the value that the text starts with, unless it is a list or an object. -/
def skipScalar : Input → Except Fault Input
  | 'n' :: rest => literal "ull".toList rest
  | 't' :: rest => literal "rue".toList rest
  | 'f' :: rest => literal "alse".toList rest
  | '"' :: rest => skipString rest
  | [] => .error (.next .endInValue [])
  | c :: rest =>
    if startsNumeral c then
      match numeral .invalidNumber (c :: rest) with
      | .error fault => .error fault
      | .ok (_, rest) => .ok rest
    else .error (.next .valueExpected (c :: rest))

theorem length_lt_of_skipScalar {text rest : Input} (h : skipScalar text = .ok rest) :
    rest.length < text.length := by
  unfold skipScalar at h
  split at h
  · exact Nat.lt_succ_of_le (length_le_of_literal h)
  · exact Nat.lt_succ_of_le (length_le_of_literal h)
  · exact Nat.lt_succ_of_le (length_le_of_literal h)
  · exact Nat.lt_succ_of_lt (length_lt_of_skipString h)
  · cases h
  · split at h
    · split at h
      · cases h
      · next hn => cases h; exact length_lt_of_numeral hn
    · cases h

/-! ## Brackets -/

inductive Bracket where
  | square
  | curly
  deriving DecidableEq

/-- Skips a key that has to stand here, and the colon behind it. -/
def skipKey (text : Input) : Except Fault Input :=
  match skipSpace text with
  | [] => .error (.next .endInObject [])
  | '"' :: rest =>
    match skipString rest with
    | .error fault => .error fault
    | .ok rest => colon rest
  | rest => .error (.next .keyExpected rest)

theorem length_lt_of_skipKey {text rest : Input} (h : skipKey text = .ok rest) :
    rest.length < text.length := by
  have hs := length_skipSpace_le text
  unfold skipKey at h
  split at h
  · cases h
  · next heq =>
    rw [heq] at hs
    split at h
    · cases h
    · next hstr =>
      have := length_lt_of_skipString hstr
      have := length_lt_of_colon h
      simp only [List.length_cons] at hs; omega
  · cases h

/-- Goes to the value of the item at `text`: at once in a list, behind the key in
an object. -/
def enterItem : Bracket → Input → Except Fault Input
  | .square, text => .ok text
  | .curly, text => skipKey text

theorem length_le_of_enterItem {bracket : Bracket} {text rest : Input}
    (h : enterItem bracket text = .ok rest) : rest.length ≤ text.length := by
  cases bracket with
  | square => cases h; exact Nat.le_refl _
  | curly => exact Nat.le_of_lt (length_lt_of_skipKey h)

def Bracket.closing : Bracket → Char
  | .square => ']'
  | .curly => '}'

def Bracket.endCause : Bracket → Cause
  | .square => .endInList
  | .curly => .endInObject

def Bracket.commaCause : Bracket → Cause
  | .square => .listCommaExpected
  | .curly => .objectCommaExpected

/-- Goes on behind an opening bracket: to its first value, or behind the bracket
that closes it at once. -/
def enterBracket (bracket : Bracket) (text : Input) : Except Fault (Next Unit) :=
  match skipSpace text with
  | [] => .error (.next bracket.endCause [])
  | c :: rest =>
    if c = bracket.closing then .ok (.close rest)
    else
      match enterItem bracket (c :: rest) with
      | .error fault => .error fault
      | .ok rest => .ok (.more () rest)

/-- Goes on behind an item: to the value of the next one, or behind the closing
bracket. -/
def leaveItem (bracket : Bracket) (text : Input) : Except Fault (Next Unit) :=
  match skipSpace text with
  | [] => .error (.next bracket.endCause [])
  | c :: rest =>
    if c = bracket.closing then .ok (.close rest)
    else if c = ',' then
      match enterItem bracket rest with
      | .error fault => .error fault
      | .ok rest => .ok (.more () rest)
    else .error (.next bracket.commaCause (c :: rest))

def Next.rest {α : Type} : Next α → Input
  | .close rest => rest
  | .more _ rest => rest

theorem length_le_of_enterBracket {bracket : Bracket} {text : Input} {next : Next Unit}
    (h : enterBracket bracket text = .ok next) : next.rest.length ≤ text.length := by
  have hs := length_skipSpace_le text
  unfold enterBracket at h
  split at h
  · cases h
  · next heq =>
    rw [heq] at hs
    split at h
    · cases h; simp only [List.length_cons, Next.rest] at hs ⊢; omega
    · split at h
      · cases h
      · next he =>
        cases h
        have := length_le_of_enterItem he
        simp only [Next.rest]; omega

theorem length_lt_of_leaveItem {bracket : Bracket} {text : Input} {next : Next Unit}
    (h : leaveItem bracket text = .ok next) : next.rest.length < text.length := by
  have hs := length_skipSpace_le text
  unfold leaveItem at h
  split at h
  · cases h
  · next heq =>
    rw [heq] at hs
    split at h
    · cases h; exact hs
    · split at h
      · split at h
        · cases h
        · next he =>
          cases h
          have := length_le_of_enterItem he
          simp only [List.length_cons, Next.rest] at hs ⊢; omega
      · cases h

/-- What is left to be done while skipping: a value has to come, or a value is
behind and the brackets around it have to be closed. -/
inductive Stage where
  | before
  | behind
  deriving DecidableEq

/-- Skips up to the end of the outermost value.  `stack` holds the open
brackets. -/
def skipFrom (stage : Stage) (stack : List Bracket) (text : Input) : Except Fault Input :=
  match stage, stack with
  | .before, stack =>
    match _hs : skipSpace text with
    | '[' :: rest =>
      match _h : enterBracket .square rest with
      | .error fault => .error fault
      | .ok (.close rest) => skipFrom .behind stack rest
      | .ok (.more _ rest) => skipFrom .before (.square :: stack) rest
    | '{' :: rest =>
      match _h : enterBracket .curly rest with
      | .error fault => .error fault
      | .ok (.close rest) => skipFrom .behind stack rest
      | .ok (.more _ rest) => skipFrom .before (.curly :: stack) rest
    | rest =>
      match _h : skipScalar rest with
      | .error fault => .error fault
      | .ok rest => skipFrom .behind stack rest
  | .behind, [] => .ok text
  | .behind, bracket :: stack =>
    match _h : leaveItem bracket text with
    | .error fault => .error fault
    | .ok (.close rest) => skipFrom .behind stack rest
    | .ok (.more _ rest) => skipFrom .before (bracket :: stack) rest
termination_by text.length
decreasing_by
  all_goals have hlen := length_skipSpace_le text
  · have := length_le_of_enterBracket _h
    rw [_hs] at hlen
    simp only [List.length_cons, Next.rest] at *; omega
  · have := length_le_of_enterBracket _h
    rw [_hs] at hlen
    simp only [List.length_cons, Next.rest] at *; omega
  · have := length_le_of_enterBracket _h
    rw [_hs] at hlen
    simp only [List.length_cons, Next.rest] at *; omega
  · have := length_le_of_enterBracket _h
    rw [_hs] at hlen
    simp only [List.length_cons, Next.rest] at *; omega
  · have := length_lt_of_skipScalar _h
    rw [_hs] at hlen; omega
  · exact length_lt_of_leaveItem _h
  · exact length_lt_of_leaveItem _h

def skipValue (text : Input) : Except Fault Input := skipFrom .before [] text

theorem length_le_of_skipFrom {stage : Stage} {stack : List Bracket} {text rest : Input}
    (h : skipFrom stage stack text = .ok rest) : rest.length ≤ text.length := by
  fun_induction skipFrom stage stack text with
  | case1 => cases h
  | case2 text stack tail hs left he ih | case5 text stack tail hs left he ih =>
    have hlen := length_skipSpace_le text
    have := length_le_of_enterBracket he
    have := ih h
    rw [hs] at hlen
    simp only [List.length_cons, Next.rest] at *; omega
  | case3 text stack tail hs u left he ih | case6 text stack tail hs u left he ih =>
    have hlen := length_skipSpace_le text
    have := length_le_of_enterBracket he
    have := ih h
    rw [hs] at hlen
    simp only [List.length_cons, Next.rest] at *; omega
  | case4 => cases h
  | case7 => cases h
  | case8 text stack _ _ left hs ih =>
    have hlen := length_skipSpace_le text
    have := length_lt_of_skipScalar hs
    have := ih h
    omega
  | case9 => cases h; exact Nat.le_refl _
  | case10 => cases h
  | case11 text bracket stack left hl ih =>
    have := length_lt_of_leaveItem hl
    have := ih h
    simp only [Next.rest] at *; omega
  | case12 text bracket stack u left hl ih =>
    have := length_lt_of_leaveItem hl
    have := ih h
    simp only [Next.rest] at *; omega

theorem length_le_of_skipValue {text rest : Input} (h : skipValue text = .ok rest) :
    rest.length ≤ text.length :=
  length_le_of_skipFrom h

end Json
end TaintFlow
