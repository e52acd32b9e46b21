/-
Scanning the tokens of a JSON text.

A scanner takes the unread text and returns what it found together with the text
behind it, or a fault.  Each comes with a lemma that bounds the text it leaves,
which is what the loops over items and entries end by.
-/
import TaintFlow.Json.Fault
import TaintFlow.Text.Hexadecimal

namespace TaintFlow
namespace Json

/-- What reading some text leads to: a result and the unread rest, or a fault. -/
abbrev Outcome (α : Type) := Except Fault (α × Input)

/-- The blanks between tokens. -/
def isSpace (c : Char) : Bool := c == ' ' || c == '\n' || c == '\t' || c == '\r'

def skipSpace (text : Input) : Input := text.dropWhile isSpace

theorem length_skipSpace_le (text : Input) : (skipSpace text).length ≤ text.length :=
  (List.dropWhile_sublist _).length_le

/-! ## Literals -/

def literal : List Char → Input → Except Fault Input
  | [], text => .ok text
  | _ :: _, [] => .error (.behind .endInValue [])
  | w :: word, c :: rest =>
    if c = w then literal word rest else .error (.next .literalExpected (c :: rest))

theorem length_le_of_literal {word : List Char} {text rest : Input}
    (h : literal word text = .ok rest) : rest.length ≤ text.length := by
  fun_induction literal word text with
  | case1 text => cases h; exact Nat.le_refl _
  | case2 => cases h
  | case3 w word tail ih => exact Nat.le_succ_of_le (ih h)
  | case4 => cases h

/-! ## Strings -/

/-- The fault of four bytes that are no hexadecimal digits, or of fewer than four
bytes. -/
def hexFault (text : Input) : Fault :=
  if Text.byteCount text < 4 then .behind .endInString []
  else { cause := .invalidEscape, rest := text, ahead := 4 }

/-- Reads a code unit of four hexadecimal digits. -/
def hexUnit : Input → Outcome Nat
  | a :: b :: c :: d :: rest =>
    match Text.hexDigit? a, Text.hexDigit? b, Text.hexDigit? c, Text.hexDigit? d with
    | some a, some b, some c, some d => .ok (((a * 16 + b) * 16 + c) * 16 + d, rest)
    | _, _, _, _ => .error (hexFault (a :: b :: c :: d :: rest))
  | text => .error (hexFault text)

def isHighSurrogate (unit : Nat) : Bool := 0xD800 ≤ unit && unit < 0xDC00

def isLowSurrogate (unit : Nat) : Bool := 0xDC00 ≤ unit && unit < 0xE000

def pairChar (high low : Nat) : Char :=
  Char.ofNat (0x10000 + (high - 0xD800) * 0x400 + (low - 0xDC00))

def lowSurrogate (high : Nat) : Input → Outcome Char
  | [] | ['\\'] => .error (.behind .endInString [])
  | '\\' :: 'u' :: rest =>
    match hexUnit rest with
    | .error fault => .error fault
    | .ok (low, rest) =>
      if isLowSurrogate low then .ok (pairChar high low, rest)
      else .error (.behind .loneSurrogate rest)
  | '\\' :: c :: rest => .error (.next .brokenSurrogatePair (c :: rest))
  | c :: rest => .error (.next .brokenSurrogatePair (c :: rest))

/-- Reads a character given by one code unit, or by two that form a surrogate
pair. -/
def unicodeEscape (text : Input) : Outcome Char :=
  match hexUnit text with
  | .error fault => .error fault
  | .ok (unit, rest) =>
    if isLowSurrogate unit then .error (.behind .loneSurrogate rest)
    else if isHighSurrogate unit then lowSurrogate unit rest
    else .ok (Char.ofNat unit, rest)

/-- The character that a letter behind a backslash stands for. -/
def simpleEscape? (c : Char) : Option Char :=
  match c with
  | '"' => some '"'
  | '\\' => some '\\'
  | '/' => some '/'
  | 'b' => some '\x08'
  | 'f' => some '\x0c'
  | 'n' => some '\n'
  | 'r' => some '\r'
  | 't' => some '\t'
  | _ => none

/-- Reads an escape, behind its backslash. -/
def escapedChar : Input → Outcome Char
  | [] => .error (.behind .endInString [])
  | 'u' :: rest => unicodeEscape rest
  | c :: rest =>
    match simpleEscape? c with
    | some d => .ok (d, rest)
    | none => .error (.next .invalidEscape (c :: rest))

theorem length_lt_of_hexUnit {text rest : Input} {n : Nat} (h : hexUnit text = .ok (n, rest)) :
    rest.length < text.length := by
  unfold hexUnit at h
  split at h
  · split at h
    · cases h; simp only [List.length_cons]; omega
    · cases h
  · cases h

theorem length_lt_of_lowSurrogate {high : Nat} {text rest : Input} {c : Char}
    (h : lowSurrogate high text = .ok (c, rest)) : rest.length < text.length := by
  unfold lowSurrogate at h
  split at h
  · cases h
  · cases h
  · split at h
    · cases h
    · next low tail hlow =>
      split at h
      · simp only [Except.ok.injEq, Prod.mk.injEq] at h
        obtain ⟨-, rfl⟩ := h
        have := length_lt_of_hexUnit hlow
        simp only [List.length_cons]; omega
      · cases h
  · cases h
  · cases h

theorem length_lt_of_escapedChar {text rest : Input} {c : Char}
    (h : escapedChar text = .ok (c, rest)) : rest.length < text.length := by
  unfold escapedChar at h
  split at h
  · cases h
  · unfold unicodeEscape at h
    split at h
    · cases h
    · next unit tail hunit =>
      have := length_lt_of_hexUnit hunit
      split at h
      · cases h
      · split at h
        · have := length_lt_of_lowSurrogate h
          simp only [List.length_cons]; omega
        · cases h
          simp only [List.length_cons]; omega
  · split at h
    · cases h; simp
    · cases h

/-- Whether a character may not stand in a string as it is. -/
def isControl (c : Char) : Bool := c.toNat < 0x20

/-- Reads a string behind its opening quote, up to and with the closing one. -/
def stringRest (text : Input) : Outcome (List Char) :=
  match text with
  | [] => .error (.behind .endInString [])
  | '"' :: rest => .ok ([], rest)
  | '\\' :: rest =>
    match _h : escapedChar rest with
    | .error fault => .error fault
    | .ok (c, tail) =>
      match stringRest tail with
      | .error fault => .error fault
      | .ok (cs, rest) => .ok (c :: cs, rest)
  | c :: rest =>
    if isControl c then .error (.next .controlCharacter (c :: rest))
    else
      match stringRest rest with
      | .error fault => .error fault
      | .ok (cs, rest) => .ok (c :: cs, rest)
termination_by text.length
decreasing_by
  · have := length_lt_of_escapedChar _h
    simp only [List.length_cons]; omega
  · simp

theorem length_lt_of_stringRest {text rest : Input} {s : List Char}
    (h : stringRest text = .ok (s, rest)) : rest.length < text.length := by
  fun_induction stringRest text generalizing s rest with
  | case1 => cases h
  | case2 => cases h; simp
  | case3 => cases h
  | case4 => cases h
  | case5 rest c tail hc cs left hs ih =>
    cases h
    have := length_lt_of_escapedChar hc
    have := ih hs
    simp only [List.length_cons]; omega
  | case6 => cases h
  | case7 => cases h
  | case8 c rest _ _ _ cs left hs ih =>
    cases h
    have := ih hs
    simp only [List.length_cons]; omega

/-! ## Punctuation -/

def colon (text : Input) : Except Fault Input :=
  match skipSpace text with
  | [] => .error (.next .endInObject [])
  | ':' :: rest => .ok rest
  | rest => .error (.next .colonExpected rest)

theorem length_lt_of_colon {text rest : Input} (h : colon text = .ok rest) :
    rest.length < text.length := by
  have hs := length_skipSpace_le text
  unfold colon at h
  split at h
  · cases h
  · next heq => cases h; rw [heq] at hs; exact hs
  · cases h

/-- What stands behind an opening bracket or an item: the closing bracket, or the
next item. -/
inductive Next (α : Type) where
  /-- No item follows; the rest starts with the closing bracket. -/
  | close (rest : Input)
  | more (a : α) (rest : Input)

/-- Looks for the next item of a list.  `first` tells that none was read yet, so
that no comma stands before it. -/
def nextItem (first : Bool) (text : Input) : Except Fault (Next Unit) :=
  match skipSpace text with
  | [] => .error (.next .endInList [])
  | ']' :: rest => .ok (.close (']' :: rest))
  | c :: rest =>
    if first then .ok (.more () (c :: rest))
    else if c = ',' then
      match skipSpace rest with
      | [] => .error (.next .endInValue [])
      | ']' :: rest => .error (.next .trailingComma (']' :: rest))
      | rest => .ok (.more () rest)
    else .error (.next .listCommaExpected (c :: rest))

theorem length_le_of_nextItem {first : Bool} {text rest : Input}
    (h : nextItem first text = .ok (.more () rest)) : rest.length ≤ text.length := by
  have hs := length_skipSpace_le text
  unfold nextItem at h
  split at h
  · cases h
  · cases h
  · next c tail _ heq =>
    rw [heq] at hs
    split at h
    · cases h; exact hs
    · split at h
      · have ht := length_skipSpace_le tail
        split at h
        · cases h
        · cases h
        · cases h
          simp only [List.length_cons] at hs; omega
      · cases h

theorem length_le_of_nextItem_close {first : Bool} {text rest : Input}
    (h : nextItem first text = .ok (.close rest)) : rest.length ≤ text.length := by
  have hs := length_skipSpace_le text
  unfold nextItem at h
  split at h
  · cases h
  · next heq => cases h; rw [heq] at hs; exact hs
  · split at h
    · cases h
    · split at h
      · split at h <;> cases h
      · cases h

def keyHere (text : Input) : Except Fault (Next String) :=
  match text with
  | '"' :: rest =>
    match stringRest rest with
    | .error fault => .error fault
    | .ok (key, rest) => .ok (.more (String.ofList key) rest)
  | rest => .error (.next .keyExpected rest)

/-- Looks for the next entry of an object and reads its key. -/
def nextKey (first : Bool) (text : Input) : Except Fault (Next String) :=
  match skipSpace text with
  | [] => .error (.next .endInObject [])
  | '}' :: rest => .ok (.close ('}' :: rest))
  | c :: rest =>
    if first then keyHere (c :: rest)
    else if c = ',' then
      match skipSpace rest with
      | [] => .error (.next .endInValue [])
      | '}' :: rest => .error (.next .trailingComma ('}' :: rest))
      | rest => keyHere rest
    else .error (.next .objectCommaExpected (c :: rest))

theorem length_lt_of_keyHere {text rest : Input} {key : String}
    (h : keyHere text = .ok (.more key rest)) : rest.length < text.length := by
  unfold keyHere at h
  split at h
  · next tail =>
    split at h
    · cases h
    · next cs left hs =>
      cases h
      have := length_lt_of_stringRest hs
      simp only [List.length_cons]; omega
  · cases h

theorem length_lt_of_nextKey {first : Bool} {text rest : Input} {key : String}
    (h : nextKey first text = .ok (.more key rest)) : rest.length < text.length := by
  have hs := length_skipSpace_le text
  unfold nextKey at h
  split at h
  · cases h
  · cases h
  · next c tail _ heq =>
    rw [heq] at hs
    split at h
    · have := length_lt_of_keyHere h
      omega
    · split at h
      · have ht := length_skipSpace_le tail
        split at h
        · cases h
        · cases h
        · have := length_lt_of_keyHere h
          simp only [List.length_cons] at hs; omega
      · cases h

/-- Closes a list behind its last expected item. -/
def closeList (text : Input) : Except Fault Input :=
  match skipSpace text with
  | [] => .error (.next .endInList [])
  | ']' :: rest => .ok rest
  | ',' :: rest =>
    match skipSpace rest with
    | ']' :: rest => .error (.next .trailingComma (']' :: rest))
    | rest => .error (.next .trailingCharacters rest)
  | rest => .error (.next .trailingCharacters rest)

theorem length_lt_of_closeList {text rest : Input} (h : closeList text = .ok rest) :
    rest.length < text.length := by
  have hs := length_skipSpace_le text
  unfold closeList at h
  split at h
  · cases h
  · next heq => cases h; rw [heq] at hs; exact hs
  · split at h <;> cases h
  · cases h

/-- Where closing a list leads that has a fault. -/
def giveUpList (text : Input) : Input :=
  match skipSpace text with
  | ']' :: rest => rest
  | ',' :: rest => skipSpace rest
  | rest => rest

/-- Where closing an object leads that has a fault. -/
def giveUpObject (text : Input) : Input :=
  match skipSpace text with
  | '}' :: rest => rest
  | rest => rest

end Json
end TaintFlow
