/-
Typed readers of JSON values.

A reader turns the value at the start of a text into a typed one, or finds a
fault.  It always consumes something, which is what lets the readers of lists
and objects end.  Objects and lists may be nested to a limited depth, so their
readers take a budget: the number of brackets that may still be opened.
-/
import TaintFlow.Json.Numeral

namespace TaintFlow
namespace Json

structure Reader (α : Type) where
  run : Input → Outcome α
  length_lt : ∀ {text rest : Input} {a : α}, run text = .ok (a, rest) →
    rest.length < text.length

/-! ## Scalars -/

/-- Reads a literal word that stands for a value. -/
def literalValue (word : List Char) (value : Json) (text : Input) : Outcome Json :=
  match literal word text with
  | .error fault => .error fault
  | .ok rest => .ok (value, rest)

/-- Reads the numeral that the text starts with, and its value. -/
def numberHere (text : Input) : Outcome Number :=
  match numeral .endInValue text with
  | .error fault => .error fault
  | .ok (n, rest) =>
    match n.value rest with
    | .error fault => .error fault
    | .ok x => .ok (x, rest)

/-- Reads the value that the text starts with, unless it is a list or an object. -/
def scalar : Input → Outcome Json
  | 'n' :: rest => literalValue "ull".toList .null rest
  | 't' :: rest => literalValue "rue".toList (.bool true) rest
  | 'f' :: rest => literalValue "alse".toList (.bool false) rest
  | '"' :: rest =>
    match stringRest rest with
    | .error fault => .error fault
    | .ok (s, rest) => .ok (.string (String.ofList s), rest)
  | [] => .error (.next .endInValue [])
  | c :: rest =>
    if startsNumeral c then
      match numberHere (c :: rest) with
      | .error fault => .error fault
      | .ok (n, rest) => .ok (.number n, rest)
    else .error (.next .valueExpected (c :: rest))

theorem length_le_of_literalValue {word : List Char} {value v : Json} {text rest : Input}
    (h : literalValue word value text = .ok (v, rest)) : rest.length ≤ text.length := by
  unfold literalValue at h
  split at h
  · cases h
  · next hl => cases h; exact length_le_of_literal hl

theorem length_lt_of_numberHere {text rest : Input} {n : Number}
    (h : numberHere text = .ok (n, rest)) : rest.length < text.length := by
  unfold numberHere at h
  split at h
  · cases h
  · next hn =>
    split at h
    · cases h
    · cases h; exact length_lt_of_numeral hn

theorem length_lt_of_scalar {text rest : Input} {v : Json}
    (h : scalar text = .ok (v, rest)) : rest.length < text.length := by
  unfold scalar at h
  split at h
  · exact Nat.lt_succ_of_le (length_le_of_literalValue h)
  · exact Nat.lt_succ_of_le (length_le_of_literalValue h)
  · exact Nat.lt_succ_of_le (length_le_of_literalValue h)
  · split at h
    · cases h
    · next hs => cases h; exact Nat.lt_succ_of_lt (length_lt_of_stringRest hs)
  · cases h
  · split at h
    · split at h
      · cases h
      · next hn => cases h; exact length_lt_of_numberHere hn
    · cases h

def Found.ofScalar : Json → Found
  | .null => .null
  | .bool b => .bool b
  | .number n => .number n
  | .string s => .string s
  | .list _ => .list
  | .object _ => .object

/-- The fault of a value of another type than expected.  A scalar is read whole
first, so that a fault inside it wins. -/
def typeFault (expected : String) (text : Input) : Fault :=
  match text with
  | '[' :: _ => .behind (.wrongType .list expected) text
  | '{' :: _ => .behind (.wrongType .object expected) text
  | _ =>
    match scalar text with
    | .error fault => fault
    | .ok (value, rest) => .behind (.wrongType (.ofScalar value) expected) rest

/-! ## Simple readers -/

namespace Reader

variable {α β : Type}

/-- Reads with the reader that `reader` yields, which is built only when text is
there to be read. -/
def delay (reader : Unit → Reader α) : Reader α where
  run text := (reader ()).run text
  length_lt h := (reader ()).length_lt h

def map (f : α → β) (reader : Reader α) : Reader β where
  run text :=
    match reader.run text with
    | .error fault => .error fault
    | .ok (a, rest) => .ok (f a, rest)
  length_lt h := by
    split at h
    · cases h
    · next hr => cases h; exact reader.length_lt hr

/-- Reads a value and converts it; a value that does not convert is a fault of
the record it belongs to. -/
def convert (f : α → Option β) (cause : Cause) (reader : Reader α) : Reader β where
  run text :=
    match reader.run text with
    | .error fault => .error fault
    | .ok (a, rest) =>
      match f a with
      | some b => .ok (b, rest)
      | none => .error (.ofRecord cause rest)
  length_lt h := by
    split at h
    · cases h
    · next hr =>
      split at h
      · cases h; exact reader.length_lt hr
      · cases h

def string : Reader String where
  run text :=
    match skipSpace text with
    | [] => .error (.next .endInValue [])
    | '"' :: rest =>
      match stringRest rest with
      | .error fault => .error fault
      | .ok (s, rest) => .ok (String.ofList s, rest)
    | rest => .error (typeFault "a string" rest)
  length_lt {text _ _} h := by
    have hs := length_skipSpace_le text
    split at h
    · cases h
    · next heq =>
      rw [heq] at hs
      split at h
      · cases h
      · next hr =>
        cases h
        have := length_lt_of_stringRest hr
        simp only [List.length_cons] at hs; omega
    · cases h

def bool : Reader Bool where
  run text :=
    match skipSpace text with
    | [] => .error (.next .endInValue [])
    | 't' :: rest =>
      match literal "rue".toList rest with
      | .error fault => .error fault
      | .ok rest => .ok (true, rest)
    | 'f' :: rest =>
      match literal "alse".toList rest with
      | .error fault => .error fault
      | .ok rest => .ok (false, rest)
    | rest => .error (typeFault "a boolean" rest)
  length_lt {text _ _} h := by
    have hs := length_skipSpace_le text
    split at h
    · cases h
    · next heq =>
      rw [heq] at hs
      split at h
      · cases h
      · next hl =>
        cases h
        have := length_le_of_literal hl
        simp only [List.length_cons] at hs; omega
    · next heq =>
      rw [heq] at hs
      split at h
      · cases h
      · next hl =>
        cases h
        have := length_le_of_literal hl
        simp only [List.length_cons] at hs; omega
    · cases h

/-- Reads a null, whose type has no other value. -/
def unit : Reader Unit where
  run text :=
    match skipSpace text with
    | [] => .error (.next .endInValue [])
    | 'n' :: rest =>
      match literal "ull".toList rest with
      | .error fault => .error fault
      | .ok rest => .ok ((), rest)
    | rest => .error (typeFault "unit" rest)
  length_lt {text _ _} h := by
    have hs := length_skipSpace_le text
    split at h
    · cases h
    · next heq =>
      rw [heq] at hs
      split at h
      · cases h
      · next hl =>
        cases h
        have := length_le_of_literal hl
        simp only [List.length_cons] at hs; omega
    · cases h

/-- Reads a null as no value at all. -/
def optional (reader : Reader α) : Reader (Option α) where
  run text :=
    match skipSpace text with
    | 'n' :: rest =>
      match literal "ull".toList rest with
      | .error fault => .error fault
      | .ok rest => .ok (none, rest)
    | rest =>
      match reader.run rest with
      | .error fault => .error fault
      | .ok (a, rest) => .ok (some a, rest)
  length_lt {text _ _} h := by
    have hs := length_skipSpace_le text
    split at h
    · next heq =>
      rw [heq] at hs
      split at h
      · cases h
      · next hl =>
        cases h
        have := length_le_of_literal hl
        simp only [List.length_cons] at hs; omega
    · split at h
      · cases h
      · next hr =>
        cases h
        have := reader.length_lt hr
        omega

/-! ## Lists and objects -/

/-- The items of a list, up to and with the closing bracket. -/
def items (item : Reader α) (first : Bool) (text : Input) : Outcome (List α) :=
  match _h : nextItem first text with
  | .error fault => .error fault
  | .ok (.close rest) => .ok ([], rest.tail)
  | .ok (.more _ rest) =>
    match _hi : item.run rest with
    | .error fault => .error fault
    | .ok (a, rest) =>
      match items item false rest with
      | .error fault => .error fault
      | .ok (as, rest) => .ok (a :: as, rest)
termination_by text.length
decreasing_by
  have := length_le_of_nextItem _h
  have := item.length_lt _hi
  omega

/-- The entries of an object, up to and with the closing bracket. -/
def entries (value : Reader α) (first : Bool) (text : Input) : Outcome (List (String × α)) :=
  match _h : nextKey first text with
  | .error fault => .error fault
  | .ok (.close rest) => .ok ([], rest.tail)
  | .ok (.more key rest) =>
    match _hc : colon rest with
    | .error fault => .error fault
    | .ok rest =>
      match _hv : value.run rest with
      | .error fault => .error fault
      | .ok (a, rest) =>
        match entries value false rest with
        | .error fault => .error fault
        | .ok (as, rest) => .ok ((key, a) :: as, rest)
termination_by text.length
decreasing_by
  have := length_lt_of_nextKey _h
  have := length_lt_of_colon _hc
  have := value.length_lt _hv
  omega

theorem tail_length_lt_of_nextItem_close {first : Bool} {text rest : Input}
    (h : nextItem first text = .ok (.close rest)) : rest.tail.length < text.length := by
  have hs := length_skipSpace_le text
  unfold nextItem at h
  split at h
  · cases h
  · next heq => cases h; rw [heq] at hs; exact hs
  · split at h
    · cases h
    · split at h
      · split at h <;> cases h
      · cases h

theorem tail_length_lt_of_nextKey_close {first : Bool} {text rest : Input}
    (h : nextKey first text = .ok (.close rest)) : rest.tail.length < text.length := by
  have hs := length_skipSpace_le text
  have hk : ∀ {t : Input}, keyHere t ≠ .ok (.close rest) := by
    intro t ht
    unfold keyHere at ht
    split at ht
    · split at ht <;> cases ht
    · cases ht
  unfold nextKey at h
  split at h
  · cases h
  · next heq => cases h; rw [heq] at hs; exact hs
  · split at h
    · exact absurd h hk
    · split at h
      · split at h
        · cases h
        · cases h
        · exact absurd h hk
      · cases h

theorem length_lt_of_items {item : Reader α} {first : Bool} {text rest : Input} {as : List α}
    (h : items item first text = .ok (as, rest)) : rest.length < text.length := by
  fun_induction items item first text generalizing as rest with
  | case1 => cases h
  | case2 first text left hn => cases h; exact tail_length_lt_of_nextItem_close hn
  | case3 => cases h
  | case4 => cases h
  | case5 first text u left hn a tail hi bs end_ hs ih =>
    cases h
    have := length_le_of_nextItem hn
    have := item.length_lt hi
    have := ih hs
    omega

theorem length_lt_of_entries {value : Reader α} {first : Bool} {text rest : Input}
    {as : List (String × α)} (h : entries value first text = .ok (as, rest)) :
    rest.length < text.length := by
  fun_induction entries value first text generalizing as rest with
  | case1 => cases h
  | case2 first text left hn => cases h; exact tail_length_lt_of_nextKey_close hn
  | case3 => cases h
  | case4 => cases h
  | case5 => cases h
  | case6 first text key left hn tail hc a tail' hv bs end_ hs ih =>
    cases h
    have := length_lt_of_nextKey hn
    have := length_lt_of_colon hc
    have := value.length_lt hv
    have := ih hs
    omega

/-- Reads a list.  `budget` is the number of brackets that may be opened. -/
def list (budget : Nat) (item : Reader α) : Reader (List α) where
  run text :=
    match skipSpace text with
    | [] => .error (.next .endInValue [])
    | '[' :: rest =>
      if budget = 0 then .error (.next .tooDeep ('[' :: rest)) else items item true rest
    | rest => .error (typeFault "a sequence" rest)
  length_lt {text _ _} h := by
    have hs := length_skipSpace_le text
    split at h
    · cases h
    · next heq =>
      rw [heq] at hs
      split at h
      · cases h
      · have := length_lt_of_items h
        simp only [List.length_cons] at hs; omega
    · cases h

/-- Reads an object as its entries.  `budget` is the number of brackets that may
be opened. -/
def object (budget : Nat) (value : Reader α) : Reader (List (String × α)) where
  run text :=
    match skipSpace text with
    | [] => .error (.next .endInValue [])
    | '{' :: rest =>
      if budget = 0 then .error (.next .tooDeep ('{' :: rest)) else entries value true rest
    | rest => .error (typeFault "a map" rest)
  length_lt {text _ _} h := by
    have hs := length_skipSpace_le text
    split at h
    · cases h
    · next heq =>
      rw [heq] at hs
      split at h
      · cases h
      · have := length_lt_of_entries h
        simp only [List.length_cons] at hs; omega
    · cases h

/-- Reads a value of any type, given the reader of the values inside it. -/
def valueOver (budget : Nat) (inner : Reader Json) : Reader Json where
  run text :=
    match skipSpace text with
    | '[' :: rest => ((list budget inner).map Json.list).run ('[' :: rest)
    | '{' :: rest => ((object budget inner).map Json.object).run ('{' :: rest)
    | rest => scalar rest
  length_lt {text _ _} h := by
    have hs := length_skipSpace_le text
    split at h
    · next heq =>
      have := ((list budget inner).map Json.list).length_lt h
      rw [heq] at hs; omega
    · next heq =>
      have := ((object budget inner).map Json.object).length_lt h
      rw [heq] at hs; omega
    · have := length_lt_of_scalar h
      omega

/-- Reads a value that is neither a list nor an object. -/
def scalarOnly : Reader Json where
  run := scalar
  length_lt := length_lt_of_scalar

/-- Reads a value of any type with at most `budget` brackets open at once. -/
def value : (budget : Nat) → Reader Json
  | 0 => valueOver 0 scalarOnly
  | budget + 1 => .delay fun _ => valueOver (budget + 1) (value budget)

/-! ## Whole texts -/

/-- Reads a text that holds one value and nothing but blanks around it. -/
def readAll (reader : Reader α) (text : Input) : Except Failure α :=
  match reader.run text with
  | .error fault => .error (fault.report text)
  | .ok (a, rest) =>
    match skipSpace rest with
    | [] => .ok a
    | rest => .error ((Fault.next .trailingCharacters rest).report text)

end Reader

/-- The number of brackets that may be open at once in a text. -/
def greatestDepth : Nat := 127

end Json
end TaintFlow
