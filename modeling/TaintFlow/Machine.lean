/-
What a machine can count and hold.

A machine counts in words of 64 bits, and its texts take so many bytes at most.  Where
a number is no word, or a text too long, it stops.  Only a machine that does not check
its sums goes on with what is left of a sum in a word.
-/
namespace TaintFlow

/-- The least number that is no word. -/
def wordCount : Nat := UInt64.size

/-- Why a machine stops. -/
inductive Halt where
  /-- A sum or a difference is no word. -/
  | overflow
  /-- A text is longer than any that the machine can hold. -/
  | capacity
  deriving DecidableEq, Repr

def Halt.message : Halt → String
  | overflow => "arithmetic overflow"
  | capacity => "capacity overflow"

structure Machine where
  /-- Whether the machine stops at a sum or a difference that is no word. -/
  checked : Bool
  /-- The number of bytes of the longest text that the machine can hold. -/
  capacity : Nat
  /-- A length and a sign fit in a word together. -/
  capacity_lt : 2 * capacity < wordCount

namespace Machine

/-- The machine that does not check its sums and has as much room as a machine can. -/
def widest : Machine where
  checked := false
  capacity := wordCount / 2 - 1
  capacity_lt := by decide

variable (machine : Machine)

def add (a b : Nat) : Except Halt Nat :=
  if a + b < wordCount then .ok (a + b)
  else if machine.checked then .error .overflow
  else .ok ((a + b) % wordCount)

def sub (a b : Nat) : Except Halt Nat :=
  if b ≤ a then .ok (a - b)
  else if machine.checked then .error .overflow
  else .ok (a + wordCount - b)

/-- A text with more behind it. -/
def append (text more : String) : Except Halt String :=
  if text.utf8ByteSize + more.utf8ByteSize ≤ machine.capacity then .ok (text ++ more)
  else .error .capacity

/-- A text that is so many times the same character. -/
def fill (c : Char) (count : Nat) : Except Halt String :=
  if count * c.utf8Size ≤ machine.capacity then .ok (String.ofList (List.replicate count c))
  else .error .capacity

end Machine
end TaintFlow
