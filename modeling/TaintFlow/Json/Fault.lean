/-
Faults in a JSON text.

A fault has a cause and a point in the text.  The point is given by the part of
the text that was unread when the fault arose, and by the number of bytes from
there on: none when the fault lies in what was read last, one when it is the
next byte that is wrong.  It never lies beyond the end of the text.  A point is
reported as a line, counted from one, and the number of bytes since the start of
that line.

A fault of a record as a whole is open at first.  It gets its point when the
record is closed.
-/
import TaintFlow.Json.Printer
import TaintFlow.Text.Bytes
import TaintFlow.Text.Quoted

namespace TaintFlow
namespace Json

/-- The part of a text that is still unread. -/
abbrev Input := List Char

/-- What stands where something else was expected. -/
inductive Found where
  | null
  | bool (b : Bool)
  | number (n : Number)
  | string (s : String)
  | list
  | object
  deriving DecidableEq

def Found.text : Found → String
  | null => "null"
  | bool true => "boolean `true`"
  | bool false => "boolean `false`"
  | number (.int n) => "integer `" ++ n.repr ++ "`"
  | number (.real negative x) =>
    "floating point `" ++ String.ofList (Number.real negative x).text ++ "`"
  | string s => "string " ++ Text.quoted s
  | list => "sequence"
  | object => "map"

inductive Cause where
  | endInValue
  | endInList
  | endInObject
  | endInString
  | valueExpected
  | colonExpected
  | listCommaExpected
  | objectCommaExpected
  | literalExpected
  | keyExpected
  | trailingComma
  | trailingCharacters
  | invalidNumber
  | numberOutOfRange
  | invalidEscape
  | controlCharacter
  | loneSurrogate
  | brokenSurrogatePair
  | tooDeep
  | wrongType (found : Found) (expected : String)
  | unknownTag (tag : String) (known : List String)
  | missingField (key : String)
  | duplicateField (key : String)
  | shortRecord (length : Nat) (title : String) (size : Nat)
  | unmatched (title : String)
  deriving DecidableEq

namespace Cause

/-- A name between backquotes. -/
def named (name : String) : String := "`" ++ name ++ "`"

def message : Cause → String
  | endInValue => "EOF while parsing a value"
  | endInList => "EOF while parsing a list"
  | endInObject => "EOF while parsing an object"
  | endInString => "EOF while parsing a string"
  | valueExpected => "expected value"
  | colonExpected => "expected `:`"
  | listCommaExpected => "expected `,` or `]`"
  | objectCommaExpected => "expected `,` or `\x7d`"
  | literalExpected => "expected ident"
  | keyExpected => "key must be a string"
  | trailingComma => "trailing comma"
  | trailingCharacters => "trailing characters"
  | invalidNumber => "invalid number"
  | numberOutOfRange => "number out of range"
  | invalidEscape => "invalid escape"
  | controlCharacter => "control character (\\u0000-\\u001F) found while parsing a string"
  | loneSurrogate => "lone leading surrogate in hex escape"
  | brokenSurrogatePair => "unexpected end of hex escape"
  | tooDeep => "recursion limit exceeded"
  | wrongType found expected => "invalid type: " ++ found.text ++ ", expected " ++ expected
  | unknownTag tag known =>
    "unknown variant " ++ named tag ++ ", expected one of " ++
      ", ".intercalate (known.map named)
  | missingField key => "missing field " ++ named key
  | duplicateField key => "duplicate field " ++ named key
  | shortRecord length title size =>
    "invalid length " ++ length.repr ++ ", expected " ++ title ++ " with " ++ size.repr ++
      " elements"
  | unmatched title => "data did not match any variant of " ++ title

end Cause

structure Fault where
  cause : Cause
  /-- The text that was unread. -/
  rest : Input
  /-- The number of unread bytes up to the point. -/
  ahead : Nat
  /-- Whether the point waits for a record to be closed. -/
  isOpen : Bool := false
  deriving DecidableEq

namespace Fault

/-- A fault in what was read last. -/
def behind (cause : Cause) (rest : Input) : Fault := { cause, rest, ahead := 0 }

/-- A fault of the next byte. -/
def next (cause : Cause) (rest : Input) : Fault := { cause, rest, ahead := 1 }

/-- A fault of the record that is being read. -/
def ofRecord (cause : Cause) (rest : Input) : Fault := { cause, rest, ahead := 0, isOpen := true }

/-- An open fault gets the point that closing the record leads to. -/
def settle (close : Input → Input) (fault : Fault) : Fault :=
  if fault.isOpen then .behind fault.cause (close fault.rest) else fault

/-- The number of bytes of the text from the point on. -/
def bytesLeft (fault : Fault) : Nat := Text.byteCount fault.rest - fault.ahead

end Fault

/-- A place in a text: its line, and the bytes of that line before it. -/
structure Place where
  line : Nat
  column : Nat
  deriving DecidableEq, Repr

/-- The place `offset` bytes into the text, which itself starts at `place`. -/
def Place.advance (place : Place) : Nat → Input → Place
  | _, [] => place
  | offset, c :: rest =>
    if offset < c.utf8Size then { place with column := place.column + offset }
    else if c = '\n' then advance ⟨place.line + 1, 0⟩ (offset - 1) rest
    else advance ⟨place.line, place.column + c.utf8Size⟩ (offset - c.utf8Size) rest

structure Failure where
  cause : Cause
  place : Place
  deriving DecidableEq

/-- The fault as reported for the text it was found in. -/
def Fault.report (text : Input) (fault : Fault) : Failure :=
  ⟨fault.cause, Place.advance ⟨1, 0⟩ (Text.byteCount text - fault.bytesLeft) text⟩

def Failure.message (failure : Failure) : String :=
  failure.cause.message ++ " at line " ++ failure.place.line.repr ++ " column " ++
    failure.place.column.repr

end Json
end TaintFlow
