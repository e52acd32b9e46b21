/-
Directives of a log setting.

A directive says up to which level notices are shown, and which notices it
speaks of: those whose source starts with a text, those that have a field, or
those given inside a span.  It is written in one of these forms, in each of which
the parts in parentheses may be left out.

  level
  source
  source=(level)
  (source)[(span)](=(level))
  (source)[(span){field(=value)}](=(level))

Without a level everything is shown.  A program without spans gives no notice
inside one, and values are known of the fields of spans only, so a directive with
a span or a value speaks of no notice at all.  The value has to be a number or a
pattern all the same.
-/
import TaintFlow.Command.FieldValue
import TaintFlow.Notice
import TaintFlow.Text.Alphanumeric
import TaintFlow.Text.Bytes

namespace TaintFlow
namespace Command

structure LogDirective where
  /-- The text that the source of a notice has to start with. -/
  source : String := ""
  /-- The field that a notice has to have. -/
  field : Option String := none
  /-- Whether it speaks of what is inside a span. -/
  inSpan : Bool := false
  detail : Nat
  deriving DecidableEq

namespace LogDirective

/-! ## Levels -/

/-- The detail that a name stands for.  `off` lets nothing pass. -/
def namedDetail? (name : String) : Option Nat :=
  (("off", 0) :: Level.all.map fun level => (level.name.toLower, level.detail)).lookup
    name.toLower

/-- The detail that is given as a number, perhaps with a plus sign. -/
def numberedDetail? (text : List Char) : Option Nat :=
  let digits := if text.head? = some '+' then text.tail else text
  let n := digits.foldl (fun n d => 10 * n + (d.toNat - '0'.toNat)) 0
  if !digits.isEmpty && digits.all Char.isDigit && n ≤ Level.trace.detail then some n else none

def detail? (text : List Char) : Option Nat :=
  numberedDetail? text <|> namedDetail? (String.ofList text)

/-! ## Reading -/

/-- The characters that a source may start with. -/
def startsSource (c : Char) : Bool := Text.isAlphanumeric c || ['-', ':', '_'].contains c

/-- The directive with the level that is written behind its equals sign.  A
directive that starts with a blank has no level. -/
def withLevel? (directive : LogDirective) (level : List Char) : Option LogDirective :=
  if Text.indent directive.source.toList ≠ 0 then none
  else if level.isEmpty then some directive
  else (detail? level).map fun detail => { directive with detail }

/-- The directive with what is written behind its closing bracket. -/
def closed? (directive : LogDirective) (rest : List Char) : Option LogDirective :=
  match rest with
  | '=' :: level => directive.withLevel? level
  | _ => if Text.isAllBlank rest then some directive else none

/-- The field that stands behind the first part of a directive.  Blanks that the
directive starts with count twice: the field begins as many bytes too early, and
ends as many too early. -/
def fieldBehind (before field : List Char) : List Char :=
  let blanks := Text.byteCount (before.takeWhile Text.isBlank)
  Text.takeBytes (Text.byteCount field)
    (Text.dropBytes (Text.byteCount before - blanks) (before ++ field))

/-- The directive that speaks of a field.  The value stands behind the first equals
sign of the field, and ends at the second. -/
def withField? (directive : LogDirective) (field : List Char) : Option LogDirective :=
  let value := (field.splitOn '=')[1]?
  if field.isEmpty || !value.all isFieldValue then none
  else some { directive with
    field := some (String.ofList field)
    inSpan := directive.inSpan || value.isSome }

/-- The directive with what is written behind its opening bracket. -/
def bracketed? (directive : LogDirective) (text : List Char) : Option LogDirective :=
  let span := text.takeWhile fun c => c ≠ ']' && c ≠ '{'
  match text.drop span.length with
  | ']' :: rest => closed? { directive with inSpan := true } rest
  | '{' :: rest =>
    let field := rest.takeWhile (· ≠ '}')
    let before := directive.source.toList ++ '[' :: span ++ ['{']
    match rest.drop field.length with
    | '}' :: ']' :: rest =>
      ({ directive with inSpan := !span.isEmpty }.withField? (fieldBehind before field)).bind
        (·.closed? rest)
    | _ => none
  | _ => none

/-- The directive that shows everything from a source. -/
def showing (source : List Char) : LogDirective :=
  { source := String.ofList source, detail := Level.trace.detail }

/-- The directive that a text without commas writes.  Blanks before a source and
behind it belong to it. -/
def ofText? (text : List Char) : Option LogDirective :=
  let start := Text.trimStart text
  if start.head? = some '[' then (showing (text.takeWhile Text.isBlank)).bracketed? start.tail
  else if start.head?.any startsSource then
    let source := text.takeWhile fun c => c ≠ '=' && c ≠ '['
    match text.drop source.length with
    | '=' :: level => (showing source).withLevel? level
    | _ :: rest => (showing source).bracketed? rest
    | [] => some (((detail? text).map fun detail => { detail }).getD (showing source))
  else none

/-! ## Choosing -/

def covers (directive : LogDirective) (notice : Notice) : Bool :=
  !directive.inSpan && directive.source.toList.isPrefixOf notice.source.toList &&
    directive.field.all notice.fieldNames.contains

/-- No field comes before any field, and fields come in the order of their names. -/
def fieldLe : Option String → Option String → Bool
  | none, _ => true
  | some _, none => false
  | some first, some second => first ≤ second

/-- Whether the second of two directives is at least as special as the first.  A
longer source is more special than a shorter one, and then a field than none. -/
def specialLe (first second : LogDirective) : Bool :=
  first.source.utf8ByteSize < second.source.utf8ByteSize ||
    first.source.utf8ByteSize == second.source.utf8ByteSize &&
      fieldLe first.field second.field

/-- The more special of two directives, the second if both are as special. -/
def moreSpecial (first second : LogDirective) : LogDirective :=
  if first.specialLe second then second else first

end LogDirective
end Command
end TaintFlow
