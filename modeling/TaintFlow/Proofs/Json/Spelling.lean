/-
The grammar of JSON texts.

Each relation here says that one text starts with something of a kind and that
another is the rest behind it.  No relation knows of faults, budgets or stacks;
the scanners and the readers are compared with them.

A numeral takes every character that goes on with it, which makes the rest of a
value a function of the text it starts.  Strings come in two kinds.  In a string
that is read every escape stands for a character, alone or as half of a pair.  In
a loose string, which is only skipped, a code unit escape may be any unit.

`Spelled` is one relation for values, items and what follows an item, so that one
induction serves all three.
-/
import TaintFlow.Json.Skip

namespace TaintFlow
namespace Json

/-! ## Strings -/

/-- Four hexadecimal digits, and the code unit they give. -/
inductive UnitText : Nat → Input → Input → Prop where
  | digits {a b c d : Char} {w x y z : Nat} {rest : Input} (ha : Text.hexDigit? a = some w)
      (hb : Text.hexDigit? b = some x) (hc : Text.hexDigit? c = some y)
      (hd : Text.hexDigit? d = some z) :
      UnitText (((w * 16 + x) * 16 + y) * 16 + z) (a :: b :: c :: d :: rest) rest

/-- A character of a string: as it is, by a letter behind a backslash, by its
code unit, or by the two units of a surrogate pair. -/
inductive CharText : Char → Input → Input → Prop where
  | plain {c : Char} {rest : Input} (hquote : c ≠ '"') (hslash : c ≠ '\\')
      (hcontrol : isControl c = false) : CharText c (c :: rest) rest
  | escape {c d : Char} {rest : Input} (h : simpleEscape? c = some d) :
      CharText d ('\\' :: c :: rest) rest
  | unit {n : Nat} {text rest : Input} (h : UnitText n text rest)
      (hlow : isLowSurrogate n = false) (hhigh : isHighSurrogate n = false) :
      CharText (Char.ofNat n) ('\\' :: 'u' :: text) rest
  | pair {high low : Nat} {text next rest : Input}
      (htext : UnitText high text ('\\' :: 'u' :: next)) (hnext : UnitText low next rest)
      (hhigh : isHighSurrogate high = true) (hlow : isLowSurrogate low = true) :
      CharText (pairChar high low) ('\\' :: 'u' :: text) rest

/-- The characters of a string, behind its opening quote, up to and with the
closing one. -/
inductive StringText : List Char → Input → Input → Prop where
  | close {rest : Input} : StringText [] ('"' :: rest) rest
  | char {c : Char} {cs : List Char} {text next rest : Input} (hchar : CharText c text next)
      (hnext : StringText cs next rest) : StringText (c :: cs) text rest

/-- A string whose code units need not make up characters, behind its opening
quote. -/
inductive LooseText : Input → Input → Prop where
  | close {rest : Input} : LooseText ('"' :: rest) rest
  | plain {c : Char} {text rest : Input} (hquote : c ≠ '"') (hslash : c ≠ '\\')
      (hcontrol : isControl c = false) (h : LooseText text rest) : LooseText (c :: text) rest
  | escape {c d : Char} {text rest : Input} (hc : simpleEscape? c = some d)
      (h : LooseText text rest) : LooseText ('\\' :: c :: text) rest
  | unit {n : Nat} {text next rest : Input} (hunit : UnitText n text next)
      (h : LooseText next rest) : LooseText ('\\' :: 'u' :: text) rest

theorem LooseText.of_charText {c : Char} {text next rest : Input} (hchar : CharText c text next)
    (h : LooseText next rest) : LooseText text rest := by
  cases hchar with
  | plain hquote hslash hcontrol => exact .plain hquote hslash hcontrol h
  | escape hc => exact .escape hc h
  | unit hunit _ _ => exact .unit hunit h
  | pair htext hnext _ _ => exact .unit htext (.unit hnext h)

theorem StringText.loose {cs : List Char} {text rest : Input} (h : StringText cs text rest) :
    LooseText text rest := by
  induction h with
  | close => exact .close
  | char hchar _ ih => exact .of_charText hchar ih

/-! ## Numerals -/

structure DigitsText (ds : List Char) (text rest : Input) : Prop where
  text_eq : text = ds ++ rest
  digits : ∀ d ∈ ds, d.isDigit = true
  ends : ∀ c ∈ rest.head?, c.isDigit = false

/-- A whole part: digits, of which the first is no zero unless it is the only
one. -/
structure WholeText (ds : List Char) (text rest : Input) : Prop where
  digits : DigitsText ds text rest
  nonempty : ds ≠ []
  zero : ds.head? = some '0' → ds = ['0']

/-- A fraction, or none where there is no point. -/
inductive FractionText : List Char → Input → Input → Prop where
  | absent {text : Input} (h : text.head? ≠ some '.') : FractionText [] text text
  | present {ds : List Char} {text rest : Input} (h : DigitsText ds text rest) (hne : ds ≠ []) :
      FractionText ds ('.' :: text) rest

/-- The sign of an exponent, and whether it is negative. -/
inductive SignText : Bool → Input → Input → Prop where
  | absent {text : Input} : SignText false text text
  | plus {text : Input} : SignText false ('+' :: text) text
  | minus {text : Input} : SignText true ('-' :: text) text

/-- An exponent, or none where there is no letter for one. -/
inductive ExponentText : Option Exponent → Input → Input → Prop where
  | absent {text : Input} (h : text.head? ≠ some 'e') (h' : text.head? ≠ some 'E') :
      ExponentText none text text
  | present {c : Char} {negative : Bool} {ds : List Char} {text next rest : Input}
      (hc : c = 'e' ∨ c = 'E') (hsign : SignText negative text next)
      (h : DigitsText ds next rest) (hne : ds ≠ []) :
      ExponentText (some ⟨negative, ds⟩) (c :: text) rest

/-- A numeral behind its sign. -/
inductive UnsignedText (n : Numeral) (text rest : Input) : Prop where
  | parts {point exponent : Input} (hwhole : WholeText n.whole text point)
      (hfraction : FractionText n.fraction point exponent)
      (hexponent : ExponentText n.exponent exponent rest)

inductive NumeralText : Numeral → Input → Input → Prop where
  | positive {n : Numeral} {text rest : Input} (hsign : n.negative = false)
      (h : UnsignedText n text rest) : NumeralText n text rest
  | negative {n : Numeral} {text rest : Input} (hsign : n.negative = true)
      (h : UnsignedText n text rest) : NumeralText n ('-' :: text) rest

/-! ## Values -/

def Bracket.opening : Bracket → Char
  | .square => '['
  | .curly => '\x7b'

/-- The parts of a text that values are made of. -/
inductive Part where
  /-- A value, at its first character. -/
  | value
  /-- What stands between two commas inside brackets. -/
  | item (bracket : Bracket)
  /-- What stands behind an item, up to and with the closing bracket. -/
  | tail (bracket : Bracket)

def words : List Input := ["null".toList, "true".toList, "false".toList]

/-- How the parts of a text are spelled.  Strings are loose, and the nesting may
be of any depth. -/
inductive Spelled : Part → Input → Input → Prop where
  | word {word rest : Input} (h : word ∈ words) : Spelled .value (word ++ rest) rest
  | numeral {n : Numeral} {text rest : Input} (h : NumeralText n text rest) :
      Spelled .value text rest
  | string {text rest : Input} (h : LooseText text rest) : Spelled .value ('"' :: text) rest
  | empty {bracket : Bracket} {text rest : Input} (h : skipSpace text = bracket.closing :: rest) :
      Spelled .value (bracket.opening :: text) rest
  | filled {bracket : Bracket} {text next rest : Input} (hitem : Spelled (.item bracket) text next)
      (htail : Spelled (.tail bracket) next rest) : Spelled .value (bracket.opening :: text) rest
  | item {text rest : Input} (h : Spelled .value (skipSpace text) rest) :
      Spelled (.item .square) text rest
  | entry {text key next value rest : Input} (hquote : skipSpace text = '"' :: key)
      (hkey : LooseText key next) (hcolon : skipSpace next = ':' :: value)
      (hvalue : Spelled (.item .square) value rest) : Spelled (.item .curly) text rest
  | close {bracket : Bracket} {text rest : Input} (h : skipSpace text = bracket.closing :: rest) :
      Spelled (.tail bracket) text rest
  | more {bracket : Bracket} {text item next rest : Input} (hcomma : skipSpace text = ',' :: item)
      (hitem : Spelled (.item bracket) item next) (htail : Spelled (.tail bracket) next rest) :
      Spelled (.tail bracket) text rest

/-- A value with the blanks before it. -/
abbrev ValueText : Input → Input → Prop := Spelled (.item .square)

/-- Where the next item of a list or an object is looked for: at once when it is
the first, and behind a comma otherwise. -/
inductive NextText : (first : Bool) → Input → Input → Prop where
  | first {text : Input} : NextText true text text
  | comma {text item : Input} (h : skipSpace text = ',' :: item) : NextText false text item

/-- What stands inside brackets from some place on, up to and with the closing
one.  The place is behind the opening bracket or behind an item. -/
def BodyText (bracket : Bracket) : (first : Bool) → Input → Input → Prop
  | true, text, rest => Spelled .value (bracket.opening :: text) rest
  | false, text, rest => Spelled (.tail bracket) text rest

theorem BodyText.close {bracket : Bracket} {first : Bool} {text rest : Input}
    (h : skipSpace text = bracket.closing :: rest) : BodyText bracket first text rest := by
  cases first with
  | true => exact Spelled.empty h
  | false => exact Spelled.close h

theorem BodyText.item {bracket : Bracket} {first : Bool} {text item next rest : Input}
    (hnext : NextText first text item) (hitem : Spelled (.item bracket) item next)
    (h : BodyText bracket false next rest) : BodyText bracket first text rest := by
  cases hnext with
  | first => exact Spelled.filled hitem h
  | comma hcomma => exact Spelled.more hcomma hitem h

/-! ## Objects -/

/-- A name and the text behind the colon, where its value is, blanks included. -/
abbrev Entry := String × Input

/-- A key, with the blanks before it. -/
inductive KeyText : String → Input → Input → Prop where
  | quoted {cs : List Char} {text body rest : Input} (hquote : skipSpace text = '"' :: body)
      (h : StringText cs body rest) : KeyText (String.ofList cs) text rest

inductive EntryText : Entry → Input → Input → Prop where
  | keyed {key : String} {text next value rest : Input} (hkey : KeyText key text next)
      (hcolon : skipSpace next = ':' :: value) (hvalue : ValueText value rest) :
      EntryText (key, value) text rest

/-- The entries of an object from some place on, up to and with the closing
bracket. -/
inductive EntriesText : (first : Bool) → List Entry → Input → Input → Prop where
  | close {first : Bool} {text rest : Input} (h : skipSpace text = '\x7d' :: rest) :
      EntriesText first [] text rest
  | entry {first : Bool} {entry : Entry} {entries : List Entry} {text item next rest : Input}
      (hnext : NextText first text item) (hentry : EntryText entry item next)
      (h : EntriesText false entries next rest) : EntriesText first (entry :: entries) text rest

/-- An object whose keys can be read, and its entries in the order of the text. -/
def ObjectText (entries : List Entry) (text rest : Input) : Prop :=
  ∃ body, skipSpace text = '\x7b' :: body ∧ EntriesText true entries body rest

theorem EntryText.spelled {entry : Entry} {text rest : Input} (h : EntryText entry text rest) :
    Spelled (.item .curly) text rest := by
  obtain ⟨⟨hquote, hkey⟩, hcolon, hvalue⟩ := h
  exact .entry hquote hkey.loose hcolon hvalue

theorem EntriesText.bodyText {first : Bool} {entries : List Entry} {text rest : Input}
    (h : EntriesText first entries text rest) : BodyText .curly first text rest := by
  induction h with
  | close h => exact .close h
  | entry hnext hentry _ ih => exact .item hnext hentry.spelled ih

theorem ObjectText.valueText {entries : List Entry} {text rest : Input}
    (h : ObjectText entries text rest) : ValueText text rest := by
  obtain ⟨body, hopen, hbody⟩ := h
  exact .item (hopen ▸ hbody.bodyText)

end Json
end TaintFlow
