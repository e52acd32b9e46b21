/-
JSON texts that are put together from their parts.

`Forms part text` says that a text is a part of a JSON text and nothing more.  A text
is formed by writing its parts one behind the other, with blanks where they may stand,
so there is no rest in this grammar, nothing that is skipped, and no numeral that has
to be told from what comes behind it.  `ObjectForm entries text` does the same for an
object whose keys are strings of characters, and keeps each key and the text of its
value.

The relations of scanning (`Spelled`, `ObjectText`) hold of these texts in front of
every rest that no numeral goes on with: `Forms.spelled` and `ObjectForm.objectText`.
Nothing is missing from the grammar, for the texts that form a value are those that can
be skipped as one (`forms_item_iff`).
-/
import TaintFlow.Proofs.Json.Extending

namespace TaintFlow
namespace Json

/-! ## The grammar -/

/-- Nothing but blanks. -/
def Blank (text : Input) : Prop := ∀ c ∈ text, isSpace c = true

instance (text : Input) : Decidable (Blank text) :=
  decidable_of_iff (text.all isSpace = true) List.all_eq_true

def AllDigits (text : Input) : Prop := ∀ c ∈ text, c.isDigit = true

inductive FractionForm : Input → Prop where
  | absent : FractionForm []
  | present {ds : Input} (hdigits : AllDigits ds) (hne : ds ≠ []) : FractionForm ('.' :: ds)

inductive ExponentForm : Input → Prop where
  | absent : ExponentForm []
  | present {c : Char} {sign ds : Input} (hc : c = 'e' ∨ c = 'E')
      (hsign : sign = [] ∨ sign = ['+'] ∨ sign = ['-']) (hdigits : AllDigits ds)
      (hne : ds ≠ []) : ExponentForm (c :: (sign ++ ds))

/-- A numeral behind its sign. -/
inductive UnsignedForm : Input → Prop where
  | parts {whole fraction exponent : Input} (hdigits : AllDigits whole) (hne : whole ≠ [])
      (hzero : whole.head? = some '0' → whole = ['0']) (hfraction : FractionForm fraction)
      (hexponent : ExponentForm exponent) : UnsignedForm (whole ++ (fraction ++ exponent))

inductive NumeralForm : Input → Prop where
  | positive {text : Input} (h : UnsignedForm text) : NumeralForm text
  | negative {text : Input} (h : UnsignedForm text) : NumeralForm ('-' :: text)

/-- The parts of JSON texts: values, items with the blanks around them, and tails,
which stand behind an item and end with the closing bracket. -/
inductive Forms : Part → Input → Prop where
  | word {word : Input} (h : word ∈ words) : Forms .value word
  | numeral {text : Input} (h : NumeralForm text) : Forms .value text
  | string {text : Input} (h : LooseText text []) : Forms .value ('"' :: text)
  | empty {bracket : Bracket} {blanks : Input} (h : Blank blanks) :
      Forms .value (bracket.opening :: (blanks ++ [bracket.closing]))
  | filled {bracket : Bracket} {item tail : Input} (hitem : Forms (.item bracket) item)
      (htail : Forms (.tail bracket) tail) : Forms .value (bracket.opening :: (item ++ tail))
  | item {before value after : Input} (hbefore : Blank before) (hvalue : Forms .value value)
      (hafter : Blank after) : Forms (.item .square) (before ++ (value ++ after))
  | entry {before key between value : Input} (hbefore : Blank before) (hkey : LooseText key [])
      (hbetween : Blank between) (hvalue : Forms (.item .square) value) :
      Forms (.item .curly) (before ++ '"' :: (key ++ (between ++ ':' :: value)))
  | close {bracket : Bracket} : Forms (.tail bracket) [bracket.closing]
  | more {bracket : Bracket} {item tail : Input} (hitem : Forms (.item bracket) item)
      (htail : Forms (.tail bracket) tail) : Forms (.tail bracket) (',' :: (item ++ tail))

/-- A key that stands for these characters, and a value with the blanks around it. -/
inductive EntryForm : Entry → Input → Prop where
  | keyed {name : String} {before key between value : Input} (hbefore : Blank before)
      (hkey : StringText name.toList key []) (hbetween : Blank between)
      (hvalue : Forms (.item .square) value) :
      EntryForm (name, value) (before ++ '"' :: (key ++ (between ++ ':' :: value)))

/-- What stands behind an entry of an object, up to and with the closing bracket. -/
inductive EntriesForm : List Entry → Input → Prop where
  | close : EntriesForm [] ['\x7d']
  | more {entry : Entry} {entries : List Entry} {text others : Input}
      (hentry : EntryForm entry text) (hothers : EntriesForm entries others) :
      EntriesForm (entry :: entries) (',' :: (text ++ others))

/-- An object with these entries. -/
inductive ObjectForm : List Entry → Input → Prop where
  | empty {blanks : Input} (h : Blank blanks) : ObjectForm [] ('\x7b' :: (blanks ++ ['\x7d']))
  | filled {entry : Entry} {entries : List Entry} {text others : Input}
      (hentry : EntryForm entry text) (hothers : EntriesForm entries others) :
      ObjectForm (entry :: entries) ('\x7b' :: (text ++ others))

/-! ## Blanks -/

theorem skipSpace_blank_append {blanks : Input} (h : Blank blanks) (text : Input) :
    skipSpace (blanks ++ text) = skipSpace text := by
  rw [skipSpace, skipSpace, List.dropWhile_append_of_pos h]

theorem skipSpace_blank_append_cons {blanks : Input} (h : Blank blanks) {c : Char}
    (hc : isSpace c = false) (text : Input) : skipSpace (blanks ++ c :: text) = c :: text := by
  rw [skipSpace_blank_append h, skipSpace, List.dropWhile_cons_of_neg (Bool.eq_false_iff.mp hc)]

/-! ## Numerals -/

/-- No numeral goes on with this text. -/
def EndsNumeral (text : Input) : Prop :=
  ∀ c ∈ text.head?, c.isDigit = false ∧ c ≠ '.' ∧ c ≠ 'e' ∧ c ≠ 'E'

theorem endsNumeral_cons {c : Char} {text : Input}
    (h : c.isDigit = false ∧ c ≠ '.' ∧ c ≠ 'e' ∧ c ≠ 'E') : EndsNumeral (c :: text) := by
  intro d hd
  obtain rfl : c = d := Option.some.inj hd
  exact h

theorem isDigit_of_isSpace {c : Char} (h : isSpace c = true) :
    c.isDigit = false ∧ c ≠ '.' ∧ c ≠ 'e' ∧ c ≠ 'E' := by
  simp only [isSpace, Bool.or_eq_true, beq_iff_eq] at h
  rcases h with ((rfl | rfl) | rfl) | rfl <;> decide

theorem EndsNumeral.blank_append {blanks rest : Input} (hrest : EndsNumeral rest)
    (h : Blank blanks) : EndsNumeral (blanks ++ rest) := by
  cases blanks with
  | nil => exact hrest
  | cons c blanks => exact endsNumeral_cons (isDigit_of_isSpace (h c List.mem_cons_self))

theorem Forms.endsNumeral_tail {bracket : Bracket} {tail : Input}
    (h : Forms (.tail bracket) tail) (rest : Input) : EndsNumeral (tail ++ rest) := by
  cases h with
  | close => exact endsNumeral_cons (by cases bracket <;> decide)
  | more => exact endsNumeral_cons (by decide)

theorem digitsText_append {ds rest : Input} (h : AllDigits ds)
    (hrest : ∀ c ∈ rest.head?, c.isDigit = false) : DigitsText ds (ds ++ rest) rest :=
  ⟨rfl, h, hrest⟩

theorem FractionForm.fractionText {text rest : Input} (h : FractionForm text)
    (hrest : ∀ c ∈ rest.head?, c.isDigit = false ∧ c ≠ '.') :
    ∃ ds, FractionText ds (text ++ rest) rest := by
  cases h with
  | absent => exact ⟨[], .absent fun hhead => (hrest '.' hhead).2 rfl⟩
  | @present ds hdigits hne =>
    have hnext : ∀ c ∈ rest.head?, c.isDigit = false := fun c hc => (hrest c hc).1
    exact ⟨ds, .present (digitsText_append hdigits hnext) hne⟩

theorem ExponentForm.exponentText {text rest : Input} (h : ExponentForm text)
    (hrest : EndsNumeral rest) : ∃ exponent, ExponentText exponent (text ++ rest) rest := by
  cases h with
  | absent =>
    exact ⟨none, .absent (fun hhead => (hrest 'e' hhead).2.2.1 rfl)
      fun hhead => (hrest 'E' hhead).2.2.2 rfl⟩
  | @present c sign ds hc hsign hdigits hne =>
    have hnext : ∀ c ∈ rest.head?, c.isDigit = false := fun c hc => (hrest c hc).1
    have htext := digitsText_append hdigits hnext
    rw [List.cons_append, List.append_assoc]
    rcases hsign with rfl | rfl | rfl
    · exact ⟨_, .present hc .absent htext hne⟩
    · exact ⟨_, .present hc .plus htext hne⟩
    · exact ⟨_, .present hc .minus htext hne⟩

theorem ExponentForm.head_append {text rest : Input} (h : ExponentForm text)
    (hrest : EndsNumeral rest) :
    ∀ c ∈ (text ++ rest).head?, c.isDigit = false ∧ c ≠ '.' := by
  intro c hc
  cases h with
  | absent => exact ⟨(hrest c hc).1, (hrest c hc).2.1⟩
  | present hletter =>
    obtain rfl := Option.some.inj hc
    rcases hletter with rfl | rfl <;> decide

theorem FractionForm.head_append {text rest : Input} (h : FractionForm text)
    (hrest : ∀ c ∈ rest.head?, c.isDigit = false ∧ c ≠ '.') :
    ∀ c ∈ (text ++ rest).head?, c.isDigit = false := by
  intro c hc
  cases h with
  | absent => exact (hrest c hc).1
  | present =>
    obtain rfl := Option.some.inj hc
    rfl

/-- Behind the whole part comes no digit, and behind the fraction no point. -/
theorem UnsignedForm.unsignedText {text rest : Input} (h : UnsignedForm text)
    (hrest : EndsNumeral rest) (negative : Bool) :
    ∃ n : Numeral, n.negative = negative ∧ UnsignedText n (text ++ rest) rest := by
  obtain @⟨whole, fraction, exponent, hdigits, hne, hzero, hfraction, hexponent⟩ := h
  have hbehind := hexponent.head_append hrest
  obtain ⟨ds, hds⟩ := hfraction.fractionText hbehind
  obtain ⟨power, hpower⟩ := hexponent.exponentText hrest
  refine ⟨⟨negative, whole, ds, power⟩, rfl, ?_⟩
  rw [List.append_assoc, List.append_assoc]
  exact ⟨⟨digitsText_append hdigits (hfraction.head_append hbehind), hne, hzero⟩, hds, hpower⟩

theorem NumeralForm.numeralText {text rest : Input} (h : NumeralForm text)
    (hrest : EndsNumeral rest) : ∃ n, NumeralText n (text ++ rest) rest := by
  cases h with
  | positive h =>
    obtain ⟨n, hsign, htext⟩ := h.unsignedText hrest false
    exact ⟨n, .positive hsign htext⟩
  | negative h =>
    obtain ⟨n, hsign, htext⟩ := h.unsignedText hrest true
    exact ⟨n, .negative hsign htext⟩

/-! ## Values -/

/-- How a text that forms a part is spelled in front of a rest.  Blanks behind an item
are left for the tail. -/
def Part.SpelledBefore (text rest : Input) : Part → Prop
  | .value => EndsNumeral rest → Spelled .value (text ++ rest) rest
  | .item bracket => EndsNumeral rest →
      ∃ after, Blank after ∧ Spelled (.item bracket) (text ++ rest) (after ++ rest)
  | .tail bracket => ∀ after, Blank after →
      Spelled (.tail bracket) (after ++ (text ++ rest)) rest

theorem skipSpace_value {text rest : Input} (h : Spelled .value text rest) :
    skipSpace text = text := by
  obtain ⟨c, tail, rfl, hc, -⟩ := h.value_head .square
  exact skipSpace_blank_append_cons (List.forall_mem_nil _) hc tail

theorem Bracket.isSpace_closing (bracket : Bracket) : isSpace bracket.closing = false := by
  cases bracket <;> rfl

/-- What is formed by composition is found by scanning. -/
theorem Forms.spelled {part : Part} {text : Input} (h : Forms part text) (rest : Input) :
    part.SpelledBefore text rest := by
  induction h generalizing rest with
  | word hword => exact fun _ => .word hword
  | numeral hnumeral =>
    intro hrest
    obtain ⟨n, hn⟩ := hnumeral.numeralText hrest
    exact .numeral hn
  | string hstring => exact fun _ => .string (hstring.append rest)
  | @empty bracket blanks hblanks =>
    intro _
    rw [List.cons_append, List.append_assoc]
    exact .empty (skipSpace_blank_append_cons hblanks bracket.isSpace_closing rest)
  | @filled bracket item tail _ htail ihitem ihtail =>
    intro _
    obtain ⟨after, hafter, hitem⟩ := ihitem (tail ++ rest) (htail.endsNumeral_tail rest)
    rw [List.cons_append, List.append_assoc]
    exact .filled hitem (ihtail rest after hafter)
  | @item before value after hbefore _ hafter ih =>
    intro hrest
    have hvalue : Spelled .value (value ++ (after ++ rest)) (after ++ rest) :=
      ih (after ++ rest) (hrest.blank_append hafter)
    refine ⟨after, hafter, .item ?_⟩
    rw [List.append_assoc, List.append_assoc, skipSpace_blank_append hbefore,
      skipSpace_value hvalue]
    exact hvalue
  | @entry before key between value hbefore hkey hbetween _ ih =>
    intro hrest
    obtain ⟨after, hafter, hvalue⟩ := ih rest hrest
    refine ⟨after, hafter, ?_⟩
    rw [List.append_assoc, List.cons_append, List.append_assoc, List.append_assoc,
      List.cons_append]
    exact .entry (skipSpace_blank_append_cons hbefore rfl _) (hkey.append _)
      (skipSpace_blank_append_cons hbetween rfl _) hvalue
  | @close bracket =>
    intro after hafter
    exact .close (skipSpace_blank_append_cons hafter bracket.isSpace_closing rest)
  | @more bracket item tail _ htail ihitem ihtail =>
    intro before hbefore
    obtain ⟨after, hafter, hitem⟩ := ihitem (tail ++ rest) (htail.endsNumeral_tail rest)
    rw [List.cons_append, List.append_assoc]
    exact .more (skipSpace_blank_append_cons hbefore rfl _) hitem (ihtail rest after hafter)

/-! ## Texts that were scanned -/

theorem exists_blank_append (text : Input) :
    ∃ blanks, Blank blanks ∧ text = blanks ++ skipSpace text :=
  ⟨text.takeWhile isSpace, fun _ hc => List.mem_takeWhile_imp hc,
    List.takeWhile_append_dropWhile.symm⟩

theorem LooseText.exists_append {text rest : Input} (h : LooseText text rest) :
    ∃ used, text = used ++ rest ∧ LooseText used [] := by
  induction h with
  | close => exact ⟨['"'], rfl, .close⟩
  | @plain c text rest hquote hslash hcontrol _ ih =>
    obtain ⟨used, rfl, hused⟩ := ih
    exact ⟨c :: used, rfl, .plain hquote hslash hcontrol hused⟩
  | @escape c d text rest hc _ ih =>
    obtain ⟨used, rfl, hused⟩ := ih
    exact ⟨'\\' :: c :: used, rfl, .escape hc hused⟩
  | @unit n text next rest hunit _ ih =>
    obtain ⟨used, rfl, hused⟩ := ih
    obtain @⟨a, b, c, d, w, x, y, z, _, ha, hb, hc, hd⟩ := hunit
    exact ⟨'\\' :: 'u' :: a :: b :: c :: d :: used, rfl, .unit (.digits ha hb hc hd) hused⟩

/-- A fraction is the same in front of every text that goes on with neither digits nor
a point. -/
theorem FractionText.exists_append {ds text rest : Input} (h : FractionText ds text rest) :
    ∃ used, text = used ++ rest ∧ FractionForm used ∧
      ∀ {other}, (∀ c ∈ other.head?, c.isDigit = false ∧ c ≠ '.') →
        FractionText ds (used ++ other) other := by
  cases h with
  | absent => exact ⟨[], rfl, .absent, fun hother => .absent fun hhead => (hother '.' hhead).2 rfl⟩
  | present h hne =>
    refine ⟨'.' :: ds, congrArg _ h.text_eq, .present h.digits hne, fun hother => ?_⟩
    exact .present (digitsText_append h.digits fun c hc => (hother c hc).1) hne

theorem ExponentText.exists_append {exponent : Option Exponent} {text rest : Input}
    (h : ExponentText exponent text rest) :
    ∃ used, text = used ++ rest ∧ ExponentForm used ∧
      ∀ {other}, EndsNumeral other → ExponentText exponent (used ++ other) other := by
  cases h with
  | absent =>
    refine ⟨[], rfl, .absent, fun hother => .absent ?_ ?_⟩
    · exact fun hhead => (hother 'e' hhead).2.2.1 rfl
    · exact fun hhead => (hother 'E' hhead).2.2.2 rfl
  | @present c negative ds text next rest hc hsign h hne =>
    have hnext : next = ds ++ rest := h.text_eq
    subst hnext
    have hds : ∀ {other}, EndsNumeral other → DigitsText ds (ds ++ other) other := fun hother =>
      digitsText_append h.digits fun c hc => (hother c hc).1
    cases hsign with
    | absent =>
      exact ⟨c :: ([] ++ ds), rfl, .present hc (.inl rfl) h.digits hne,
        fun hother => .present hc .absent (hds hother) hne⟩
    | plus =>
      exact ⟨c :: (['+'] ++ ds), rfl, .present hc (.inr (.inl rfl)) h.digits hne,
        fun hother => .present hc .plus (hds hother) hne⟩
    | minus =>
      exact ⟨c :: (['-'] ++ ds), rfl, .present hc (.inr (.inr rfl)) h.digits hne,
        fun hother => .present hc .minus (hds hother) hne⟩

theorem UnsignedText.exists_append {n : Numeral} {text rest : Input}
    (h : UnsignedText n text rest) :
    ∃ used, text = used ++ rest ∧ UnsignedForm used ∧
      ∀ {other}, EndsNumeral other → UnsignedText n (used ++ other) other := by
  obtain ⟨hwhole, hfraction, hexponent⟩ := h
  obtain ⟨power, rfl, hpower, hpower'⟩ := hexponent.exists_append
  obtain ⟨fraction, rfl, hpoint, hpoint'⟩ := hfraction.exists_append
  refine ⟨n.whole ++ (fraction ++ power), ?_, ?_, fun {other} hother => ?_⟩
  · rw [hwhole.digits.text_eq, List.append_assoc, List.append_assoc]
  · exact .parts hwhole.digits.digits hwhole.nonempty hwhole.zero hpoint hpower
  · have hbehind := hpower.head_append hother
    rw [List.append_assoc, List.append_assoc]
    exact ⟨⟨digitsText_append hwhole.digits.digits (hpoint.head_append hbehind), hwhole.nonempty,
      hwhole.zero⟩, hpoint' hbehind, hpower' hother⟩

/-- A numeral is the same in front of every text that it does not go on with. -/
theorem NumeralText.exists_append {n : Numeral} {text rest : Input} (h : NumeralText n text rest) :
    ∃ used, text = used ++ rest ∧ NumeralForm used ∧
      ∀ {other}, EndsNumeral other → NumeralText n (used ++ other) other := by
  cases h with
  | positive hsign h =>
    obtain ⟨used, rfl, hused, hused'⟩ := h.exists_append
    exact ⟨used, rfl, .positive hused, fun hother => .positive hsign (hused' hother)⟩
  | negative hsign h =>
    obtain ⟨used, rfl, hused, hused'⟩ := h.exists_append
    exact ⟨'-' :: used, rfl, .negative hused, fun hother => .negative hsign (hused' hother)⟩

theorem Forms.value_append_blank {item blanks : Input} (h : Forms (.item .square) item)
    (hblanks : Blank blanks) : Forms (.item .square) (item ++ blanks) := by
  cases h with
  | item hbefore hvalue hafter =>
    rw [List.append_assoc, List.append_assoc]
    exact .item hbefore hvalue (List.forall_mem_append.mpr ⟨hafter, hblanks⟩)

/-- Blanks may stand behind an item, for they may stand behind its value. -/
theorem Forms.item_append_blank {bracket : Bracket} {item blanks : Input}
    (h : Forms (.item bracket) item) (hblanks : Blank blanks) :
    Forms (.item bracket) (item ++ blanks) := by
  cases bracket with
  | square => exact h.value_append_blank hblanks
  | curly =>
    cases h with
    | entry hbefore hkey hbetween hvalue =>
      rw [List.append_assoc, List.cons_append, List.append_assoc, List.append_assoc,
        List.cons_append]
      exact .entry hbefore hkey hbetween (hvalue.value_append_blank hblanks)

/-- How the text of a part that was scanned is formed.  The blanks before a tail are
those behind the item. -/
def Part.FormedBy (text : Input) : Part → Prop
  | .value => Forms .value text
  | .item bracket => Forms (.item bracket) text
  | .tail bracket =>
    ∃ blanks tail, text = blanks ++ tail ∧ Blank blanks ∧ Forms (.tail bracket) tail

/-- What is found by scanning is formed by composition. -/
theorem Spelled.exists_forms {part : Part} {text rest : Input} (h : Spelled part text rest) :
    ∃ used, text = used ++ rest ∧ part.FormedBy used := by
  induction h with
  | @word word rest hword => exact ⟨word, rfl, .word hword⟩
  | numeral hnumeral =>
    obtain ⟨used, htext, hused, -⟩ := hnumeral.exists_append
    exact ⟨used, htext, .numeral hused⟩
  | string hstring =>
    obtain ⟨used, rfl, hused⟩ := hstring.exists_append
    exact ⟨'"' :: used, rfl, .string hused⟩
  | @empty bracket text rest hclose =>
    obtain ⟨blanks, hblanks, htext⟩ := exists_blank_append text
    rw [hclose] at htext
    refine ⟨bracket.opening :: (blanks ++ [bracket.closing]), ?_, .empty hblanks⟩
    rw [htext, List.cons_append, List.append_assoc]
    rfl
  | @filled bracket text next rest _ _ ihitem ihtail =>
    obtain ⟨behind, rfl, blanks, tail, rfl, hblanks, htail⟩ := ihtail
    obtain ⟨item, rfl, hitem⟩ := ihitem
    refine ⟨bracket.opening :: ((item ++ blanks) ++ tail), ?_,
      .filled (hitem.item_append_blank hblanks) htail⟩
    simp only [List.cons_append, List.append_assoc]
  | @item text rest _ ih =>
    obtain ⟨value, htext, hvalue⟩ := ih
    obtain ⟨blanks, hblanks, hstart⟩ := exists_blank_append text
    refine ⟨blanks ++ (value ++ []), ?_, .item hblanks hvalue (List.forall_mem_nil _)⟩
    rw [hstart, htext, List.append_nil, List.append_assoc]
  | @entry text key next value rest hquote hkey hcolon _ ih =>
    obtain ⟨used, rfl, hused⟩ := ih
    obtain ⟨name, rfl, hname⟩ := hkey.exists_append
    obtain ⟨before, hbefore, htext⟩ := exists_blank_append text
    obtain ⟨between, hbetween, hnext⟩ := exists_blank_append next
    refine ⟨before ++ '"' :: (name ++ (between ++ ':' :: used)), ?_,
      .entry hbefore hname hbetween hused⟩
    rw [htext, hquote, hnext, hcolon]
    simp only [List.cons_append, List.append_assoc]
  | @close bracket text rest hclose =>
    obtain ⟨blanks, hblanks, htext⟩ := exists_blank_append text
    rw [hclose] at htext
    refine ⟨blanks ++ [bracket.closing], ?_, blanks, [bracket.closing], rfl, hblanks, .close⟩
    rw [htext, List.append_assoc]
    rfl
  | @more bracket text item next rest hcomma _ _ ihitem ihtail =>
    obtain ⟨behind, rfl, blanks, tail, rfl, hblanks, htail⟩ := ihtail
    obtain ⟨first, rfl, hfirst⟩ := ihitem
    obtain ⟨before, hbefore, htext⟩ := exists_blank_append text
    refine ⟨before ++ ',' :: ((first ++ blanks) ++ tail), ?_, before, _, rfl, hbefore,
      .more (hfirst.item_append_blank hblanks) htail⟩
    rw [htext, hcomma]
    simp only [List.cons_append, List.append_assoc]

/-- A text forms a value when it can be skipped as one, but for blanks at the end. -/
theorem forms_item_iff {text : Input} :
    Forms (.item .square) text ↔ ∃ rest, Blank rest ∧ skipValue text = .ok rest := by
  constructor
  · intro h
    obtain ⟨after, hafter, hvalue⟩ := h.spelled [] fun _ hc => nomatch hc
    rw [List.append_nil, List.append_nil] at hvalue
    exact ⟨after, hafter, skipValue_eq_ok_iff.mpr hvalue⟩
  · rintro ⟨rest, hrest, hskip⟩
    obtain ⟨used, rfl, hused⟩ := (skipValue_eq_ok_iff.mp hskip).exists_forms
    exact Forms.item_append_blank hused hrest

/-! ## Objects -/

theorem CharText.append {c : Char} {text rest : Input} (h : CharText c text rest)
    (more : Input) : CharText c (text ++ more) (rest ++ more) := by
  cases h with
  | plain hquote hslash hcontrol => exact .plain hquote hslash hcontrol
  | escape h => exact .escape h
  | unit h hlow hhigh => exact .unit (h.append more) hlow hhigh
  | pair htext hnext hhigh hlow => exact .pair (htext.append more) (hnext.append more) hhigh hlow

theorem StringText.append {cs : List Char} {text rest : Input} (h : StringText cs text rest)
    (more : Input) : StringText cs (text ++ more) (rest ++ more) := by
  induction h with
  | close => exact .close
  | char hchar _ ih => exact .char (hchar.append more) ih

theorem EntryForm.forms {entry : Entry} {text : Input} (h : EntryForm entry text) :
    Forms (.item .curly) text := by
  obtain ⟨hbefore, hkey, hbetween, hvalue⟩ := h
  exact .entry hbefore hkey.loose hbetween hvalue

theorem EntriesForm.forms {entries : List Entry} {text : Input} (h : EntriesForm entries text) :
    Forms (.tail .curly) text := by
  induction h with
  | close => exact .close
  | more hentry _ ih => exact .more hentry.forms ih

/-- An object whose keys can be read is a value. -/
theorem ObjectForm.forms {entries : List Entry} {text : Input} (h : ObjectForm entries text) :
    Forms .value text := by
  cases h with
  | @empty blanks hblanks => exact @Forms.empty .curly blanks hblanks
  | filled hentry hothers => exact Forms.filled hentry.forms hothers.forms

/-- The same key, and the same value with more text behind it. -/
def Continues (entry longer : Entry) : Prop :=
  longer.1 = entry.1 ∧ ∃ more, longer.2 = entry.2 ++ more

theorem keyText_of_form {name : String} {before key : Input} (hbefore : Blank before)
    (hkey : StringText name.toList key []) (rest : Input) :
    KeyText name (before ++ '"' :: (key ++ rest)) rest := by
  have hname := KeyText.quoted (skipSpace_blank_append_cons hbefore rfl (key ++ rest))
    (hkey.append rest)
  rw [String.ofList_toList] at hname
  exact hname

theorem EntryForm.entryText {entry : Entry} {text rest : Input} (h : EntryForm entry text)
    (hrest : EndsNumeral rest) :
    ∃ longer after, Continues entry longer ∧ Blank after ∧
      EntryText longer (text ++ rest) (after ++ rest) := by
  obtain @⟨name, before, key, between, value, hbefore, hkey, hbetween, hvalue⟩ := h
  obtain ⟨after, hafter, hvalue⟩ := hvalue.spelled rest hrest
  refine ⟨(name, value ++ rest), after, ⟨rfl, rest, rfl⟩, hafter, ?_⟩
  rw [List.append_assoc, List.cons_append, List.append_assoc, List.append_assoc,
    List.cons_append]
  exact .keyed (keyText_of_form hbefore hkey _) (skipSpace_blank_append_cons hbetween rfl _) hvalue

theorem EntriesForm.endsNumeral {entries : List Entry} {text : Input}
    (h : EntriesForm entries text) (rest : Input) : EndsNumeral (text ++ rest) := by
  cases h with
  | close => exact endsNumeral_cons (by decide)
  | more => exact endsNumeral_cons (by decide)

theorem EntriesForm.entriesText {entries : List Entry} {text : Input}
    (h : EntriesForm entries text) (rest : Input) {blanks : Input} (hblanks : Blank blanks) :
    ∃ longer, List.Forall₂ Continues entries longer ∧
      EntriesText false longer (blanks ++ (text ++ rest)) rest := by
  induction h generalizing blanks with
  | close => exact ⟨[], .nil, .close (skipSpace_blank_append_cons hblanks rfl rest)⟩
  | @more entry entries text others hentry hothers ih =>
    obtain ⟨first, after, hfirst, hafter, htext⟩ :=
      hentry.entryText (hothers.endsNumeral rest)
    obtain ⟨longer, hlonger, hbehind⟩ := ih hafter
    refine ⟨first :: longer, .cons hfirst hlonger, ?_⟩
    rw [List.cons_append, List.append_assoc]
    exact .entry (.comma (skipSpace_blank_append_cons hblanks rfl _)) htext hbehind

/-- An object is found with its entries behind any blanks and in front of any rest. -/
theorem ObjectForm.objectText {entries : List Entry} {text : Input} (h : ObjectForm entries text)
    (rest : Input) {blanks : Input} (hblanks : Blank blanks) :
    ∃ longer, List.Forall₂ Continues entries longer ∧
      ObjectText longer (blanks ++ (text ++ rest)) rest := by
  cases h with
  | @empty inside hinside =>
    refine ⟨[], .nil, inside ++ '\x7d' :: rest, ?_, ?_⟩
    · rw [List.cons_append, List.append_assoc]
      exact skipSpace_blank_append_cons hblanks rfl _
    · exact .close (skipSpace_blank_append_cons hinside rfl rest)
  | @filled entry entries text others hentry hothers =>
    obtain ⟨first, after, hfirst, hafter, htext⟩ :=
      hentry.entryText (hothers.endsNumeral rest)
    obtain ⟨longer, hlonger, hbehind⟩ := hothers.entriesText rest hafter
    refine ⟨first :: longer, .cons hfirst hlonger, text ++ (others ++ rest), ?_, ?_⟩
    · rw [List.cons_append, List.append_assoc]
      exact skipSpace_blank_append_cons hblanks rfl _
    · exact .entry .first htext hbehind

end Json
end TaintFlow
