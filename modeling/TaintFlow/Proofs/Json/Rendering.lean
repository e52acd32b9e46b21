/-
Values that are written out are read back.

A rendering says which texts a value may be written as.  There is one for each
way to build a reader, and it leaves open what does not matter for the value, such
as blanks between tokens and escapes in strings.  A reader undoes a rendering when
it reads every such text as the value and stops behind it (`Reader.Undoes`), and a
reader made of others undoes the rendering made of theirs.
-/
import TaintFlow.Proofs.Json.Records

namespace TaintFlow
namespace Json

/-- The ways to write values of a type: `w a text rest` says that `a` is written at
the first character of `text`, and that `rest` is what stands behind it. -/
abbrev Rendering (α : Type) := α → Input → Input → Prop

/-! ## Renderings -/

inductive QuotedText : Rendering String where
  | quoted {s : String} {body rest : Input} (h : StringText s.toList body rest) :
      QuotedText s ('"' :: body) rest

inductive TruthText : Rendering Bool where
  | word {b : Bool} {rest : Input} : TruthText b ((toString b).toList ++ rest) rest

/-- The number that digits stand for when they are appended to those of `n`. -/
def digitsValue (n : Nat) : List Char → Nat
  | [] => n
  | d :: ds => digitsValue (n * 10 + digitValue d) ds

/-- An integer in decimal.  Zero has no sign. -/
inductive IntegerText : Rendering Int where
  | digits {n : Int} {ds : List Char} {text rest : Input} (hvalue : digitsValue 0 ds = n.natAbs)
      (h : NumeralText ⟨decide (n < 0), ds, [], none⟩ text rest) : IntegerText n text rest

section

variable {α : Type}

inductive OptionText (w : Rendering α) : Rendering (Option α) where
  | null {rest : Input} : OptionText w none ("null".toList ++ rest) rest
  | some {a : α} {text rest : Input} (h : w a text rest) : OptionText w (some a) text rest

/-- The items of a list from some place on, up to and with the closing bracket. -/
inductive ItemsText (w : Rendering α) : (first : Bool) → Rendering (List α) where
  | close {first : Bool} {text rest : Input} (h : skipSpace text = ']' :: rest) :
      ItemsText w first [] text rest
  | item {first : Bool} {a : α} {as : List α} {text item next rest : Input}
      (hplace : NextText first text item) (hitem : w a (skipSpace item) next)
      (h : ItemsText w false as next rest) : ItemsText w first (a :: as) text rest

/-- A list, where at most `depth` brackets may be opened. -/
inductive ListText (depth : Nat) (w : Rendering α) : Rendering (List α) where
  | bracketed {as : List α} {body rest : Input} (hdepth : depth ≠ 0)
      (h : ItemsText w true as body rest) : ListText depth w as ('[' :: body) rest

/-- The named values of an object from some place on, up to and with the closing
bracket. -/
inductive PairsText (w : Rendering α) : (first : Bool) → Rendering (List (String × α)) where
  | close {first : Bool} {text rest : Input} (h : skipSpace text = '\x7d' :: rest) :
      PairsText w first [] text rest
  | pair {first : Bool} {key : String} {a : α} {pairs : List (String × α)}
      {text item next value left rest : Input} (hplace : NextText first text item)
      (hkey : KeyText key item next) (hcolon : skipSpace next = ':' :: value)
      (hvalue : w a (skipSpace value) left) (h : PairsText w false pairs left rest) :
      PairsText w first ((key, a) :: pairs) text rest

/-- Named values as an object, where at most `depth` brackets may be opened. -/
inductive MapText (depth : Nat) (w : Rendering α) : Rendering (List (String × α)) where
  | bracketed {pairs : List (String × α)} {body rest : Input} (hdepth : depth ≠ 0)
      (h : PairsText w true pairs body rest) : MapText depth w pairs ('\x7b' :: body) rest

end

/-- A key is written like any other string. -/
theorem keyText_iff {key : String} {text rest : Input} :
    KeyText key text rest ↔ QuotedText key (skipSpace text) rest := by
  constructor
  · intro h
    obtain ⟨hquote, hbody⟩ := h
    rw [hquote]
    exact .quoted (String.toList_ofList.symm ▸ hbody)
  · intro h
    generalize hstart : skipSpace text = start at h
    obtain ⟨hbody⟩ := h
    have hkey := KeyText.quoted hstart hbody
    rw [String.ofList_toList] at hkey
    exact hkey

/-! ## Readers that undo renderings -/

/-- Whatever is written as `w` allows is read as what was written. -/
structure Reader.Undoes {α : Type} (reader : Reader α) (w : Rendering α) : Prop where
  run_eq : ∀ {a : α} {text rest : Input}, w a (skipSpace text) rest →
    reader.run text = .ok (a, rest)

namespace Reader

variable {α : Type} {reader : Reader α} {w : Rendering α}

theorem Undoes.delay {reader : Unit → Reader α} (h : (reader ()).Undoes w) :
    (Reader.delay reader).Undoes w := ⟨h.run_eq⟩

/-- There need not be blanks before what is read. -/
theorem Undoes.run_skipSpace_eq (h : reader.Undoes w) {a : α} {text rest : Input}
    (htext : w a (skipSpace text) rest) : reader.run (skipSpace text) = .ok (a, rest) :=
  h.run_eq ((skipSpace_skipSpace text).symm ▸ htext)

/-! ## Scalars -/

theorem string_run_eq_ok_iff {s : String} {text rest : Input} :
    string.run text = .ok (s, rest) ↔ QuotedText s (skipSpace text) rest := by
  constructor
  · intro h
    simp only [string] at h
    split at h
    · cases h
    · next hquote =>
      split at h
      · cases h
      · next hs =>
        cases h
        rw [hquote]
        exact .quoted (String.toList_ofList.symm ▸ stringRest_eq_ok_iff.mp hs)
    · cases h
  · intro h
    generalize hstart : skipSpace text = start at h
    obtain ⟨hbody⟩ := h
    simp only [string, hstart, stringRest_eq_ok_iff.mpr hbody, String.ofList_toList]

theorem undoes_string : string.Undoes QuotedText := ⟨string_run_eq_ok_iff.mpr⟩

theorem undoes_bool : bool.Undoes TruthText := by
  refine ⟨fun {b text rest} h => ?_⟩
  generalize hstart : skipSpace text = start at h
  obtain ⟨⟩ := h
  cases b with
  | false =>
    have hword : literal "alse".toList ("alse".toList ++ rest) = .ok rest :=
      literal_eq_ok_iff.mpr rfl
    have hstart : skipSpace text = 'f' :: ("alse".toList ++ rest) := hstart
    simp only [bool, hstart, hword]
  | true =>
    have hword : literal "rue".toList ("rue".toList ++ rest) = .ok rest :=
      literal_eq_ok_iff.mpr rfl
    have hstart : skipSpace text = 't' :: ("rue".toList ++ rest) := hstart
    simp only [bool, hstart, hword]

/-- A value that is read where no null may start may be null or not. -/
theorem Undoes.optional (h : reader.Undoes w)
    (hnull : ∀ {a text rest}, w a text rest → text.head? ≠ some 'n') :
    reader.optional.Undoes (OptionText w) := by
  refine ⟨fun {a text rest} htext => ?_⟩
  rw [optional_run_eq_ok_iff]
  generalize hstart : skipSpace text = start at htext
  cases htext with
  | null => exact .inl ⟨rfl, rfl⟩
  | @some a _ _ htext =>
    refine .inr ⟨a, rfl, hnull htext, ?_⟩
    rw [← hstart] at htext ⊢
    exact h.run_skipSpace_eq htext

theorem undoes_optional_string : (optional string).Undoes (OptionText QuotedText) := by
  refine undoes_string.optional fun h => ?_
  cases h
  exact fun hhead => absurd (Option.some.inj hhead) (by decide)

theorem undoes_optional_bool : (optional bool).Undoes (OptionText TruthText) := by
  refine undoes_bool.optional fun {b text rest} h => ?_
  cases h
  cases b <;> exact fun hhead => absurd (Option.some.inj hhead) (by decide)

end Reader

/-! ## Values that open no bracket -/

theorem numberHere_eq_ok_iff {x : Number} {text rest : Input} :
    numberHere text = .ok (x, rest) ↔ ∃ n, NumeralText n text rest ∧ n.value rest = .ok x := by
  constructor
  · intro h
    unfold numberHere at h
    split at h
    · cases h
    · next n left hnumeral =>
      split at h
      · cases h
      · next hvalue =>
        cases h
        exact ⟨n, numeral_eq_ok_iff.mp hnumeral, hvalue⟩
  · rintro ⟨n, hnumeral, hvalue⟩
    simp only [numberHere, numeral_eq_ok_iff.mpr hnumeral, hvalue]

/-- Where a numeral starts, a number is read. -/
theorem scalar_eq_ok_iff_of_startsNumeral {c : Char} {tail rest : Input} {v : Json}
    (hc : startsNumeral c = true) :
    scalar (c :: tail) = .ok (v, rest) ↔ ∃ x, numberHere (c :: tail) = .ok (x, rest) ∧ v = .number x := by
  rw [scalar]
  · rw [if_pos hc]
    constructor
    · intro h
      split at h
      · cases h
      · next x left hnumber =>
        cases h
        exact ⟨x, hnumber, rfl⟩
    · rintro ⟨x, hnumber, rfl⟩
      rw [hnumber]
  all_goals exact ne_of_startsNumeral hc (by decide)

theorem scalar_of_numberHere {x : Number} {text rest : Input}
    (h : numberHere text = .ok (x, rest)) : scalar text = .ok (.number x, rest) := by
  obtain ⟨n, hnumeral, -⟩ := numberHere_eq_ok_iff.mp h
  obtain ⟨c, tail, rfl, hc⟩ := hnumeral.startsNumeral
  exact (scalar_eq_ok_iff_of_startsNumeral hc).mpr ⟨x, h, rfl⟩

namespace Reader

theorem valueOver_run_of_scalar {budget : Nat} {inner : Reader Json} {c : Char}
    {text tail : Input} (hstart : skipSpace text = c :: tail) (hsquare : c ≠ '[')
    (hcurly : c ≠ '\x7b') : (valueOver budget inner).run text = scalar (c :: tail) := by
  simp only [valueOver, hstart]
  split
  · next heq => exact absurd (List.cons.inj heq).1 hsquare
  · next heq => exact absurd (List.cons.inj heq).1 hcurly
  · rfl

theorem value_run_of_scalar {budget : Nat} {c : Char} {text tail : Input}
    (hstart : skipSpace text = c :: tail) (hsquare : c ≠ '[') (hcurly : c ≠ '\x7b') :
    (value budget).run text = scalar (c :: tail) := by
  cases budget with
  | zero => exact valueOver_run_of_scalar hstart hsquare hcurly
  | succ budget => exact valueOver_run_of_scalar hstart hsquare hcurly

/-- A numeral is read as the number it stands for, and no further. -/
theorem value_run_eq_ok_iff_of_numeralText {budget : Nat} {n : Numeral} {text back rest : Input}
    (h : NumeralText n (skipSpace text) back) {json : Json} :
    (value budget).run text = .ok (json, rest) ↔
      rest = back ∧ ∃ x, numberHere (skipSpace text) = .ok (x, back) ∧ json = .number x := by
  obtain ⟨c, tail, hstart, hc⟩ := h.startsNumeral
  rw [value_run_of_scalar hstart (ne_of_startsNumeral hc (by decide))
    (ne_of_startsNumeral hc (by decide)), scalar_eq_ok_iff_of_startsNumeral hc, hstart]
  rw [hstart] at h
  constructor
  · rintro ⟨x, hnumber, rfl⟩
    obtain ⟨m, hnumeral, -⟩ := numberHere_eq_ok_iff.mp hnumber
    obtain rfl := (Spelled.numeral hnumeral).valueText.eq (Spelled.numeral h).valueText
    exact ⟨rfl, x, hnumber, rfl⟩
  · rintro ⟨rfl, x, hnumber, rfl⟩
    exact ⟨x, hnumber, rfl⟩

end Reader

/-! ## Lists and objects -/

theorem nextItem_of_valueText {first : Bool} {text item rest : Input}
    (hplace : NextText first text item) (hvalue : ValueText item rest) :
    nextItem first text = .ok (.more () (skipSpace item)) := by
  obtain ⟨c, tail, heq, hc⟩ := hvalue.item_head
  have hc : c ≠ ']' := hc
  cases hplace with
  | first => simp [nextItem, heq]
  | comma hcomma => simp [nextItem, hcomma, heq, hc]

namespace Reader

variable {α : Type} {reader : Reader α} {w : Rendering α}

theorem items_of_itemsText (hspells : reader.Spells) (h : reader.Undoes w) {first : Bool}
    {as : List α} {text rest : Input} (htext : ItemsText w first as text rest) :
    items reader first text = .ok (as, rest) := by
  induction htext with
  | @close first text rest hclose =>
    have hnext : nextItem first text = .ok (.close (']' :: rest)) :=
      nextItem_eq_close_iff.mpr ⟨rest, rfl, hclose⟩
    rw [items]
    split
    · next heq => simp [hnext] at heq
    · next heq =>
      cases hnext.symm.trans heq
      rfl
    · next heq => simp [hnext] at heq
  | @item first a as text item next rest hplace hitem _ ih =>
    have hnext := nextItem_of_valueText hplace (hspells.valueText (h.run_eq hitem))
    have hread := h.run_skipSpace_eq hitem
    rw [items]
    split
    · next heq => simp [hnext] at heq
    · next heq => simp [hnext] at heq
    · next heq =>
      cases hnext.symm.trans heq
      split
      · next heq => simp [hread] at heq
      · next heq =>
        cases hread.symm.trans heq
        rw [ih]

theorem Undoes.list (h : reader.Undoes w) (hspells : reader.Spells) (budget : Nat) :
    (Reader.list budget reader).Undoes (ListText budget w) := by
  refine ⟨fun {as text rest} htext => ?_⟩
  generalize hstart : skipSpace text = start at htext
  obtain ⟨hbudget, hitems⟩ := htext
  simp only [Reader.list, hstart, if_neg hbudget]
  exact items_of_itemsText hspells h hitems

theorem entries_of_pairsText (h : reader.Undoes w) {first : Bool} {pairs : List (String × α)}
    {text rest : Input} (htext : PairsText w first pairs text rest) :
    entries reader first text = .ok (pairs, rest) := by
  induction htext with
  | @close first text rest hclose =>
    have hnext : nextKey first text = .ok (.close ('\x7d' :: rest)) :=
      nextKey_eq_close_iff.mpr ⟨rest, rfl, hclose⟩
    rw [entries]
    split
    · next heq => simp [hnext] at heq
    · next heq =>
      cases hnext.symm.trans heq
      rfl
    · next heq => simp [hnext] at heq
  | @pair first key a pairs text item next value left rest hplace hkey hcolon hvalue _ ih =>
    have hnext := nextKey_eq_more_iff.mpr ⟨item, hplace, hkey⟩
    have hcolon := colon_eq_ok_iff.mpr hcolon
    have hread := h.run_eq hvalue
    rw [entries]
    split
    · next heq => simp [hnext] at heq
    · next heq => simp [hnext] at heq
    · next heq =>
      cases hnext.symm.trans heq
      split
      · next heq => simp [hcolon] at heq
      · next heq =>
        cases hcolon.symm.trans heq
        split
        · next heq => simp [hread] at heq
        · next heq =>
          cases hread.symm.trans heq
          rw [ih]

theorem Undoes.object (h : reader.Undoes w) (budget : Nat) :
    (Reader.object budget reader).Undoes (MapText budget w) := by
  refine ⟨fun {pairs text rest} htext => ?_⟩
  generalize hstart : skipSpace text = start at htext
  obtain ⟨hbudget, hpairs⟩ := htext
  simp only [Reader.object, hstart, if_neg hbudget]
  exact entries_of_pairsText h hpairs

end Reader

/-! ## Tags -/

theorem Reader.undoes_tag {α : Type} {known : List (String × α)} {tag : α → String}
    (hknown : ∀ a, known.lookup (tag a) = some a) (budget : Nat) :
    (Reader.tag budget known).Undoes fun a => QuotedText (tag a) := by
  refine ⟨fun {a text rest} h => ?_⟩
  generalize hstart : skipSpace text = start at h
  obtain ⟨hbody⟩ := h
  simp only [Reader.tag, hstart, tagHere, stringRest_eq_ok_iff.mpr hbody, String.ofList_toList,
    tagValue, hknown]

end Json
end TaintFlow
