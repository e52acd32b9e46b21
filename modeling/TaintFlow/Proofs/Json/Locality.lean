/-
What is read does not depend on what stands behind it.

A reader takes a value off the start of a text.  It is local when the characters of the
value alone decide what is read (`Reader.Local`): where they stand again, behind other
blanks and in front of another text, the same is read.  Only a numeral has to be told
from the text behind it, so that text must be one that no numeral goes on with.  There
is one lemma for each way to build a reader.

The items of a list are put together again from their values by the rendering
`Reader.written`, and what undoes it is known already.
-/
import TaintFlow.Proofs.Json.Composing
import TaintFlow.Proofs.Json.Rendering

namespace TaintFlow
namespace Json

/-! ## Tokens -/

theorem isSpace_of_skipSpace {text tail : Input} {c : Char} (h : skipSpace text = c :: tail) :
    isSpace c = false := by
  have hnot := List.head?_dropWhile_not isSpace text
  rw [← skipSpace, h] at hnot
  exact hnot

/-- Where a value starts does not change with the text behind it. -/
theorem skipSpace_blank_append_value {text value rest blanks : Input}
    (h : skipSpace text = value ++ rest) (hne : value ≠ []) (hblanks : Blank blanks)
    (other : Input) : skipSpace (blanks ++ (value ++ other)) = value ++ other := by
  obtain ⟨c, tail, rfl⟩ := List.exists_cons_of_ne_nil hne
  exact skipSpace_blank_append_cons hblanks (isSpace_of_skipSpace h) (tail ++ other)

theorem exists_cons_of_append {value rest tail : Input} {c : Char} (hne : value ≠ [])
    (h : value ++ rest = c :: tail) : ∃ behind, value = c :: behind := by
  obtain ⟨d, behind, rfl⟩ := List.exists_cons_of_ne_nil hne
  obtain rfl := (List.cons.inj h).1
  exact ⟨behind, rfl⟩

theorem endsNumeral_of_skipSpace {text tail : Input} {c : Char} (h : skipSpace text = c :: tail)
    (hc : c.isDigit = false ∧ c ≠ '.' ∧ c ≠ 'e' ∧ c ≠ 'E') : EndsNumeral text := by
  obtain ⟨blanks, hblanks, htext⟩ := exists_blank_append text
  rw [htext, h]
  exact (endsNumeral_cons hc).blank_append hblanks

/-- A character behind blanks, with all that stands before it. -/
theorem exists_append_of_skipSpace {text rest : Input} {c : Char} (h : skipSpace text = c :: rest) :
    ∃ used, text = used ++ rest ∧ ∀ other, skipSpace (used ++ other) = c :: other := by
  obtain ⟨blanks, hblanks, htext⟩ := exists_blank_append text
  refine ⟨blanks ++ [c], ?_, fun other => ?_⟩
  · rw [htext, h, List.append_assoc]
    rfl
  · rw [List.append_assoc]
    exact skipSpace_blank_append_cons hblanks (isSpace_of_skipSpace h) other

theorem UnitText.exists_append {n : Nat} {text rest : Input} (h : UnitText n text rest) :
    ∃ used, text = used ++ rest ∧ UnitText n used [] := by
  obtain @⟨a, b, c, d, w, x, y, z, _, ha, hb, hc, hd⟩ := h
  exact ⟨[a, b, c, d], rfl, .digits ha hb hc hd⟩

theorem CharText.exists_append {c : Char} {text rest : Input} (h : CharText c text rest) :
    ∃ used, text = used ++ rest ∧ CharText c used [] := by
  cases h with
  | plain hquote hslash hcontrol => exact ⟨[c], rfl, .plain hquote hslash hcontrol⟩
  | @escape e _ _ h => exact ⟨['\\', e], rfl, .escape h⟩
  | unit h hlow hhigh =>
    obtain ⟨used, rfl, hused⟩ := h.exists_append
    exact ⟨'\\' :: 'u' :: used, rfl, .unit hused hlow hhigh⟩
  | pair htext hnext hhigh hlow =>
    obtain ⟨second, rfl, hsecond⟩ := hnext.exists_append
    obtain ⟨used, rfl, hused⟩ := htext.exists_append
    refine ⟨'\\' :: 'u' :: (used ++ '\\' :: 'u' :: second), ?_, ?_⟩
    · simp only [List.cons_append, List.append_assoc]
    · exact .pair (hused.append ('\\' :: 'u' :: second)) hsecond hhigh hlow

theorem StringText.exists_append {cs : List Char} {text rest : Input} (h : StringText cs text rest) :
    ∃ used, text = used ++ rest ∧ StringText cs used [] := by
  induction h with
  | close => exact ⟨['"'], rfl, .close⟩
  | char hchar _ ih =>
    obtain ⟨tail, rfl, htail⟩ := ih
    obtain ⟨used, rfl, hused⟩ := hchar.exists_append
    exact ⟨used ++ tail, (List.append_assoc _ _ _).symm, .char (hused.append tail) htail⟩

theorem NextText.exists_append {first : Bool} {text item : Input} (h : NextText first text item) :
    ∃ used, text = used ++ item ∧ ∀ other, NextText first (used ++ other) other := by
  cases h with
  | first => exact ⟨[], rfl, fun _ => .first⟩
  | comma hcomma =>
    obtain ⟨used, htext, hused⟩ := exists_append_of_skipSpace hcomma
    exact ⟨used, htext, fun other => .comma (hused other)⟩

theorem NextText.endsNumeral {text item : Input} (h : NextText false text item) :
    EndsNumeral text := by
  cases h with
  | comma hcomma => exact endsNumeral_of_skipSpace hcomma (by decide)

/-- A key with all that stands between it and its neighbours: a comma, if it is not the
first one, and the colon. -/
inductive KeyPlace (first : Bool) (key : String) : Input → Input → Prop where
  | colon {text item next value : Input} (hplace : NextText first text item)
      (hkey : KeyText key item next) (hcolon : skipSpace next = ':' :: value) :
      KeyPlace first key text value

theorem KeyPlace.exists_append {first : Bool} {key : String} {text value : Input}
    (h : KeyPlace first key text value) :
    ∃ used, text = used ++ value ∧ ∀ other, KeyPlace first key (used ++ other) other := by
  cases h with
  | @colon item next _ hplace hkey hcolon =>
    obtain ⟨lead, rfl, hlead⟩ := hplace.exists_append
    cases hkey with
    | @quoted cs _ body _ hquote hbody =>
      obtain ⟨name, rfl, hname⟩ := hbody.exists_append
      obtain ⟨before, rfl, hbefore⟩ := exists_append_of_skipSpace hquote
      obtain ⟨between, rfl, hbetween⟩ := exists_append_of_skipSpace hcolon
      refine ⟨lead ++ (before ++ (name ++ between)), ?_, fun other => ?_⟩
      · simp only [List.append_assoc]
      · simp only [List.append_assoc]
        exact .colon (hlead _) (.quoted (hbefore _) (hname.append _)) (hbetween other)

theorem KeyPlace.endsNumeral {key : String} {text value : Input}
    (h : KeyPlace false key text value) : EndsNumeral text := by
  cases h with
  | colon hplace => exact hplace.endsNumeral

/-! ## Local readers -/

variable {α β : Type}

/-- Wherever this value stands, it is read as `a`. -/
def Reader.ReadsAs (reader : Reader α) (a : α) (value : Input) : Prop :=
  ∀ start other, skipSpace start = value ++ other → EndsNumeral other →
    reader.run start = .ok (a, other)

structure Reader.Local (reader : Reader α) : Prop where
  exists_readsAs : ∀ {text rest : Input} {a : α}, reader.run text = .ok (a, rest) →
    ∃ value, value ≠ [] ∧ skipSpace text = value ++ rest ∧ reader.ReadsAs a value

namespace Reader

/-! ## Scalars -/

theorem local_string : string.Local := by
  refine ⟨fun {text rest s} hrun => ?_⟩
  have hquoted := string_run_eq_ok_iff.mp hrun
  generalize skipSpace text = start at hquoted
  obtain ⟨hbody⟩ := hquoted
  obtain ⟨used, rfl, hused⟩ := hbody.exists_append
  refine ⟨'"' :: used, List.cons_ne_nil _ _, rfl, fun start other hstart _ => ?_⟩
  rw [string_run_eq_ok_iff, hstart]
  exact .quoted (hused.append other)

theorem truthText_of_bool {b : Bool} {text rest : Input} (h : bool.run text = .ok (b, rest)) :
    TruthText b (skipSpace text) rest := by
  simp only [bool] at h
  split at h
  · cases h
  · next hstart =>
    split at h
    · cases h
    · next hword =>
      cases h
      rw [hstart, literal_eq_ok_iff.mp hword]
      exact @TruthText.word true rest
  · next hstart =>
    split at h
    · cases h
    · next hword =>
      cases h
      rw [hstart, literal_eq_ok_iff.mp hword]
      exact @TruthText.word false rest
  · cases h

theorem local_bool : bool.Local := by
  refine ⟨fun {text rest b} hrun => ?_⟩
  have hword := truthText_of_bool hrun
  generalize skipSpace text = start at hword
  obtain ⟨⟩ := hword
  refine ⟨(toString b).toList, by cases b <;> decide, rfl, fun start other hstart _ => ?_⟩
  exact undoes_bool.run_eq (hstart ▸ .word)

theorem unit_run_of_word {text rest : Input} (h : skipSpace text = "null".toList ++ rest) :
    unit.run text = .ok ((), rest) := by
  have hword : literal "ull".toList ("ull".toList ++ rest) = .ok rest :=
    literal_eq_ok_iff.mpr rfl
  have hstart : skipSpace text = 'n' :: ("ull".toList ++ rest) := h
  simp only [unit, hstart, hword]

theorem local_unit : unit.Local := by
  refine ⟨fun {text rest u} hrun => ?_⟩
  simp only [unit] at hrun
  split at hrun
  · cases hrun
  · next hstart =>
    split at hrun
    · cases hrun
    · next hword =>
      cases hrun
      rw [literal_eq_ok_iff.mp hword] at hstart
      exact ⟨"null".toList, by decide, hstart, fun _ _ hother _ => unit_run_of_word hother⟩
  · cases hrun

theorem literalValue_eq_ok_iff {word : List Char} {value v : Json} {text rest : Input} :
    literalValue word value text = .ok (v, rest) ↔ v = value ∧ text = word ++ rest := by
  rw [← literal_eq_ok_iff]
  unfold literalValue
  constructor
  · intro h
    split at h
    · cases h
    · next hword =>
      cases h
      exact ⟨rfl, hword⟩
  · rintro ⟨rfl, hword⟩
    rw [hword]

/-! The text behind a numeral shows only in faults. -/

theorem realValue_of_rest {negative : Bool} {significand : Nat} {exponent : Int} {rest : Input}
    {x : Number} (h : realValue negative significand exponent rest = .ok x) (other : Input) :
    realValue negative significand exponent other = .ok x := by
  unfold realValue at h ⊢
  split at h
  · exact h
  · cases h

theorem integerValue_of_rest {negative : Bool} {significand : Nat} {rest : Input} {x : Number}
    (h : integerValue negative significand rest = .ok x) (other : Input) :
    integerValue negative significand other = .ok x := by
  unfold integerValue at h ⊢
  split_ifs at h ⊢
  · exact h
  · exact realValue_of_rest h other
  · exact h

theorem value_of_rest {n : Numeral} {rest : Input} {x : Number} (h : n.value rest = .ok x)
    (other : Input) : n.value other = .ok x := by
  unfold Numeral.value at h ⊢
  generalize n.significand = parts at h ⊢
  obtain ⟨significand, power⟩ := parts
  cases hexponent : n.exponent with
  | none =>
    simp only [hexponent] at h ⊢
    split_ifs at h ⊢
    · exact integerValue_of_rest h other
    · exact realValue_of_rest h other
  | some exponent =>
    simp only [hexponent] at h ⊢
    cases hdigits : exponentValue 0 exponent.digits with
    | ok e =>
      simp only [hdigits] at h ⊢
      exact realValue_of_rest h other
    | error left =>
      simp only [hdigits] at h ⊢
      split_ifs at h ⊢
      exact h

theorem exists_append_of_numberHere {text rest : Input} {x : Number}
    (h : numberHere text = .ok (x, rest)) :
    ∃ used, text = used ++ rest ∧
      ∀ other, EndsNumeral other → numberHere (used ++ other) = .ok (x, other) := by
  obtain ⟨n, hnumeral, hvalue⟩ := numberHere_eq_ok_iff.mp h
  obtain ⟨used, htext, -, hused⟩ := hnumeral.exists_append
  refine ⟨used, htext, fun other hother => ?_⟩
  exact numberHere_eq_ok_iff.mpr ⟨n, hused hother, value_of_rest hvalue other⟩

/-- A scalar is the same in front of every text that no numeral goes on with. -/
theorem exists_append_of_scalar {text rest : Input} {v : Json} (h : scalar text = .ok (v, rest)) :
    ∃ used, used ≠ [] ∧ text = used ++ rest ∧
      ∀ other, EndsNumeral other → scalar (used ++ other) = .ok (v, other) := by
  have hword : ∀ {c : Char} {word tail : Input} {value : Json},
      (∀ text, scalar (c :: text) = literalValue word value text) →
      literalValue word value tail = .ok (v, rest) →
      ∃ used, used ≠ [] ∧ c :: tail = used ++ rest ∧
        ∀ other, EndsNumeral other → scalar (used ++ other) = .ok (v, other) := by
    intro c word tail value hscalar hread
    obtain ⟨rfl, rfl⟩ := literalValue_eq_ok_iff.mp hread
    refine ⟨c :: word, List.cons_ne_nil _ _, rfl, fun other _ => ?_⟩
    rw [List.cons_append, hscalar, literalValue_eq_ok_iff.mpr ⟨rfl, rfl⟩]
  unfold scalar at h
  split at h
  · exact hword (fun _ => rfl) h
  · exact hword (fun _ => rfl) h
  · exact hword (fun _ => rfl) h
  · split at h
    · cases h
    · next hstring =>
      cases h
      obtain ⟨used, rfl, hused⟩ := (stringRest_eq_ok_iff.mp hstring).exists_append
      refine ⟨'"' :: used, List.cons_ne_nil _ _, rfl, fun other _ => ?_⟩
      have hother := stringRest_eq_ok_iff.mpr (hused.append other)
      simp only [List.cons_append, scalar, hother, List.nil_append]
  · cases h
  · split at h
    · next hc =>
      split at h
      · cases h
      · next hnumber =>
        cases h
        obtain ⟨used, htext, hused⟩ := exists_append_of_numberHere hnumber
        refine ⟨used, ?_, htext, fun other hother => scalar_of_numberHere (hused other hother)⟩
        rintro rfl
        rw [htext] at hnumber
        exact Nat.lt_irrefl _ (length_lt_of_numberHere hnumber)
    · cases h

/-! ## Readers made of one other -/

/-- A reader that reads nothing is local. -/
theorem local_of_fails {reader : Reader α}
    (h : ∀ {text rest a}, reader.run text ≠ .ok (a, rest)) : reader.Local :=
  ⟨fun hrun => absurd hrun h⟩

theorem Local.delay {reader : Unit → Reader α} (h : (reader ()).Local) :
    (Reader.delay reader).Local := ⟨h.exists_readsAs⟩

theorem Local.map {reader : Reader α} (h : reader.Local) (f : α → β) : (reader.map f).Local := by
  refine ⟨fun {text rest b} hrun => ?_⟩
  obtain ⟨a, hread, rfl⟩ := map_run_eq_ok_iff.mp hrun
  obtain ⟨value, hne, htext, hreads⟩ := h.exists_readsAs hread
  refine ⟨value, hne, htext, fun start other hstart hother => ?_⟩
  exact map_run_eq_ok_iff.mpr ⟨a, hreads start other hstart hother, rfl⟩

theorem Local.convert {reader : Reader α} (h : reader.Local) (f : α → Option β) (cause : Cause) :
    (reader.convert f cause).Local := by
  refine ⟨fun {text rest b} hrun => ?_⟩
  obtain ⟨a, hread, hb⟩ := convert_run_eq_ok_iff.mp hrun
  obtain ⟨value, hne, htext, hreads⟩ := h.exists_readsAs hread
  refine ⟨value, hne, htext, fun start other hstart hother => ?_⟩
  exact convert_run_eq_ok_iff.mpr ⟨a, hreads start other hstart hother, hb⟩

theorem Local.optional {reader : Reader α} (h : reader.Local) : reader.optional.Local := by
  refine ⟨fun {text rest a} hrun => ?_⟩
  rcases optional_run_eq_ok_iff.mp hrun with ⟨rfl, hstart⟩ | ⟨b, rfl, hnull, hread⟩
  · refine ⟨"null".toList, by decide, hstart, fun start other hother _ => ?_⟩
    exact optional_run_eq_ok_iff.mpr (.inl ⟨rfl, hother⟩)
  · obtain ⟨value, hne, htext, hreads⟩ := h.exists_readsAs hread
    rw [skipSpace_skipSpace] at htext
    refine ⟨value, hne, htext, fun start other hstart hother => ?_⟩
    refine optional_run_eq_ok_iff.mpr (.inr ⟨b, rfl, ?_, ?_⟩)
    · rw [htext, List.head?_append_of_ne_nil value hne] at hnull
      rw [hstart, List.head?_append_of_ne_nil value hne]
      exact hnull
    · exact hreads _ other ((skipSpace_skipSpace start).trans hstart) hother

/-! ## Lists and objects -/

/-- The values that a local reader reads, as they stand in a text. -/
def written (reader : Reader α) : Rendering α := fun a text rest =>
  ∃ value, text = value ++ rest ∧ EndsNumeral rest ∧ reader.ReadsAs a value

theorem undoes_written (reader : Reader α) : reader.Undoes reader.written := by
  refine ⟨fun {a text rest} h => ?_⟩
  obtain ⟨value, htext, hrest, hreads⟩ := h
  exact hreads text rest htext hrest

/-- What was read is written in front of every other rest.  It may have been read without
the blanks before it. -/
theorem Local.exists_written {reader : Reader α} (h : reader.Local) {a : α}
    {start text rest : Input} (hread : reader.run start = .ok (a, rest))
    (hstart : skipSpace start = skipSpace text) :
    ∃ used, text = used ++ rest ∧
      ∀ other, EndsNumeral other → reader.written a (skipSpace (used ++ other)) other := by
  obtain ⟨value, hne, hvalue, hreads⟩ := h.exists_readsAs hread
  rw [hstart] at hvalue
  obtain ⟨blanks, hblanks, htext⟩ := exists_blank_append text
  refine ⟨blanks ++ value, ?_, fun other hother => ⟨value, ?_, hother, hreads⟩⟩
  · rw [htext, hvalue, List.append_assoc]
  · rw [List.append_assoc]
    exact skipSpace_blank_append_value hvalue hne hblanks other

theorem Local.exists_append {reader : Reader α} (h : reader.Local) {a : α} {text rest : Input}
    (hread : reader.run text = .ok (a, rest)) :
    ∃ used, text = used ++ rest ∧
      ∀ other, EndsNumeral other → reader.run (used ++ other) = .ok (a, other) := by
  obtain ⟨used, htext, hused⟩ := h.exists_written hread rfl
  exact ⟨used, htext, fun other hother => reader.undoes_written.run_eq (hused other hother)⟩

theorem endsNumeral_of_itemsText {w : Rendering α} {as : List α} {text rest : Input}
    (h : ItemsText w false as text rest) : EndsNumeral text := by
  cases h with
  | close hclose => exact endsNumeral_of_skipSpace hclose (by decide)
  | item hplace => exact hplace.endsNumeral

theorem endsNumeral_of_pairsText {w : Rendering α} {as : List (String × α)} {text rest : Input}
    (h : PairsText w false as text rest) : EndsNumeral text := by
  cases h with
  | close hclose => exact endsNumeral_of_skipSpace hclose (by decide)
  | pair hplace => exact hplace.endsNumeral

theorem exists_itemsText_of_items {item : Reader α} (hitem : item.Local) {first : Bool}
    {text rest : Input} {as : List α} (h : items item first text = .ok (as, rest)) :
    ∃ used, text = used ++ rest ∧
      ∀ other, ItemsText item.written first as (used ++ other) other := by
  fun_induction items item first text generalizing as rest with
  | case1 => cases h
  | case2 first text left hnext =>
    obtain ⟨tail, rfl, hclose⟩ := nextItem_eq_close_iff.mp hnext
    cases h
    obtain ⟨used, htext, hused⟩ := exists_append_of_skipSpace hclose
    exact ⟨used, htext, fun other => .close (hused other)⟩
  | case3 => cases h
  | case4 => cases h
  | case5 first text u start hnext a next hread bs left hbs ih =>
    cases h
    obtain ⟨tail, rfl, htail⟩ := ih hbs
    obtain ⟨place, hplace, rfl⟩ := exists_nextText_of_nextItem hnext
    obtain ⟨lead, rfl, hlead⟩ := hplace.exists_append
    obtain ⟨used, rfl, hused⟩ := hitem.exists_written hread (skipSpace_skipSpace place)
    refine ⟨lead ++ (used ++ tail), by simp only [List.append_assoc], fun other => ?_⟩
    have hends := endsNumeral_of_itemsText (htail other)
    simp only [List.append_assoc]
    exact .item (hlead _) (hused _ hends) (htail other)

theorem exists_pairsText_of_entries {value : Reader α} (hvalue : value.Local) {first : Bool}
    {text rest : Input} {as : List (String × α)} (h : entries value first text = .ok (as, rest)) :
    ∃ used, text = used ++ rest ∧
      ∀ other, PairsText value.written first as (used ++ other) other := by
  fun_induction entries value first text generalizing as rest with
  | case1 => cases h
  | case2 first text left hnext =>
    obtain ⟨tail, rfl, hclose⟩ := nextKey_eq_close_iff.mp hnext
    cases h
    obtain ⟨used, htext, hused⟩ := exists_append_of_skipSpace hclose
    exact ⟨used, htext, fun other => .close (hused other)⟩
  | case3 => cases h
  | case4 => cases h
  | case5 => cases h
  | case6 first text key left hnext start hcolon a next hread bs last hbs ih =>
    cases h
    obtain ⟨tail, rfl, htail⟩ := ih hbs
    obtain ⟨place, hplace, hkey⟩ := nextKey_eq_more_iff.mp hnext
    obtain ⟨lead, rfl, hlead⟩ :=
      (KeyPlace.colon hplace hkey (colon_eq_ok_iff.mp hcolon)).exists_append
    obtain ⟨used, rfl, hused⟩ := hvalue.exists_written hread rfl
    refine ⟨lead ++ (used ++ tail), by simp only [List.append_assoc], fun other => ?_⟩
    have hends := endsNumeral_of_pairsText (htail other)
    obtain ⟨hplace, hkey, hcolon⟩ := hlead (used ++ (tail ++ other))
    simp only [List.append_assoc]
    exact .pair hplace hkey hcolon (hused _ hends) (htail other)

/-- A reader that may open no bracket reads no list, whatever its items are. -/
theorem Local.list {item : Reader α} {budget : Nat} (hitem : budget ≠ 0 → item.Local)
    (hspells : item.Spells) : (Reader.list budget item).Local := by
  refine ⟨fun {text rest as} hrun => ?_⟩
  simp only [Reader.list] at hrun
  split at hrun
  · cases hrun
  · next body hopen =>
    split at hrun
    · cases hrun
    · next hbudget =>
      obtain ⟨used, rfl, hused⟩ := exists_itemsText_of_items (hitem hbudget) hrun
      refine ⟨'[' :: used, List.cons_ne_nil _ _, hopen, fun start other hstart _ => ?_⟩
      simp only [Reader.list, hstart, List.cons_append, if_neg hbudget]
      exact items_of_itemsText hspells item.undoes_written (hused other)
  · cases hrun

theorem Local.object {value : Reader α} {budget : Nat} (hvalue : budget ≠ 0 → value.Local) :
    (Reader.object budget value).Local := by
  refine ⟨fun {text rest as} hrun => ?_⟩
  simp only [Reader.object] at hrun
  split at hrun
  · cases hrun
  · next body hopen =>
    split at hrun
    · cases hrun
    · next hbudget =>
      obtain ⟨used, rfl, hused⟩ := exists_pairsText_of_entries (hvalue hbudget) hrun
      refine ⟨'\x7b' :: used, List.cons_ne_nil _ _, hopen, fun start other hstart _ => ?_⟩
      simp only [Reader.object, hstart, List.cons_append, if_neg hbudget]
      exact entries_of_pairsText value.undoes_written (hused other)
  · cases hrun

/-- What is read at its first character is read there in front of every other rest. -/
theorem Local.exists_cons {reader : Reader α} (h : reader.Local) {c : Char}
    {text body rest : Input} {a : α} (hopen : skipSpace text = c :: body)
    (hread : reader.run (c :: body) = .ok (a, rest)) :
    ∃ tail, skipSpace text = c :: tail ++ rest ∧
      ∀ other, EndsNumeral other → reader.run (c :: (tail ++ other)) = .ok (a, other) := by
  obtain ⟨value, hne, hvalue, hreads⟩ := h.exists_readsAs hread
  rw [← hopen, skipSpace_skipSpace] at hvalue
  obtain ⟨tail, rfl⟩ := exists_cons_of_append hne (hvalue.symm.trans hopen)
  refine ⟨tail, hvalue, fun other hother => hreads _ other ?_ hother⟩
  exact skipSpace_blank_append_cons (List.forall_mem_nil _) (isSpace_of_skipSpace hopen) _

theorem Local.valueOver {inner : Reader Json} {budget : Nat} (hinner : budget ≠ 0 → inner.Local)
    (hspells : inner.Spells) : (Reader.valueOver budget inner).Local := by
  refine ⟨fun {text rest v} hrun => ?_⟩
  simp only [Reader.valueOver] at hrun
  split at hrun
  · next body hopen =>
    obtain ⟨tail, htext, hreads⟩ :=
      ((Local.list hinner hspells).map Json.list).exists_cons hopen hrun
    refine ⟨'[' :: tail, List.cons_ne_nil _ _, htext, fun start other hstart hother => ?_⟩
    simp only [Reader.valueOver, hstart, List.cons_append]
    exact hreads other hother
  · next body hopen =>
    obtain ⟨tail, htext, hreads⟩ := ((Local.object hinner).map Json.object).exists_cons hopen hrun
    refine ⟨'\x7b' :: tail, List.cons_ne_nil _ _, htext, fun start other hstart hother => ?_⟩
    simp only [Reader.valueOver, hstart, List.cons_append]
    exact hreads other hother
  · next hsquare hcurly =>
    obtain ⟨used, hne, htext, hused⟩ := exists_append_of_scalar hrun
    obtain ⟨c, tail, rfl⟩ := List.exists_cons_of_ne_nil hne
    refine ⟨c :: tail, hne, htext, fun start other hstart hother => ?_⟩
    rw [List.cons_append] at htext hstart
    rw [valueOver_run_of_scalar hstart]
    · exact hused other hother
    · rintro rfl
      exact hsquare _ htext
    · rintro rfl
      exact hcurly _ htext

theorem local_value (budget : Nat) : (value budget).Local := by
  induction budget with
  | zero => exact .valueOver (absurd rfl) spells_scalarOnly
  | succ budget ih => exact .delay (.valueOver (fun _ => ih) (spells_value budget))

end Reader
end Json
end TaintFlow
