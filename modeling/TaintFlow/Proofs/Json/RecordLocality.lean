/-
Records are local.

The entries of an object are read one behind the other, and each of them is decided by
its own characters, those that no field has a use for as well.  So what is read as a
record, by name or by place, is the same wherever it stands (`Record.Local.reader`),
once this is known of the values of its fields.
-/
import TaintFlow.Proofs.Json.Locality

namespace TaintFlow
namespace Json

variable {ρ α : Type}

theorem endsNumeral_of_tail {bracket : Bracket} {text rest : Input}
    (h : Spelled (.tail bracket) text rest) : EndsNumeral text := by
  cases h with
  | close hclose => exact endsNumeral_of_skipSpace hclose (by cases bracket <;> decide)
  | more hcomma => exact endsNumeral_of_skipSpace hcomma (by decide)

/-- What is skipped in one text is skipped in front of every other rest. -/
theorem exists_append_of_skipValue {text rest : Input} (h : skipValue text = .ok rest) :
    ∃ used, text = used ++ rest ∧
      ∀ other, EndsNumeral other → skipValue (used ++ other) = .ok other := by
  cases skipValue_eq_ok_iff.mp h with
  | item hvalue =>
    obtain ⟨value, hstart, hform⟩ := hvalue.exists_forms
    obtain ⟨blanks, hblanks, htext⟩ := exists_blank_append text
    refine ⟨blanks ++ value, ?_, fun other hother => skipValue_eq_ok_iff.mpr (.item ?_)⟩
    · rw [htext, hstart, List.append_assoc]
    · have hbefore : Spelled .value (value ++ other) other := Forms.spelled hform other hother
      rw [List.append_assoc, skipSpace_blank_append hblanks, skipSpace_value hbefore]
      exact hbefore

theorem exists_nextKey_of_keyPlace {first : Bool} {key : String} {text value : Input}
    (h : KeyPlace first key text value) :
    ∃ left, nextKey first text = .ok (.more key left) ∧ colon left = .ok value := by
  obtain ⟨hplace, hkey, hcolon⟩ := h
  exact ⟨_, nextKey_eq_more_iff.mpr ⟨_, hplace, hkey⟩, colon_eq_ok_iff.mpr hcolon⟩

/-! ## Records -/

namespace Record

variable {record : Record ρ}

/-- Each field is read off its own characters. -/
structure Local (record : Record ρ) : Prop where
  spells : record.Spells
  fields : ∀ field ∈ record.fields, field.update.Local

theorem endsNumeral_of_keyed (hrecord : record.Spells) {value final : ρ} {seen : List String}
    {text rest : Input} (h : record.keyed value seen false text = .ok (final, rest)) :
    EndsNumeral text := by
  obtain ⟨entries, hentries, -⟩ := exists_fills_of_keyed hrecord h
  exact endsNumeral_of_tail hentries.bodyText

theorem Local.exists_append_of_keyed (hrecord : record.Local) {value final : ρ}
    {seen : List String} {first : Bool} {text rest : Input}
    (h : record.keyed value seen first text = .ok (final, rest)) :
    ∃ used, text = used ++ rest ∧
      ∀ other, record.keyed value seen first (used ++ other) = .ok (final, other) := by
  fun_induction keyed record value seen first text with
  | case1 => cases h
  | case2 => cases h
  | case3 value seen first text left hnext hmissing =>
    obtain ⟨tail, rfl, hclose⟩ := nextKey_eq_close_iff.mp hnext
    cases h
    obtain ⟨used, htext, hused⟩ := exists_append_of_skipSpace hclose
    exact ⟨used, htext, fun other =>
      keyed_of_close (hused other) (missing_eq_none_iff.mp hmissing)⟩
  | case4 => cases h
  | case5 => cases h
  | case6 value seen first text key left hnext hkey start hcolon next hskip ih =>
    obtain ⟨tail, rfl, htail⟩ := ih h
    obtain ⟨place, hplace, hkeyText⟩ := nextKey_eq_more_iff.mp hnext
    obtain ⟨lead, rfl, hlead⟩ :=
      (KeyPlace.colon hplace hkeyText (colon_eq_ok_iff.mp hcolon)).exists_append
    obtain ⟨used, rfl, hused⟩ := exists_append_of_skipValue hskip
    refine ⟨lead ++ (used ++ tail), by simp only [List.append_assoc], fun other => ?_⟩
    have hends := endsNumeral_of_keyed hrecord.spells (htail other)
    obtain ⟨behind, hnext, hcolon⟩ := exists_nextKey_of_keyPlace (hlead (used ++ (tail ++ other)))
    simp only [List.append_assoc]
    rw [keyed_of_skip hnext hcolon (hused _ hends) hkey]
    exact htail other
  | case7 => cases h
  | case8 => cases h
  | case9 => cases h
  | case10 value seen first text key left hnext field hkey hseen start hcolon update next hread ih =>
    obtain ⟨tail, rfl, htail⟩ := ih h
    obtain ⟨place, hplace, hkeyText⟩ := nextKey_eq_more_iff.mp hnext
    obtain ⟨lead, rfl, hlead⟩ :=
      (KeyPlace.colon hplace hkeyText (colon_eq_ok_iff.mp hcolon)).exists_append
    have hlocal := hrecord.fields field (mem_of_field?_eq_some hkey).1
    obtain ⟨used, rfl, hused⟩ := hlocal.exists_append hread
    refine ⟨lead ++ (used ++ tail), by simp only [List.append_assoc], fun other => ?_⟩
    have hends := endsNumeral_of_keyed hrecord.spells (htail other)
    have hnew : key ∉ seen := fun hold => hseen (List.contains_iff_mem.mpr hold)
    obtain ⟨behind, hnext, hcolon⟩ := exists_nextKey_of_keyPlace (hlead (used ++ (tail ++ other)))
    simp only [List.append_assoc]
    rw [keyed_of_set hnext hcolon hkey hnew (hused _ hends)]
    exact htail other

theorem exists_append_of_listed {fields : List (Field ρ)}
    (hspells : ∀ field ∈ fields, field.update.Spells)
    (hlocal : ∀ field ∈ fields, field.update.Local) {index : Nat} {value final : ρ}
    {first : Bool} {text rest : Input}
    (h : record.listed index value first fields text = .ok (final, rest)) :
    ∃ used, text = used ++ rest ∧
      ∀ other, record.listed index value first fields (used ++ other) = .ok (final, other) := by
  induction fields generalizing index value first text with
  | nil =>
    unfold listed at h
    split at h
    · cases h
    · next hclose =>
      cases h
      obtain ⟨used, htext, hused⟩ := exists_append_of_skipSpace (closeList_eq_ok_iff.mp hclose)
      refine ⟨used, htext, fun other => ?_⟩
      rw [listed, closeList_eq_ok_iff.mpr (hused other)]
  | cons field fields ih =>
    rw [List.forall_mem_cons] at hspells hlocal
    unfold listed at h
    split at h
    · cases h
    · next hnext =>
      obtain ⟨tail, rfl, hclose⟩ := nextItem_eq_close_iff.mp hnext
      split at h
      · cases h
      · next hrequired =>
        obtain rfl := eq_of_listed_of_close rfl h
        -- The fields that are left out are looked for at the closing bracket again.
        obtain ⟨bracket, hbracket, hleft⟩ := ih hspells.2 hlocal.2 h
        obtain rfl : [']'] = bracket := List.append_cancel_right hbracket
        obtain ⟨used, htext, hused⟩ := exists_append_of_skipSpace hclose
        refine ⟨used, htext, fun other => ?_⟩
        rw [listed, nextItem_eq_close_iff.mpr ⟨other, rfl, hused other⟩]
        simp only [if_neg hrequired]
        exact hleft other
    · next hnext =>
      split at h
      · cases h
      · next hread =>
        obtain ⟨place, hplace, rfl⟩ := exists_nextText_of_nextItem hnext
        obtain ⟨tail, rfl, htail⟩ := ih hspells.2 hlocal.2 h
        obtain ⟨lead, rfl, hlead⟩ := hplace.exists_append
        obtain ⟨used, rfl, hused⟩ :=
          hlocal.1.exists_written hread (skipSpace_skipSpace place)
        refine ⟨lead ++ (used ++ tail), by simp only [List.append_assoc], fun other => ?_⟩
        have hends := endsNumeral_of_tail (bodyText_of_listed hspells.2 (htail other))
        have hwritten := hused _ hends
        have hitem := field.update.undoes_written.run_eq hwritten
        have hfield := field.update.undoes_written.run_skipSpace_eq hwritten
        simp only [List.append_assoc]
        rw [listed, nextItem_of_valueText (hlead _) (hspells.1.valueText hitem)]
        simp only [hfield]
        exact htail other

/-- What is read as a record is the same wherever it stands. -/
theorem Local.reader (hrecord : record.Local) (budget : Nat) : (record.reader budget).Local := by
  refine ⟨fun {text rest value} h => ?_⟩
  have hbudget := budget_ne_zero_of_reader_run h
  rcases head_of_reader_run h with hhead | hhead
  · obtain ⟨body, hopen⟩ := List.head?_eq_some_iff.mp hhead
    obtain ⟨used, rfl, hused⟩ := hrecord.exists_append_of_keyed (keyed_of_reader_run hopen h)
    exact ⟨'\x7b' :: used, List.cons_ne_nil _ _, hopen, fun start other hstart _ =>
      reader_run_of_keyed hbudget hstart (hused other)⟩
  · obtain ⟨body, hopen⟩ := List.head?_eq_some_iff.mp hhead
    obtain ⟨used, rfl, hused⟩ :=
      exists_append_of_listed hrecord.spells hrecord.fields (listed_of_reader_run hopen h)
    exact ⟨'[' :: used, List.cons_ne_nil _ _, hopen, fun start other hstart _ =>
      reader_run_of_listed hbudget hstart (hused other)⟩

end Record

/-! ## Tags -/

theorem exists_append_of_tagEntry {known : List (String × α)} {text rest : Input} {a : α}
    (h : tagEntry known text = .ok (a, rest)) :
    ∃ used, text = used ++ rest ∧ ∀ other, tagEntry known (used ++ other) = .ok (a, other) := by
  obtain ⟨tag, next, start, left, hkey, hcolon, htag, hunit, hclose⟩ := tagEntry_eq_ok_iff.mp h
  obtain ⟨lead, rfl, hlead⟩ := (KeyPlace.colon .first hkey hcolon).exists_append
  obtain ⟨null, rfl, hnull⟩ := Reader.local_unit.exists_append hunit
  obtain ⟨tail, rfl, htail⟩ := exists_append_of_skipSpace hclose
  refine ⟨lead ++ (null ++ tail), by simp only [List.append_assoc], fun other => ?_⟩
  obtain ⟨hplace, hkey, hcolon⟩ := hlead (null ++ (tail ++ other))
  cases hplace
  have hends := endsNumeral_of_skipSpace (htail other) (by decide)
  rw [List.append_assoc, List.append_assoc]
  exact tagEntry_eq_ok_iff.mpr ⟨tag, _, _, _, hkey, hcolon, htag, hnull _ hends, htail other⟩

theorem Reader.local_tag (budget : Nat) (known : List (String × α)) :
    (Reader.tag budget known).Local := by
  refine ⟨fun {text rest a} h => ?_⟩
  simp only [Reader.tag] at h
  split at h
  · cases h
  · next body hopen =>
    obtain ⟨cs, hstring, htag⟩ := tagHere_eq_ok_iff.mp h
    obtain ⟨used, rfl, hused⟩ := hstring.exists_append
    refine ⟨'"' :: used, List.cons_ne_nil _ _, hopen, fun start other hstart _ => ?_⟩
    simp only [Reader.tag, hstart, List.cons_append]
    exact tagHere_eq_ok_iff.mpr ⟨cs, hused.append other, htag⟩
  · next body hopen =>
    split at h
    · cases h
    · next hbudget =>
      obtain ⟨used, rfl, hused⟩ := exists_append_of_tagEntry h
      refine ⟨'\x7b' :: used, List.cons_ne_nil _ _, hopen, fun start other hstart _ => ?_⟩
      simp only [Reader.tag, hstart, List.cons_append, if_neg hbudget]
      exact hused other
  · cases h

end Json
end TaintFlow
