/-
How readers fail.

A reader says what it expected, the name of a field or the title of a record, and
these words are fixed when the reader is built.  A reader fails plainly
(`Reader.FailsPlainly`) when they are plain, whatever text it is given.  There is
one lemma for each way to build a reader, and one for a reader that is used for a
whole text (`Reader.FailsPlainly.readAll`).
-/
import TaintFlow.Proofs.Json.Faults

namespace TaintFlow
namespace Json

variable {α β ρ : Type}

structure Reader.FailsPlainly (reader : Reader α) : Prop where
  run : ∀ text, Json.FailsPlainly (reader.run text)

namespace Reader

theorem FailsPlainly.delay {reader : Unit → Reader α} (h : (reader ()).FailsPlainly) :
    (delay reader).FailsPlainly := ⟨h.run⟩

theorem FailsPlainly.map {reader : Reader α} (h : reader.FailsPlainly) (f : α → β) :
    (reader.map f).FailsPlainly := by
  refine ⟨fun text => ?_⟩
  simp only [Reader.map]
  split
  · next hread => exact (h.run _).pass hread
  · exact .ok _

theorem FailsPlainly.convert {reader : Reader α} (h : reader.FailsPlainly) (f : α → Option β)
    {cause : Cause} (hcause : cause.IsPlain) : (reader.convert f cause).FailsPlainly := by
  refine ⟨fun text => ?_⟩
  simp only [Reader.convert]
  split
  · next hread => exact (h.run _).pass hread
  · split
    · exact .ok _
    · exact .error hcause

/-! ## Scalars -/

theorem failsPlainly_string : string.FailsPlainly := by
  refine ⟨fun text => ?_⟩
  simp only [string]
  split
  · exact .bare rfl
  · split
    · next hstring => exact (failsPlainly_stringRest _).pass hstring
    · exact .ok _
  · exact .error (isPlain_typeFault (by decide) _)

theorem failsPlainly_bool : bool.FailsPlainly := by
  refine ⟨fun text => ?_⟩
  simp only [bool]
  split
  · exact .bare rfl
  · split
    · next hword => exact (failsPlainly_literal _ _).pass hword
    · exact .ok _
  · split
    · next hword => exact (failsPlainly_literal _ _).pass hword
    · exact .ok _
  · exact .error (isPlain_typeFault (by decide) _)

theorem failsPlainly_unit : unit.FailsPlainly := by
  refine ⟨fun text => ?_⟩
  simp only [unit]
  split
  · exact .bare rfl
  · split
    · next hword => exact (failsPlainly_literal _ _).pass hword
    · exact .ok _
  · exact .error (isPlain_typeFault (by decide) _)

theorem FailsPlainly.optional {reader : Reader α} (h : reader.FailsPlainly) :
    reader.optional.FailsPlainly := by
  refine ⟨fun text => ?_⟩
  simp only [Reader.optional]
  split
  · split
    · next hword => exact (failsPlainly_literal _ _).pass hword
    · exact .ok _
  · split
    · next hread => exact (h.run _).pass hread
    · exact .ok _

theorem failsPlainly_scalarOnly : scalarOnly.FailsPlainly := ⟨failsPlainly_scalar⟩

/-! ## Lists and objects -/

theorem failsPlainly_items {item : Reader α} (h : item.FailsPlainly) (first : Bool)
    (text : Input) : Json.FailsPlainly (items item first text) := by
  fun_induction items item first text with
  | case1 _ _ _ hnext => exact (failsPlainly_nextItem _ _).pass hnext
  | case2 => exact .ok _
  | case3 _ _ _ _ _ _ hitem => exact (h.run _).pass hitem
  | case4 _ _ _ _ _ _ _ _ _ hitems ih => exact ih.pass hitems
  | case5 => exact .ok _

theorem failsPlainly_entries {value : Reader α} (h : value.FailsPlainly) (first : Bool)
    (text : Input) : Json.FailsPlainly (entries value first text) := by
  fun_induction entries value first text with
  | case1 _ _ _ hnext => exact (failsPlainly_nextKey _ _).pass hnext
  | case2 => exact .ok _
  | case3 _ _ _ _ _ _ hcolon => exact (failsPlainly_colon _).pass hcolon
  | case4 _ _ _ _ _ _ _ _ hvalue => exact (h.run _).pass hvalue
  | case5 _ _ _ _ _ _ _ _ _ _ _ hentries ih => exact ih.pass hentries
  | case6 => exact .ok _

theorem FailsPlainly.list {item : Reader α} (h : item.FailsPlainly) (budget : Nat) :
    (list budget item).FailsPlainly := by
  refine ⟨fun text => ?_⟩
  simp only [Reader.list]
  split
  · exact .bare rfl
  · split
    · exact .bare rfl
    · exact failsPlainly_items h _ _
  · exact .error (isPlain_typeFault (by decide) _)

theorem FailsPlainly.object {value : Reader α} (h : value.FailsPlainly) (budget : Nat) :
    (object budget value).FailsPlainly := by
  refine ⟨fun text => ?_⟩
  simp only [Reader.object]
  split
  · exact .bare rfl
  · split
    · exact .bare rfl
    · exact failsPlainly_entries h _ _
  · exact .error (isPlain_typeFault (by decide) _)

theorem FailsPlainly.valueOver {inner : Reader Json} (h : inner.FailsPlainly) (budget : Nat) :
    (valueOver budget inner).FailsPlainly := by
  refine ⟨fun text => ?_⟩
  simp only [Reader.valueOver]
  split
  · exact ((h.list budget).map _).run _
  · exact ((h.object budget).map _).run _
  · exact failsPlainly_scalar _

theorem failsPlainly_value : ∀ budget, (value budget).FailsPlainly
  | 0 => failsPlainly_scalarOnly.valueOver 0
  | budget + 1 => ((failsPlainly_value budget).valueOver (budget + 1)).delay

end Reader

/-! ## Records -/

structure Field.FailsPlainly (field : Field ρ) : Prop where
  key : IsPlain field.key.toList
  update : field.update.FailsPlainly

theorem Field.FailsPlainly.of {key : String} (hkey : IsPlain key.toList) {reader : Reader α}
    (hreader : reader.FailsPlainly) (set : α → ρ → ρ) (required : Bool) :
    (Field.of key reader set required).FailsPlainly :=
  ⟨hkey, hreader.map set⟩

structure Record.FailsPlainly (record : Record ρ) : Prop where
  title : IsPlain record.title.toList
  fields : ∀ field ∈ record.fields, field.FailsPlainly

theorem Fault.cause_settle (fault : Fault) (close : Input → Input) :
    (fault.settle close).cause = fault.cause := by
  unfold settle
  split <;> rfl

namespace Record

variable {record : Record ρ}

theorem FailsPlainly.keyed (h : record.FailsPlainly) (value : ρ) (seen : List String)
    (first : Bool) (text : Input) :
    Json.FailsPlainly (record.keyed value seen first text) := by
  have hkey : ∀ field ∈ record.fields, ∀ word ∈ [field.key], IsPlain word.toList :=
    fun field hmem => List.forall_mem_singleton.mpr (h.fields field hmem).key
  fun_induction Record.keyed record value seen first text with
  | case1 _ _ _ _ _ hnext => exact (failsPlainly_nextKey _ _).pass hnext
  | case2 _ _ _ _ _ _ field hfield => exact .error (hkey field (List.mem_of_find?_eq_some hfield))
  | case3 => exact .ok _
  | case4 _ _ _ _ _ _ _ _ _ hcolon => exact (failsPlainly_colon _).pass hcolon
  | case5 _ _ _ _ _ _ _ _ _ _ _ hskip => exact (failsPlainly_skipValue _).pass hskip
  | case6 _ _ _ _ _ _ _ _ _ _ _ _ ih => exact ih
  | case7 _ _ _ _ key _ _ field hfield =>
    -- The key is that of the field, which was looked up by it.
    have heq : field.key = key := by simpa using List.find?_some hfield
    exact .error (heq ▸ hkey field (List.mem_of_find?_eq_some hfield))
  | case8 _ _ _ _ _ _ _ _ _ _ _ hcolon => exact (failsPlainly_colon _).pass hcolon
  | case9 _ _ _ _ _ _ _ field hfield _ _ _ _ hupdate =>
    exact ((h.fields field (List.mem_of_find?_eq_some hfield)).update.run _).pass hupdate
  | case10 _ _ _ _ _ _ _ _ _ _ _ _ _ _ _ ih => exact ih

theorem FailsPlainly.listed (h : record.FailsPlainly) {fields : List (Field ρ)}
    (hfields : ∀ field ∈ fields, field.FailsPlainly) (index : Nat) (value : ρ) (first : Bool)
    (text : Input) : Json.FailsPlainly (record.listed index value first fields text) := by
  induction fields generalizing index value first text with
  | nil =>
    unfold Record.listed
    split
    · next hclose => exact (failsPlainly_closeList _).pass hclose
    · exact .ok _
  | cons field fields ih =>
    rw [List.forall_mem_cons] at hfields
    unfold Record.listed
    split
    · next hnext => exact (failsPlainly_nextItem _ _).pass hnext
    · split
      · exact .error (List.forall_mem_singleton.mpr h.title)
      · exact ih hfields.2 _ _ _ _
    · split
      · next hupdate => exact (hfields.1.update.run _).pass hupdate
      · exact ih hfields.2 _ _ _ _

theorem failsPlainly_settled {outcome : Outcome ρ} (h : Json.FailsPlainly outcome)
    (close : Input → Input) : Json.FailsPlainly (settled close outcome) := by
  unfold settled
  split
  · next fault =>
    have hfault := h fault rfl
    rw [← fault.cause_settle close] at hfault
    exact .error hfault
  · exact .ok _

theorem FailsPlainly.reader (h : record.FailsPlainly) (budget : Nat) :
    (record.reader budget).FailsPlainly := by
  refine ⟨fun text => ?_⟩
  simp only [Record.reader]
  split
  · exact .bare rfl
  · split
    · exact .bare rfl
    · exact failsPlainly_settled (h.keyed _ _ _ _) _
  · split
    · exact .bare rfl
    · exact failsPlainly_settled (h.listed h.fields _ _ _ _) _
  · exact .error (isPlain_typeFault h.title _)

end Record

/-! ## Tags -/

section

variable {known : List (String × α)} (hknown : ∀ tag ∈ known.map Prod.fst, IsPlain tag.toList)
include hknown

theorem failsPlainly_tagValue (tag : String) (rest : Input) :
    FailsPlainly (tagValue known tag rest) := by
  unfold tagValue
  split
  · exact .ok _
  · exact .error hknown

theorem failsPlainly_tagHere (text : Input) : FailsPlainly (tagHere known text) := by
  unfold tagHere
  split
  · next hstring => exact (failsPlainly_stringRest _).pass hstring
  · exact failsPlainly_tagValue hknown _ _

theorem failsPlainly_tagEntry (text : Input) : FailsPlainly (tagEntry known text) := by
  unfold tagEntry
  split
  · next hnext => exact (failsPlainly_nextKey _ _).pass hnext
  · exact .bare rfl
  · split
    · next htag => exact (failsPlainly_tagValue hknown _ _).pass htag
    · split
      · next hcolon => exact (failsPlainly_colon _).pass hcolon
      · split
        · next hunit => exact (Reader.failsPlainly_unit.run _).pass hunit
        · split
          · exact .bare rfl
          · exact .ok _
          · exact .bare rfl

theorem Reader.failsPlainly_tag (budget : Nat) : (Reader.tag budget known).FailsPlainly := by
  refine ⟨fun text => ?_⟩
  simp only [Reader.tag]
  split
  · exact .bare rfl
  · exact failsPlainly_tagHere hknown _
  · split
    · exact .bare rfl
    · exact failsPlainly_tagEntry hknown _
  · exact .bare rfl

end

/-! ## Whole texts -/

/-- The failure of a reader that fails plainly has plain words, and its place is on a
line of the text. -/
theorem Reader.FailsPlainly.readAll {reader : Reader α} (h : reader.FailsPlainly) {text : Input}
    {failure : Failure} (hread : reader.readAll text = .error failure) :
    failure.cause.IsPlain ∧ 1 ≤ failure.place.line ∧
      failure.place.line ≤ text.count '\n' + 1 := by
  have hreport : ∃ fault : Fault, fault.cause.IsPlain ∧ fault.report text = failure := by
    unfold Reader.readAll at hread
    split at hread
    · next fault hrun => exact ⟨fault, h.run text fault hrun, Except.error.inj hread⟩
    · split at hread
      · cases hread
      · have hwords : (Cause.trailingCharacters).IsPlain := List.forall_mem_nil _
        exact ⟨.next .trailingCharacters _, hwords, Except.error.inj hread⟩
  obtain ⟨fault, hplain, rfl⟩ := hreport
  have hline := Place.line_advance ⟨1, 0⟩ (Text.byteCount text - fault.bytesLeft) text
  rw [Nat.add_comm] at hline
  exact ⟨hplain, hline⟩

end Json
end TaintFlow
