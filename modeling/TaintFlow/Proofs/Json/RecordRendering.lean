/-
Records that are written out are read back.

A record may be written as an object, with its fields in any order and with entries
among them that no field has a use for, or as a list (`RecordText`).  A field that
has its default may be left out.  As each field is read, the record goes through
stages: those fields have their values that came already, and all others their
defaults.  At the end it is the record that was written
(`Record.Takes.reader_run_eq`).
-/
import Mathlib.Data.List.Forall2
import TaintFlow.Proofs.Json.Rendering

namespace TaintFlow
namespace Json

/-! ## Renderings -/

/-- How a field of a certain record may be written. -/
structure FieldText where
  key : String
  /-- The field has its default, so that it need not be written. -/
  omissible : Prop
  text : Input → Input → Prop

/-- The field is in one of the entries, or left out. -/
def FieldText.Among (field : FieldText) (entries : List Entry) : Prop :=
  ((entries.filter fun entry => entry.1 == field.key) = [] ∧ field.omissible) ∨
    ∃ value rest, (entries.filter fun entry => entry.1 == field.key) = [(field.key, value)] ∧
      field.text (skipSpace value) rest

/-- The fields of a record from some place on, up to and with the closing bracket of
the list.  Fields may be left out at its end. -/
inductive FieldsText : (first : Bool) → List FieldText → Input → Input → Prop where
  | close {first : Bool} {fields : List FieldText} {text rest : Input}
      (h : skipSpace text = ']' :: rest) (hfields : ∀ field ∈ fields, field.omissible) :
      FieldsText first fields text rest
  | field {first : Bool} {field : FieldText} {fields : List FieldText} {text item next rest : Input}
      (hplace : NextText first text item) (hfield : field.text (skipSpace item) next)
      (h : FieldsText false fields next rest) : FieldsText first (field :: fields) text rest

/-- A record with these fields, as an object with its entries in any order and with
others among them, or as a list. -/
inductive RecordText (depth : Nat) (fields : List FieldText) : Input → Input → Prop where
  | object {entries : List Entry} {body rest : Input} (hdepth : depth ≠ 0)
      (hentries : EntriesText true entries body rest)
      (hfields : ∀ field ∈ fields, field.Among entries) :
      RecordText depth fields ('\x7b' :: body) rest
  | list {body rest : Input} (hdepth : depth ≠ 0) (h : FieldsText true fields body rest) :
      RecordText depth fields ('[' :: body) rest

theorem RecordText.head?_ne_null {depth : Nat} {fields : List FieldText} {text rest : Input}
    (h : RecordText depth fields text rest) : text.head? ≠ some 'n' := by
  cases h <;> exact fun hhead => absurd (Option.some.inj hhead) (by decide)

/-! ## Stages of a record -/

/-- Reading a field as it is written takes a record that was filled so far to one
that has this field too.  `partly seen` is the record with the fields that `seen`
names, and with the defaults of all others. -/
structure Field.Takes {ρ : Type} (partly : List String → ρ) (field : Field ρ)
    (written : FieldText) : Prop where
  key_eq : written.key = field.key
  required : field.required = true → ¬ written.omissible
  read : ∀ {text rest : Input}, written.text (skipSpace text) rest →
    ∃ update, field.update.run text = .ok (update, rest) ∧
      ∀ seen, update (partly seen) = partly (field.key :: seen)

section

variable {ρ α : Type} {partly : List String → ρ}

theorem Field.Takes.of_optional {key : String} {reader : Reader α} {set : α → ρ → ρ}
    {w : Rendering α} {a : α} {omissible : Prop} (h : reader.Undoes w)
    (hset : ∀ seen, set a (partly seen) = partly (key :: seen)) :
    (Field.of key reader set).Takes partly ⟨key, omissible, w a⟩ := by
  refine ⟨rfl, fun hrequired => absurd hrequired Bool.false_ne_true, fun htext => ⟨set a, ?_, hset⟩⟩
  exact Reader.map_run_eq_ok_iff.mpr ⟨a, h.run_eq htext, rfl⟩

theorem Field.Takes.of_required {key : String} {reader : Reader α} {set : α → ρ → ρ}
    {w : Rendering α} {a : α} (h : reader.Undoes w)
    (hset : ∀ seen, set a (partly seen) = partly (key :: seen)) :
    (Field.of key reader set true).Takes partly ⟨key, False, w a⟩ := by
  refine ⟨rfl, fun _ => not_false, fun htext => ⟨set a, ?_, hset⟩⟩
  exact Reader.map_run_eq_ok_iff.mpr ⟨a, h.run_eq htext, rfl⟩

/-- What is to be known of the fields of a record and of the ways to write them. -/
structure Record.Takes (partly : List String → ρ) (record : Record ρ) (fields : List FieldText)
    (value : ρ) : Prop where
  spells : record.Spells
  each : List.Forall₂ (Field.Takes partly) record.fields fields
  default_eq : partly [] = record.default
  value_eq : ∀ seen, (∀ field ∈ fields, field.key ∉ seen → field.omissible) → partly seen = value

end

/-! ## Objects -/

/-- What has to be in the entries that are still to come: a field that was read is
in none of them. -/
def FieldText.Awaits (field : FieldText) (seen : List String) (entries : List Entry) : Prop :=
  if field.key ∈ seen then (entries.filter fun entry => entry.1 == field.key) = []
  else field.Among entries

namespace FieldText

variable {field : FieldText} {seen : List String} {entries : List Entry} {text : Input}

theorem awaits_cons_of_ne {key : String} (hne : key ≠ field.key) :
    field.Awaits seen ((key, text) :: entries) ↔ field.Awaits seen entries := by
  have hfilter : ((key, text) :: entries).filter (fun entry => entry.1 == field.key) =
      entries.filter fun entry => entry.1 == field.key :=
    List.filter_cons_of_neg (by simpa using hne)
  unfold Awaits Among
  rw [hfilter]

theorem Awaits.of_cons_self (h : field.Awaits seen ((field.key, text) :: entries)) :
    field.key ∉ seen ∧ (entries.filter fun entry => entry.1 == field.key) = [] ∧
      ∃ rest, field.text (skipSpace text) rest := by
  have hfilter : ((field.key, text) :: entries).filter (fun entry => entry.1 == field.key) =
      (field.key, text) :: entries.filter fun entry => entry.1 == field.key :=
    List.filter_cons_of_pos (beq_self_eq_true _)
  unfold Awaits Among at h
  rw [hfilter] at h
  by_cases hseen : field.key ∈ seen
  · rw [if_pos hseen] at h
    cases h
  · rw [if_neg hseen] at h
    obtain ⟨hnil, -⟩ | ⟨value, rest, hsingle, htext⟩ := h
    · cases hnil
    · obtain ⟨hentry, hnil⟩ := List.cons.inj hsingle
      cases hentry
      exact ⟨hseen, hnil, rest, htext⟩

theorem Awaits.omissible_of_nil (h : field.Awaits seen []) (hseen : field.key ∉ seen) :
    field.omissible := by
  rw [Awaits, if_neg hseen] at h
  obtain ⟨-, homissible⟩ | ⟨value, rest, hsingle, -⟩ := h
  · exact homissible
  · cases hsingle

/-- Behind the entry of a field, the same is awaited for all others. -/
theorem Awaits.cons_seen {key : String} (h : field.Awaits seen ((key, text) :: entries)) :
    field.Awaits (key :: seen) entries := by
  by_cases hkey : key = field.key
  · rw [hkey] at h ⊢
    rw [Awaits, if_pos List.mem_cons_self]
    exact h.of_cons_self.2.1
  · have hmem : field.key ∈ key :: seen ↔ field.key ∈ seen := by
      rw [List.mem_cons]
      exact or_iff_right (Ne.symm hkey)
    rw [awaits_cons_of_ne hkey] at h
    unfold Awaits at h ⊢
    simp only [hmem]
    exact h

end FieldText

theorem exists_mem_of_forall₂ {α β : Type} {R : α → β → Prop} {as : List α} {bs : List β}
    (h : List.Forall₂ R as bs) {a : α} (ha : a ∈ as) : ∃ b ∈ bs, R a b := by
  induction h with
  | nil => cases ha
  | cons hab _ ih =>
    rcases List.mem_cons.mp ha with rfl | ha
    · exact ⟨_, List.mem_cons_self, hab⟩
    · obtain ⟨b, hb, hR⟩ := ih ha
      exact ⟨b, List.mem_cons_of_mem _ hb, hR⟩

namespace Record

variable {ρ : Type} {partly : List String → ρ} {record : Record ρ} {fields : List FieldText}
  {value : ρ}

/-- Entries that hold all fields fill the record. -/
theorem Takes.fills (h : record.Takes partly fields value) {seen : List String}
    {entries : List Entry} (hfields : ∀ field ∈ fields, field.Awaits seen entries) :
    record.Fills (partly seen) seen entries value := by
  induction entries generalizing seen with
  | nil =>
    rw [h.value_eq seen fun written hwritten => (hfields written hwritten).omissible_of_nil]
    refine .done fun field hfield hrequired => ?_
    obtain ⟨written, hwritten, htakes⟩ := exists_mem_of_forall₂ h.each hfield
    rw [← htakes.key_eq]
    by_contra hseen
    exact htakes.required hrequired ((hfields written hwritten).omissible_of_nil hseen)
  | cons entry entries ih =>
    obtain ⟨key, text⟩ := entry
    cases hkey : record.field? key with
    | none =>
      refine .skip hkey (ih fun written hwritten => ?_)
      obtain ⟨field, hfield, htakes⟩ := exists_mem_of_forall₂ h.each.flip hwritten
      have hne : key ≠ written.key := by
        intro heq
        have hnone := List.find?_eq_none.mp hkey field hfield
        rw [heq, Field.Takes.key_eq htakes] at hnone
        exact hnone (beq_self_eq_true _)
      exact (FieldText.awaits_cons_of_ne hne).mp (hfields written hwritten)
    | some field =>
      obtain ⟨hfield, rfl⟩ := mem_of_field?_eq_some hkey
      obtain ⟨written, hwritten, htakes⟩ := exists_mem_of_forall₂ h.each hfield
      have hawaits := hfields written hwritten
      rw [← htakes.key_eq] at hawaits
      obtain ⟨hseen, -, rest, htext⟩ := hawaits.of_cons_self
      obtain ⟨update, hread, hupdate⟩ := htakes.read htext
      refine .set hkey (htakes.key_eq ▸ hseen) hread ?_
      rw [hupdate]
      exact ih fun other hother => (hfields other hother).cons_seen

/-! ## Lists -/

theorem listed_of_close {fields : List (Field ρ)} {index : Nat} {first : Bool} {text rest : Input}
    (hclose : skipSpace text = ']' :: rest) (h : ∀ field ∈ fields, field.required = false) :
    record.listed index value first fields text = .ok (value, rest) := by
  induction fields generalizing index text with
  | nil => rw [listed, closeList_eq_ok_iff.mpr hclose]
  | cons field fields ih =>
    rw [List.forall_mem_cons] at h
    rw [listed, nextItem_eq_close_iff.mpr ⟨rest, rfl, hclose⟩]
    simp only [h.1]
    exact ih rfl h.2

/-- Items that give the fields in turn make up the record. -/
theorem Takes.listed_eq (h : record.Takes partly fields value) {places : List (Field ρ)}
    {written : List FieldText} (heach : List.Forall₂ (Field.Takes partly) places written)
    (hspells : ∀ field ∈ places, field.update.Spells) (seen : List String)
    (hseen : ∀ field ∈ fields, field.key ∉ seen → field ∈ written) {first : Bool}
    {text rest : Input} (htext : FieldsText first written text rest) (index : Nat) :
    record.listed index (partly seen) first places text = .ok (value, rest) := by
  induction htext generalizing places seen index with
  | close hclose homissible =>
    rw [h.value_eq seen fun field hfield hnew => homissible field (hseen field hfield hnew)]
    refine listed_of_close hclose fun field hfield => ?_
    obtain ⟨written, hwritten, htakes⟩ := exists_mem_of_forall₂ heach hfield
    exact Bool.eq_false_iff.mpr fun hrequired =>
      htakes.required hrequired (homissible written hwritten)
  | @field first written others text item next rest hplace hitem _ ih =>
    cases heach with
    | @cons field _ places _ htakes heach =>
      rw [List.forall_mem_cons] at hspells
      rw [← skipSpace_skipSpace] at hitem
      obtain ⟨update, hread, hupdate⟩ := htakes.read hitem
      have hvalue := spelled_item_skipSpace_iff.mp (hspells.1.valueText hread)
      rw [listed, nextItem_of_valueText hplace hvalue]
      simp only [hread, hupdate]
      refine ih heach hspells.2 (field.key :: seen) (fun other hother hnew => ?_) (index + 1)
      rw [List.mem_cons, not_or] at hnew
      have hmem := hseen other hother hnew.2
      refine (List.mem_cons.mp hmem).resolve_left ?_
      intro heq
      rw [heq] at hnew
      exact hnew.1 htakes.key_eq

/-- A record is read as what is written. -/
theorem Takes.reader_run_eq (h : record.Takes partly fields value) {depth : Nat}
    {text rest : Input} (htext : RecordText depth fields (skipSpace text) rest) :
    (record.reader depth).run text = .ok (value, rest) := by
  generalize hstart : skipSpace text = start at htext
  cases htext with
  | object hdepth hentries hfields =>
    have hawaits : ∀ field ∈ fields, field.Awaits [] _ := fun field hfield =>
      (if_neg List.not_mem_nil).mpr (hfields field hfield)
    have hfills := h.fills hawaits
    rw [h.default_eq] at hfills
    exact (reader_run_eq_ok_iff hdepth h.spells hstart).mpr ⟨_, hentries, hfills⟩
  | list hdepth hlist =>
    have hlisted := h.listed_eq h.each h.spells [] (fun _ hfield _ => hfield) hlist 0
    rw [h.default_eq] at hlisted
    exact reader_run_of_listed hdepth hstart hlisted

end Record

end Json
end TaintFlow
