/-
One value of an object in the place of another.

The front of a value in an object is all that stands before it: the opening bracket, the
entries in front, its key and the colon (`ObjectFront`).  Records are local, so the front
is read the same whatever comes behind it, and the fields behind the value change other
parts of the record than the value does.  So where a record is read with one value, it is
read with another exactly if a value of the field is read there, and nothing but that
field differs (`Record.Local.reader_run_replace_iff`).
-/
import TaintFlow.Proofs.Json.RecordLocality

namespace TaintFlow
namespace Json

variable {ρ α : Type}

/-! ## Fronts -/

/-- What stands before a value inside the brackets of an object: the entries in front,
each with a comma, and the key of the value with its colon. -/
inductive EntriesFront (name : String) : Input → Prop where
  | key {before key between : Input} (hbefore : Blank before)
      (hkey : StringText name.toList key []) (hbetween : Blank between) :
      EntriesFront name (before ++ '"' :: (key ++ (between ++ [':'])))
  | behind {entry : Entry} {text front : Input} (hentry : EntryForm entry text)
      (h : EntriesFront name front) : EntriesFront name (text ++ ',' :: front)

/-- What stands before the value of this name in an object. -/
inductive ObjectFront (name : String) : Input → Prop where
  | opened {blanks front : Input} (hblanks : Blank blanks) (h : EntriesFront name front) :
      ObjectFront name (blanks ++ '\x7b' :: front)

theorem keyPlace_of_parts {first : Bool} {lead before key between : Input} {name : String}
    (hlead : ∀ other, NextText first (lead ++ other) other) (hbefore : Blank before)
    (hkey : StringText name.toList key []) (hbetween : Blank between) (value : Input) :
    KeyPlace first name (lead ++ (before ++ '"' :: (key ++ (between ++ ':' :: value)))) value :=
  .colon (hlead _) (keyText_of_form hbefore hkey _) (skipSpace_blank_append_cons hbetween rfl value)

/-- What is left of an item where its value has been read are blanks. -/
theorem Forms.exists_blank_of_skipValue {item text used next : Input}
    (hitem : Forms (.item .square) item) (htext : EndsNumeral text)
    (hskip : skipValue (item ++ text) = .ok next) (hused : item ++ text = used ++ next) :
    ∃ after, Blank after ∧ item = used ++ after ∧ next = after ++ text := by
  obtain ⟨after, hafter, hvalue⟩ := hitem.spelled text htext
  obtain rfl := (skipValue_eq_ok_iff.mp hskip).eq hvalue
  rw [← List.append_assoc] at hused
  exact ⟨after, hafter, List.append_cancel_right hused, rfl⟩

namespace Record

variable {record : Record ρ}

/-- At a key, its entry is skipped, or the field of this name is read, which was not read
before. -/
theorem keyed_cases {value final : ρ} {seen : List String} {first : Bool} {key : String}
    {text start rest : Input} (hplace : KeyPlace first key text start)
    (h : record.keyed value seen first text = .ok (final, rest)) :
    (record.field? key = none ∧ ∃ next, skipValue start = .ok next ∧
        record.keyed value seen false next = .ok (final, rest)) ∨
      ∃ field update next, record.field? key = some field ∧ key ∉ seen ∧
        field.update.run start = .ok (update, next) ∧
        record.keyed (update value) (key :: seen) false next = .ok (final, rest) := by
  obtain ⟨left, hnext, hcolon⟩ := exists_nextKey_of_keyPlace hplace
  rw [keyed] at h
  split at h
  · cases h
  · next hclose => cases hnext.symm.trans hclose
  · next hmore =>
    cases hnext.symm.trans hmore
    split at h
    · next hkey =>
      split at h
      · cases h
      · next hstart =>
        cases hcolon.symm.trans hstart
        split at h
        · cases h
        · next hskip => exact .inl ⟨hkey, _, hskip, h⟩
    · next field hkey =>
      split at h
      · cases h
      · next hseen =>
        have hnew : key ∉ seen := fun hold => hseen (List.contains_iff_mem.mpr hold)
        split at h
        · cases h
        · next hstart =>
          cases hcolon.symm.trans hstart
          split at h
          · cases h
          · next hread => exact .inr ⟨field, _, _, hkey, hnew, hread, h⟩

/-- An entry is read the same whatever stands behind it. -/
theorem Local.exists_keyed_behind (hrecord : record.Local) {entry : Entry} {item : Input}
    (hentry : EntryForm entry item) {value final : ρ} {seen : List String} {first : Bool}
    {lead text rest : Input} (hlead : ∀ other, NextText first (lead ++ other) other)
    (htext : EndsNumeral text)
    (h : record.keyed value seen first (lead ++ (item ++ text)) = .ok (final, rest)) :
    ∃ before names after, Blank after ∧ ∀ other, EndsNumeral other →
      record.keyed value seen first (lead ++ (item ++ other)) =
        record.keyed before names false (after ++ other) := by
  obtain @⟨key, before, body, between, item, hbefore, hkey, hbetween, hitem⟩ := hentry
  have hplace := keyPlace_of_parts hlead hbefore hkey hbetween
  simp only [List.append_assoc, List.cons_append] at h ⊢
  rcases keyed_cases (hplace _) h with
    ⟨hnone, next, hskip, -⟩ | ⟨field, update, next, hfield, hnew, hread, -⟩
  · obtain ⟨used, hused, hskipped⟩ := exists_append_of_skipValue hskip
    obtain ⟨after, hafter, rfl, rfl⟩ := hitem.exists_blank_of_skipValue htext hskip hused
    refine ⟨value, seen, after, hafter, fun other hother => ?_⟩
    obtain ⟨left, hleft, hcolon⟩ := exists_nextKey_of_keyPlace (hplace ((used ++ after) ++ other))
    have hskip := hskipped (after ++ other) (hother.blank_append hafter)
    rw [← List.append_assoc] at hskip
    exact keyed_of_skip hleft hcolon hskip hnone
  · have hmem := (mem_of_field?_eq_some hfield).1
    obtain ⟨used, hused, hreads⟩ := (hrecord.fields field hmem).exists_append hread
    have hskip := (hrecord.spells field hmem).skipValue hread
    obtain ⟨after, hafter, rfl, rfl⟩ := hitem.exists_blank_of_skipValue htext hskip hused
    refine ⟨update value, key :: seen, after, hafter, fun other hother => ?_⟩
    obtain ⟨left, hleft, hcolon⟩ := exists_nextKey_of_keyPlace (hplace ((used ++ after) ++ other))
    have hread := hreads (after ++ other) (hother.blank_append hafter)
    rw [← List.append_assoc] at hread
    exact keyed_of_set hleft hcolon hfield hnew hread

/-- The front of a value is read the same whatever stands behind it, so what is read is
decided from the value on. -/
theorem Local.exists_keyed_iff (hrecord : record.Local) {name : String} {field : Field ρ}
    (hfield : record.field? name = some field) {front : Input} (hfront : EntriesFront name front)
    {value final : ρ} {seen : List String} {first : Bool} {lead text rest : Input}
    (hlead : ∀ other, NextText first (lead ++ other) other)
    (h : record.keyed value seen first (lead ++ (front ++ text)) = .ok (final, rest)) :
    ∃ before names, ∀ other result,
      record.keyed value seen first (lead ++ (front ++ other)) = .ok result ↔
        ∃ update next, field.update.run other = .ok (update, next) ∧
          record.keyed (update before) (name :: names) false next = .ok result := by
  induction hfront generalizing value seen first lead with
  | @key before key between hbefore hkey hbetween =>
    have hplace := keyPlace_of_parts hlead hbefore hkey hbetween
    simp only [List.append_assoc, List.cons_append, List.nil_append] at h ⊢
    rcases keyed_cases (hplace text) h with ⟨hnone, -⟩ | ⟨_, _, _, -, hnew, -, -⟩
    · cases hnone.symm.trans hfield
    · refine ⟨value, seen, fun other result => ⟨fun hother => ?_, ?_⟩⟩
      · rcases keyed_cases (hplace other) hother with
          ⟨hnone, -⟩ | ⟨_, update, next, hsome, -, hread, hnext⟩
        · cases hnone.symm.trans hfield
        · cases hsome.symm.trans hfield
          exact ⟨update, next, hread, hnext⟩
      · rintro ⟨update, next, hread, hnext⟩
        obtain ⟨left, hleft, hcolon⟩ := exists_nextKey_of_keyPlace (hplace other)
        rw [keyed_of_set hleft hcolon hfield hnew hread]
        exact hnext
  | @behind entry item front hentry _ ih =>
    have hcomma : ∀ other, EndsNumeral (',' :: other) := fun other => endsNumeral_cons (by decide)
    simp only [List.append_assoc, List.cons_append] at h ⊢
    obtain ⟨before, names, after, hafter, hbehind⟩ :=
      hrecord.exists_keyed_behind hentry hlead (hcomma _) h
    have hplace : ∀ other, NextText false ((after ++ [',']) ++ other) other := fun other => by
      rw [List.append_assoc]
      exact .comma (skipSpace_blank_append_cons hafter rfl other)
    have hstep : ∀ other, record.keyed value seen first (lead ++ (item ++ ',' :: (front ++ other))) =
        record.keyed before names false ((after ++ [',']) ++ (front ++ other)) := fun other => by
      rw [hbehind _ (hcomma _), List.append_assoc]
      rfl
    simp only [hstep] at h ⊢
    exact ih hplace h

end Record

/-! ## Fields behind a value -/

/-- Reading this field and setting something else in the record may change places. -/
structure Field.Commutes (set : ρ → ρ) (field : Field ρ) : Prop where
  update_set : ∀ {text rest : Input} {update : ρ → ρ},
    field.update.run text = .ok (update, rest) → ∀ value, update (set value) = set (update value)

theorem Field.commutes_of {key : String} {reader : Reader α} {put : α → ρ → ρ} {required : Bool}
    {set : ρ → ρ} (h : ∀ a value, put a (set value) = set (put a value)) :
    (Field.of key reader put required).Commutes set := by
  refine ⟨fun hread value => ?_⟩
  obtain ⟨a, -, rfl⟩ := Reader.map_run_eq_ok_iff.mp hread
  exact h a value

namespace Record

variable {record : Record ρ}

/-- What is set for a field that was read stays set. -/
theorem Fills.set_of_seen {set : ρ → ρ} {key : String}
    (hother : ∀ other ∈ record.fields, other.key ≠ key → other.Commutes set) {value final : ρ}
    {seen : List String} {entries : List Entry} (h : record.Fills value seen entries final)
    (hseen : key ∈ seen) : record.Fills (set value) seen entries (set final) := by
  induction h with
  | done hrequired => exact .done hrequired
  | skip hkey _ ih => exact .skip hkey (ih hseen)
  | @set value _ _ name _ _ _ field _ hkey hnew hread _ ih =>
    have hne : name ≠ key := by
      rintro rfl
      exact hnew hseen
    obtain ⟨hmem, rfl⟩ := mem_of_field?_eq_some hkey
    refine .set hkey hnew hread ?_
    rw [(hother field hmem hne).update_set hread value]
    exact ih (List.mem_cons_of_mem _ hseen)

/-- Where a record is read, it is read with another value in the place of this one
exactly if that value is one of the field, and it differs from the first in this field
only.  Reading the other value has to stop where reading the first one does. -/
theorem Local.reader_run_replace_iff (hrecord : record.Local) {name : String} {reader : Reader α}
    {set : α → ρ → ρ} {required : Bool}
    (hfield : record.field? name = some (.of name reader set required))
    (hother : ∀ b, ∀ other ∈ record.fields, other.key ≠ name → other.Commutes (set b))
    (hset : ∀ a b value, set b (set a value) = set b value) {front : Input}
    (hfront : ObjectFront name front) {budget : Nat} {old rest : Input} {whole : ρ}
    (hread : (record.reader budget).run (front ++ old) = .ok (whole, rest)) :
    ∃ a back, reader.run old = .ok (a, back) ∧ EndsNumeral back ∧
      ∀ new, (∀ b next, reader.run new = .ok (b, next) → next = back) → ∀ result,
        (record.reader budget).run (front ++ new) = .ok result ↔
          ∃ b, reader.run new = .ok (b, back) ∧ result = (set b whole, rest) := by
  have hbudget := budget_ne_zero_of_reader_run hread
  obtain @⟨blanks, front, hblanks, hfront⟩ := hfront
  simp only [List.append_assoc, List.cons_append] at hread ⊢
  have hopen : ∀ other, skipSpace (blanks ++ '\x7b' :: (front ++ other)) =
      '\x7b' :: (front ++ other) := fun other => skipSpace_blank_append_cons hblanks rfl _
  have hkeyed := keyed_of_reader_run (hopen old) hread
  have hfirst : ∀ other : Input, NextText true ([] ++ other) other := fun _ => .first
  obtain ⟨before, names, hiff⟩ := hrecord.exists_keyed_iff hfield hfront hfirst hkeyed
  obtain ⟨update, back, hupdate, hbehind⟩ := (hiff old (whole, rest)).mp hkeyed
  obtain ⟨a, ha, rfl⟩ := Reader.map_run_eq_ok_iff.mp hupdate
  have hreplaced : ∀ b, record.keyed (set b before) (name :: names) false back =
      .ok (set b whole, rest) := by
    intro b
    obtain ⟨entries, hentries, hfills⟩ := exists_fills_of_keyed hrecord.spells hbehind
    have hfills := hfills.set_of_seen (hother b) List.mem_cons_self
    rw [hset] at hfills
    exact keyed_of_fills hrecord.spells hentries hfills
  refine ⟨a, back, ha, endsNumeral_of_keyed hrecord.spells hbehind, ?_⟩
  intro new hnew result
  constructor
  · intro hresult
    obtain ⟨update, next, hupdate, hnext⟩ :=
      (hiff new result).mp (keyed_of_reader_run (hopen new) hresult)
    obtain ⟨b, hb, rfl⟩ := Reader.map_run_eq_ok_iff.mp hupdate
    obtain rfl := hnew b next hb
    exact ⟨b, hb, Except.ok.inj (hnext.symm.trans (hreplaced b))⟩
  · rintro ⟨b, hb, rfl⟩
    have hupdate : (reader.map set).run new = .ok (set b, back) :=
      Reader.map_run_eq_ok_iff.mpr ⟨b, hb, rfl⟩
    exact reader_run_of_keyed hbudget (hopen new)
      ((hiff new _).mpr ⟨set b, back, hupdate, hreplaced b⟩)

end Record
end Json
end TaintFlow
