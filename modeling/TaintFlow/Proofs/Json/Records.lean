/-
What the readers of records and tags take.

A record that is written as an object is read entry by entry.  `Fills` says what
that does to the record, given the entries, and without a text to be scanned.
Reading is then two things that are independent of each other: the text is an
object with some entries, and these entries fill the record
(`keyed_eq_ok_iff`).

A field is followed through a record by a function of the record that no other
field changes (`Fills.get_eq`).  Its key comes at most once, and if the field is
required exactly once.
-/
import TaintFlow.Proofs.Json.Reading

namespace TaintFlow
namespace Json

variable {ρ α : Type}

namespace Record

def field? (record : Record ρ) (key : String) : Option (Field ρ) :=
  record.fields.find? fun field => field.key == key

/-- Reading these entries in turn makes the final record of `value`.  `seen`
holds the names of the fields that were read before. -/
inductive Fills (record : Record ρ) : ρ → (seen : List String) → List Entry → ρ → Prop where
  | done {value : ρ} {seen : List String}
      (h : ∀ field ∈ record.fields, field.required = true → field.key ∈ seen) :
      Fills record value seen [] value
  | skip {value final : ρ} {seen : List String} {key : String} {text : Input}
      {entries : List Entry} (hkey : record.field? key = none)
      (h : Fills record value seen entries final) :
      Fills record value seen ((key, text) :: entries) final
  | set {value final : ρ} {seen : List String} {key : String} {text rest : Input}
      {entries : List Entry} {field : Field ρ} {update : ρ → ρ}
      (hkey : record.field? key = some field) (hseen : key ∉ seen)
      (hread : field.update.run text = .ok (update, rest))
      (h : Fills record (update value) (key :: seen) entries final) :
      Fills record value seen ((key, text) :: entries) final

/-- Every field reads values. -/
def Spells (record : Record ρ) : Prop := ∀ field ∈ record.fields, field.update.Spells

theorem missing_eq_none_iff {record : Record ρ} {seen : List String} :
    (record.fields.find? fun field => field.required && !seen.contains field.key) = none ↔
      ∀ field ∈ record.fields, field.required = true → field.key ∈ seen := by
  simp only [List.find?_eq_none, Bool.and_eq_true, Bool.not_eq_true', List.contains_eq_mem,
    decide_eq_false_iff_not, not_and, Classical.not_not]

theorem mem_of_field?_eq_some {record : Record ρ} {key : String} {field : Field ρ}
    (h : record.field? key = some field) : field ∈ record.fields ∧ field.key = key := by
  have hkey := List.find?_some h
  exact ⟨List.mem_of_find?_eq_some h, beq_iff_eq.mp hkey⟩

/-- What is read as a record is an object, and its entries fill the record. -/
theorem exists_fills_of_keyed {record : Record ρ} (hrecord : record.Spells) {value final : ρ}
    {seen : List String} {first : Bool} {text rest : Input}
    (h : record.keyed value seen first text = .ok (final, rest)) :
    ∃ entries, EntriesText first entries text rest ∧ record.Fills value seen entries final := by
  fun_induction keyed record value seen first text with
  | case1 => cases h
  | case2 => cases h
  | case3 value seen first text left hnext hmissing =>
    obtain ⟨tail, rfl, hclose⟩ := nextKey_eq_close_iff.mp hnext
    cases h
    exact ⟨[], .close hclose, .done (missing_eq_none_iff.mp hmissing)⟩
  | case4 => cases h
  | case5 => cases h
  | case6 value seen first text key left hnext hkey start hcolon next hskip ih =>
    obtain ⟨place, hplace, hkeyText⟩ := nextKey_eq_more_iff.mp hnext
    obtain ⟨entries, hentries, hfills⟩ := ih h
    have hentry := EntryText.keyed hkeyText (colon_eq_ok_iff.mp hcolon)
      (skipValue_eq_ok_iff.mp hskip)
    exact ⟨(key, start) :: entries, .entry hplace hentry hentries, .skip hkey hfills⟩
  | case7 => cases h
  | case8 => cases h
  | case9 => cases h
  | case10 value seen first text key left hnext field hkey hseen start hcolon update next hread ih =>
    obtain ⟨place, hplace, hkeyText⟩ := nextKey_eq_more_iff.mp hnext
    obtain ⟨entries, hentries, hfills⟩ := ih h
    have hmem := (mem_of_field?_eq_some hkey).1
    have hentry := EntryText.keyed hkeyText (colon_eq_ok_iff.mp hcolon)
      ((hrecord field hmem).valueText hread)
    have hnew : key ∉ seen := fun hold => hseen (List.contains_iff_mem.mpr hold)
    exact ⟨(key, start) :: entries, .entry hplace hentry hentries, .set hkey hnew hread hfills⟩

theorem keyed_of_close {record : Record ρ} {value : ρ} {seen : List String} {first : Bool}
    {text rest : Input} (hclose : skipSpace text = '\x7d' :: rest)
    (h : ∀ field ∈ record.fields, field.required = true → field.key ∈ seen) :
    record.keyed value seen first text = .ok (value, rest) := by
  have hnext : nextKey first text = .ok (.close ('\x7d' :: rest)) :=
    nextKey_eq_close_iff.mpr ⟨rest, rfl, hclose⟩
  rw [keyed]
  split
  · next heq => simp [hnext] at heq
  · next heq =>
    cases hnext.symm.trans heq
    rw [missing_eq_none_iff.mpr h]
    rfl
  · next heq => simp [hnext] at heq

theorem keyed_of_skip {record : Record ρ} {value : ρ} {seen : List String} {first : Bool}
    {key : String} {text left start next : Input} (hnext : nextKey first text = .ok (.more key left))
    (hcolon : colon left = .ok start) (hskip : skipValue start = .ok next)
    (hkey : record.field? key = none) :
    record.keyed value seen first text = record.keyed value seen false next := by
  rw [keyed]
  unfold field? at hkey
  split
  · next heq => simp [hnext] at heq
  · next heq => simp [hnext] at heq
  · next heq =>
    cases hnext.symm.trans heq
    simp only [hkey]
    split
    · next heq => simp [hcolon] at heq
    · next heq =>
      cases hcolon.symm.trans heq
      split
      · next heq => simp [hskip] at heq
      · next heq =>
        cases hskip.symm.trans heq
        rfl

theorem keyed_of_set {record : Record ρ} {value : ρ} {seen : List String} {first : Bool}
    {key : String} {text left start next : Input} {field : Field ρ} {update : ρ → ρ}
    (hnext : nextKey first text = .ok (.more key left)) (hcolon : colon left = .ok start)
    (hkey : record.field? key = some field) (hseen : key ∉ seen)
    (hread : field.update.run start = .ok (update, next)) :
    record.keyed value seen first text = record.keyed (update value) (key :: seen) false next := by
  rw [keyed]
  unfold field? at hkey
  split
  · next heq => simp [hnext] at heq
  · next heq => simp [hnext] at heq
  · next heq =>
    cases hnext.symm.trans heq
    simp only [hkey]
    rw [if_neg fun hold => hseen (List.contains_iff_mem.mp hold)]
    split
    · next heq => simp [hcolon] at heq
    · next heq =>
      cases hcolon.symm.trans heq
      split
      · next heq => simp [hread] at heq
      · next heq =>
        cases hread.symm.trans heq
        rfl

/-- Entries that fill a record are read as it. -/
theorem keyed_of_fills {record : Record ρ} (hrecord : record.Spells) {value final : ρ}
    {seen : List String} {first : Bool} {entries : List Entry} {text rest : Input}
    (htext : EntriesText first entries text rest)
    (hfills : record.Fills value seen entries final) :
    record.keyed value seen first text = .ok (final, rest) := by
  induction htext generalizing value seen with
  | close hclose =>
    cases hfills with
    | done h => exact keyed_of_close hclose h
  | @entry first entry entries text item next rest hplace hentry _ ih =>
    obtain ⟨hkeyText, hcolon, hvalue⟩ := hentry
    have hnext := nextKey_eq_more_iff.mpr ⟨item, hplace, hkeyText⟩
    have hcolon := colon_eq_ok_iff.mpr hcolon
    cases hfills with
    | skip hkey h =>
      rw [keyed_of_skip hnext hcolon (skipValue_eq_ok_iff.mpr hvalue) hkey]
      exact ih h
    | set hkey hseen hread h =>
      -- The reader stops where the entry ends, for a text starts with one value.
      have hmem := (mem_of_field?_eq_some hkey).1
      obtain rfl := ((hrecord _ hmem).valueText hread).eq hvalue
      rw [keyed_of_set hnext hcolon hkey hseen hread]
      exact ih h

theorem keyed_eq_ok_iff {record : Record ρ} (hrecord : record.Spells) {value final : ρ}
    {seen : List String} {first : Bool} {text rest : Input} :
    record.keyed value seen first text = .ok (final, rest) ↔
      ∃ entries, EntriesText first entries text rest ∧ record.Fills value seen entries final := by
  constructor
  · exact exists_fills_of_keyed hrecord
  · rintro ⟨entries, htext, hfills⟩
    exact keyed_of_fills hrecord htext hfills

/-! ## One field of a record -/

end Record

/-- Reading this field does not change what `get` sees of a record. -/
structure Field.Keeps (get : ρ → α) (field : Field ρ) : Prop where
  get_update : ∀ {text rest : Input} {update : ρ → ρ},
    field.update.run text = .ok (update, rest) → ∀ value, get (update value) = get value

theorem Field.keeps_of {β : Type} {get : ρ → β} {key : String} {reader : Reader α}
    {set : α → ρ → ρ} {required : Bool} (h : ∀ a value, get (set a value) = get value) :
    (Field.of key reader set required).Keeps get := by
  refine ⟨fun hread value => ?_⟩
  obtain ⟨a, -, rfl⟩ := Reader.map_run_eq_ok_iff.mp hread
  exact h a value

namespace Record

variable {record : Record ρ} {get : ρ → α} {field : Field ρ} {key : String}

/-- A field that was read before is in no entry, and stays as it is. -/
theorem Fills.get_eq_of_seen
    (hother : ∀ other ∈ record.fields, other.key ≠ key → other.Keeps get)
    (hfield : record.field? key = some field) {value final : ρ} {seen : List String}
    {entries : List Entry} (h : record.Fills value seen entries final) (hseen : key ∈ seen) :
    (entries.filter fun entry => entry.1 == key) = [] ∧ get final = get value := by
  induction h with
  | done => exact ⟨rfl, rfl⟩
  | @skip _ _ _ name _ _ hname _ ih =>
    have hne : name ≠ key := by
      rintro rfl
      cases hname.symm.trans hfield
    obtain ⟨hnone, hget⟩ := ih hseen
    rw [List.filter_cons_of_neg (by simpa using hne)]
    exact ⟨hnone, hget⟩
  | @set _ _ _ name _ _ _ other _ hname hnew hread _ ih =>
    have hne : name ≠ key := by
      rintro rfl
      exact hnew hseen
    obtain ⟨hmem, rfl⟩ := mem_of_field?_eq_some hname
    obtain ⟨hnone, hget⟩ := ih (List.mem_cons_of_mem _ hseen)
    rw [List.filter_cons_of_neg (by simpa using hne), hget]
    exact ⟨hnone, (hother other hmem hne).get_update hread _⟩

/-- A field is in at most one entry.  It has the value that stands there, or the
one it had. -/
theorem Fills.get_eq (hother : ∀ other ∈ record.fields, other.key ≠ key → other.Keeps get)
    (hfield : record.field? key = some field) {value final : ρ} {seen : List String}
    {entries : List Entry} (h : record.Fills value seen entries final) (hseen : key ∉ seen) :
    (field.required = false ∧ (entries.filter fun entry => entry.1 == key) = [] ∧
        get final = get value) ∨
      ∃ text rest update before, (entries.filter fun entry => entry.1 == key) = [(key, text)] ∧
        field.update.run text = .ok (update, rest) ∧ get final = get (update before) := by
  induction h with
  | done h =>
    obtain ⟨hmem, rfl⟩ := mem_of_field?_eq_some hfield
    refine .inl ⟨?_, rfl, rfl⟩
    exact Bool.eq_false_iff.mpr fun hrequired => hseen (h field hmem hrequired)
  | @skip _ _ _ name _ _ hname _ ih =>
    have hne : name ≠ key := by
      rintro rfl
      cases hname.symm.trans hfield
    rw [List.filter_cons_of_neg (by simpa using hne)]
    exact ih hseen
  | @set value _ seen name text rest _ other update hname _ hread h ih =>
    by_cases heq : name = key
    -- This is the entry of the field, and none of the later ones is.
    · subst heq
      cases hname.symm.trans hfield
      obtain ⟨hnone, hget⟩ := h.get_eq_of_seen hother hfield List.mem_cons_self
      rw [List.filter_cons_of_pos (by simp), hnone]
      exact .inr ⟨text, rest, update, value, rfl, hread, hget⟩
    · obtain ⟨hmem, rfl⟩ := mem_of_field?_eq_some hname
      have hnew : key ∉ other.key :: seen := by
        rw [List.mem_cons, not_or]
        exact ⟨Ne.symm heq, hseen⟩
      rw [List.filter_cons_of_neg (by simpa using heq),
        ← (hother other hmem heq).get_update hread value]
      exact ih hnew

/-! ## Readers of records -/

/-- At the closing bracket the rest of the fields is left out. -/
theorem eq_of_listed_of_close {fields : List (Field ρ)} {index : Nat} {value final : ρ}
    {first : Bool} {text tail rest : Input} (hclose : skipSpace text = ']' :: tail)
    (h : record.listed index value first fields text = .ok (final, rest)) : rest = tail := by
  induction fields generalizing index value text with
  | nil =>
    unfold listed at h
    split at h
    · cases h
    · next hlist =>
      cases h
      exact (List.cons.inj ((closeList_eq_ok_iff.mp hlist).symm.trans hclose)).2
  | cons field fields ih =>
    rw [listed, nextItem_eq_close_iff.mpr ⟨tail, rfl, hclose⟩] at h
    simp only at h
    split at h
    · cases h
    · exact ih rfl h

theorem bodyText_of_listed {fields : List (Field ρ)}
    (hfields : ∀ field ∈ fields, field.update.Spells) {index : Nat} {value final : ρ}
    {first : Bool} {text rest : Input}
    (h : record.listed index value first fields text = .ok (final, rest)) :
    BodyText .square first text rest := by
  induction fields generalizing index value first text with
  | nil =>
    unfold listed at h
    split at h
    · cases h
    · next hlist =>
      cases h
      exact .close (closeList_eq_ok_iff.mp hlist)
  | cons field fields ih =>
    have hnext := h
    unfold listed at h
    split at h
    · cases h
    · next hitem =>
      obtain ⟨tail, rfl, hclose⟩ := nextItem_eq_close_iff.mp hitem
      rw [eq_of_listed_of_close hclose hnext]
      exact .close hclose
    · next hitem =>
      split at h
      · cases h
      · next hread =>
        obtain ⟨place, hplace, rfl⟩ := exists_nextText_of_nextItem hitem
        have hvalue := (hfields field List.mem_cons_self).valueText hread
        exact .item hplace (spelled_item_skipSpace_iff.mp hvalue)
          (ih (fun other hmem => hfields other (List.mem_cons_of_mem _ hmem)) h)

theorem not_listed_of_close {fields : List (Field ρ)} {index : Nat} {value final : ρ}
    {first : Bool} {text tail rest : Input} (hclose : skipSpace text = ']' :: tail)
    (hrequired : ∃ field ∈ fields, field.required = true) :
    record.listed index value first fields text ≠ .ok (final, rest) := by
  induction fields generalizing index value text with
  | nil =>
    obtain ⟨field, hmem, -⟩ := hrequired
    exact absurd hmem List.not_mem_nil
  | cons field fields ih =>
    rw [listed, nextItem_eq_close_iff.mpr ⟨tail, rfl, hclose⟩]
    by_cases hfield : field.required = true
    · simp [hfield]
    · simp only [hfield]
      obtain ⟨other, hmem, hother⟩ := hrequired
      refine ih rfl ⟨other, (List.mem_cons.mp hmem).resolve_left ?_, hother⟩
      rintro rfl
      exact hfield hother

/-- A list that gives all required fields gives the first field, if there are
any. -/
theorem exists_first_of_listed {field : Field ρ} {fields : List (Field ρ)} {index : Nat}
    {value final : ρ} {first : Bool} {text rest : Input}
    (hrequired : ∃ other ∈ field :: fields, other.required = true)
    (h : record.listed index value first (field :: fields) text = .ok (final, rest)) :
    ∃ start update next, nextItem first text = .ok (.more () start) ∧
      field.update.run start = .ok (update, next) := by
  have hlisted := h
  unfold listed at h
  split at h
  · cases h
  · next hnext =>
    obtain ⟨tail, rfl, hclose⟩ := nextItem_eq_close_iff.mp hnext
    exact absurd hlisted (not_listed_of_close hclose hrequired)
  · next start hnext =>
    split at h
    · cases h
    · next update next hread => exact ⟨start, update, next, hnext, hread⟩

theorem head_of_reader_run {budget : Nat} {value : ρ} {text rest : Input}
    (h : (record.reader budget).run text = .ok (value, rest)) :
    (skipSpace text).head? = some '\x7b' ∨ (skipSpace text).head? = some '[' := by
  simp only [reader] at h
  split at h
  · cases h
  · next hopen => exact .inl (congrArg List.head? hopen)
  · next hopen => exact .inr (congrArg List.head? hopen)
  · cases h

theorem keyed_of_reader_run {budget : Nat} {value : ρ} {text body rest : Input}
    (hopen : skipSpace text = '\x7b' :: body)
    (h : (record.reader budget).run text = .ok (value, rest)) :
    record.keyed record.default [] true body = .ok (value, rest) := by
  simp only [reader, hopen] at h
  split at h
  · cases h
  · unfold settled at h
    split at h
    · cases h
    · next hkeyed =>
      cases h
      exact hkeyed

theorem listed_of_reader_run {budget : Nat} {value : ρ} {text body rest : Input}
    (hopen : skipSpace text = '[' :: body) (h : (record.reader budget).run text = .ok (value, rest)) :
    record.listed 0 record.default true record.fields body = .ok (value, rest) := by
  simp only [reader, hopen] at h
  split at h
  · cases h
  · unfold settled at h
    split at h
    · cases h
    · next hlisted =>
      cases h
      exact hlisted

theorem reader_run_of_keyed {budget : Nat} (hbudget : budget ≠ 0) {value : ρ}
    {text body rest : Input} (hopen : skipSpace text = '\x7b' :: body)
    (h : record.keyed record.default [] true body = .ok (value, rest)) :
    (record.reader budget).run text = .ok (value, rest) := by
  simp only [reader, hopen, if_neg hbudget, h, settled]

theorem reader_run_of_listed {budget : Nat} (hbudget : budget ≠ 0) {value : ρ}
    {text body rest : Input} (hopen : skipSpace text = '[' :: body)
    (h : record.listed 0 record.default true record.fields body = .ok (value, rest)) :
    (record.reader budget).run text = .ok (value, rest) := by
  simp only [reader, hopen, if_neg hbudget, h, settled]

/-- A record takes a bracket. -/
theorem budget_ne_zero_of_reader_run {budget : Nat} {value : ρ} {text rest : Input}
    (h : (record.reader budget).run text = .ok (value, rest)) : budget ≠ 0 := by
  rintro rfl
  simp only [reader] at h
  split at h
  all_goals cases h

/-- An object is read as a record when its entries fill the record. -/
theorem reader_run_eq_ok_iff {budget : Nat} (hbudget : budget ≠ 0) (hrecord : record.Spells)
    {value : ρ} {text body rest : Input} (hopen : skipSpace text = '\x7b' :: body) :
    (record.reader budget).run text = .ok (value, rest) ↔
      ∃ entries, EntriesText true entries body rest ∧
        record.Fills record.default [] entries value := by
  rw [← keyed_eq_ok_iff hrecord]
  exact ⟨keyed_of_reader_run hopen, reader_run_of_keyed hbudget hopen⟩

theorem Spells.reader (hrecord : record.Spells) (budget : Nat) :
    (record.reader budget).Spells := by
  refine ⟨fun {text rest value} h => ?_⟩
  rcases head_of_reader_run h with hhead | hhead
  · obtain ⟨body, hopen⟩ := List.head?_eq_some_iff.mp hhead
    obtain ⟨entries, hentries, -⟩ := exists_fills_of_keyed hrecord (keyed_of_reader_run hopen h)
    exact ObjectText.valueText ⟨body, hopen, hentries⟩
  · obtain ⟨body, hopen⟩ := List.head?_eq_some_iff.mp hhead
    exact .item (hopen ▸ bodyText_of_listed hrecord (listed_of_reader_run hopen h))

end Record

/-! ## Tags -/

theorem tagValue_eq_ok_iff {known : List (String × α)} {tag : String} {text rest : Input} {a : α} :
    tagValue known tag text = .ok (a, rest) ↔ known.lookup tag = some a ∧ rest = text := by
  unfold tagValue
  split
  · next found hfound =>
    rw [hfound, Except.ok.injEq, Prod.mk.injEq, Option.some.injEq]
    exact and_congr_right fun _ => eq_comm
  · next hnone => simp [hnone]

theorem tagHere_eq_ok_iff {known : List (String × α)} {text rest : Input} {a : α} :
    tagHere known text = .ok (a, rest) ↔
      ∃ cs, StringText cs text rest ∧ known.lookup (String.ofList cs) = some a := by
  constructor
  · intro h
    unfold tagHere at h
    split at h
    · cases h
    · next hstring =>
      obtain ⟨htag, rfl⟩ := tagValue_eq_ok_iff.mp h
      exact ⟨_, stringRest_eq_ok_iff.mp hstring, htag⟩
  · rintro ⟨cs, hstring, htag⟩
    rw [tagHere, stringRest_eq_ok_iff.mpr hstring]
    exact tagValue_eq_ok_iff.mpr ⟨htag, rfl⟩

/-- The only entry of the object has the tag as its key and null as its value. -/
theorem tagEntry_eq_ok_iff {known : List (String × α)} {text rest : Input} {a : α} :
    tagEntry known text = .ok (a, rest) ↔
      ∃ tag next start left, KeyText tag text next ∧ skipSpace next = ':' :: start ∧
        known.lookup tag = some a ∧ Reader.unit.run start = .ok ((), left) ∧
        skipSpace left = '\x7d' :: rest := by
  constructor
  · intro h
    unfold tagEntry at h
    split at h
    · cases h
    · cases h
    · next hnext =>
      split at h
      · cases h
      · next htag =>
        split at h
        · cases h
        · next hcolon =>
          split at h
          · cases h
          · next hunit =>
            split at h
            · cases h
            · next hclose =>
              cases h
              obtain ⟨hknown, rfl⟩ := tagValue_eq_ok_iff.mp htag
              obtain ⟨place, hplace, hkey⟩ := nextKey_eq_more_iff.mp hnext
              cases hplace
              exact ⟨_, _, _, _, hkey, colon_eq_ok_iff.mp hcolon, hknown, hunit, hclose⟩
            · cases h
  · rintro ⟨tag, next, start, left, hkey, hcolon, htag, hunit, hclose⟩
    have hnext : nextKey true text = .ok (.more tag next) :=
      nextKey_eq_more_iff.mpr ⟨text, .first, hkey⟩
    simp only [tagEntry, hnext, tagValue_eq_ok_iff.mpr ⟨htag, rfl⟩, colon_eq_ok_iff.mpr hcolon,
      hunit, hclose]

theorem Reader.spells_tag (budget : Nat) (known : List (String × α)) :
    (Reader.tag budget known).Spells := by
  refine ⟨fun h => ?_⟩
  simp only [Reader.tag] at h
  split at h
  · cases h
  · next hopen =>
    obtain ⟨cs, hstring, -⟩ := tagHere_eq_ok_iff.mp h
    exact .item (hopen ▸ .string hstring.loose)
  · next hopen =>
    split at h
    · cases h
    · obtain ⟨tag, next, start, left, hkey, hcolon, -, hunit, hclose⟩ := tagEntry_eq_ok_iff.mp h
      have hentry := EntryText.keyed hkey hcolon (Reader.spells_unit.valueText hunit)
      exact ObjectText.valueText ⟨_, hopen, .entry .first hentry (.close hclose)⟩
  · cases h

end Json
end TaintFlow
