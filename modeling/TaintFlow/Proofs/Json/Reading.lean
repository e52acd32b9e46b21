/-
What typed readers take.

A reader that succeeds has read a value of the grammar, and nothing behind it
(`Reader.Spells`).  There is one lemma for each way to build a reader, so that a
reader made of others is covered by the lemmas of its parts.  As skipping takes
every value of the grammar, whatever a reader accepts can be skipped.
-/
import TaintFlow.Json.Record
import TaintFlow.Proofs.Json.Skipping

namespace TaintFlow
namespace Json

variable {α β : Type}

/-- What the reader takes is a value. -/
structure Reader.Spells (reader : Reader α) : Prop where
  valueText : ∀ {text rest : Input} {a : α}, reader.run text = .ok (a, rest) → ValueText text rest

/-- Whatever such a reader accepts is skipped up to the same place. -/
theorem Reader.Spells.skipValue {reader : Reader α} (hreader : reader.Spells) {text rest : Input}
    {a : α} (h : reader.run text = .ok (a, rest)) : skipValue text = .ok rest :=
  skipValue_eq_ok_iff.mpr (hreader.valueText h)

theorem Reader.readAll_eq_ok_iff {reader : Reader α} {text : Input} {a : α} :
    reader.readAll text = .ok a ↔ ∃ rest, reader.run text = .ok (a, rest) ∧ skipSpace rest = [] := by
  constructor
  · intro h
    unfold readAll at h
    split at h
    · cases h
    · next hread =>
      split at h
      · next hrest =>
        cases h
        exact ⟨_, hread, hrest⟩
      · cases h
  · rintro ⟨rest, hread, hrest⟩
    rw [readAll, hread]
    simp [hrest]

/-- Something is known of what was read, so something was read. -/
theorem exists_ok_of_toOption_map {ε : Type} {read : Except ε α} {view : α → β} {seen : β}
    (h : read.toOption.map view = some seen) : ∃ a, read = .ok a ∧ view a = seen := by
  cases read with
  | error error => cases h
  | ok a => exact ⟨a, rfl, Option.some.inj h⟩

/-! ## Scalars -/

theorem spelled_of_literalValue {c : Char} {word : List Char} {value v : Json} {text rest : Input}
    (hword : c :: word ∈ words) (h : literalValue word value text = .ok (v, rest)) :
    Spelled .value (c :: text) rest := by
  unfold literalValue at h
  split at h
  · cases h
  · next hl =>
    cases h
    rw [literal_eq_ok_iff.mp hl]
    exact .word hword

theorem spelled_of_numberHere {text rest : Input} {n : Number}
    (h : numberHere text = .ok (n, rest)) : Spelled .value text rest := by
  unfold numberHere at h
  split at h
  · cases h
  · next hn =>
    split at h
    · cases h
    · cases h
      exact .numeral (numeral_eq_ok_iff.mp hn)

theorem spelled_of_scalar {text rest : Input} {v : Json} (h : scalar text = .ok (v, rest)) :
    Spelled .value text rest := by
  unfold scalar at h
  split at h
  · exact spelled_of_literalValue (by simp [words]) h
  · exact spelled_of_literalValue (by simp [words]) h
  · exact spelled_of_literalValue (by simp [words]) h
  · split at h
    · cases h
    · next hs =>
      cases h
      exact .string (stringRest_eq_ok_iff.mp hs).loose
  · cases h
  · split at h
    · split at h
      · cases h
      · next hn =>
        cases h
        exact spelled_of_numberHere hn
    · cases h

/-- A word at the first character behind the blanks. -/
theorem valueText_of_literal {c : Char} {word : List Char} {text tail rest : Input}
    (hword : c :: word ∈ words) (heq : skipSpace text = c :: tail)
    (h : literal word tail = .ok rest) : ValueText text rest := by
  rw [literal_eq_ok_iff.mp h] at heq
  exact .item (heq ▸ .word hword)

namespace Reader

theorem spells_string : string.Spells := by
  refine ⟨fun h => ?_⟩
  simp only [string] at h
  split at h
  · cases h
  · next heq =>
    split at h
    · cases h
    · next hs =>
      cases h
      exact .item (heq ▸ .string (stringRest_eq_ok_iff.mp hs).loose)
  · cases h

theorem spells_bool : bool.Spells := by
  refine ⟨fun h => ?_⟩
  simp only [bool] at h
  split at h
  · cases h
  · next heq =>
    split at h
    · cases h
    · next hl =>
      cases h
      exact valueText_of_literal (by simp [words]) heq hl
  · next heq =>
    split at h
    · cases h
    · next hl =>
      cases h
      exact valueText_of_literal (by simp [words]) heq hl
  · cases h

theorem spells_unit : unit.Spells := by
  refine ⟨fun h => ?_⟩
  simp only [unit] at h
  split at h
  · cases h
  · next heq =>
    split at h
    · cases h
    · next hl =>
      cases h
      exact valueText_of_literal (by simp [words]) heq hl
  · cases h

theorem spells_scalarOnly : scalarOnly.Spells := ⟨fun h => (spelled_of_scalar h).valueText⟩

/-! ## Readers made of one other -/

theorem Spells.delay {reader : Unit → Reader α} (h : (reader ()).Spells) :
    (Reader.delay reader).Spells := ⟨h.valueText⟩

theorem map_run_eq_ok_iff {reader : Reader α} {f : α → β} {text rest : Input} {b : β} :
    (reader.map f).run text = .ok (b, rest) ↔ ∃ a, reader.run text = .ok (a, rest) ∧ b = f a := by
  constructor
  · intro h
    simp only [Reader.map] at h
    split at h
    · cases h
    · next a _ hread =>
      cases h
      exact ⟨a, hread, rfl⟩
  · rintro ⟨a, hread, rfl⟩
    simp only [Reader.map, hread]

theorem Spells.map {reader : Reader α} (hreader : reader.Spells) (f : α → β) :
    (reader.map f).Spells := by
  refine ⟨fun h => ?_⟩
  obtain ⟨a, hread, -⟩ := map_run_eq_ok_iff.mp h
  exact hreader.valueText hread

theorem convert_run_eq_ok_iff {reader : Reader α} {f : α → Option β} {cause : Cause}
    {text rest : Input} {b : β} :
    (reader.convert f cause).run text = .ok (b, rest) ↔
      ∃ a, reader.run text = .ok (a, rest) ∧ f a = some b := by
  constructor
  · intro h
    simp only [Reader.convert] at h
    split at h
    · cases h
    · next a left hread =>
      split at h
      · next hb =>
        cases h
        exact ⟨a, hread, hb⟩
      · cases h
  · rintro ⟨a, hread, hb⟩
    simp only [Reader.convert, hread, hb]

theorem Spells.convert {reader : Reader α} (hreader : reader.Spells) (f : α → Option β)
    (cause : Cause) : (reader.convert f cause).Spells := by
  refine ⟨fun h => ?_⟩
  obtain ⟨a, hread, -⟩ := convert_run_eq_ok_iff.mp h
  exact hreader.valueText hread

/-- A value is null, or it is read behind its blanks. -/
theorem optional_run_eq_ok_iff {reader : Reader α} {text rest : Input} {a : Option α} :
    reader.optional.run text = .ok (a, rest) ↔
      (a = none ∧ skipSpace text = "null".toList ++ rest) ∨
        ∃ b, a = some b ∧ (skipSpace text).head? ≠ some 'n' ∧
          reader.run (skipSpace text) = .ok (b, rest) := by
  constructor
  · intro h
    simp only [Reader.optional] at h
    split at h
    · next hstart =>
      split at h
      · cases h
      · next hword =>
        cases h
        rw [literal_eq_ok_iff.mp hword] at hstart
        exact .inl ⟨rfl, hstart⟩
    · next hnull =>
      split at h
      · cases h
      · next b left hread =>
        cases h
        refine .inr ⟨b, rfl, fun hhead => ?_, hread⟩
        obtain ⟨tail, htail⟩ := List.head?_eq_some_iff.mp hhead
        exact hnull tail htail
  · rintro (⟨rfl, hstart⟩ | ⟨b, rfl, hnull, hread⟩)
    · have hword : literal "ull".toList ("ull".toList ++ rest) = .ok rest :=
        literal_eq_ok_iff.mpr rfl
      have hstart : skipSpace text = 'n' :: ("ull".toList ++ rest) := hstart
      simp only [Reader.optional, hstart, hword]
    · simp only [Reader.optional]
      split
      · next heq => exact absurd (congrArg List.head? heq) hnull
      · rw [hread]

theorem Spells.optional {reader : Reader α} (hreader : reader.Spells) :
    reader.optional.Spells := by
  refine ⟨fun h => ?_⟩
  rcases optional_run_eq_ok_iff.mp h with ⟨-, hstart⟩ | ⟨a, -, -, hread⟩
  · exact .item (hstart ▸ .word (by simp [words]))
  · exact spelled_item_skipSpace_iff.mp (hreader.valueText hread)

/-! ## Lists and objects -/

theorem bodyText_of_items {item : Reader α} (hitem : item.Spells) {first : Bool}
    {text rest : Input} {as : List α} (h : items item first text = .ok (as, rest)) :
    BodyText .square first text rest := by
  fun_induction items item first text generalizing as rest with
  | case1 => cases h
  | case2 first text left hnext =>
    obtain ⟨tail, rfl, hclose⟩ := nextItem_eq_close_iff.mp hnext
    cases h
    exact .close hclose
  | case3 => cases h
  | case4 => cases h
  | case5 first text u start hnext a next ha bs left hbs ih =>
    cases h
    obtain ⟨place, hplace, rfl⟩ := exists_nextText_of_nextItem hnext
    exact .item hplace (spelled_item_skipSpace_iff.mp (hitem.valueText ha)) (ih hbs)

/-- The names that are read from the entries of an object are theirs. -/
theorem exists_entriesText_of_entries {value : Reader α} (hvalue : value.Spells) {first : Bool}
    {text rest : Input} {as : List (String × α)}
    (h : entries value first text = .ok (as, rest)) :
    ∃ found, EntriesText first found text rest ∧ found.map Prod.fst = as.map Prod.fst := by
  fun_induction entries value first text generalizing as rest with
  | case1 => cases h
  | case2 first text left hnext =>
    obtain ⟨tail, rfl, hclose⟩ := nextKey_eq_close_iff.mp hnext
    cases h
    exact ⟨[], .close hclose, rfl⟩
  | case3 => cases h
  | case4 => cases h
  | case5 => cases h
  | case6 first text key left hnext start hcolon a next ha bs last hbs ih =>
    cases h
    obtain ⟨place, hplace, hkey⟩ := nextKey_eq_more_iff.mp hnext
    obtain ⟨found, hfound, hkeys⟩ := ih hbs
    have hentry := EntryText.keyed hkey (colon_eq_ok_iff.mp hcolon) (hvalue.valueText ha)
    exact ⟨(key, start) :: found, .entry hplace hentry hfound, congrArg (key :: ·) hkeys⟩

theorem Spells.list {item : Reader α} (hitem : item.Spells) (budget : Nat) :
    (Reader.list budget item).Spells := by
  refine ⟨fun h => ?_⟩
  simp only [Reader.list] at h
  split at h
  · cases h
  · next heq =>
    split at h
    · cases h
    · exact .item (heq ▸ bodyText_of_items hitem h)
  · cases h

/-- What is read as an object is one, and has the names that were read. -/
theorem exists_objectText_of_object {budget : Nat} {value : Reader α} (hvalue : value.Spells)
    {text rest : Input} {as : List (String × α)}
    (h : (object budget value).run text = .ok (as, rest)) :
    ∃ found, ObjectText found text rest ∧ found.map Prod.fst = as.map Prod.fst := by
  simp only [object] at h
  split at h
  · cases h
  · next heq =>
    split at h
    · cases h
    · obtain ⟨found, hfound, hkeys⟩ := exists_entriesText_of_entries hvalue h
      exact ⟨found, ⟨_, heq, hfound⟩, hkeys⟩
  · cases h

theorem Spells.object {value : Reader α} (hvalue : value.Spells) (budget : Nat) :
    (Reader.object budget value).Spells := by
  refine ⟨fun h => ?_⟩
  obtain ⟨found, hfound, -⟩ := exists_objectText_of_object hvalue h
  exact hfound.valueText

theorem Spells.valueOver {inner : Reader Json} (hinner : inner.Spells) (budget : Nat) :
    (Reader.valueOver budget inner).Spells := by
  refine ⟨fun h => ?_⟩
  simp only [Reader.valueOver] at h
  split at h
  · next heq => exact spelled_item_skipSpace_iff.mp (heq ▸ ((hinner.list budget).map Json.list).valueText h)
  · next heq =>
    exact spelled_item_skipSpace_iff.mp (heq ▸ ((hinner.object budget).map Json.object).valueText h)
  · exact .item (spelled_of_scalar h)

theorem spells_value (budget : Nat) : (value budget).Spells := by
  induction budget with
  | zero => exact spells_scalarOnly.valueOver 0
  | succ budget ih => exact .delay (ih.valueOver (budget + 1))

end Reader

end Json
end TaintFlow
