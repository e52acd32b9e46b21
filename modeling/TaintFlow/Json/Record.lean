/-
Records: values with named fields.

A record is written as an object, whose entries give the fields by name and in
any order, or as a list, which gives the fields by place.  In the object entries
with other names are skipped, and a name may come only once.  In the list fields
may be left out at the end.  A field that is left out keeps its default, unless
it is required.

Reading a field yields an update of the record.  A fault of the record as a
whole is reported where closing the record leads to.
-/
import TaintFlow.Json.Reader
import TaintFlow.Json.Skip

namespace TaintFlow
namespace Json

/-- A field of records of type `ρ`: its name, and how its value changes them. -/
structure Field (ρ : Type) where
  key : String
  required : Bool := false
  update : Reader (ρ → ρ)

/-- A field whose value is put into the record by `set`. -/
def Field.of {ρ α : Type} (key : String) (reader : Reader α) (set : α → ρ → ρ)
    (required : Bool := false) : Field ρ :=
  { key, required, update := reader.map set }

structure Record (ρ : Type) where
  /-- What faults call the record. -/
  title : String
  /-- The record in which every field has its default. -/
  default : ρ
  fields : List (Field ρ)

namespace Record

variable {ρ : Type}

/-- Reads entries into `value`.  `seen` holds the names of the fields that were
read. -/
def keyed (record : Record ρ) (value : ρ) (seen : List String) (first : Bool) (text : Input) :
    Outcome ρ :=
  match _h : nextKey first text with
  | .error fault => .error fault
  | .ok (.close rest) =>
    match record.fields.find? fun field => field.required && !seen.contains field.key with
    | some field => .error (.ofRecord (.missingField field.key) rest)
    | none => .ok (value, rest.tail)
  | .ok (.more key rest) =>
    match record.fields.find? fun field => field.key == key with
    | none =>
      match _hc : colon rest with
      | .error fault => .error fault
      | .ok rest =>
        match _hv : skipValue rest with
        | .error fault => .error fault
        | .ok rest => keyed record value seen false rest
    | some field =>
      if seen.contains key then .error (.ofRecord (.duplicateField key) rest)
      else
        match _hc : colon rest with
        | .error fault => .error fault
        | .ok rest =>
          match _hv : field.update.run rest with
          | .error fault => .error fault
          | .ok (update, rest) => keyed record (update value) (key :: seen) false rest
termination_by text.length
decreasing_by
  · have := length_lt_of_nextKey _h
    have := length_lt_of_colon _hc
    have := length_le_of_skipValue _hv
    omega
  · have := length_lt_of_nextKey _h
    have := length_lt_of_colon _hc
    have := field.update.length_lt _hv
    omega

/-- Reads items into the fields from place `index` on. -/
def listed (record : Record ρ) (index : Nat) (value : ρ) (first : Bool) :
    List (Field ρ) → Input → Outcome ρ
  | [], text =>
    match closeList text with
    | .error fault => .error fault
    | .ok rest => .ok (value, rest)
  | field :: fields, text =>
    match nextItem first text with
    | .error fault => .error fault
    | .ok (.close rest) =>
      if field.required then
        .error (.ofRecord (.shortRecord index record.title record.fields.length) rest)
      else listed record (index + 1) value first fields rest
    | .ok (.more _ rest) =>
      match field.update.run rest with
      | .error fault => .error fault
      | .ok (update, rest) => listed record (index + 1) (update value) false fields rest

theorem length_lt_of_keyed {record : Record ρ} {value v : ρ} {seen : List String} {first : Bool}
    {text rest : Input} (h : record.keyed value seen first text = .ok (v, rest)) :
    rest.length < text.length := by
  fun_induction keyed record value seen first text with
  | case1 => cases h
  | case2 => cases h
  | case3 _ _ _ _ _ hn => cases h; exact Reader.tail_length_lt_of_nextKey_close hn
  | case4 => cases h
  | case5 => cases h
  | case6 _ _ _ _ _ _ hn _ _ hc _ hv ih =>
    have := length_lt_of_nextKey hn
    have := length_lt_of_colon hc
    have := length_le_of_skipValue hv
    have := ih h
    omega
  | case7 => cases h
  | case8 => cases h
  | case9 => cases h
  | case10 _ _ _ _ _ _ hn field _ _ _ hc _ _ hv ih =>
    have := length_lt_of_nextKey hn
    have := length_lt_of_colon hc
    have := field.update.length_lt hv
    have := ih h
    omega

theorem length_lt_of_listed {record : Record ρ} {fields : List (Field ρ)} {index : Nat}
    {value v : ρ} {first : Bool} {text rest : Input}
    (h : record.listed index value first fields text = .ok (v, rest)) :
    rest.length < text.length := by
  induction fields generalizing index value first text with
  | nil =>
    unfold listed at h
    split at h
    · cases h
    · next hc => cases h; exact length_lt_of_closeList hc
  | cons field fields ih =>
    unfold listed at h
    split at h
    · cases h
    · next hn =>
      split at h
      · cases h
      · have := length_le_of_nextItem_close hn
        have := ih h
        omega
    · next hn =>
      split at h
      · cases h
      · next hr =>
        have := length_le_of_nextItem hn
        have := field.update.length_lt hr
        have := ih h
        omega

/-- An outcome whose open fault, if it has one, is settled. -/
def settled (close : Input → Input) : Outcome ρ → Outcome ρ
  | .error fault => .error (fault.settle close)
  | .ok result => .ok result

/-- Reads a record with at most `budget` brackets open at once. -/
def reader (budget : Nat) (record : Record ρ) : Reader ρ where
  run text :=
    match skipSpace text with
    | [] => .error (.next .endInValue [])
    | '{' :: rest =>
      if budget = 0 then .error (.next .tooDeep ('{' :: rest))
      else settled giveUpObject (record.keyed record.default [] true rest)
    | '[' :: rest =>
      if budget = 0 then .error (.next .tooDeep ('[' :: rest))
      else settled giveUpList (record.listed 0 record.default true record.fields rest)
    | rest => .error (typeFault record.title rest)
  length_lt {text _ _} h := by
    have hs := length_skipSpace_le text
    split at h
    · cases h
    · next heq =>
      rw [heq] at hs
      split at h
      · cases h
      · unfold settled at h
        split at h
        · cases h
        · next hk =>
          cases h
          have := length_lt_of_keyed hk
          simp only [List.length_cons] at hs; omega
    · next heq =>
      rw [heq] at hs
      split at h
      · cases h
      · unfold settled at h
        split at h
        · cases h
        · next hk =>
          cases h
          have := length_lt_of_listed hk
          simp only [List.length_cons] at hs; omega
    · cases h

end Record

/-! ## Tags

A tag is one of a known set of words, written as a string, or as an object whose
only entry has the tag as its key and null as its value. -/

variable {α : Type}

def tagValue (known : List (String × α)) (tag : String) (rest : Input) : Outcome α :=
  match known.lookup tag with
  | some a => .ok (a, rest)
  | none => .error (.behind (.unknownTag tag (known.map (·.1))) rest)

/-- Reads a tag at the quote that the text starts with. -/
def tagHere (known : List (String × α)) (text : Input) : Outcome α :=
  match stringRest text with
  | .error fault => .error fault
  | .ok (tag, rest) => tagValue known (String.ofList tag) rest

/-- Reads a tag and the null behind it, up to and with the closing bracket.  The tag is
looked for as the first key of any object is, so what is no string, or missing, is
reported as it is of a key. -/
def tagEntry (known : List (String × α)) (text : Input) : Outcome α :=
  match nextKey true text with
  | .error fault => .error fault
  | .ok (.close rest) => .error (.next .valueExpected rest)
  | .ok (.more tag rest) =>
    match tagValue known tag rest with
    | .error fault => .error fault
    | .ok (a, rest) =>
      match colon rest with
      | .error fault => .error fault
      | .ok rest =>
        match Reader.unit.run rest with
        | .error fault => .error fault
        | .ok (_, rest) =>
          match skipSpace rest with
          | [] => .error (.behind .endInObject [])
          | '}' :: rest => .ok (a, rest)
          | rest => .error (.behind .valueExpected rest)

/-- A known tag takes no text of its own. -/
theorem tagValue_rest {known : List (String × α)} {tag : String} {text rest : Input} {a : α}
    (h : tagValue known tag text = .ok (a, rest)) : rest = text := by
  unfold tagValue at h
  split at h
  · cases h; rfl
  · cases h

theorem length_lt_of_tagHere {known : List (String × α)} {text rest : Input} {a : α}
    (h : tagHere known text = .ok (a, rest)) : rest.length < text.length := by
  unfold tagHere at h
  split at h
  · cases h
  · next hs =>
    rw [tagValue_rest h]
    exact length_lt_of_stringRest hs

theorem length_lt_of_tagEntry {known : List (String × α)} {text rest : Input} {a : α}
    (h : tagEntry known text = .ok (a, rest)) : rest.length < text.length := by
  unfold tagEntry at h
  split at h
  · cases h
  · cases h
  · next hk =>
    split at h
    · cases h
    · next ht =>
      split at h
      · cases h
      · next hc =>
        split at h
        · cases h
        · next tail hu =>
          have htail := length_skipSpace_le tail
          split at h
          · cases h
          · next hend =>
            cases h
            rw [hend] at htail
            have := length_lt_of_nextKey hk
            rw [← tagValue_rest ht] at this
            have := length_lt_of_colon hc
            have := Reader.unit.length_lt hu
            simp only [List.length_cons] at *; omega
          · cases h

def Reader.tag (budget : Nat) (known : List (String × α)) : Reader α where
  run text :=
    match skipSpace text with
    | [] => .error (.next .endInValue [])
    | '"' :: rest => tagHere known rest
    | '{' :: rest =>
      if budget = 0 then .error (.next .tooDeep ('{' :: rest)) else tagEntry known rest
    | rest => .error (.next .valueExpected rest)
  length_lt {text _ _} h := by
    have hs := length_skipSpace_le text
    split at h
    · cases h
    · next heq =>
      rw [heq] at hs
      have := length_lt_of_tagHere h
      simp only [List.length_cons] at hs; omega
    · next heq =>
      rw [heq] at hs
      split at h
      · cases h
      · have := length_lt_of_tagEntry h
        simp only [List.length_cons] at hs; omega
    · cases h

end Json
end TaintFlow
