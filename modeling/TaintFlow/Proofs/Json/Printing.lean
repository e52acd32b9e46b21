/-
Values that are printed are written as the renderings say.

`Writes value w` says that the text of a value is written as `w` allows, however
deep it is set in, as long as a comma or a line feed follows.  Strings and integers
have the renderings of their kinds, and a list, a table or a record has that made of
the renderings of what is in it.  So a printed text is read back by every reader that
undoes these renderings.
-/
import TaintFlow.Json.Printer
import TaintFlow.Proofs.Json.RecordRendering

namespace TaintFlow
namespace Json

/-! ## Strings -/

/-- A character that may not stand in a string as it is has an escape for it. -/
theorem charText_escape (c : Char) (next : Input) : CharText c (escape c ++ next) next := by
  unfold escape
  split
  · exact .escape rfl
  · exact .escape rfl
  · exact .escape rfl
  · exact .escape rfl
  · exact .escape rfl
  · next hquote hslash _ _ _ =>
    split
    · next hcontrol =>
      have hdigits : ∀ n < 0x20, (Nat.toDigits 16 n).leftpad 4 '0' =
          ['0', '0', (n / 16).digitChar, (n % 16).digitChar] := by decide
      have hdigit : ∀ n < 16, Text.hexDigit? n.digitChar = some n := by decide
      have hunit : UnitText c.toNat ((Nat.toDigits 16 c.toNat).leftpad 4 '0' ++ next) next := by
        rw [hdigits _ hcontrol]
        have hvalue : ((0 * 16 + 0) * 16 + c.toNat / 16) * 16 + c.toNat % 16 = c.toNat := by omega
        have hread : UnitText (((0 * 16 + 0) * 16 + c.toNat / 16) * 16 + c.toNat % 16)
            (['0', '0', (c.toNat / 16).digitChar, (c.toNat % 16).digitChar] ++ next) next :=
          .digits (hdigit 0 (by decide)) (hdigit 0 (by decide)) (hdigit _ (by omega))
            (hdigit _ (by omega))
        rw [hvalue] at hread
        exact hread
      have hchar := CharText.unit hunit (by simp [isLowSurrogate]; omega)
        (by simp [isHighSurrogate]; omega)
      rw [Char.ofNat_toNat] at hchar
      exact hchar
    · next hcontrol => exact .plain hquote hslash (decide_eq_false hcontrol)

theorem stringText_flatMap (cs : List Char) (rest : Input) :
    StringText cs (cs.flatMap escape ++ '"' :: rest) rest := by
  induction cs with
  | nil => exact .close
  | cons c cs ih =>
    rw [List.flatMap_cons, List.append_assoc]
    exact .char (charText_escape c _) ih

theorem quotedText_stringText (s : String) (rest : Input) :
    QuotedText s (stringText s ++ rest) rest := by
  rw [stringText, List.append_assoc]
  exact .quoted (stringText_flatMap s.toList rest)

/-! ## Integers -/

/-- What stands behind a printed value: the next one, or the end of the line. -/
def Ends (rest : Input) : Prop := ∀ c ∈ rest.head?, c = ',' ∨ c = '\n'

theorem digitsValue_eq (n : Nat) (ds : List Char) :
    digitsValue n ds = Nat.ofDigitChars 10 ds n := by
  induction ds generalizing n with
  | nil => rfl
  | cons d ds ih =>
    calc digitsValue n (d :: ds) = Nat.ofDigitChars 10 ds (n * 10 + digitValue d) := ih _
      _ = Nat.ofDigitChars 10 (d :: ds) n := by
        rw [Nat.ofDigitChars_cons, digitValue, Nat.mul_comm]

/-- Only zero starts with a zero. -/
theorem toDigits_of_zero {n : Nat} (h : (Nat.toDigits 10 n).head? = some '0') :
    Nat.toDigits 10 n = ['0'] := by
  induction n using Nat.strongRecOn with
  | ind n ih =>
    rw [Nat.toDigits_eq_if (by decide)] at h ⊢
    split at h
    · next hlt =>
      rw [if_pos hlt, Option.some.inj h]
    · next hle =>
      rw [List.head?_append_of_ne_nil _ Nat.toDigits_ne_nil] at h
      have hfront := ih (n / 10) (by omega) h
      have hvalue : Nat.ofDigitChars 10 (Nat.toDigits 10 (n / 10)) 0 = n / 10 :=
        Nat.ofDigitChars_ten_toDigits
      rw [hfront] at hvalue
      have hzero : Nat.ofDigitChars 10 ['0'] 0 = 0 := by decide
      omega

theorem numeralText_repr (n : Int) {rest : Input} (h : Ends rest) :
    NumeralText ⟨decide (n < 0), Nat.toDigits 10 n.natAbs, [], none⟩ (n.repr.toList ++ rest)
      rest := by
  have hdigits : ∀ n : Nat, ∀ d ∈ Nat.toDigits 10 n, d.isDigit = true := fun n d hd =>
    Nat.isDigit_of_mem_toDigits (by decide) (by decide) hd
  have hbehind : (∀ c ∈ rest.head?, c.isDigit = false) ∧ rest.head? ≠ some '.' ∧
      rest.head? ≠ some 'e' ∧ rest.head? ≠ some 'E' := by
    cases rest with
    | nil => simp
    | cons c rest =>
      rcases h c rfl with rfl | rfl <;> simp
  have hunsigned : ∀ (m : Nat) (negative : Bool),
      UnsignedText ⟨negative, Nat.toDigits 10 m, [], none⟩ (Nat.toDigits 10 m ++ rest) rest :=
    fun m negative => .parts ⟨⟨rfl, hdigits m, hbehind.1⟩, Nat.toDigits_ne_nil, toDigits_of_zero⟩
      (.absent hbehind.2.1) (.absent hbehind.2.2.1 hbehind.2.2.2)
  cases n with
  | ofNat m =>
    have htext : (Int.repr (.ofNat m)).toList = Nat.toDigits 10 m := Nat.toList_repr
    rw [htext]
    exact .positive (decide_eq_false (Int.not_lt.mpr (Int.natCast_nonneg m))) (hunsigned m _)
  | negSucc m =>
    have htext : (Int.repr (.negSucc m)).toList = '-' :: Nat.toDigits 10 (m + 1) := by
      rw [Int.repr, String.toList_append, Nat.toList_repr]
      rfl
    rw [htext]
    exact .negative (decide_eq_true (Int.negSucc_lt_zero m)) (hunsigned (m + 1) _)

theorem integerText_repr (n : Int) {rest : Input} (h : Ends rest) :
    IntegerText n (n.repr.toList ++ rest) rest := by
  refine .digits ?_ (numeralText_repr n h)
  rw [digitsValue_eq]
  exact Nat.ofDigitChars_toDigits (by decide) (by decide)

/-! ## Printed values -/

theorem skipSpace_newLine (depth : Nat) (text : Input) :
    skipSpace (newLine depth ++ text) = skipSpace text := by
  refine List.dropWhile_append_of_pos fun c hc => ?_
  rcases List.mem_cons.mp hc with rfl | hc
  · rfl
  · rw [List.eq_of_mem_replicate hc]
    rfl

theorem ends_newLine (depth : Nat) (text : Input) : Ends (newLine depth ++ text) :=
  fun _ hc => .inr (Option.some.inj hc).symm

/-- However deep it is set in, the value is printed as `w` allows, without blanks in
front. -/
structure Writes (value : Json) (w : Input → Input → Prop) : Prop where
  start : ∀ depth rest, Ends rest →
    skipSpace (textAt depth value ++ rest) = textAt depth value ++ rest
  text : ∀ depth rest, Ends rest → w (textAt depth value ++ rest) rest

namespace Writes

variable {value : Json} {w w' : Input → Input → Prop}

theorem behind_newLine (h : Writes value w) (depth : Nat) {rest : Input} (hrest : Ends rest) :
    w (skipSpace (newLine depth ++ (textAt depth value ++ rest))) rest := by
  rw [skipSpace_newLine, h.start depth rest hrest]
  exact h.text depth rest hrest

/-- It is enough to compare renderings on texts without blanks in front. -/
theorem imp (h : Writes value w)
    (himp : ∀ text rest, w (skipSpace text) rest → w' (skipSpace text) rest) : Writes value w' := by
  refine ⟨h.start, fun depth rest hrest => ?_⟩
  have hstart := h.start depth rest hrest
  have htext := himp (textAt depth value ++ rest) rest
  rw [hstart] at htext
  exact htext (h.text depth rest hrest)

end Writes

theorem writes_string (s : String) : Writes (.string s) (QuotedText s) where
  start _ _ _ := by
    rw [textAt]
    rfl
  text _ rest _ := by
    rw [textAt]
    exact quotedText_stringText s rest

theorem writes_bool (b : Bool) : Writes (.bool b) (TruthText b) where
  start _ _ _ := by cases b <;> rfl
  text _ _ _ := by cases b <;> exact .word

theorem isSpace_of_startsNumeral {c : Char} (h : startsNumeral c = true) : isSpace c = false := by
  have hne : ∀ d ∈ [' ', '\n', '\t', '\r'], c ≠ d := by
    simp only [List.forall_mem_cons]
    exact ⟨ne_of_startsNumeral h (by decide), ne_of_startsNumeral h (by decide),
      ne_of_startsNumeral h (by decide), ne_of_startsNumeral h (by decide), List.forall_mem_nil _⟩
  simpa [isSpace, and_assoc] using hne

theorem writes_int (n : Int) : Writes (.number (.int n)) (IntegerText n) where
  start depth rest hrest := by
    obtain ⟨c, tail, htext, hc⟩ := (numeralText_repr n hrest).startsNumeral
    rw [textAt, Number.text, htext]
    exact List.dropWhile_cons_of_neg (by rw [isSpace_of_startsNumeral hc]; exact Bool.false_ne_true)
  text depth rest hrest := by
    rw [textAt]
    exact integerText_repr n hrest

theorem Writes.some {α : Type} {w : Rendering α} {a : α} {value : Json} (h : Writes value (w a)) :
    Writes value (OptionText w (some a)) :=
  ⟨h.start, fun depth rest hrest => .some (h.text depth rest hrest)⟩

/-! ## Lists -/

section

variable {α : Type} {w : Rendering α} {toJson : α → Json}

theorem ends_itemsText (depth : Nat) (items : List Json) (rest : Input) :
    Ends (itemsText (depth + 1) items ++ (newLine depth ++ rest)) := by
  cases items with
  | nil => exact ends_newLine depth rest
  | cons item items =>
    rw [itemsText]
    exact fun _ hc => .inl (Option.some.inj hc).symm

theorem itemsText_of_writes {as : List α} (h : ∀ a ∈ as, Writes (toJson a) (w a)) (depth : Nat)
    (rest : Input) :
    ItemsText w false as (itemsText (depth + 1) (as.map toJson) ++ (newLine depth ++ ']' :: rest))
      rest := by
  induction as with
  | nil => exact .close (skipSpace_newLine depth _)
  | cons a as ih =>
    rw [List.forall_mem_cons] at h
    have hitem := h.1.behind_newLine (depth + 1)
      (ends_itemsText depth (as.map toJson) (']' :: rest))
    rw [List.map_cons, itemsText]
    simp only [List.append_assoc, List.cons_append]
    exact .item (.comma rfl) hitem (ih h.2)

theorem writes_list {as : List α} (h : ∀ a ∈ as, Writes (toJson a) (w a)) {depth : Nat}
    (hdepth : depth ≠ 0) : Writes (.list (as.map toJson)) (ListText depth w as) := by
  cases as with
  | nil =>
    refine ⟨fun place rest _ => ?_, fun place rest _ => ?_⟩
    · rw [List.map_nil, textAt]
      rfl
    · rw [List.map_nil, textAt]
      exact .bracketed hdepth (.close rfl)
  | cons a as =>
    rw [List.forall_mem_cons] at h
    refine ⟨fun place rest _ => ?_, fun place rest _ => ?_⟩
    · rw [List.map_cons, textAt]
      rfl
    · have hitem := h.1.behind_newLine (place + 1)
        (ends_itemsText place (as.map toJson) (']' :: rest))
      rw [List.map_cons, textAt]
      simp only [List.append_assoc, List.cons_append, List.nil_append]
      exact .bracketed hdepth (.item .first hitem (itemsText_of_writes h.2 place rest))

/-! ## Tables -/

theorem ends_entriesText (depth : Nat) (entries : List (String × Json)) (rest : Input) :
    Ends (entriesText (depth + 1) entries ++ (newLine depth ++ rest)) := by
  cases entries with
  | nil => exact ends_newLine depth rest
  | cons entry entries =>
    rw [entriesText]
    exact fun _ hc => .inl (Option.some.inj hc).symm

theorem keyText_stringText (key : String) (depth : Nat) (rest : Input) :
    KeyText key (newLine depth ++ (stringText key ++ rest)) rest := by
  rw [keyText_iff, skipSpace_newLine]
  exact quotedText_stringText key rest

/-- Behind the colon there is one blank. -/
theorem Writes.behind_blank {value : Json} {w : Input → Input → Prop} (h : Writes value w)
    (depth : Nat) {rest : Input} (hrest : Ends rest) :
    w (skipSpace (' ' :: (textAt depth value ++ rest))) rest := by
  have hblank : skipSpace (' ' :: (textAt depth value ++ rest)) = textAt depth value ++ rest :=
    h.start depth rest hrest
  rw [hblank]
  exact h.text depth rest hrest

theorem pairsText_of_writes {pairs : List (String × α)}
    (h : ∀ pair ∈ pairs, Writes (toJson pair.2) (w pair.2)) (depth : Nat) (rest : Input) :
    PairsText w false pairs
      (entriesText (depth + 1) (pairs.map fun (key, a) => (key, toJson a)) ++
        (newLine depth ++ '\x7d' :: rest)) rest := by
  induction pairs with
  | nil => exact .close (skipSpace_newLine depth _)
  | cons pair pairs ih =>
    rw [List.forall_mem_cons] at h
    have hvalue := h.1.behind_blank (depth + 1) (ends_entriesText depth
      (pairs.map fun (key, a) => (key, toJson a)) ('\x7d' :: rest))
    rw [List.map_cons, entriesText, entryText]
    simp only [List.append_assoc, List.cons_append]
    exact .pair (.comma rfl) (keyText_stringText pair.1 (depth + 1) _) rfl hvalue (ih h.2)

theorem writes_table {pairs : List (String × α)}
    (h : ∀ pair ∈ pairs, Writes (toJson pair.2) (w pair.2)) {depth : Nat} (hdepth : depth ≠ 0) :
    Writes (.object (pairs.map fun (key, a) => (key, toJson a))) (MapText depth w pairs) := by
  cases pairs with
  | nil =>
    refine ⟨fun place rest _ => ?_, fun place rest _ => ?_⟩
    · rw [List.map_nil, textAt]
      rfl
    · rw [List.map_nil, textAt]
      exact .bracketed hdepth (.close rfl)
  | cons pair pairs =>
    rw [List.forall_mem_cons] at h
    refine ⟨fun place rest _ => ?_, fun place rest _ => ?_⟩
    · rw [List.map_cons, textAt]
      rfl
    · have hvalue := h.1.behind_blank (place + 1) (ends_entriesText place
        (pairs.map fun (key, a) => (key, toJson a)) ('\x7d' :: rest))
      rw [List.map_cons, textAt, entryText]
      simp only [List.append_assoc, List.cons_append, List.nil_append]
      exact .bracketed hdepth (.pair .first (keyText_stringText pair.1 (place + 1) _) rfl hvalue
        (pairsText_of_writes h.2 place rest))

end

/-! ## Objects -/

/-- The value of the entry is printed behind its colon. -/
def PrintedAs (printed : String × Json) (entry : Entry) : Prop :=
  entry.1 = printed.1 ∧
    ∃ depth rest, Ends rest ∧ entry.2 = ' ' :: (textAt depth printed.2 ++ rest)

theorem entryText_of_writes {printed : String × Json} (h : Writes printed.2 (Spelled .value))
    (depth : Nat) {rest : Input} (hrest : Ends rest) :
    ∃ entry, PrintedAs printed entry ∧
      EntryText entry (newLine depth ++ (entryText depth printed ++ rest)) rest := by
  refine ⟨⟨printed.1, ' ' :: (textAt depth printed.2 ++ rest)⟩, ⟨rfl, depth, rest, hrest, rfl⟩, ?_⟩
  rw [entryText]
  simp only [List.append_assoc, List.cons_append]
  exact .keyed (keyText_stringText printed.1 depth _) rfl (.item (h.behind_blank depth hrest))

theorem entriesText_of_writes {printed : List (String × Json)}
    (h : ∀ pair ∈ printed, Writes pair.2 (Spelled .value)) (depth : Nat) (rest : Input) :
    ∃ entries, List.Forall₂ PrintedAs printed entries ∧
      EntriesText false entries
        (entriesText (depth + 1) printed ++ (newLine depth ++ '\x7d' :: rest)) rest := by
  induction printed with
  | nil => exact ⟨[], .nil, .close (skipSpace_newLine depth _)⟩
  | cons pair printed ih =>
    rw [List.forall_mem_cons] at h
    obtain ⟨entries, hprinted, hentries⟩ := ih h.2
    obtain ⟨entry, hpair, hentry⟩ := entryText_of_writes h.1 (depth + 1)
      (ends_entriesText depth printed ('\x7d' :: rest))
    refine ⟨entry :: entries, .cons hpair hprinted, ?_⟩
    rw [entriesText]
    simp only [List.append_assoc, List.cons_append]
    exact .entry (.comma rfl) hentry hentries

/-- The entries of an object are printed in their order. -/
theorem writes_object {printed : List (String × Json)}
    (h : ∀ pair ∈ printed, Writes pair.2 (Spelled .value)) :
    Writes (.object printed) fun text rest => ∃ body entries, text = '\x7b' :: body ∧
      List.Forall₂ PrintedAs printed entries ∧ EntriesText true entries body rest := by
  cases printed with
  | nil =>
    refine ⟨fun depth rest _ => ?_, fun depth rest _ => ?_⟩
    · rw [textAt]
      rfl
    · rw [textAt]
      exact ⟨_, [], rfl, .nil, .close rfl⟩
  | cons pair printed =>
    rw [List.forall_mem_cons] at h
    refine ⟨fun depth rest _ => ?_, fun depth rest _ => ?_⟩
    · rw [textAt]
      rfl
    · obtain ⟨entries, hprinted, hentries⟩ := entriesText_of_writes h.2 depth rest
      obtain ⟨entry, hpair, hentry⟩ := entryText_of_writes h.1 (depth + 1)
        (ends_entriesText depth printed ('\x7d' :: rest))
      rw [textAt]
      simp only [List.append_assoc, List.cons_append, List.nil_append]
      exact ⟨_, entry :: entries, rfl, .cons hpair hprinted, .entry .first hentry hentries⟩

theorem brace_mem_textAt_object (depth : Nat) (printed : List (String × Json)) :
    '\x7b' ∈ textAt depth (.object printed) := by
  cases printed with
  | nil =>
    rw [textAt]
    exact List.mem_cons_self
  | cons pair printed =>
    rw [textAt]
    exact List.mem_cons_self

/-- There are as many entries of a name as are printed. -/
theorem forall₂_filter {printed : List (String × Json)} {entries : List Entry}
    (h : List.Forall₂ PrintedAs printed entries) (key : String) :
    List.Forall₂ PrintedAs (printed.filter fun entry => entry.1 == key)
      (entries.filter fun entry => entry.1 == key) := by
  refine List.rel_filter (fun pair entry hpair => ?_) h
  show (pair.1 == key) = true ↔ (entry.1 == key) = true
  rw [hpair.1]

theorem map_fst_of_printed {printed : List (String × Json)} {entries : List Entry}
    (h : List.Forall₂ PrintedAs printed entries) :
    entries.map Prod.fst = printed.map Prod.fst := by
  induction h with
  | nil => rfl
  | cons hpair _ ih => rw [List.map_cons, List.map_cons, hpair.1, ih]

theorem exists_filter_of_printed {printed : List (String × Json)} {entries : List Entry}
    (h : List.Forall₂ PrintedAs printed entries) {key : String} {value : Json}
    (hone : (printed.filter fun entry => entry.1 == key) = [(key, value)]) :
    ∃ depth rest, Ends rest ∧ (entries.filter fun entry => entry.1 == key) =
      [(key, ' ' :: (textAt depth value ++ rest))] := by
  have hfilter := forall₂_filter h key
  rw [hone, List.forall₂_cons_left_iff] at hfilter
  obtain ⟨entry, others, ⟨hkey, depth, rest, hrest, htext⟩, hnone, hentry⟩ := hfilter
  have hentryEq : entry = (key, ' ' :: (textAt depth value ++ rest)) := Prod.ext hkey htext
  rw [List.forall₂_nil_left_iff.mp hnone, hentryEq] at hentry
  exact ⟨depth, rest, hrest, hentry⟩

/-! ## Records -/

theorem spelled_of_valueText {text rest : Input} (h : ValueText text rest) :
    Spelled .value (skipSpace text) rest := by
  cases h with
  | item hspelled => exact hspelled

/-- The field is among the printed entries, or it has its default. -/
def FieldText.Printed (field : FieldText) (printed : List (String × Json)) : Prop :=
  ((printed.filter fun entry => entry.1 == field.key) = [] ∧ field.omissible) ∨
    ∃ value, (printed.filter fun entry => entry.1 == field.key) = [(field.key, value)] ∧
      Writes value field.text

theorem FieldText.Printed.among {field : FieldText} {printed : List (String × Json)}
    {entries : List Entry} (h : field.Printed printed)
    (hentries : List.Forall₂ PrintedAs printed entries) : field.Among entries := by
  rcases h with ⟨hnil, homissible⟩ | ⟨value, hone, hvalue⟩
  · have hfilter := forall₂_filter hentries field.key
    rw [hnil, List.forall₂_nil_left_iff] at hfilter
    exact .inl ⟨hfilter, homissible⟩
  · obtain ⟨depth, rest, hrest, hentry⟩ := exists_filter_of_printed hentries hone
    exact .inr ⟨_, rest, hentry, hvalue.behind_blank depth hrest⟩

section

variable {ρ : Type} {partly : List String → ρ} {record : Record ρ} {fields : List FieldText}
  {value : ρ} (h : record.Takes partly fields value) {printed : List (String × Json)}
  (hkeys : ∀ pair ∈ printed, ∃ field ∈ fields, field.key = pair.1)
  (hfields : ∀ field ∈ fields, field.Printed printed)

include h hkeys hfields

/-- What is printed for the fields of a record are values. -/
theorem Record.Takes.writes_values : ∀ pair ∈ printed, Writes pair.2 (Spelled .value) := by
  intro pair hpair
  obtain ⟨field, hfield, hkey⟩ := hkeys pair hpair
  have hmem : pair ∈ printed.filter fun entry => entry.1 == field.key :=
    List.mem_filter.mpr ⟨hpair, beq_iff_eq.mpr hkey.symm⟩
  rcases hfields field hfield with ⟨hnil, -⟩ | ⟨value, hone, hvalue⟩
  · rw [hnil] at hmem
    cases hmem
  · rw [hone, List.mem_singleton] at hmem
    rw [hmem]
    refine hvalue.imp fun text rest htext => ?_
    obtain ⟨place, hplace, htakes⟩ := exists_mem_of_forall₂ h.each.flip hfield
    obtain ⟨update, hread, -⟩ := Field.Takes.read htakes htext
    exact spelled_of_valueText ((h.spells place hplace).valueText hread)

/-- A record is printed as an object when its fields are, and nothing else is. -/
theorem Record.Takes.writes {depth : Nat} (hdepth : depth ≠ 0) :
    Writes (.object printed) (RecordText depth fields) := by
  have hobject := writes_object (h.writes_values hkeys hfields)
  refine ⟨hobject.start, fun place rest hrest => ?_⟩
  obtain ⟨body, entries, hopen, hprinted, hentries⟩ := hobject.text place rest hrest
  rw [hopen]
  exact .object hdepth hentries fun field hfield => (hfields field hfield).among hprinted

end

end Json
end TaintFlow
