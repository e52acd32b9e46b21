/-
Where the keys of a line are.

A key is a pair of places on a line: a closing bracket, and the first opening one
behind the closing bracket before it, with something between the two (`KeyAt`).  The
scanner goes over the line once and remembers the first bracket that is open, which
is all there is to know about the part that was scanned (`Tracks`).  So it finds a
span exactly where there is a key (`mem_keySpans_iff`), and finds them from left to
right (`pairwise_keySpans`).  The keys of a row that are reported are those with no
number between the brackets (`invalidKeys_on_row`).
-/
import TaintFlow.Proofs.Summary.Keys
import TaintFlow.Proofs.Summary.Neighbours

namespace TaintFlow
namespace Summary

/-! ## Keys by their places -/

/-- The place is in front of `stop`, and no `>` stands from it up to there. -/
def InStretch (chars : List Char) (stop place : Nat) : Prop :=
  place < stop ∧ ∀ i, place ≤ i → i < stop → chars[i]? ≠ some '>'

/-- The first `<` in front of `stop` that no `>` parts from it. -/
structure FirstOpen (chars : List Char) (stop start : Nat) : Prop where
  inStretch : InStretch chars stop start
  opens : chars[start]? = some '<'
  least : ∀ i, InStretch chars stop i → chars[i]? = some '<' → start ≤ i

/-- The places of the brackets of a key. -/
structure KeyAt (chars : List Char) (start stop : Nat) : Prop where
  closes : chars[stop]? = some '>'
  opens : FirstOpen chars stop start
  nonempty : start + 1 < stop

theorem FirstOpen.eq {chars : List Char} {stop start other : Nat} (h : FirstOpen chars stop start)
    (h' : FirstOpen chars stop other) : start = other :=
  Nat.le_antisymm (h.least other h'.inStretch h'.opens) (h'.least start h.inStretch h.opens)

/-! ## What the scanner remembers -/

/-- The bracket that the scanner has open at a column is the first one that can be. -/
def Tracks (chars : List Char) (column : Nat) : Option Nat → Prop
  | none => ∀ i, InStretch chars column i → chars[i]? ≠ some '<'
  | some start => FirstOpen chars column start

section

variable {chars : List Char} {column : Nat} {opened : Option Nat}

/-- With another character than `>`, the stretch in front of it goes on. -/
theorem inStretch_succ_iff (h : chars[column]? ≠ some '>') {place : Nat} :
    InStretch chars (column + 1) place ↔ place = column ∨ InStretch chars column place := by
  constructor
  · rintro ⟨hlt, hnone⟩
    rcases Nat.lt_succ_iff_lt_or_eq.mp hlt with hlt | heq
    · exact .inr ⟨hlt, fun i hge hlt => hnone i hge (Nat.lt_succ_of_lt hlt)⟩
    · exact .inl heq
  · rintro (rfl | ⟨hlt, hnone⟩)
    · refine ⟨Nat.lt_succ_self place, fun i hge hlt => ?_⟩
      rw [Nat.le_antisymm (Nat.le_of_lt_succ hlt) hge]
      exact h
    · refine ⟨Nat.lt_succ_of_lt hlt, fun i hge hlt => ?_⟩
      rcases Nat.lt_succ_iff_lt_or_eq.mp hlt with hlt | rfl
      · exact hnone i hge hlt
      · exact h

theorem not_inStretch_succ (h : chars[column]? = some '>') {place : Nat} :
    ¬ InStretch chars (column + 1) place := fun hstretch =>
  hstretch.2 column (Nat.le_of_lt_succ hstretch.1) (Nat.lt_succ_self column) h

theorem tracks_zero (chars : List Char) : Tracks chars 0 none :=
  fun _ hstretch => absurd hstretch.1 (Nat.not_lt_zero _)

theorem tracks_of_greater (h : chars[column]? = some '>') : Tracks chars (column + 1) none :=
  fun _ hstretch => absurd hstretch (not_inStretch_succ h)

theorem Tracks.less (h : Tracks chars column opened) (hless : chars[column]? = some '<') :
    Tracks chars (column + 1) (opened.or (some column)) := by
  have hgreater : chars[column]? ≠ some '>' := by
    rw [hless]
    decide
  cases opened with
  | none =>
    refine ⟨(inStretch_succ_iff hgreater).mpr (.inl rfl), hless, fun i hstretch hopens => ?_⟩
    rcases (inStretch_succ_iff hgreater).mp hstretch with rfl | hstretch
    · exact Nat.le_refl i
    · exact absurd hopens (h i hstretch)
  | some start =>
    refine ⟨(inStretch_succ_iff hgreater).mpr (.inr h.inStretch), h.opens,
      fun i hstretch hopens => ?_⟩
    rcases (inStretch_succ_iff hgreater).mp hstretch with rfl | hstretch
    · exact Nat.le_of_lt h.inStretch.1
    · exact h.least i hstretch hopens

theorem Tracks.step (h : Tracks chars column opened) (hless : chars[column]? ≠ some '<')
    (hgreater : chars[column]? ≠ some '>') : Tracks chars (column + 1) opened := by
  cases opened with
  | none =>
    intro i hstretch
    rcases (inStretch_succ_iff hgreater).mp hstretch with rfl | hstretch
    · exact hless
    · exact h i hstretch
  | some start =>
    refine ⟨(inStretch_succ_iff hgreater).mpr (.inr h.inStretch), h.opens,
      fun i hstretch hopens => ?_⟩
    rcases (inStretch_succ_iff hgreater).mp hstretch with rfl | hstretch
    · exact absurd hopens hless
    · exact h.least i hstretch hopens

theorem Tracks.firstOpen_iff (h : Tracks chars column opened) {start : Nat} :
    FirstOpen chars column start ↔ opened = some start := by
  constructor
  · intro hopen
    cases opened with
    | none => exact absurd hopen.opens (h start hopen.inStretch)
    | some other => rw [FirstOpen.eq h hopen]
  · rintro rfl
    exact h

/-- At a closing bracket the scanner finds the key that ends there. -/
theorem Tracks.mem_closeKey_iff (h : Tracks chars column opened)
    (hcloses : chars[column]? = some '>') {span : Span} :
    span ∈ closeKey column opened ↔ KeyAt chars span.start column ∧ span.stop = column + 1 := by
  rw [Summary.mem_closeKey_iff]
  constructor
  · rintro ⟨start, hopened, hlt, rfl⟩
    exact ⟨⟨hcloses, h.firstOpen_iff.mpr hopened, hlt⟩, rfl⟩
  · rintro ⟨hkey, hstop⟩
    refine ⟨span.start, h.firstOpen_iff.mp hkey.opens, hkey.nonempty, ?_⟩
    rw [← hstop]

/-- At another character than `>` the scanner finds nothing, and goes on with what is to
be remembered behind it. -/
theorem Tracks.exists_next (h : Tracks chars column opened) {c : Char}
    (hc : chars[column]? = some c) (hgreater : c ≠ '>') (rest : List Char) :
    ∃ next, Tracks chars (column + 1) next ∧
      keySpansFrom column opened (c :: rest) = keySpansFrom (column + 1) next rest := by
  by_cases hless : c = '<'
  · subst hless
    exact ⟨opened.or (some column), h.less hc, rfl⟩
  · have hopens : chars[column]? ≠ some '<' := by
      rw [hc]
      exact fun heq => hless (Option.some.inj heq)
    have hcloses : chars[column]? ≠ some '>' := by
      rw [hc]
      exact fun heq => hgreater (Option.some.inj heq)
    exact ⟨opened, h.step hopens hcloses, keySpansFrom_step hless hgreater column opened rest⟩

end

/-! ## What the scanner finds -/

theorem getElem?_of_drop {chars rest : List Char} {c : Char} {column : Nat}
    (h : chars.drop column = c :: rest) :
    chars[column]? = some c ∧ chars.drop (column + 1) = rest := by
  refine ⟨?_, ?_⟩
  · rw [← List.head?_drop, h]
    rfl
  · rw [← List.tail_drop, h]
    rfl

/-- From a column on, the scanner finds the keys that end there or further right. -/
theorem mem_keySpansFrom_iff {chars rest : List Char} {column : Nat} {opened : Option Nat}
    (hrest : chars.drop column = rest) (h : Tracks chars column opened) {span : Span} :
    span ∈ keySpansFrom column opened rest ↔
      ∃ stop, column ≤ stop ∧ KeyAt chars span.start stop ∧ span.stop = stop + 1 := by
  induction rest generalizing column opened with
  | nil =>
    refine ⟨fun hspan => absurd hspan List.not_mem_nil, ?_⟩
    rintro ⟨stop, hle, hkey, -⟩
    have hlt := (List.getElem?_eq_some_iff.mp hkey.closes).1
    have hlength := List.drop_eq_nil_iff.mp hrest
    omega
  | cons c rest ih =>
    obtain ⟨hc, htail⟩ := getElem?_of_drop hrest
    by_cases hgreater : c = '>'
    · subst hgreater
      rw [keySpansFrom_greater, List.mem_append, h.mem_closeKey_iff hc,
        ih htail (tracks_of_greater hc)]
      constructor
      · rintro (⟨hkey, hstop⟩ | ⟨stop, hle, hkey, hstop⟩)
        · exact ⟨column, Nat.le_refl column, hkey, hstop⟩
        · exact ⟨stop, Nat.le_of_succ_le hle, hkey, hstop⟩
      · rintro ⟨stop, hle, hkey, hstop⟩
        rcases Nat.eq_or_lt_of_le hle with rfl | hlt
        · exact .inl ⟨hkey, hstop⟩
        · exact .inr ⟨stop, hlt, hkey, hstop⟩
    · -- no key ends at another character, so those further right are all there are
      have hright : (∃ stop, column + 1 ≤ stop ∧ KeyAt chars span.start stop ∧
          span.stop = stop + 1) ↔
          ∃ stop, column ≤ stop ∧ KeyAt chars span.start stop ∧ span.stop = stop + 1 := by
        refine exists_congr fun stop => and_congr_left fun ⟨hkey, _⟩ =>
          ⟨Nat.le_of_succ_le, fun hle => Nat.lt_of_le_of_ne hle ?_⟩
        rintro rfl
        exact hgreater (Option.some.inj (hc.symm.trans hkey.closes))
      obtain ⟨next, htracks, hnext⟩ := h.exists_next hc hgreater rest
      rw [← hright, hnext]
      exact ih htail htracks

theorem mem_keySpans_iff {chars : List Char} {span : Span} :
    span ∈ keySpans chars ↔ ∃ stop, KeyAt chars span.start stop ∧ span.stop = stop + 1 := by
  rw [keySpans, mem_keySpansFrom_iff List.drop_zero (tracks_zero chars)]
  exact exists_congr fun stop => and_iff_right (Nat.zero_le stop)

/-- A key that ends behind a closing bracket starts behind it. -/
theorem KeyAt.lt_start {chars : List Char} {start stop column : Nat} (h : KeyAt chars start stop)
    (hcloses : chars[column]? = some '>') (hlt : column < stop) : column < start :=
  Nat.lt_of_not_le fun hle => h.opens.inStretch.2 column hle hlt hcloses

theorem pairwise_keySpansFrom {chars rest : List Char} {column : Nat} {opened : Option Nat}
    (hrest : chars.drop column = rest) (h : Tracks chars column opened) :
    (keySpansFrom column opened rest).Pairwise fun first second => first.stop ≤ second.start := by
  induction rest generalizing column opened with
  | nil => exact .nil
  | cons c rest ih =>
    obtain ⟨hc, htail⟩ := getElem?_of_drop hrest
    by_cases hgreater : c = '>'
    · subst hgreater
      have htracks : Tracks chars (column + 1) none := tracks_of_greater hc
      rw [keySpansFrom_greater, List.pairwise_append]
      refine ⟨?_, ih htail htracks, fun first hfirst second hsecond => ?_⟩
      · cases opened with
        | none => exact .nil
        | some start =>
          rw [closeKey]
          split
          · exact List.pairwise_singleton _ _
          · exact .nil
      · obtain ⟨-, hstop⟩ := (h.mem_closeKey_iff hc).mp hfirst
        obtain ⟨stop, hle, hkey, -⟩ := (mem_keySpansFrom_iff htail htracks).mp hsecond
        rw [hstop]
        exact hkey.lt_start hc hle
    · obtain ⟨next, htracks, hnext⟩ := h.exists_next hc hgreater rest
      rw [hnext]
      exact ih htail htracks

theorem pairwise_keySpans (chars : List Char) :
    (keySpans chars).Pairwise fun first second => first.stop ≤ second.start :=
  pairwise_keySpansFrom List.drop_zero (tracks_zero chars)

/-! ## The keys that are reported -/

/-- The key holds no number. -/
structure BadKeyAt (chars : List Char) (start stop : Nat) : Prop where
  key : KeyAt chars start stop
  noNumber : ¬ ∃ d : Char, d.isDigit = true ∧
    (Span.text chars ⟨start + 1, stop⟩ = [d] ∨ Span.text chars ⟨start + 1, stop⟩ = ['-', d])

/-- The content of a key is what stands between its brackets. -/
theorem KeyAt.keyContent_text {chars : List Char} {start stop : Nat} (h : KeyAt chars start stop) :
    keyContent (Span.text chars ⟨start, stop + 1⟩) = Span.text chars ⟨start + 1, stop⟩ := by
  have hlt : stop < chars.length := (List.getElem?_eq_some_iff.mp h.closes).1
  have hstart := h.nonempty
  have hlength : ((chars.drop (start + 1)).take (stop + 1 - start - 1)).length = stop - start := by
    rw [List.length_take, List.length_drop]
    omega
  simp only [keyContent, Span.text]
  rw [List.drop_take, List.drop_drop, List.dropLast_eq_take, hlength, List.take_take]
  congr 1
  omega

theorem KeyAt.isInvalidKey_iff {chars : List Char} {start stop : Nat} (h : KeyAt chars start stop) :
    Line.isInvalidKey (Span.text chars ⟨start, stop + 1⟩) = true ↔ BadKeyAt chars start stop := by
  rw [Line.isInvalidKey, Bool.not_eq_true', Bool.eq_false_iff, ne_eq, isKeyNumber_iff,
    h.keyContent_text]
  exact ⟨fun hnone => ⟨h, hnone⟩, fun hbad => hbad.noNumber⟩

/-- The places of the brackets of the keys of a line that are reported. -/
def badKeyPlaces (chars : List Char) : List (Nat × Nat) :=
  ((keySpans chars).filter fun span => Line.isInvalidKey (span.text chars)).map fun span =>
    (span.start, span.stop - 1)

theorem mem_badKeyPlaces_iff {chars : List Char} {start stop : Nat} :
    (start, stop) ∈ badKeyPlaces chars ↔ BadKeyAt chars start stop := by
  simp only [badKeyPlaces, List.mem_map, List.mem_filter, Prod.mk.injEq]
  constructor
  · rintro ⟨⟨start, _⟩, ⟨hspan, hinvalid⟩, rfl, rfl⟩
    obtain ⟨stop, hkey, rfl⟩ := mem_keySpans_iff.mp hspan
    exact hkey.isInvalidKey_iff.mp hinvalid
  · intro hbad
    exact ⟨⟨start, stop + 1⟩, ⟨mem_keySpans_iff.mpr ⟨stop, hbad.key, rfl⟩,
      hbad.key.isInvalidKey_iff.mpr hbad⟩, rfl, rfl⟩

theorem pairwise_badKeyPlaces (chars : List Char) :
    (badKeyPlaces chars).Pairwise fun first second => first.2 < second.1 := by
  rw [badKeyPlaces, List.pairwise_map]
  refine ((pairwise_keySpans chars).filter _).imp_of_mem fun {first second} hfirst _ hle => ?_
  obtain ⟨stop, -, hstop⟩ := mem_keySpans_iff.mp (List.mem_of_mem_filter hfirst)
  show first.stop - 1 < second.start
  omega

theorem Line.keyFindings_eq (row : Nat) (raw : List Char) :
    (Line.trimmed row raw).keyFindings = (badKeyPlaces (Text.trim raw)).map fun key =>
      .about .invalidKey ⟨row, Text.indent raw + key.1⟩ ⟨row, Text.indent raw + (key.2 + 1)⟩
        (Span.text (Text.trim raw) ⟨key.1, key.2 + 1⟩) := by
  rw [badKeyPlaces, List.map_map]
  refine List.map_congr_left fun span hspan => ?_
  obtain ⟨stop, -, hstop⟩ := mem_keySpans_iff.mp (List.mem_of_mem_filter hspan)
  have hspan : (⟨span.start, stop + 1⟩ : Span) = span := by rw [← hstop]
  show _ = Finding.about _ ⟨row, Text.indent raw + span.start⟩
    ⟨row, Text.indent raw + (span.stop - 1 + 1)⟩ (Span.text _ ⟨span.start, span.stop - 1 + 1⟩)
  rw [hstop, Nat.add_sub_cancel, hspan, ← hstop]
  rfl

/-- The findings about keys on a row are the keys of the trimmed line that hold no
number, each of them once, from left to right.  No two keys end at one bracket, and
there is none without anything between its brackets. -/
theorem invalidKeys_on_row (source : String) (row : Nat) (raw : List Char)
    (hrow : (Text.lines source.toList)[row]? = some raw) :
    ∃ keys : List (Nat × Nat),
      (∀ start stop, (start, stop) ∈ keys ↔ BadKeyAt (Text.trim raw) start stop) ∧
      keys.Pairwise (fun first second => first.2 < second.1) ∧
      findingsOn .invalidKey row source = keys.map (fun key =>
        .about .invalidKey ⟨row, Text.indent raw + key.1⟩ ⟨row, Text.indent raw + (key.2 + 1)⟩
          (Span.text (Text.trim raw) ⟨key.1, key.2 + 1⟩)) ∧
      (∀ start other stop, KeyAt (Text.trim raw) start stop → KeyAt (Text.trim raw) other stop →
        start = other) ∧
      ∀ start, ¬ KeyAt (Text.trim raw) start (start + 1) := by
  obtain ⟨above, below, hlines, rfl⟩ := Text.exists_lines_around hrow
  have hfindings : findingsOn .invalidKey above.length source =
      (Line.trimmed above.length raw).keyFindings := by
    rw [findingsOn_eq rfl hlines, Line.filter_findings]
  refine ⟨badKeyPlaces (Text.trim raw), fun _ _ => mem_badKeyPlaces_iff,
    pairwise_badKeyPlaces _, ?_, fun _ _ _ hkey hother => hkey.opens.eq hother.opens,
    fun start hkey => Nat.lt_irrefl _ hkey.nonempty⟩
  rw [hfindings, Line.keyFindings_eq]

/-- A wide blank, and behind it brackets, some of which belong to no key. -/
def strayBrackets : String := "\u3000> é<<b> <>< <-1>, <10> <"

/-- The bad keys among stray, doubled, empty and open brackets. -/
theorem invalidKeys_on_row_strayBrackets :
    (Text.lines strayBrackets.toList)[0]? = some strayBrackets.toList ∧
    findingsOn .invalidKey 0 strayBrackets =
      [.about .invalidKey ⟨0, 4⟩ ⟨0, 8⟩ "<<b>".toList,
        .about .invalidKey ⟨0, 11⟩ ⟨0, 17⟩ "< <-1>".toList,
        .about .invalidKey ⟨0, 19⟩ ⟨0, 23⟩ "<10>".toList] ∧
    ∃ keys : List (Nat × Nat),
      (∀ start stop, (start, stop) ∈ keys ↔
        BadKeyAt (Text.trim strayBrackets.toList) start stop) ∧
      keys.Pairwise (fun first second => first.2 < second.1) ∧
      findingsOn .invalidKey 0 strayBrackets = keys.map (fun key =>
        .about .invalidKey ⟨0, Text.indent strayBrackets.toList + key.1⟩
          ⟨0, Text.indent strayBrackets.toList + (key.2 + 1)⟩
          (Span.text (Text.trim strayBrackets.toList) ⟨key.1, key.2 + 1⟩)) := by
  have hrow : (Text.lines strayBrackets.toList)[0]? = some strayBrackets.toList := by decide +kernel
  obtain ⟨keys, hmem, hpairwise, hfindings, -, -⟩ :=
    invalidKeys_on_row strayBrackets 0 strayBrackets.toList hrow
  exact ⟨hrow, by decide +kernel, keys, hmem, hpairwise, hfindings⟩

end Summary
end TaintFlow
