/-
A listing can be read back.

`readListing` goes through the lines of a listing, six at a time, and takes from each
block what it says of its finding: the message, the place, how much is marked, the
line that is quoted and the suggestion.  It looks for no words in the text, so it is
not misled by a message or a quoted line that reads like a line of a listing.

What it takes is what was written (`readListing_listingBy`), as long as no message, no
suggestion and no path breaks a line.  So what a machine writes tells its findings apart
in all that it shows of them.  It shows them as they are exactly if the machine can hold
the listing and each line of a finding is a word (`write_readable`).
-/
import Mathlib.Data.List.Forall2
import TaintFlow.Proofs.Summary.Listing
import TaintFlow.Proofs.Summary.Writing

namespace TaintFlow
namespace Summary

/-! ## What is shown of a finding -/

/-- The number of characters that a finding marks: those between its places, if these
are on one row and at least two apart, and otherwise one. -/
def Finding.shownWidth (finding : Finding) : Nat :=
  if finding.start.row = finding.finish.row ∧ finding.start.column + 2 ≤ finding.finish.column then
    finding.finish.column - finding.start.column
  else 1

/-- What a block of a listing says of a finding. -/
structure Entry where
  message : String
  /-- The line that it starts on, counted from one as the column is. -/
  line : Nat
  column : Nat
  width : Nat
  /-- The line that the finding starts on. -/
  quoted : String
  suggestion : String
  deriving DecidableEq

/-- What is shown of a finding in a text of these lines, if its line is counted by
`lineOf`. -/
def Finding.entryBy (lineOf : Nat → Nat) (sourceLines : List (List Char)) (finding : Finding) :
    Entry where
  message := finding.message
  line := lineOf finding.start.row
  column := finding.start.column + 1
  width := finding.shownWidth
  quoted := String.ofList (sourceLines[finding.start.row]?.getD [])
  suggestion := finding.suggestion

/-- What is shown of a finding in a text of these lines. -/
def Finding.entry (sourceLines : List (List Char)) (finding : Finding) : Entry :=
  finding.entryBy (· + 1) sourceLines

/-- Nothing that a block shows of the one finding differs from the other, but for the
line that is quoted. -/
structure Finding.ShownAlike (finding other : Finding) : Prop where
  message : finding.message = other.message
  start : finding.start = other.start
  width : finding.shownWidth = other.shownWidth
  suggestion : finding.suggestion = other.suggestion

/-- The findings and the path of a listing, in which only the ends of its lines break
a line. -/
structure Listable (findings : List Finding) (path : Option String) : Prop where
  ne_nil : findings ≠ []
  path : ∀ text, path = some text → '\n' ∉ text.toList
  message : ∀ finding ∈ findings, '\n' ∉ finding.message.toList
  code : ∀ finding ∈ findings, '\n' ∉ finding.code.toList

theorem Finding.markedWidth_eq (finding : Finding) : finding.markedWidth = finding.shownWidth := by
  unfold markedWidth shownWidth
  by_cases hrow : finding.start.row = finding.finish.row
  · rw [if_pos hrow]
    by_cases hwide : finding.start.column + 2 ≤ finding.finish.column
    · rw [if_pos ⟨hrow, hwide⟩]
      omega
    · rw [if_neg fun h => hwide h.2]
      omega
  · rw [if_neg hrow, if_neg fun h => hrow h.1]

/-! ## Reading a block -/

/-- The number at the front of a text, and what is behind it. -/
def readNumber (text : List Char) : Nat × List Char :=
  (Nat.ofDigitChars 10 (text.takeWhile Char.isDigit) 0, text.dropWhile Char.isDigit)

theorem readNumber_repr_append (n : Nat) {rest : List Char}
    (h : rest.head?.any Char.isDigit = false) : readNumber (n.repr.toList ++ rest) = (n, rest) := by
  have hdigits : ∀ c ∈ Nat.toDigits 10 n, c.isDigit = true := fun c hc =>
    Nat.isDigit_of_mem_toDigits (by decide) (by decide) hc
  have hstop : rest.takeWhile Char.isDigit = [] ∧ rest.dropWhile Char.isDigit = rest := by
    cases rest with
    | nil => exact ⟨rfl, rfl⟩
    | cons c rest =>
      have hc : ¬c.isDigit = true := Bool.eq_false_iff.mp h
      exact ⟨List.takeWhile_cons_of_neg hc, List.dropWhile_cons_of_neg hc⟩
  rw [Nat.toList_repr, readNumber, List.takeWhile_append_of_pos hdigits,
    List.dropWhile_append_of_pos hdigits, hstop.1, hstop.2, List.append_nil,
    Nat.ofDigitChars_ten_toDigits]

/-- What a line says behind the words that it begins with. -/
def behindWords (words : String) (line : List Char) : List Char := line.drop words.length

theorem behindWords_append (words : String) (rest : List Char) :
    behindWords words (words.toList ++ rest) = rest := by
  rw [behindWords, ← String.length_toList, List.drop_left]

/-- What the lines of a block say of its finding.  The number in front of the message
is as long as it needs to be, and so are the two of the place. -/
def Entry.ofLines (head place quoted marker suggestion : List Char) : Entry :=
  let row := readNumber (behindWords "Location: line " place)
  let column := readNumber (behindWords ", column " row.2)
  { message :=
      String.ofList (behindWords ": " (readNumber (behindWords "Error #" head)).2)
    line := row.1
    column := column.1
    width := (marker.dropWhile (· == ' ')).length
    quoted := String.ofList (behindWords "Code: " quoted)
    suggestion := String.ofList (behindWords "Suggestion: " suggestion) }

/-- The entries of blocks of six lines, up to where no six lines are left. -/
def entriesOf : List (List Char) → List Entry
  | head :: place :: quoted :: marker :: suggestion :: _ :: rest =>
    .ofLines head place quoted marker suggestion :: entriesOf rest
  | _ => []

/-- The entries of a listing, which begin below its first two lines. -/
def readListing (listing : String) : List Entry :=
  entriesOf ((Text.lines listing.toList).drop 2)

section

variable {lineOf : Nat → Nat} {sourceLines : List (List Char)}

/-- Behind the blanks of a marker stand as many characters as it marks. -/
theorem Finding.length_dropWhile_marker (finding : Finding) :
    (("      ".toList ++ finding.marker).dropWhile (· == ' ')).length = finding.shownWidth := by
  have hblank : ∀ c ∈ "      ".toList ++ List.replicate finding.start.column ' ',
      (c == ' ') = true := by
    intro c hc
    rw [List.mem_append, List.mem_replicate] at hc
    rcases hc with hindent | ⟨-, rfl⟩
    · exact List.all_eq_true.mp (by decide : "      ".toList.all (· == ' ') = true) c hindent
    · rfl
  have hpos : 1 ≤ finding.shownWidth := by
    unfold shownWidth
    split <;> omega
  rw [marker, ← List.append_assoc, List.dropWhile_append_of_pos hblank,
    List.dropWhile_cons_of_neg (by decide), List.length_cons, List.length_replicate,
    markedWidth_eq]
  omega

theorem Finding.map_toList_block (finding : Finding) (number line : Nat) :
    (finding.block sourceLines number line).map String.toList =
      ["Error #".toList ++ (number.repr.toList ++ (": ".toList ++ finding.message.toList)),
        "Location: line ".toList ++ (line.repr.toList ++
          (", column ".toList ++ (finding.start.column + 1).repr.toList)),
        "Code: ".toList ++ sourceLines.getD finding.start.row [],
        "      ".toList ++ finding.marker,
        "Suggestion: ".toList ++ finding.suggestion.toList, []] := by
  have hlist : ∀ text : List Char, (String.ofList text).toList = text := fun _ =>
    String.toList_ofList
  simp only [block, blockHead, blockBody, List.map_cons, List.map_nil, String.toList_append,
    List.append_assoc, hlist (sourceLines.getD _ _), hlist finding.marker]
  rfl

/-- A block is read from its own six lines, whatever these say. -/
theorem entriesOf_block (finding : Finding) (number : Nat) (rest : List (List Char)) :
    entriesOf ((finding.block sourceLines number (lineOf finding.start.row)).map String.toList ++
      rest) = finding.entryBy lineOf sourceLines :: entriesOf rest := by
  have hcolumn : readNumber (finding.start.column + 1).repr.toList =
      (finding.start.column + 1, []) := by
    rw [← List.append_nil (finding.start.column + 1).repr.toList]
    exact readNumber_repr_append _ rfl
  rw [finding.map_toList_block]
  show Entry.ofLines _ _ _ _ _ :: entriesOf rest = _
  refine congrArg (fun entry => entry :: entriesOf rest) ?_
  simp only [Entry.ofLines, behindWords_append]
  rw [readNumber_repr_append number rfl,
    readNumber_repr_append (lineOf finding.start.row) rfl, finding.length_dropWhile_marker]
  simp only [behindWords_append, hcolumn, String.ofList_toList]
  rw [Finding.entryBy, List.getD_eq_getElem?_getD]

theorem entriesOf_blocks (findings : List Finding) (number : Nat) :
    entriesOf ((blocks lineOf sourceLines number findings).map String.toList ++ [[]]) =
      findings.map (Finding.entryBy lineOf sourceLines) := by
  induction findings generalizing number with
  | nil => rfl
  | cons finding findings ih =>
    rw [blocks, List.map_append, List.append_assoc, entriesOf_block, ih, List.map_cons]

theorem length_blocks (number : Nat) (findings : List Finding) :
    (blocks lineOf sourceLines number findings).length = 6 * findings.length := by
  induction findings generalizing number with
  | nil => rfl
  | cons finding findings ih =>
    have hsix : (finding.block sourceLines number (lineOf finding.start.row)).length = 6 := rfl
    rw [blocks, List.length_append, hsix, ih, List.length_cons, Nat.mul_succ, Nat.add_comm]

end

/-! ## Reading a listing -/

section

variable {lineOf : Nat → Nat} {findings : List Finding} {path : Option String}

theorem Listable.oneLine (h : Listable findings path) : ∀ finding ∈ findings, finding.OneLine :=
  fun finding hmem =>
    ⟨h.message finding hmem, (Finding.Kind.newline_not_mem fun _ => h.code finding hmem).2⟩

/-- Under a path of one line the first block begins below two lines. -/
theorem Listable.linesAbove_eq (h : Listable findings path) : linesAbove path = 2 := by
  have hpath : '\n' ∉ (path.getD unknownPath).toList := by
    cases path with
    | none => decide
    | some text => exact h.path text rfl
  rw [linesAbove, Text.lines_of_not_mem hpath]
  rfl

theorem Listable.length_lines_listingBy (h : Listable findings path) (source : String) :
    (Text.lines (listingBy lineOf findings source path).toList).length =
      2 + 6 * findings.length + 1 := by
  rw [lines_listing h.ne_nil h.oneLine, List.length_append, length_lines_headLine,
    h.linesAbove_eq, List.length_append, List.length_map, length_blocks, Nat.add_assoc]
  rfl

/-- A listing is read back as what it shows of its findings. -/
theorem Listable.readListing_listingBy (h : Listable findings path) (source : String) :
    readListing (listingBy lineOf findings source path) =
      findings.map (Finding.entryBy lineOf (Text.lines source.toList)) := by
  rw [readListing, ← h.linesAbove_eq, lines_listing h.ne_nil h.oneLine,
    ← length_lines_headLine findings.length path, List.drop_left, entriesOf_blocks]

end

/-- Rows that are words have different lines, also where the line of the last one is
counted wrong. -/
theorem wordLine_injOn {row other : Nat} (hrow : row < wordCount) (hother : other < wordCount)
    (h : wordLine row = wordLine other) : row = other := by
  unfold wordLine wordCount UInt64.size at *
  omega

theorem Finding.shownAlike_of_entryBy {sourceLines : List (List Char)} {finding other : Finding}
    (hrow : finding.start.row < wordCount) (hother : other.start.row < wordCount)
    (h : finding.entryBy wordLine sourceLines = other.entryBy wordLine sourceLines) :
    finding.ShownAlike other := by
  obtain ⟨hmessage, hline, hcolumn, hwidth, -, hsuggestion⟩ := Entry.mk.inj h
  have hstart : finding.start = other.start :=
    Position.mk.injEq .. ▸ ⟨wordLine_injOn hrow hother hline, Nat.succ.inj hcolumn⟩
  exact ⟨hmessage, hstart, hwidth, hsuggestion⟩

/-- What a machine wrote is read back, with each line as a word. -/
theorem Listable.readListing_of_write {findings : List Finding} {path : Option String}
    (h : Listable findings path) {machine : Machine} {source text : String}
    (hwrite : write machine findings source path = .ok text) :
    readListing text = findings.map (Finding.entryBy wordLine (Text.lines source.toList)) := by
  obtain ⟨-, rfl, -⟩ := (writes_write findings source path text).mp hwrite
  exact h.readListing_listingBy source

/-- What is shown of findings is what they are only if each line is a word. -/
theorem lines_of_map_entryBy {findings : List Finding} {sourceLines : List (List Char)}
    (h : findings.map (Finding.entryBy wordLine sourceLines) =
      findings.map (Finding.entry sourceLines)) :
    ∀ finding ∈ findings, finding.start.row + 1 < wordCount := by
  intro finding hmem
  have hentry := List.map_inj_left.mp h finding hmem
  exact wordLine_eq_iff.mp (congrArg Entry.line hentry)

/-- A machine writes a listing that says of each finding what is to be shown, exactly if
each line of a finding is a word and the machine can hold the listing.  In whatever it
writes there are two lines, six for each finding and an empty one, and two lists of
findings come to the same text over one source only if they are as long and show the
same. -/
theorem write_readable {findings : List Finding} {path : Option String}
    (h : Listable findings path) (hrows : ∀ finding ∈ findings, finding.start.row < wordCount)
    (machine : Machine) (source : String) :
    ((∃ text, write machine findings source path = .ok text ∧
        readListing text = findings.map (Finding.entry (Text.lines source.toList))) ↔
      (∀ finding ∈ findings, finding.start.row + 1 < wordCount) ∧
        (listing findings source path).utf8ByteSize ≤ machine.capacity) ∧
    ∀ text, write machine findings source path = .ok text →
      (Text.lines text.toList).length = 2 + 6 * findings.length + 1 ∧
      ∀ (others : List Finding) (otherPath : Option String), Listable others otherPath →
        (∀ finding ∈ others, finding.start.row < wordCount) →
        write machine others source otherPath = .ok text →
        List.Forall₂ Finding.ShownAlike findings others := by
  refine ⟨⟨?written, ?writes⟩, fun text hwrite => ⟨?count, ?alike⟩⟩
  case written =>
    rintro ⟨text, hwrite, hread⟩
    rw [h.readListing_of_write hwrite] at hread
    have hlines := lines_of_map_entryBy hread
    obtain ⟨-, rfl, hfits⟩ := (writes_write findings source path text).mp hwrite
    exact ⟨hlines, listingBy_wordLine hlines source path ▸ hfits⟩
  case writes =>
    rintro ⟨hlines, hfits⟩
    have hlisting := listingBy_wordLine hlines source path
    have hwrite : write machine findings source path = .ok (listing findings source path) :=
      (writes_write findings source path _).mpr ⟨fun _ => hlines, hlisting.symm, hlisting ▸ hfits⟩
    exact ⟨_, hwrite, h.readListing_listingBy source⟩
  case count =>
    obtain ⟨-, rfl, -⟩ := (writes_write findings source path text).mp hwrite
    exact h.length_lines_listingBy source
  case alike =>
    intro others otherPath hothers hotherRows hother
    have hentries := (h.readListing_of_write hwrite).symm.trans
      (hothers.readListing_of_write hother)
    rw [← List.forall₂_eq_eq_eq, List.forall₂_map_left_iff, List.forall₂_map_right_iff] at hentries
    -- the rows of both lists are put beside the pairs, those of the other list first
    have hright := (List.forall₂_and_left _ _).mpr ⟨hotherRows, hentries.flip⟩
    have hboth := (List.forall₂_and_left _ _).mpr ⟨hrows, hright.flip⟩
    exact hboth.imp fun _ _ hpair => Finding.shownAlike_of_entryBy hpair.1 hpair.2.1 hpair.2.2

/-- A finding below the end of a text, with a message that reads like lines of a
listing, and one of which four characters are marked. -/
def misleading : List Finding :=
  [{  kind := .missingComma
      message := "Error #2: Location: line 9, column 9"
      start := ⟨7, 3⟩
      finish := ⟨2, 1⟩
      code := "Code: ^" },
    { kind := .unknownOperation, message := "", start := ⟨0, 2⟩, finish := ⟨0, 6⟩, code := "sink" }]

/-- The same findings, but that the first ends right behind its start. -/
def misleadingAgain : List Finding :=
  misleading.modifyHead fun finding => { finding with finish := ⟨7, 4⟩ }

theorem write_readable_misleading :
    Listable misleading (some "b.taint") ∧ Listable misleadingAgain (some "b.taint") ∧
    ∃ text, write .widest misleading "Error #1: x\n      ^~" (some "b.taint") = .ok text ∧
      readListing text =
        [⟨"Error #2: Location: line 9, column 9", 8, 4, 1, "", "add a comma \",\""⟩,
          ⟨"", 1, 3, 4, "Error #1: x",
            "unknown operation name \"sink\", did you mean \"setSink\"?"⟩] ∧
      (Text.lines text.toList).length = 15 ∧
      List.Forall₂ Finding.ShownAlike misleading misleadingAgain := by
  have hpath : ∀ text, some "b.taint" = some text → '\n' ∉ text.toList := by
    rintro text ⟨⟩
    decide
  have hfirst : Listable misleading (some "b.taint") := ⟨by decide, hpath, by decide, by decide⟩
  have hsecond : Listable misleadingAgain (some "b.taint") :=
    ⟨by decide, hpath, by decide, by decide⟩
  obtain ⟨hreadable, hwritten⟩ :=
    write_readable hfirst (by decide) .widest "Error #1: x\n      ^~"
  obtain ⟨text, hwrite, hread⟩ := hreadable.mpr ⟨by decide, by decide +kernel⟩
  obtain ⟨hcount, halike⟩ := hwritten text hwrite
  have hagain : write .widest misleadingAgain "Error #1: x\n      ^~" (some "b.taint") = .ok text :=
    hwrite ▸ (by decide +kernel)
  exact ⟨hfirst, hsecond, text, hwrite, hread.trans (by decide +kernel), hcount,
    halike misleadingAgain (some "b.taint") hsecond (by decide) hagain⟩

/-! ## The last word -/

/-- A finding on the last row that is a word. -/
def lastRow : Finding := .about .missingComma ⟨wordCount - 1, 0⟩ ⟨wordCount - 1, 0⟩ []

/-- A finding in the last column that is a word. -/
def lastColumn : Finding := .about .missingComma ⟨0, wordCount - 1⟩ ⟨0, wordCount - 1⟩ []

/-- No machine writes a listing of a finding in the last column, which is further out than
any text is long.  Of a finding on the last row no machine that checks its sums writes one,
and one that does not check them says that it is on line 0. -/
theorem not_written_at_last_word :
    Listable [lastColumn] none ∧ (∀ machine text, write machine [lastColumn] "" none ≠ .ok text) ∧
    Listable [lastRow] none ∧
    (∀ machine : Machine, machine.checked = true →
      ∀ text, write machine [lastRow] "" none ≠ .ok text) ∧
    ∃ text, write .widest [lastRow] "" none = .ok text ∧
      (readListing text).map Entry.line = [0] := by
  have hpath : ∀ text : String, none = some text → '\n' ∉ text.toList := by
    rintro text ⟨⟩
  have hrow : Listable [lastRow] none := ⟨by decide, hpath, by decide, by decide⟩
  refine ⟨⟨by decide, hpath, by decide, by decide⟩, fun machine text hwrite => ?column,
    hrow, fun machine hchecked text hwrite => ?row, ?zero⟩
  case column =>
    obtain ⟨-, rfl, hfits⟩ := (writes_write [lastColumn] "" none text).mp hwrite
    have hblock : wordCount - 1 ≤ (joinLines (lastColumn.block [[]] 1 (wordLine 0))).utf8ByteSize :=
      lastColumn.column_le_marker.trans (lastColumn.marker_le_block 1 _)
    have hlisting : listingBy wordLine [lastColumn] "" none =
        joinLines [headLine 1 none, ""] ++ joinLines (lastColumn.block [[]] 1 (wordLine 0)) := by
      rw [← joinLines_append]
      rfl
    have hcapacity := machine.capacity_lt
    have hword : 1 < wordCount := by decide
    rw [hlisting, String.utf8ByteSize_append] at hfits
    omega
  case row =>
    obtain ⟨hlines, -⟩ := (writes_write [lastRow] "" none text).mp hwrite
    exact absurd (hlines hchecked lastRow List.mem_cons_self) (by decide)
  case zero =>
    have hwrite := (@writes_write .widest [lastRow] "" none _).mpr
      ⟨fun hchecked => absurd hchecked (by decide), rfl, by decide +kernel⟩
    refine ⟨_, hwrite, ?_⟩
    rw [hrow.readListing_of_write hwrite]
    decide

end Summary
end TaintFlow
