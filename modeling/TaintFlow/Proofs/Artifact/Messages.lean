/-
What is said of texts that are no artifacts.

The message about a text that cannot be read as a grammar begins with what could not
be done and ends with a line and a column, of a line that the text has.  It is meant
to be plain, and it is, but for one case: an unknown kind of a rule is written as it
was read, with the control characters that its escapes stand for.
`message_of_read` says so for every text, and `message_of_squall` is a text whose
message goes over two lines and sets a colour on a terminal.
-/
import TaintFlow.Artifact.Reading
import TaintFlow.Proofs.Json.ReaderFaults
import TaintFlow.Proofs.Text.Lines

namespace TaintFlow

open Json (Cause Failure Reader Record isControl)

/-! ## Rules -/

theorem RuleKind.isPlain_tags :
    ∀ tag ∈ RuleKind.tags.map Prod.fst, Json.IsPlain tag.toList := by
  decide

namespace Rule

theorem failsPlainly_record (budget : Nat) {content member : Reader Rule}
    (hcontent : content.FailsPlainly) (hmember : member.FailsPlainly) :
    (record budget content member).FailsPlainly := by
  have htitle : Json.IsPlain "struct Rule".toList := by decide
  have hunmatched : (Cause.unmatched "untagged enum RuleValue").IsPlain :=
    List.forall_mem_singleton.mpr (by decide)
  have hvalue : (RuleValue.reader budget).FailsPlainly :=
    ((Reader.failsPlainly_value budget).convert _ hunmatched).optional
  refine ⟨htitle, ?_⟩
  simp only [record, List.forall_mem_cons]
  refine ⟨?_, ?_, ?_, ?_, ?_, ?_, ?_, ?_, List.forall_mem_nil _⟩
  · exact .of (by decide) (Reader.failsPlainly_tag RuleKind.isPlain_tags budget) _ _
  · exact .of (by decide) hvalue _ _
  · exact .of (by decide) Reader.failsPlainly_string.optional _ _
  · exact .of (by decide) hcontent.optional _ _
  · exact .of (by decide) (hmember.list budget) _ _
  · exact .of (by decide) Reader.failsPlainly_bool.optional _ _
  · exact .of (by decide) Reader.failsPlainly_string.optional _ _
  · exact .of (by decide) Reader.failsPlainly_string.optional _ _

theorem failsPlainly_closedReader : closedReader.FailsPlainly := by
  have hfields : ∀ field ∈ ([] : List (Json.Field Rule)), field.FailsPlainly := List.forall_mem_nil _
  exact Record.FailsPlainly.reader ⟨by decide, hfields⟩ 0

theorem failsPlainly_reader : ∀ budget, (reader budget).FailsPlainly
  | 0 => failsPlainly_closedReader
  | 1 => .delay
      ((failsPlainly_record 0 (failsPlainly_reader 0) failsPlainly_closedReader).reader 1)
  | budget + 2 => .delay
      ((failsPlainly_record (budget + 1) (failsPlainly_reader (budget + 1))
        (failsPlainly_reader budget)).reader (budget + 2))

end Rule

/-! ## Grammars -/

namespace Grammar

theorem failsPlainly_record (budget : Nat) : (record budget).FailsPlainly := by
  have hrules : ∀ budget, (rulesReader budget).FailsPlainly := fun budget =>
    (Rule.failsPlainly_reader (budget - 1)).list budget
  have hnames : ∀ budget, (namesReader budget).FailsPlainly := fun budget =>
    Reader.failsPlainly_string.list budget
  have htitle : Json.IsPlain "struct Grammar".toList := by decide
  refine ⟨htitle, ?_⟩
  simp only [record, List.forall_mem_cons]
  refine ⟨?_, ?_, ?_, ?_, ?_, ?_, ?_, ?_, ?_, ?_, ?_, ?_, List.forall_mem_nil _⟩
  · exact .of (by decide) Reader.failsPlainly_string.optional _ _
  · exact .of (by decide) Reader.failsPlainly_string _ _
  · exact .of (by decide) Reader.failsPlainly_string.optional _ _
  · exact .of (by decide) (((Rule.failsPlainly_reader _).object budget).map _) _ _
  · exact .of (by decide) (hrules budget) _ _
  · exact .of (by decide) (hrules budget) _ _
  · exact .of (by decide) (hnames budget) _ _
  · exact .of (by decide) ((hrules _).list budget) _ _
  · exact .of (by decide) ((hnames _).list budget) _ _
  · exact .of (by decide) (((hrules _).object budget).map _) _ _
  · exact .of (by decide) Reader.failsPlainly_string.optional _ _
  · exact .of (by decide) (hnames budget) _ _

theorem failsPlainly_reader (budget : Nat) : (reader budget).FailsPlainly :=
  (failsPlainly_record (budget - 1)).reader budget

/-! ## Messages -/

/-- What stands around the message of a cause has no control characters. -/
theorem mem_readFailureMessage_iff {failure : Failure} (h : failure.cause.IsPlain) {c : Char}
    (hc : isControl c = true) : c ∈ (readFailureMessage failure).toList ↔
      ∃ tag known, failure.cause = .unknownTag tag known ∧ c ∈ tag.toList := by
  have hstart : c ∉ "JSON parse error: ".toList := Json.IsPlain.not_mem (by decide) hc
  have hline : c ∉ " at line ".toList := Json.IsPlain.not_mem (by decide) hc
  have hcolumn : c ∉ " column ".toList := Json.IsPlain.not_mem (by decide) hc
  have hnumber : ∀ n : Nat, c ∉ n.repr.toList := fun n => (Json.isPlain_repr n).not_mem hc
  rw [← Cause.mem_message_iff h hc]
  show c ∈ ("JSON parse error: " ++ (failure.cause.message ++ " at line " ++
    failure.place.line.repr ++ " column " ++ failure.place.column.repr)).toList ↔ _
  rw [String.toList_append, List.mem_append, or_iff_right hstart,
    String.toList_append, List.mem_append, or_iff_left (hnumber _),
    String.toList_append, List.mem_append, or_iff_left hcolumn,
    String.toList_append, List.mem_append, or_iff_left (hnumber _),
    String.toList_append, List.mem_append, or_iff_left hline]

/-- The message about a text that cannot be read ends with a line of the text and a
column.  Control characters, among them the line feed and the escape, are in it when
an unknown kind of a rule has them, and only then. -/
theorem message_of_read {text : String} {failure : Failure} (h : read text = .error failure) :
    (∃ (body : String) (line column : Nat), readFailureMessage failure =
        "JSON parse error: " ++ (body ++ " at line " ++ line.repr ++ " column " ++ column.repr) ∧
      1 ≤ line ∧ line ≤ (Text.lines text.toList).length) ∧
    ∀ c, isControl c = true → (c ∈ (readFailureMessage failure).toList ↔
      ∃ tag known, failure.cause = .unknownTag tag known ∧ c ∈ tag.toList) := by
  obtain ⟨hplain, hfirst, hlast⟩ := (failsPlainly_reader Json.greatestDepth).readAll h
  rw [← Text.length_lines] at hlast
  exact ⟨⟨failure.cause.message, failure.place.line, failure.place.column, rfl, hfirst, hlast⟩,
    fun c hc => mem_readFailureMessage_iff hplain hc⟩

/-- Why a text cannot be read. -/
def readCause? (text : String) : Option Cause :=
  match read text with
  | .error failure => some failure.cause
  | .ok _ => none

theorem exists_read_of_readCause? {text : String} {cause : Cause}
    (h : readCause? text = some cause) :
    ∃ failure, read text = .error failure ∧ failure.cause = cause := by
  unfold readCause? at h
  split at h
  · next failure hread => exact ⟨failure, hread, Option.some.inj h⟩
  · cases h

/-- A text with a line feed in a string that stands in place of the rules. -/
def drizzle : String := "\x7b\"name\":\"x\",\n\"rules\":\"a\\nb\"\x7d"

/-- The message about it quotes the string, and is one line. -/
theorem message_of_read_drizzle :
    ∃ failure, read drizzle = .error failure ∧
      (∃ (body : String) (line column : Nat), readFailureMessage failure =
          "JSON parse error: " ++ (body ++ " at line " ++ line.repr ++ " column " ++
            column.repr) ∧
        1 ≤ line ∧ line ≤ (Text.lines drizzle.toList).length) ∧
      '\n' ∉ (readFailureMessage failure).toList := by
  obtain ⟨failure, hread, hcause⟩ := exists_read_of_readCause?
    (show readCause? drizzle = some (.wrongType (.string "a\nb") "a map") by decide +kernel)
  obtain ⟨hmessage, hcontrol⟩ := message_of_read hread
  refine ⟨failure, hread, hmessage, ?_⟩
  rw [hcontrol '\n' rfl, hcause]
  rintro ⟨tag, known, htag, -⟩
  cases htag

/-- A text whose rule is of no known kind. -/
def squall : String :=
  "\x7b\"name\":\"x\",\"rules\":\x7b\"a\":\x7b\"type\":\"RED\\u001b[31m\\nALERT\"\x7d\x7d\x7d"

/-- The message about it has a line feed and an escape. -/
theorem message_of_squall :
    ∃ failure, read squall = .error failure ∧ '\n' ∈ (readFailureMessage failure).toList ∧
      '\x1b' ∈ (readFailureMessage failure).toList := by
  obtain ⟨failure, hread, hcause⟩ := exists_read_of_readCause?
    (show readCause? squall =
      some (.unknownTag "RED\x1b[31m\nALERT" (RuleKind.tags.map Prod.fst)) by decide +kernel)
  have hplain : failure.cause.IsPlain := hcause ▸ RuleKind.isPlain_tags
  refine ⟨failure, hread, ?_, ?_⟩
  · rw [mem_readFailureMessage_iff hplain rfl]
    exact ⟨_, _, hcause, by decide⟩
  · rw [mem_readFailureMessage_iff hplain rfl]
    exact ⟨_, _, hcause, by decide⟩

end Grammar
end TaintFlow
