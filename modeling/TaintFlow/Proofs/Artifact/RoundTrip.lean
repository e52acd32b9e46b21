/-
A grammar that is written out is read back.

`Grammar.Renders grammar text` says that the text is an artifact of the grammar.
It leaves all the choices that a writer has: rules and grammars as objects or as
lists, the order of keys and of rules, what has its default written or left out,
other entries, escapes and blanks.  With at most `Json.greatestDepth` brackets open
at once, such a text is read as the grammar (`exists_read_of_renders`).  Only the
order of the entries in a table comes from the text.
-/
import TaintFlow.Proofs.Artifact.Reading
import TaintFlow.Proofs.Grammar.Order
import TaintFlow.Proofs.Json.Integers
import TaintFlow.Proofs.Json.RecordRendering

namespace TaintFlow

open Json (EntryText FieldText Input IntegerText KeyText ListText MapText OptionText QuotedText
  Reader RecordText Rendering TruthText keyText_iff numeral numeral_eq_ok_iff skipSpace skipValue
  skipValue_eq_ok_iff)

/-! ## Renderings of rules -/

inductive RuleValueText : Rendering RuleValue where
  | level {n : Int32} {text rest : Input} (h : IntegerText n.toInt text rest) :
      RuleValueText (.level n) text rest
  | text {s : String} {text rest : Input} (h : QuotedText s text rest) :
      RuleValueText (.text s) text rest

namespace Rule

/-- How the fields of a rule may be written, with at most `depth` brackets open at
once inside the record. -/
def fieldTexts (depth : Nat) (content member : Rendering Rule) (rule : Rule) : List FieldText := [
  ⟨"type", False, QuotedText rule.kind.tag⟩,
  ⟨"value", rule.value = none, OptionText RuleValueText rule.value⟩,
  ⟨"name", rule.name = none, OptionText QuotedText rule.name⟩,
  ⟨"content", rule.content = none, OptionText content rule.content⟩,
  ⟨"members", rule.members = [], ListText depth member rule.members⟩,
  ⟨"named", rule.named = none, OptionText TruthText rule.named⟩,
  ⟨"flags", rule.flags = none, OptionText QuotedText rule.flags⟩,
  ⟨"context_name", rule.contextName = none, OptionText QuotedText rule.contextName⟩]

end Rule

/-- Rules that are written with at most `depth` brackets open at once.  A content is
inside the brackets of its parent, and a member inside those of the list too. -/
def RuleText : (depth : Nat) → Rendering Rule
  | 0 => fun _ _ _ => False
  | 1 => fun rule => RecordText 1 (rule.fieldTexts 0 (RuleText 0) fun _ _ _ => False)
  | depth + 2 => fun rule =>
    RecordText (depth + 2) (rule.fieldTexts (depth + 1) (RuleText (depth + 1)) (RuleText depth))

/-! ## Renderings of grammars -/

namespace Grammar

def RuleListText (depth : Nat) : Rendering (List Rule) := ListText depth (RuleText (depth - 1))

def NameListText (depth : Nat) : Rendering (List String) := ListText depth QuotedText

def TableText {α : Type} (depth : Nat) (w : Rendering α) : Rendering (Table α) :=
  fun table => MapText depth w table.entries

/-- How the fields of a grammar may be written, with at most `depth` brackets open at
once inside the record. -/
def fieldTexts (depth : Nat) (grammar : Grammar) : List FieldText := [
  ⟨"$schema", grammar.schema = none, OptionText QuotedText grammar.schema⟩,
  ⟨"name", False, QuotedText grammar.name⟩,
  ⟨"inherits", grammar.inherits = none, OptionText QuotedText grammar.inherits⟩,
  ⟨"rules", False, TableText depth (RuleText (depth - 1)) grammar.rules⟩,
  ⟨"extras", grammar.extras = [], RuleListText depth grammar.extras⟩,
  ⟨"externals", grammar.externals = [], RuleListText depth grammar.externals⟩,
  ⟨"inline", grammar.inline = [], NameListText depth grammar.inline⟩,
  ⟨"precedences", grammar.precedences = [],
    ListText depth (RuleListText (depth - 1)) grammar.precedences⟩,
  ⟨"conflicts", grammar.conflicts = [], ListText depth (NameListText (depth - 1)) grammar.conflicts⟩,
  ⟨"reserved", grammar.reserved = .empty,
    TableText depth (RuleListText (depth - 1)) grammar.reserved⟩,
  ⟨"word", grammar.word = none, OptionText QuotedText grammar.word⟩,
  ⟨"supertypes", grammar.supertypes = [], NameListText depth grammar.supertypes⟩]

end Grammar

/-- Grammars that are written with at most `depth` brackets open at once, and with
the entries of their tables in order. -/
def GrammarText (depth : Nat) : Rendering Grammar :=
  fun grammar => RecordText depth (grammar.fieldTexts (depth - 1))

/-- The text is a grammar artifact, of this grammar or of one that differs from it in
the order of its tables. -/
def Grammar.Renders (grammar : Grammar) (text : String) : Prop :=
  ∃ other rest, other.Same grammar ∧
    GrammarText Json.greatestDepth other (skipSpace text.toList) rest ∧ skipSpace rest = []

/-! ## Reading rules -/

theorem RuleKind.lookup_tags (kind : RuleKind) : tags.lookup kind.tag = some kind := by
  cases kind <;> rfl

namespace RuleValue

/-- The value that a rule value is in an artifact. -/
theorem run_value_of_text {value : RuleValue} {text rest : Input}
    (h : RuleValueText value (skipSpace text) rest) (budget : Nat) :
    ∃ json, (Reader.value budget).run text = .ok (json, rest) ∧ ofJson? json = some value := by
  generalize hstart : skipSpace text = start at h
  cases h with
  | @level n _ _ h =>
    have hleast := n.le_toInt
    have hgreatest := n.toInt_lt
    have hnumber := Json.numberHere_eq_int_iff.mpr ⟨h, by omega, by omega⟩
    obtain ⟨-, hnumeral⟩ := h
    rw [← hstart] at hnumber hnumeral
    refine ⟨.number (.int n.toInt), ?_, ofJson?_number_eq_some_iff.mpr ⟨n, rfl, rfl⟩⟩
    exact (Reader.value_run_eq_ok_iff_of_numeralText hnumeral).mpr ⟨rfl, _, hnumber, rfl⟩
  | @text s _ _ h =>
    obtain ⟨hbody⟩ := h
    refine ⟨.string s, ?_, rfl⟩
    rw [Reader.value_run_of_scalar hstart (by decide) (by decide)]
    simp only [Json.scalar, Json.stringRest_eq_ok_iff.mpr hbody, String.ofList_toList]

theorem head_of_text {value : RuleValue} {text rest : Input}
    (h : RuleValueText value text rest) : text.head? ≠ some 'n' := by
  cases h with
  | level h =>
    obtain ⟨-, hnumeral⟩ := h
    obtain ⟨c, tail, rfl, hc⟩ := hnumeral.startsNumeral
    exact fun hhead => Json.ne_of_startsNumeral hc (by decide) (Option.some.inj hhead)
  | text h =>
    cases h
    exact fun hhead => absurd (Option.some.inj hhead) (by decide)

theorem undoes_reader (budget : Nat) : (reader budget).Undoes (OptionText RuleValueText) := by
  refine Reader.Undoes.optional ⟨fun {value text rest} h => ?_⟩ head_of_text
  obtain ⟨json, hrun, hjson⟩ := run_value_of_text h budget
  simp only [Reader.convert, hrun, hjson]

end RuleValue

namespace Rule

/-- The rule as far as it is read, when the fields named in `seen` are. -/
def partly (rule : Rule) (seen : List String) : Rule where
  kind := if "type" ∈ seen then rule.kind else .blank
  value := if "value" ∈ seen then rule.value else none
  name := if "name" ∈ seen then rule.name else none
  content := if "content" ∈ seen then rule.content else none
  members := if "members" ∈ seen then rule.members else []
  named := if "named" ∈ seen then rule.named else none
  flags := if "flags" ∈ seen then rule.flags else none
  contextName := if "context_name" ∈ seen then rule.contextName else none

theorem takes_record {depth : Nat} {content member : Reader Rule}
    {contentText memberText : Rendering Rule} (hcontent : content.Undoes contentText)
    (hmember : member.Undoes memberText) (hspells : content.Spells) (hspells' : member.Spells)
    (hnull : ∀ {rule text rest}, contentText rule text rest → text.head? ≠ some 'n')
    (rule : Rule) :
    (record depth content member).Takes rule.partly (rule.fieldTexts depth contentText memberText)
      rule where
  spells := spells_record depth hspells hspells'
  each := by
    refine .cons ?_ (.cons ?_ (.cons ?_ (.cons ?_ (.cons ?_ (.cons ?_ (.cons ?_ (.cons ?_ .nil)))))))
    · exact .of_required (Reader.undoes_tag RuleKind.lookup_tags depth) fun seen => by simp [partly]
    · exact .of_optional (RuleValue.undoes_reader depth) fun seen => by simp [partly]
    · exact .of_optional Reader.undoes_optional_string fun seen => by simp [partly]
    · exact .of_optional (hcontent.optional hnull) fun seen => by simp [partly]
    · exact .of_optional (hmember.list hspells' depth) fun seen => by simp [partly]
    · exact .of_optional Reader.undoes_optional_bool fun seen => by simp [partly]
    · exact .of_optional Reader.undoes_optional_string fun seen => by simp [partly]
    · exact .of_optional Reader.undoes_optional_string fun seen => by simp [partly]
  default_eq := rfl
  value_eq := by
    intro seen h
    simp only [fieldTexts, List.forall_mem_cons] at h
    obtain ⟨hkind, hvalue, hname, hcontent, hmembers, hnamed, hflags, hcontextName, -⟩ := h
    cases rule
    simp only [partly, Rule.mk.injEq, ite_eq_left_iff]
    exact ⟨fun hnew => (hkind hnew).elim, fun hnew => (hvalue hnew).symm,
      fun hnew => (hname hnew).symm, fun hnew => (hcontent hnew).symm,
      fun hnew => (hmembers hnew).symm, fun hnew => (hnamed hnew).symm,
      fun hnew => (hflags hnew).symm, fun hnew => (hcontextName hnew).symm⟩

theorem head_of_text {depth : Nat} {rule : Rule} {text rest : Input}
    (h : RuleText depth rule text rest) : text.head? ≠ some 'n' := by
  unfold RuleText at h
  split at h
  · exact h.elim
  · exact h.head?_ne_null
  · exact h.head?_ne_null

/-- The reader with one bracket more uses the readers with fewer, as the rendering
does. -/
theorem undoes_reader : ∀ depth, (reader depth).Undoes (RuleText depth)
  | 0 => ⟨False.elim⟩
  | 1 => .delay ⟨(takes_record (undoes_reader 0) ⟨False.elim⟩ (spells_reader 0)
      spells_closedReader head_of_text _).reader_run_eq⟩
  | depth + 2 => .delay ⟨(takes_record (undoes_reader (depth + 1)) (undoes_reader depth)
      (spells_reader (depth + 1)) (spells_reader depth) head_of_text _).reader_run_eq⟩

end Rule

/-! ## Reading grammars -/

namespace Grammar

theorem undoes_rulesReader (depth : Nat) : (rulesReader depth).Undoes (RuleListText depth) :=
  (Rule.undoes_reader (depth - 1)).list (Rule.spells_reader (depth - 1)) depth

theorem undoes_namesReader (depth : Nat) : (namesReader depth).Undoes (NameListText depth) :=
  Reader.undoes_string.list Reader.spells_string depth

theorem undoes_tableReader {α : Type} {value : Reader α} {w : Rendering α} (h : value.Undoes w)
    (depth : Nat) : (tableReader depth value).Undoes (TableText depth w) := by
  refine ⟨fun {table text rest} htext => ?_⟩
  have hread := (h.object depth).run_eq htext
  exact Reader.map_run_eq_ok_iff.mpr ⟨table.entries, hread, table.ofEntries_entries.symm⟩

/-- The grammar as far as it is read, when the fields named in `seen` are. -/
def partly (grammar : Grammar) (seen : List String) : Grammar where
  schema := if "$schema" ∈ seen then grammar.schema else none
  name := if "name" ∈ seen then grammar.name else ""
  inherits := if "inherits" ∈ seen then grammar.inherits else none
  rules := if "rules" ∈ seen then grammar.rules else .empty
  extras := if "extras" ∈ seen then grammar.extras else []
  externals := if "externals" ∈ seen then grammar.externals else []
  inline := if "inline" ∈ seen then grammar.inline else []
  precedences := if "precedences" ∈ seen then grammar.precedences else []
  conflicts := if "conflicts" ∈ seen then grammar.conflicts else []
  reserved := if "reserved" ∈ seen then grammar.reserved else .empty
  word := if "word" ∈ seen then grammar.word else none
  supertypes := if "supertypes" ∈ seen then grammar.supertypes else []

theorem takes_record (depth : Nat) (grammar : Grammar) :
    (record depth).Takes grammar.partly (grammar.fieldTexts depth) grammar where
  spells := spells_record depth
  each := by
    refine .cons ?_ (.cons ?_ (.cons ?_ (.cons ?_ (.cons ?_ (.cons ?_ (.cons ?_ (.cons ?_
      (.cons ?_ (.cons ?_ (.cons ?_ (.cons ?_ .nil)))))))))))
    · exact .of_optional Reader.undoes_optional_string fun seen => by simp [partly]
    · exact .of_required Reader.undoes_string fun seen => by simp [partly]
    · exact .of_optional Reader.undoes_optional_string fun seen => by simp [partly]
    · exact .of_required (undoes_tableReader (Rule.undoes_reader _) depth)
        fun seen => by simp [partly]
    · exact .of_optional (undoes_rulesReader depth) fun seen => by simp [partly]
    · exact .of_optional (undoes_rulesReader depth) fun seen => by simp [partly]
    · exact .of_optional (undoes_namesReader depth) fun seen => by simp [partly]
    · exact .of_optional ((undoes_rulesReader _).list (spells_rulesReader _) depth)
        fun seen => by simp [partly]
    · exact .of_optional ((undoes_namesReader _).list (spells_namesReader _) depth)
        fun seen => by simp [partly]
    · exact .of_optional (undoes_tableReader (undoes_rulesReader _) depth)
        fun seen => by simp [partly]
    · exact .of_optional Reader.undoes_optional_string fun seen => by simp [partly]
    · exact .of_optional (undoes_namesReader depth) fun seen => by simp [partly]
  default_eq := rfl
  value_eq := by
    intro seen h
    simp only [fieldTexts, List.forall_mem_cons] at h
    obtain ⟨hschema, hname, hinherits, hrules, hextras, hexternals, hinline, hprecedences,
      hconflicts, hreserved, hword, hsupertypes, -⟩ := h
    cases grammar
    simp only [partly, Grammar.mk.injEq, ite_eq_left_iff]
    exact ⟨fun hnew => (hschema hnew).symm, fun hnew => (hname hnew).elim,
      fun hnew => (hinherits hnew).symm, fun hnew => (hrules hnew).elim,
      fun hnew => (hextras hnew).symm, fun hnew => (hexternals hnew).symm,
      fun hnew => (hinline hnew).symm, fun hnew => (hprecedences hnew).symm,
      fun hnew => (hconflicts hnew).symm, fun hnew => (hreserved hnew).symm,
      fun hnew => (hword hnew).symm, fun hnew => (hsupertypes hnew).symm⟩

theorem undoes_reader (depth : Nat) : (reader depth).Undoes (GrammarText depth) :=
  ⟨(takes_record (depth - 1) _).reader_run_eq⟩

/-- Every artifact of a grammar is read as this grammar, up to the order of its
tables. -/
theorem exists_read_of_renders {grammar : Grammar} {text : String} (h : grammar.Renders text) :
    ∃ other, read text = .ok other ∧ other.Same grammar := by
  obtain ⟨other, rest, hsame, htext, hrest⟩ := h
  have hrun := (undoes_reader Json.greatestDepth).run_eq htext
  exact ⟨other, Reader.readAll_eq_ok_iff.mpr ⟨rest, hrun, hrest⟩, hsame⟩

/-! ## An artifact -/

/-- A grammar with two rules. -/
def duo : Grammar where
  name := "x"
  rules := ⟨[("a", { kind := .blank }), ("b", { kind := .prec, value := some (.level (-7)) })],
    by decide⟩

/-- The same grammar with the second rule first. -/
def swappedDuo : Grammar :=
  { duo with rules := ⟨duo.rules.entries.reverse, by decide⟩ }

/-- An artifact of `duo`.  The second rule comes first and is a list, and the other
one has an entry that no field has a use for. -/
def duoText : String :=
  "\x7b\"rules\": \x7b\"b\":[\"PREC\",-7], \"a\":\x7b\"x\":[\x7b\x7d],\"type\":\"BLANK\"\x7d\x7d,\n" ++
    "\"name\":\"\\u0078\"\x7d\n"

/-- The artifact from a place on. -/
def duoFrom (place : Nat) : Input := duoText.toList.drop place

theorem entryText_duo {key : String} {item next value rest : Nat}
    (h : Reader.string.run (duoFrom item) = .ok (key, duoFrom next) ∧
      skipSpace (duoFrom next) = ':' :: duoFrom value ∧
      skipValue (duoFrom value) = .ok (duoFrom rest)) :
    EntryText (key, duoFrom value) (duoFrom item) (duoFrom rest) := by
  obtain ⟨hkey, hcolon, hvalue⟩ := h
  exact .keyed (keyText_iff.mpr (Reader.string_run_eq_ok_iff.mp hkey)) hcolon
    (skipValue_eq_ok_iff.mp hvalue)

theorem text_prec_duo :
    RuleText 125 { kind := .prec, value := some (.level (-7)) } (skipSpace (duoFrom 15))
      (duoFrom 26) := by
  obtain ⟨hopen, htag, hcomma, hminus, hnumeral, hclose⟩ :
      skipSpace (duoFrom 15) = '[' :: duoFrom 16 ∧
      Reader.string.run (duoFrom 16) = .ok ("PREC", duoFrom 22) ∧
      skipSpace (duoFrom 22) = ',' :: duoFrom 23 ∧ skipSpace (duoFrom 23) = duoFrom 23 ∧
      numeral .endInValue (duoFrom 23) = .ok (⟨true, ['7'], [], none⟩, duoFrom 25) ∧
      skipSpace (duoFrom 25) = ']' :: duoFrom 26 := by decide +kernel
  have hlevel : RuleValueText (.level (-7)) (skipSpace (duoFrom 23)) (duoFrom 25) := by
    rw [hminus]
    exact .level (.digits (by decide) (numeral_eq_ok_iff.mp hnumeral))
  rw [hopen]
  exact .list (by decide) (.field .first (Reader.string_run_eq_ok_iff.mp htag)
    (.field (.comma hcomma) (.some hlevel) (.close hclose (by simp))))

theorem text_blank_duo :
    RuleText 125 { kind := .blank } (skipSpace (duoFrom 32)) (duoFrom 57) := by
  obtain ⟨hopen, hx, hcomma, htype, htag, hclose⟩ :
      skipSpace (duoFrom 32) = '\x7b' :: duoFrom 33 ∧
      (Reader.string.run (duoFrom 33) = .ok ("x", duoFrom 36) ∧
        skipSpace (duoFrom 36) = ':' :: duoFrom 37 ∧ skipValue (duoFrom 37) = .ok (duoFrom 41)) ∧
      skipSpace (duoFrom 41) = ',' :: duoFrom 42 ∧
      (Reader.string.run (duoFrom 42) = .ok ("type", duoFrom 48) ∧
        skipSpace (duoFrom 48) = ':' :: duoFrom 49 ∧ skipValue (duoFrom 49) = .ok (duoFrom 56)) ∧
      Reader.string.run (duoFrom 49) = .ok ("BLANK", duoFrom 56) ∧
      skipSpace (duoFrom 56) = '\x7d' :: duoFrom 57 := by decide +kernel
  rw [hopen]
  refine .object (by decide) (.entry .first (entryText_duo hx)
    (.entry (.comma hcomma) (entryText_duo htype) (.close hclose))) ?_
  simp only [Rule.fieldTexts, List.forall_mem_cons]
  exact ⟨.inr ⟨_, _, by simp, Reader.string_run_eq_ok_iff.mp htag⟩, .inl ⟨by simp, trivial⟩,
    .inl ⟨by simp, trivial⟩, .inl ⟨by simp, trivial⟩, .inl ⟨by simp, trivial⟩,
    .inl ⟨by simp, trivial⟩, .inl ⟨by simp, trivial⟩, .inl ⟨by simp, trivial⟩,
    List.forall_mem_nil _⟩

theorem text_rules_duo :
    TableText 126 (RuleText 125) swappedDuo.rules (skipSpace (duoFrom 9)) (duoFrom 58) := by
  obtain ⟨hopen, hb, hcolon, hcomma, ha, hcolon', hclose⟩ :
      skipSpace (duoFrom 9) = '\x7b' :: duoFrom 11 ∧
      Reader.string.run (duoFrom 11) = .ok ("b", duoFrom 14) ∧
      skipSpace (duoFrom 14) = ':' :: duoFrom 15 ∧ skipSpace (duoFrom 26) = ',' :: duoFrom 27 ∧
      Reader.string.run (duoFrom 27) = .ok ("a", duoFrom 31) ∧
      skipSpace (duoFrom 31) = ':' :: duoFrom 32 ∧
      skipSpace (duoFrom 57) = '\x7d' :: duoFrom 58 := by decide +kernel
  have hb := keyText_iff.mpr (Reader.string_run_eq_ok_iff.mp hb)
  have ha := keyText_iff.mpr (Reader.string_run_eq_ok_iff.mp ha)
  rw [hopen]
  exact .bracketed (by decide) (.pair .first hb hcolon text_prec_duo
    (.pair (.comma hcomma) ha hcolon' text_blank_duo (.close hclose)))

theorem renders_duo : duo.Renders duoText := by
  obtain ⟨hopen, hrules, hcomma, hname, hx, hclose, hend⟩ :
      skipSpace duoText.toList = '\x7b' :: duoFrom 1 ∧
      (Reader.string.run (duoFrom 1) = .ok ("rules", duoFrom 8) ∧
        skipSpace (duoFrom 8) = ':' :: duoFrom 9 ∧ skipValue (duoFrom 9) = .ok (duoFrom 58)) ∧
      skipSpace (duoFrom 58) = ',' :: duoFrom 59 ∧
      (Reader.string.run (duoFrom 59) = .ok ("name", duoFrom 66) ∧
        skipSpace (duoFrom 66) = ':' :: duoFrom 67 ∧ skipValue (duoFrom 67) = .ok (duoFrom 75)) ∧
      Reader.string.run (duoFrom 67) = .ok ("x", duoFrom 75) ∧
      skipSpace (duoFrom 75) = '\x7d' :: duoFrom 76 ∧ skipSpace (duoFrom 76) = [] := by
    decide +kernel
  have hsame : swappedDuo.Same duo :=
    { rules := List.reverse_perm duo.rules.entries, reserved := .refl _, rest := rfl }
  refine ⟨swappedDuo, duoFrom 76, hsame, ?_, hend⟩
  rw [hopen]
  refine .object (by decide) (.entry .first (entryText_duo hrules)
    (.entry (.comma hcomma) (entryText_duo hname) (.close hclose))) ?_
  simp only [fieldTexts, List.forall_mem_cons]
  exact ⟨.inl ⟨by simp, rfl⟩, .inr ⟨_, _, by simp, Reader.string_run_eq_ok_iff.mp hx⟩,
    .inl ⟨by simp, rfl⟩, .inr ⟨_, _, by simp, text_rules_duo⟩, .inl ⟨by simp, rfl⟩,
    .inl ⟨by simp, rfl⟩, .inl ⟨by simp, rfl⟩, .inl ⟨by simp, rfl⟩, .inl ⟨by simp, rfl⟩,
    .inl ⟨by simp, rfl⟩, .inl ⟨by simp, rfl⟩, .inl ⟨by simp, rfl⟩, List.forall_mem_nil _⟩

theorem exists_read_of_renders_duo :
    duo.Renders duoText ∧ ∃ other, read duoText = .ok other ∧ other.Same duo :=
  ⟨renders_duo, exists_read_of_renders renders_duo⟩

end Grammar
end TaintFlow
