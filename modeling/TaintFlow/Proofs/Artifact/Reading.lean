/-
What reading an artifact takes.

The readers of rules and grammars are made of the general ones, so what they
accept is a value of the grammar of JSON texts.  The rules of a grammar are read
from one entry of the object, and no other entry changes them.
-/
import TaintFlow.Artifact.Reading
import TaintFlow.Proofs.Json.Records

namespace TaintFlow

open Json (Entry EntriesText Field Input ObjectText Reader Record skipSpace)

/-! ## Rules -/

/-- The numbers that are levels are the integers of 32 bits. -/
theorem RuleValue.ofJson?_number_eq_some_iff {x : Json.Number} {value : RuleValue} :
    ofJson? (.number x) = some value ↔ ∃ level : Int32, x = .int level.toInt ∧ value = .level level := by
  constructor
  · intro h
    cases x with
    | real => cases h
    | int n =>
      rw [ofJson?] at h
      split at h
      · next hbounds =>
        cases h
        refine ⟨.ofInt n, ?_, rfl⟩
        rw [Int32.toInt_ofInt_of_le hbounds.1 hbounds.2]
      · cases h
  · rintro ⟨level, rfl, rfl⟩
    rw [ofJson?, if_pos ⟨level.le_toInt, level.toInt_lt⟩, Int32.ofInt_toInt]

namespace Rule

theorem spells_record (budget : Nat) {content member : Reader Rule} (hcontent : content.Spells)
    (hmember : member.Spells) : (record budget content member).Spells := by
  simp only [Record.Spells, record, List.forall_mem_cons]
  refine ⟨?_, ?_, ?_, ?_, ?_, ?_, ?_, ?_, ?_⟩
  · exact (Reader.spells_tag budget _).map _
  · exact ((Reader.spells_value budget).convert _ _).optional.map _
  · exact Reader.spells_string.optional.map _
  · exact hcontent.optional.map _
  · exact (hmember.list budget).map _
  · exact Reader.spells_bool.optional.map _
  · exact Reader.spells_string.optional.map _
  · exact Reader.spells_string.optional.map _
  · exact List.forall_mem_nil _

theorem spells_closedReader : closedReader.Spells :=
  Record.Spells.reader (fun _ hmem => absurd hmem List.not_mem_nil) 0

/-- The reader for one bracket more uses the readers for fewer. -/
theorem spells_reader : ∀ budget, (reader budget).Spells
  | 0 => spells_closedReader
  | 1 => .delay ((spells_record 0 (spells_reader 0) spells_closedReader).reader 1)
  | budget + 2 => .delay
      ((spells_record (budget + 1) (spells_reader (budget + 1)) (spells_reader budget)).reader
        (budget + 2))

end Rule

/-! ## Grammars -/

namespace Grammar

theorem spells_rulesReader (budget : Nat) : (rulesReader budget).Spells :=
  (Rule.spells_reader (budget - 1)).list budget

theorem spells_namesReader (budget : Nat) : (namesReader budget).Spells :=
  Reader.spells_string.list budget

theorem spells_tableReader {α : Type} {value : Reader α} (hvalue : value.Spells) (budget : Nat) :
    (tableReader budget value).Spells :=
  (hvalue.object budget).map _

theorem spells_record (budget : Nat) : (record budget).Spells := by
  simp only [Record.Spells, record, List.forall_mem_cons]
  refine ⟨?_, ?_, ?_, ?_, ?_, ?_, ?_, ?_, ?_, ?_, ?_, ?_, ?_⟩
  · exact Reader.spells_string.optional.map _
  · exact Reader.spells_string.map _
  · exact Reader.spells_string.optional.map _
  · exact (spells_tableReader (Rule.spells_reader _) budget).map _
  · exact (spells_rulesReader budget).map _
  · exact (spells_rulesReader budget).map _
  · exact (spells_namesReader budget).map _
  · exact ((spells_rulesReader _).list budget).map _
  · exact ((spells_namesReader _).list budget).map _
  · exact (spells_tableReader (spells_rulesReader _) budget).map _
  · exact Reader.spells_string.optional.map _
  · exact (spells_namesReader budget).map _
  · exact List.forall_mem_nil _

/-- No other field changes the rules. -/
theorem keeps_rules (budget : Nat) :
    ∀ field ∈ (record budget).fields, field.key ≠ "rules" → field.Keeps Grammar.rules := by
  simp only [record, List.forall_mem_cons]
  refine ⟨?_, ?_, ?_, fun hne => absurd rfl hne, ?_, ?_, ?_, ?_, ?_, ?_, ?_, ?_,
    List.forall_mem_nil _⟩
  all_goals
    intro _
    refine Field.keeps_of fun _ _ => ?_
    rfl

/-- The rules of a grammar that is read from an object are read from the one
entry that is named for them. -/
theorem exists_rules_of_reader {budget : Nat} (hbudget : budget ≠ 0) {text body rest : Input}
    {grammar : Grammar} (hopen : skipSpace text = '\x7b' :: body)
    (h : (reader budget).run text = .ok (grammar, rest)) :
    ∃ entries value rules left, EntriesText true entries body rest ∧
      (entries.filter fun entry => entry.1 == "rules") = [("rules", value)] ∧
      ObjectText rules value left ∧
      ∀ name, name ∈ grammar.rules.keys ↔ name ∈ rules.map Prod.fst := by
  obtain ⟨entries, hentries, hfills⟩ :=
    (Record.reader_run_eq_ok_iff hbudget (spells_record _) hopen).mp h
  have hfield : (record (budget - 1)).field? "rules" =
      some (.of "rules" (tableReader (budget - 1) (Rule.reader (budget - 1 - 1)))
        (fun rules grammar => { grammar with rules }) true) := rfl
  rcases hfills.get_eq (keeps_rules _) hfield List.not_mem_nil with
    ⟨hrequired, -⟩ | ⟨value, left, update, before, hfilter, hupdate, hrules⟩
  · cases hrequired
  · obtain ⟨table, htable, rfl⟩ := Reader.map_run_eq_ok_iff.mp hupdate
    obtain ⟨read, hread, rfl⟩ := Reader.map_run_eq_ok_iff.mp htable
    obtain ⟨rules, hobject, hnames⟩ :=
      Reader.exists_objectText_of_object (Rule.spells_reader _) hread
    refine ⟨entries, value, rules, left, hentries, hfilter, hobject, fun name => ?_⟩
    rw [hrules, hnames]
    exact Table.mem_keys_ofEntries

/-- A text that is read as a grammar with rules of these names. -/
theorem exists_read_of_keys {text : String} {keys : List String}
    (h : (read text).toOption.map (fun grammar => grammar.rules.keys) = some keys) :
    ∃ grammar, read text = .ok grammar ∧ grammar.rules.keys = keys :=
  Json.exists_ok_of_toOption_map h

end Grammar
end TaintFlow
