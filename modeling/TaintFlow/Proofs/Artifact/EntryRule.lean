/-
The two readings of an artifact.

An artifact is read once for its grammar and once for the rule at which it is
entered.  `RulesText` says what both have to find: the document is an object, one
of its entries is the only one with the name for the rules, and the value of that
entry is an object.

The second reading finds the first name of that object in every document that has
one, whatever stands around it (`entryRule?_eq_of_rulesText`).  A document that is
read as a grammar has one, and its names are those of the rules that were read
(`exists_rulesText_of_read`).  So the two readings agree (`entryRule?_of_read`).
-/
import TaintFlow.Artifact.EntryRule
import TaintFlow.Proofs.Artifact.Reading

namespace TaintFlow
namespace Artifact

open Json (EntriesText Entry EntryText Input ObjectText Reader Record ValueText colon nextKey
  skipSpace skipValue)

/-! ## The first name of an object -/

theorem skipEntries_of_close {text rest : Input} (hclose : skipSpace text = '\x7d' :: rest) :
    skipEntries text = .ok rest := by
  have hnext : nextKey false text = .ok (.close ('\x7d' :: rest)) :=
    Json.nextKey_eq_close_iff.mpr ⟨rest, rfl, hclose⟩
  rw [skipEntries]
  split
  · next heq => simp [hnext] at heq
  · next heq =>
    cases hnext.symm.trans heq
    rfl
  · next heq => simp [hnext] at heq

theorem skipEntries_of_more {key : String} {text left start next : Input}
    (hnext : nextKey false text = .ok (.more key left)) (hcolon : colon left = .ok start)
    (hskip : skipValue start = .ok next) : skipEntries text = skipEntries next := by
  rw [skipEntries]
  split
  · next heq => simp [hnext] at heq
  · next heq => simp [hnext] at heq
  · next heq =>
    cases hnext.symm.trans heq
    split
    · next heq => simp [hcolon] at heq
    · next heq =>
      cases hcolon.symm.trans heq
      split
      · next heq => simp [hskip] at heq
      · next heq =>
        cases hskip.symm.trans heq
        rfl

theorem skipEntries_eq_ok_iff {text rest : Input} :
    skipEntries text = .ok rest ↔ ∃ entries, EntriesText false entries text rest := by
  constructor
  · intro h
    fun_induction skipEntries text with
    | case1 => cases h
    | case2 text left hnext =>
      obtain ⟨tail, rfl, hclose⟩ := Json.nextKey_eq_close_iff.mp hnext
      cases h
      exact ⟨[], .close hclose⟩
    | case3 => cases h
    | case4 => cases h
    | case5 text key left hnext start hcolon next hskip ih =>
      obtain ⟨place, hplace, hkey⟩ := Json.nextKey_eq_more_iff.mp hnext
      obtain ⟨entries, hentries⟩ := ih h
      have hentry := EntryText.keyed hkey (Json.colon_eq_ok_iff.mp hcolon)
        (Json.skipValue_eq_ok_iff.mp hskip)
      exact ⟨_, .entry hplace hentry hentries⟩
  · rintro ⟨entries, h⟩
    generalize hfirst : false = first at h
    induction h with
    | close hclose => exact skipEntries_of_close hclose
    | entry hplace hentry _ ih =>
      subst hfirst
      obtain ⟨hkey, hcolon, hvalue⟩ := hentry
      rw [skipEntries_of_more (Json.nextKey_eq_more_iff.mpr ⟨_, hplace, hkey⟩)
        (Json.colon_eq_ok_iff.mpr hcolon) (Json.skipValue_eq_ok_iff.mpr hvalue)]
      exact ih rfl

theorem firstName_eq_ok_iff {name : Option String} {text rest : Input} :
    firstName text = .ok (name, rest) ↔
      ∃ entries, EntriesText true entries text rest ∧ entries.head?.map Prod.fst = name := by
  constructor
  · intro h
    unfold firstName at h
    split at h
    · cases h
    · next hnext =>
      obtain ⟨tail, rfl, hclose⟩ := Json.nextKey_eq_close_iff.mp hnext
      cases h
      exact ⟨[], .close hclose, rfl⟩
    · next hnext =>
      split at h
      · cases h
      · next hcolon =>
        split at h
        · cases h
        · next hskip =>
          split at h
          · cases h
          · next hrest =>
            cases h
            obtain ⟨place, hplace, hkey⟩ := Json.nextKey_eq_more_iff.mp hnext
            obtain ⟨entries, hentries⟩ := skipEntries_eq_ok_iff.mp hrest
            have hentry := EntryText.keyed hkey (Json.colon_eq_ok_iff.mp hcolon)
              (Json.skipValue_eq_ok_iff.mp hskip)
            exact ⟨_, .entry hplace hentry hentries, rfl⟩
  · rintro ⟨entries, h, rfl⟩
    cases h with
    | close hclose =>
      rw [firstName, Json.nextKey_eq_close_iff.mpr ⟨rest, rfl, hclose⟩]
      rfl
    | entry hplace hentry h =>
      obtain ⟨hkey, hcolon, hvalue⟩ := hentry
      rw [firstName, Json.nextKey_eq_more_iff.mpr ⟨_, hplace, hkey⟩]
      simp [Json.colon_eq_ok_iff.mpr hcolon, Json.skipValue_eq_ok_iff.mpr hvalue,
        skipEntries_eq_ok_iff.mpr ⟨_, h⟩]

/-- The reader of the first name takes objects, and looks at nothing but the
first entry. -/
theorem firstNameReader_run_eq_ok_iff {name : Option String} {text rest : Input} :
    firstNameReader.run text = .ok (name, rest) ↔
      ∃ entries, ObjectText entries text rest ∧ entries.head?.map Prod.fst = name := by
  constructor
  · intro h
    simp only [firstNameReader] at h
    split at h
    · cases h
    · next hopen =>
      obtain ⟨entries, hentries, hname⟩ := firstName_eq_ok_iff.mp h
      exact ⟨entries, ⟨_, hopen, hentries⟩, hname⟩
    · cases h
  · rintro ⟨entries, ⟨body, hopen, hbody⟩, hname⟩
    simp only [firstNameReader, hopen]
    exact firstName_eq_ok_iff.mpr ⟨entries, hbody, hname⟩

theorem spells_firstNameReader : firstNameReader.Spells := by
  refine ⟨fun h => ?_⟩
  obtain ⟨entries, hobject, -⟩ := firstNameReader_run_eq_ok_iff.mp h
  exact hobject.valueText

theorem spells_entryRecord : entryRecord.Spells := by
  simp only [Record.Spells, entryRecord, List.forall_mem_cons]
  exact ⟨spells_firstNameReader.map _, List.forall_mem_nil _⟩

/-! ## The rules in a document -/

/-- The entries of the object of rules in the text of an artifact, in the order
of the text.  The document is an object and has one entry for the rules. -/
def RulesText (text : String) (rules : List Entry) : Prop :=
  ∃ entries tail value rest, ObjectText entries text.toList tail ∧ skipSpace tail = [] ∧
    (entries.filter fun entry => entry.1 == "rules") = [("rules", value)] ∧
    ObjectText rules value rest

theorem RulesText.eq {text : String} {rules others : List Entry} (h : RulesText text rules)
    (h' : RulesText text others) : rules = others := by
  obtain ⟨entries, tail, value, rest, hobject, -, hfilter, hrules⟩ := h
  obtain ⟨entries', tail', value', rest', hobject', -, hfilter', hrules'⟩ := h'
  obtain ⟨rfl, rfl⟩ := hobject.eq hobject'
  cases hfilter.symm.trans hfilter'
  exact (hrules.eq hrules').1

theorem field?_entryRecord_of_ne {key : String} (h : key ≠ "rules") :
    entryRecord.field? key = none := by
  simpa [Record.field?, entryRecord, Json.Field.of] using Ne.symm h

/-- Once the rules were read, entries with other names are skipped. -/
theorem fills_entryRecord_of_seen {name : Option String} {entries : List Entry}
    (h : (entries.filter fun entry => entry.1 == "rules") = []) :
    entryRecord.Fills name ["rules"] entries name := by
  induction entries with
  | nil => exact .done fun field hmem _ => by simp_all [entryRecord, Json.Field.of]
  | cons entry entries ih =>
    rw [List.filter_eq_nil_iff] at h
    have hne : entry.1 ≠ "rules" := by simpa using h entry List.mem_cons_self
    refine .skip (field?_entryRecord_of_ne hne) (ih (List.filter_eq_nil_iff.mpr fun other hmem => ?_))
    exact h other (List.mem_cons_of_mem _ hmem)

theorem fills_entryRecord {name : Option String} {entries : List Entry} {value rest : Input}
    (h : (entries.filter fun entry => entry.1 == "rules") = [("rules", value)])
    (hread : firstNameReader.run value = .ok (name, rest)) :
    entryRecord.Fills none [] entries name := by
  induction entries with
  | nil => cases h
  | cons entry entries ih =>
    by_cases hkey : entry.1 = "rules"
    · rw [List.filter_cons_of_pos (by simpa using hkey)] at h
      obtain ⟨rfl, hnone⟩ := List.cons.inj h
      have hupdate : (firstNameReader.map fun (name _ : Option String) => name).run value =
          .ok (fun _ => name, rest) := Reader.map_run_eq_ok_iff.mpr ⟨name, hread, rfl⟩
      exact .set rfl List.not_mem_nil hupdate (fills_entryRecord_of_seen hnone)
    · rw [List.filter_cons_of_neg (by simpa using hkey)] at h
      exact .skip (field?_entryRecord_of_ne hkey) (ih h)

/-- The entry rule of a document with rules is the first of them, whatever else
is in the document. -/
theorem entryRule?_eq_of_rulesText {text : String} {rules : List Entry} (h : RulesText text rules) :
    entryRule? text = rules.head?.map Prod.fst := by
  obtain ⟨entries, tail, value, rest, ⟨body, hopen, hbody⟩, htail, hfilter, hrules⟩ := h
  have hname := firstNameReader_run_eq_ok_iff.mpr ⟨rules, hrules, rfl⟩
  have hdepth : Json.greatestDepth ≠ 0 := by decide
  have hrun := (Record.reader_run_eq_ok_iff hdepth spells_entryRecord hopen).mpr
    ⟨entries, hbody, fills_entryRecord hfilter hname⟩
  rw [entryRule?, Reader.readAll_eq_ok_iff.mpr ⟨tail, hrun, htail⟩]

/-! ## Documents that are read as grammars -/

theorem exists_rulesText_of_read {text : String} {grammar : Grammar}
    (hopen : (skipSpace text.toList).head? = some '\x7b') (hread : Grammar.read text = .ok grammar) :
    ∃ rules, RulesText text rules ∧
      ∀ name, name ∈ grammar.rules.keys ↔ name ∈ rules.map Prod.fst := by
  obtain ⟨tail, hrun, htail⟩ := Reader.readAll_eq_ok_iff.mp hread
  obtain ⟨body, hbody⟩ := List.head?_eq_some_iff.mp hopen
  obtain ⟨entries, value, rules, rest, hentries, hfilter, hrules, hnames⟩ :=
    Grammar.exists_rules_of_reader (by decide) hbody hrun
  exact ⟨rules, ⟨entries, tail, value, rest, ⟨body, hbody, hentries⟩, htail, hfilter, hrules⟩,
    hnames⟩

/-- A table and a list of entries with the same names are both empty or both not. -/
theorem entries_eq_nil_iff {α : Type} {table : Table α} {rules : List Entry}
    (hnames : ∀ name, name ∈ table.keys ↔ name ∈ rules.map Prod.fst) :
    table.entries = [] ↔ rules = [] := by
  rw [← List.map_eq_nil_iff, ← @List.map_eq_nil_iff _ _ Prod.fst rules,
    List.eq_nil_iff_forall_not_mem, List.eq_nil_iff_forall_not_mem]
  exact forall_congr' fun name => not_congr (hnames name)

/-- A document that is an object and is read as a grammar has an object of rules.
With rules in the grammar its entry rule is the first name in that object, which
is the name of a rule.  Without rules it has none. -/
theorem entryRule?_of_read {text : String} {grammar : Grammar}
    (hopen : (skipSpace text.toList).head? = some '\x7b') (hread : Grammar.read text = .ok grammar) :
    (∃ rules, RulesText text rules) ∧
    ∀ rules, RulesText text rules →
      (grammar.rules.entries = [] → entryRule? text = none) ∧
      (grammar.rules.entries ≠ [] → ∃ first others, rules = first :: others ∧
        entryRule? text = some first.1 ∧ first.1 ∈ grammar.rules.keys) := by
  obtain ⟨found, hfound, hnames⟩ := exists_rulesText_of_read hopen hread
  refine ⟨⟨found, hfound⟩, fun rules hrules => ?_⟩
  obtain rfl := hfound.eq hrules
  rw [entryRule?_eq_of_rulesText hfound, ne_eq, entries_eq_nil_iff hnames]
  cases found with
  | nil => exact ⟨fun _ => rfl, fun hne => absurd rfl hne⟩
  | cons first others =>
    have hfirst : first.1 ∈ grammar.rules.keys := (hnames first.1).mpr List.mem_cons_self
    exact ⟨fun hempty => absurd hempty (List.cons_ne_nil first others),
      fun _ => ⟨first, others, rfl, rfl, hfirst⟩⟩

/-- A document with an object that has rules of its own, an escape in the name for
the rules, and a rule that comes twice. -/
def shuffled : String :=
  "\x7b\"x\":\x7b\"rules\":\x7b\"z\":0\x7d\x7d,\"r\\u0075les\":\x7b\"b\":\x7b\"type\":\"BLANK\"\x7d," ++
    "\"a\":\x7b\"type\":\"BLANK\"\x7d,\"b\":\x7b\"type\":\"BLANK\"\x7d\x7d,\"name\":\"g\"\x7d"

example : entryRule? shuffled = some "b" := by decide +kernel

theorem entryRule?_of_read_shuffled :
    ∃ grammar, (skipSpace shuffled.toList).head? = some '\x7b' ∧
      Grammar.read shuffled = .ok grammar ∧
      ∃ first others, RulesText shuffled (first :: others) ∧
        entryRule? shuffled = some first.1 ∧ first.1 ∈ grammar.rules.keys := by
  have hopen : (skipSpace shuffled.toList).head? = some '\x7b' := by decide +kernel
  obtain ⟨grammar, hread, hkeys⟩ := Grammar.exists_read_of_keys
    (show (Grammar.read shuffled).toOption.map (fun grammar => grammar.rules.keys) =
      some ["b", "a"] by decide +kernel)
  have hne : grammar.rules.entries ≠ [] := fun hempty => by
    rw [Table.keys, hempty] at hkeys
    cases hkeys
  obtain ⟨⟨rules, hrules⟩, hall⟩ := entryRule?_of_read hopen hread
  obtain ⟨first, others, rfl, hentry, hmem⟩ := (hall rules hrules).2 hne
  exact ⟨grammar, hopen, hread, first, others, hrules, hentry, hmem⟩

end Artifact
end TaintFlow
