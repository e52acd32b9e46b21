/-
An artifact that is printed is read back.

A rule has to be closed so early that a reader may open all of its brackets
(`Rule.fits`), and a grammar such rules only.  Then each field is printed as its
rendering says, and so is the whole artifact, which is read as the grammar that was
printed (`read_artifactText`).
-/
import TaintFlow.Artifact.Writing
import TaintFlow.Proofs.Artifact.EntryRule
import TaintFlow.Proofs.Artifact.RoundTrip
import TaintFlow.Proofs.Json.Printing

namespace TaintFlow

open Json (FieldText ObjectText OptionText QuotedText Reader Rendering Spelled Writes writes_string)

/-! ## Fields -/

namespace Rule

variable {α : Type} {key : String} {toJson : α → Json}

theorem filter_entry (name : String) (field : Option α) :
    ((entry key toJson field).filter fun printed => printed.1 == name) =
      if key = name then entry key toJson field else [] := by
  cases field with
  | none => exact (ite_self []).symm
  | some a =>
    by_cases hkey : key = name
    · rw [if_pos hkey]
      exact List.filter_cons_of_pos (beq_iff_eq.mpr hkey)
    · rw [if_neg hkey]
      exact List.filter_cons_of_neg fun heq => hkey (beq_iff_eq.mp heq)

theorem fst_of_mem_entry {field : Option α} {printed : String × Json}
    (h : printed ∈ entry key toJson field) : printed.1 = key := by
  obtain ⟨a, -, rfl⟩ := Option.mem_map.mp (Option.mem_toList.mp h)
  rfl

/-- A single field is printed if it is there. -/
theorem printed_entry {field : Option α} {w : Rendering α} {printed : List (String × Json)}
    (hfilter : (printed.filter fun entry => entry.1 == key) = entry key toJson field)
    (h : ∀ a ∈ field, Writes (toJson a) (w a)) :
    FieldText.Printed ⟨key, field = none, OptionText w field⟩ printed := by
  cases field with
  | none => exact .inl ⟨hfilter, rfl⟩
  | some a => exact .inr ⟨toJson a, hfilter, (h a rfl).some⟩

/-- A list is printed if it is not empty. -/
theorem printed_list {as : List α} {depth : Nat} {w : Rendering α} {printed : List (String × Json)}
    (hfilter : (printed.filter fun entry => entry.1 == key) =
      entry key (fun as => .list (as.map toJson)) (if as.isEmpty then none else some as))
    (h : ∀ a ∈ as, Writes (toJson a) (w a)) (hdepth : as ≠ [] → depth ≠ 0) :
    FieldText.Printed ⟨key, as = [], Json.ListText depth w as⟩ printed := by
  cases as with
  | nil => exact .inl ⟨hfilter, rfl⟩
  | cons a as => exact .inr ⟨_, hfilter, Json.writes_list h (hdepth (List.cons_ne_nil a as))⟩

end Rule

theorem RuleValue.writes : ∀ value : RuleValue, Writes value.toJson (RuleValueText value)
  | .level n => (Json.writes_int n.toInt).imp fun _ _ => .level
  | .text s => (writes_string s).imp fun _ _ => .text

/-! ## Rules -/

namespace Rule

theorem contentToJson_eq (content : Option Rule) :
    contentToJson content = entry "content" toJson content := by
  cases content <;> simp [contentToJson, entry]

theorem membersToJson_eq (members : List Rule) : membersToJson members = members.map toJson := by
  induction members with
  | nil => rw [membersToJson, List.map_nil]
  | cons rule members ih => rw [membersToJson, ih, List.map_cons]

/-- The entries of the object that a rule is printed as. -/
def printed (rule : Rule) : List (String × Json) :=
  let value := entry "value" RuleValue.toJson rule.value
  let name := entry "name" .string rule.name
  let content := entry "content" toJson rule.content
  let members := entry "members" (fun members => .list (members.map toJson))
    (if rule.members.isEmpty then none else some rule.members)
  let named := entry "named" .bool rule.named
  let flags := entry "flags" .string rule.flags
  let contextName := entry "context_name" .string rule.contextName
  ("type", .string rule.kind.tag) ::
    if rule.kind = .renamed then
      content ++ named ++ value ++ name ++ members ++ flags ++ contextName
    else value ++ name ++ content ++ members ++ named ++ flags ++ contextName

theorem toJson_eq (rule : Rule) : rule.toJson = .object rule.printed := by
  obtain ⟨kind, value, name, content, members, named, flags, contextName⟩ := rule
  rw [toJson, contentToJson_eq, membersToJson_eq]
  cases members <;> rfl

/-- The printed entry of a name is the same in the one order and in the other. -/
theorem filter_printed (rule : Rule) :
    (rule.printed.filter fun entry => entry.1 == "type") = [("type", .string rule.kind.tag)] ∧
    (rule.printed.filter fun entry => entry.1 == "value") =
      entry "value" RuleValue.toJson rule.value ∧
    (rule.printed.filter fun entry => entry.1 == "name") = entry "name" .string rule.name ∧
    (rule.printed.filter fun entry => entry.1 == "content") = entry "content" toJson rule.content ∧
    (rule.printed.filter fun entry => entry.1 == "members") =
      entry "members" (fun members => .list (members.map toJson))
        (if rule.members.isEmpty then none else some rule.members) ∧
    (rule.printed.filter fun entry => entry.1 == "named") = entry "named" .bool rule.named ∧
    (rule.printed.filter fun entry => entry.1 == "flags") = entry "flags" .string rule.flags ∧
    (rule.printed.filter fun entry => entry.1 == "context_name") =
      entry "context_name" .string rule.contextName := by
  by_cases hkind : rule.kind = .renamed <;>
    simp [printed, hkind, List.filter_append, filter_entry]

/-- Nothing is printed but fields of the record. -/
theorem exists_fieldText_of_mem_printed {rule : Rule} {pair : String × Json}
    (h : pair ∈ rule.printed) (depth : Nat) (content member : Rendering Rule) :
    ∃ field ∈ rule.fieldTexts depth content member, field.key = pair.1 := by
  have hkey : pair.1 ∈
      ["type", "value", "name", "content", "members", "named", "flags", "context_name"] := by
    rcases List.mem_cons.mp h with rfl | h
    · exact List.mem_cons_self
    · split at h <;>
      · simp only [List.mem_append] at h
        rcases h with (((((h | h) | h) | h) | h) | h) | h <;> rw [fst_of_mem_entry h] <;> decide
  exact List.mem_map.mp hkey

/-- The fields of a rule are printed when its children are. -/
theorem printed_fieldTexts {depth : Nat} {content member : Rendering Rule} {rule : Rule}
    (hcontent : ∀ inner ∈ rule.content, Writes inner.toJson (content inner))
    (hmembers : ∀ inner ∈ rule.members, Writes inner.toJson (member inner))
    (hdepth : rule.members ≠ [] → depth ≠ 0) :
    ∀ field ∈ rule.fieldTexts depth content member, field.Printed rule.printed := by
  obtain ⟨htype, hvalue, hname, hcontent', hmembers', hnamed, hflags, hcontextName⟩ :=
    rule.filter_printed
  simp only [fieldTexts, List.forall_mem_cons]
  exact ⟨.inr ⟨_, htype, writes_string rule.kind.tag⟩,
    printed_entry hvalue fun value _ => value.writes,
    printed_entry hname fun name _ => writes_string name, printed_entry hcontent' hcontent,
    printed_list hmembers' hmembers hdepth,
    printed_entry hnamed fun named _ => Json.writes_bool named,
    printed_entry hflags fun flags _ => writes_string flags,
    printed_entry hcontextName fun contextName _ => writes_string contextName,
    List.forall_mem_nil _⟩

/-- The rule can be written with at most `budget` brackets open at once. -/
def fits : (budget : Nat) → Rule → Bool
  | 0, _ => false
  | 1, rule => rule.content.isNone && rule.members.isEmpty
  | budget + 2, rule => rule.content.all (fits (budget + 1)) && rule.members.all (fits budget)

/-- A rule that fits is printed as it may be written. -/
theorem writes : ∀ (budget : Nat) (rule : Rule), rule.fits budget = true →
    Writes rule.toJson (RuleText budget rule)
  | 0, _, h => absurd h Bool.false_ne_true
  | 1, rule, h => by
    obtain ⟨hcontent, hmembers⟩ := Bool.and_eq_true_iff.mp h
    rw [Option.isNone_iff_eq_none] at hcontent
    rw [List.isEmpty_iff] at hmembers
    have hclosed : closedReader.Undoes fun _ _ _ => False := ⟨False.elim⟩
    have htakes : (record 0 (reader 0) closedReader).Takes rule.partly
        (rule.fieldTexts 0 (RuleText 0) fun _ _ _ => False) rule :=
      takes_record (undoes_reader 0) hclosed (spells_reader 0) spells_closedReader head_of_text rule
    rw [toJson_eq]
    refine htakes.writes (fun _ hpair => exists_fieldText_of_mem_printed hpair _ _ _)
      (printed_fieldTexts ?_ ?_ fun hne => absurd hmembers hne) (by decide)
    · rw [hcontent]
      exact fun _ hnone => nomatch hnone
    · rw [hmembers]
      exact List.forall_mem_nil _
  | budget + 2, rule, h => by
    obtain ⟨hcontent, hmembers⟩ := Bool.and_eq_true_iff.mp h
    have htakes : (record (budget + 1) (reader (budget + 1)) (reader budget)).Takes rule.partly
        (rule.fieldTexts (budget + 1) (RuleText (budget + 1)) (RuleText budget)) rule :=
      takes_record (undoes_reader (budget + 1)) (undoes_reader budget) (spells_reader (budget + 1))
        (spells_reader budget) head_of_text rule
    rw [toJson_eq]
    refine htakes.writes (fun _ hpair => exists_fieldText_of_mem_printed hpair _ _ _)
      (printed_fieldTexts (fun inner hinner => ?_) (fun inner hinner => ?_) fun _ => by omega)
      (by omega)
    · rw [Option.mem_def.mp hinner] at hcontent
      exact writes (budget + 1) inner hcontent
    · exact writes budget inner (List.all_eq_true.mp hmembers inner hinner)

end Rule

/-! ## Grammars -/

namespace Grammar

/-- The grammar can be written with at most `budget` brackets open at once.  Rules are
inside two of them, and those of groups and of reserved words inside three. -/
def fits (budget : Nat) (grammar : Grammar) : Bool :=
  2 < budget &&
    (grammar.rules.values ++ grammar.extras ++ grammar.externals).all (Rule.fits (budget - 2)) &&
    (grammar.precedences ++ grammar.reserved.values).flatten.all (Rule.fits (budget - 3))

theorem writes_rules {budget : Nat} {rules : List Rule}
    (h : ∀ rule ∈ rules, rule.fits budget = true) :
    Writes (rulesToJson rules) (RuleListText (budget + 1) rules) :=
  Json.writes_list (fun rule hrule => rule.writes budget (h rule hrule)) (Nat.succ_ne_zero budget)

theorem writes_names (budget : Nat) (names : List String) :
    Writes (namesToJson names) (NameListText (budget + 1) names) :=
  Json.writes_list (fun name _ => writes_string name) (Nat.succ_ne_zero budget)

theorem writes_table {α : Type} {toJson : α → Json} {w : Rendering α} {table : Table α}
    (h : ∀ a ∈ table.values, Writes (toJson a) (w a)) (budget : Nat) :
    Writes (tableToJson toJson table) (TableText (budget + 1) w table) :=
  Json.writes_table (fun pair hpair => h pair.2 (List.mem_map_of_mem hpair))
    (Nat.succ_ne_zero budget)

/-- The entries of the object that a grammar is printed as. -/
def printed (grammar : Grammar) : List (String × Json) :=
  Rule.entry "$schema" .string grammar.schema ++
    [("name", .string grammar.name)] ++
    Rule.entry "inherits" .string grammar.inherits ++
    [("rules", tableToJson Rule.toJson grammar.rules),
      ("extras", rulesToJson grammar.extras),
      ("conflicts", .list (grammar.conflicts.map namesToJson)),
      ("precedences", .list (grammar.precedences.map rulesToJson)),
      ("externals", rulesToJson grammar.externals),
      ("inline", namesToJson grammar.inline)] ++
    Rule.entry "word" .string grammar.word ++
    [("supertypes", namesToJson grammar.supertypes),
      ("reserved", tableToJson rulesToJson grammar.reserved)]

theorem filter_printed (grammar : Grammar) :
    (grammar.printed.filter fun entry => entry.1 == "$schema") =
      Rule.entry "$schema" .string grammar.schema ∧
    (grammar.printed.filter fun entry => entry.1 == "name") = [("name", .string grammar.name)] ∧
    (grammar.printed.filter fun entry => entry.1 == "inherits") =
      Rule.entry "inherits" .string grammar.inherits ∧
    (grammar.printed.filter fun entry => entry.1 == "rules") =
      [("rules", tableToJson Rule.toJson grammar.rules)] ∧
    (grammar.printed.filter fun entry => entry.1 == "extras") =
      [("extras", rulesToJson grammar.extras)] ∧
    (grammar.printed.filter fun entry => entry.1 == "externals") =
      [("externals", rulesToJson grammar.externals)] ∧
    (grammar.printed.filter fun entry => entry.1 == "inline") =
      [("inline", namesToJson grammar.inline)] ∧
    (grammar.printed.filter fun entry => entry.1 == "precedences") =
      [("precedences", .list (grammar.precedences.map rulesToJson))] ∧
    (grammar.printed.filter fun entry => entry.1 == "conflicts") =
      [("conflicts", .list (grammar.conflicts.map namesToJson))] ∧
    (grammar.printed.filter fun entry => entry.1 == "reserved") =
      [("reserved", tableToJson rulesToJson grammar.reserved)] ∧
    (grammar.printed.filter fun entry => entry.1 == "word") =
      Rule.entry "word" .string grammar.word ∧
    (grammar.printed.filter fun entry => entry.1 == "supertypes") =
      [("supertypes", namesToJson grammar.supertypes)] := by
  simp [printed, List.filter_append, Rule.filter_entry]

/-- Nothing is printed but fields of the record. -/
theorem exists_fieldText_of_mem_printed {grammar : Grammar} {pair : String × Json}
    (h : pair ∈ grammar.printed) (depth : Nat) :
    ∃ field ∈ grammar.fieldTexts depth, field.key = pair.1 := by
  have hlisted : ∀ pairs : List (String × Json), pair ∈ pairs →
      pairs.map Prod.fst ⊆ (grammar.fieldTexts depth).map FieldText.key →
      ∃ field ∈ grammar.fieldTexts depth, field.key = pair.1 :=
    fun _ hmem hsubset => List.mem_map.mp (hsubset (List.mem_map_of_mem hmem))
  simp only [printed, List.mem_append] at h
  rcases h with ((((h | h) | h) | h) | h) | h
  · rw [Rule.fst_of_mem_entry h]
    simp [fieldTexts]
  · exact hlisted _ h (by simp [fieldTexts])
  · rw [Rule.fst_of_mem_entry h]
    simp [fieldTexts]
  · exact hlisted _ h (by simp [fieldTexts])
  · rw [Rule.fst_of_mem_entry h]
    simp [fieldTexts]
  · exact hlisted _ h (by simp [fieldTexts])

/-- The fields of a grammar that fits are printed. -/
theorem printed_fieldTexts {budget : Nat} {grammar : Grammar}
    (h : grammar.fits (budget + 3) = true) :
    ∀ field ∈ grammar.fieldTexts (budget + 2), field.Printed grammar.printed := by
  simp only [fits, Bool.and_eq_true, List.all_append, List.all_eq_true, List.flatten_append] at h
  obtain ⟨⟨-, ⟨hrules, hextras⟩, hexternals⟩, hprecedences, hreserved⟩ := h
  obtain ⟨hschema, hname, hinherits, hrules', hextras', hexternals', hinline, hprecedences',
    hconflicts, hreserved', hword, hsupertypes⟩ := grammar.filter_printed
  simp only [fieldTexts, List.forall_mem_cons]
  refine ⟨?_, ?_, ?_, ?_, ?_, ?_, ?_, ?_, ?_, ?_, ?_, ?_, List.forall_mem_nil _⟩
  · exact Rule.printed_entry hschema fun schema _ => writes_string schema
  · exact .inr ⟨_, hname, writes_string grammar.name⟩
  · exact Rule.printed_entry hinherits fun inherits _ => writes_string inherits
  · exact .inr ⟨_, hrules', writes_table (fun rule hrule => rule.writes _ (hrules rule hrule)) _⟩
  · exact .inr ⟨_, hextras', writes_rules hextras⟩
  · exact .inr ⟨_, hexternals', writes_rules hexternals⟩
  · exact .inr ⟨_, hinline, writes_names _ grammar.inline⟩
  · refine .inr ⟨_, hprecedences', Json.writes_list (fun group hgroup => ?_) (by omega)⟩
    exact writes_rules fun rule hrule =>
      hprecedences rule (List.mem_flatten.mpr ⟨group, hgroup, hrule⟩)
  · exact .inr ⟨_, hconflicts, Json.writes_list (fun group _ => writes_names _ group) (by omega)⟩
  · refine .inr ⟨_, hreserved', writes_table (fun rules hrules => ?_) _⟩
    exact writes_rules fun rule hrule =>
      hreserved rule (List.mem_flatten.mpr ⟨rules, hrules, hrule⟩)
  · exact Rule.printed_entry hword fun word _ => writes_string word
  · exact .inr ⟨_, hsupertypes, writes_names _ grammar.supertypes⟩

theorem ends_newline : Json.Ends ['\n'] := fun _ hc => .inr (Option.some.inj hc).symm

theorem toList_artifactText (grammar : Grammar) :
    grammar.artifactText.toList = Json.textAt 0 grammar.toJson ++ ['\n'] := by
  rw [artifactText, String.toList_append, Json.text, String.toList_ofList]
  rfl

section

variable {grammar : Grammar} (h : grammar.fits Json.greatestDepth = true)

include h

theorem forall_writes_rule :
    ∀ pair ∈ grammar.rules.entries.map (fun (key, rule) => (key, rule.toJson)),
      Writes pair.2 (Spelled .value) := by
  intro pair hpair
  obtain ⟨⟨key, rule⟩, hmem, rfl⟩ := List.mem_map.mp hpair
  simp only [fits, Bool.and_eq_true, List.all_append, List.all_eq_true] at h
  obtain ⟨⟨-, ⟨hrules, -⟩, -⟩, -⟩ := h
  have hrule : rule.fits 125 = true := hrules rule (List.mem_map_of_mem hmem)
  refine (rule.writes 125 hrule).imp fun text rest htext => ?_
  exact Json.spelled_of_valueText
    ((Rule.spells_reader 125).valueText ((Rule.undoes_reader 125).run_eq htext))

/-- A grammar that fits is read back from its artifact. -/
theorem read_artifactText : read grammar.artifactText = .ok grammar := by
  have hwrites : Writes grammar.toJson (GrammarText Json.greatestDepth grammar) :=
    (takes_record 126 grammar).writes (fun _ hpair => exists_fieldText_of_mem_printed hpair _)
      (printed_fieldTexts h) (by decide)
  refine Reader.readAll_eq_ok_iff.mpr ⟨['\n'], (undoes_reader Json.greatestDepth).run_eq ?_, rfl⟩
  rw [toList_artifactText, hwrites.start 0 _ ends_newline]
  exact hwrites.text 0 _ ends_newline

/-- A grammar that fits is entered at its first rule. -/
theorem entryRule?_artifactText :
    Artifact.entryRule? grammar.artifactText = grammar.rules.keys.head? := by
  have hdocument := Json.writes_object ((takes_record 126 grammar).writes_values
    (fun _ hpair => exists_fieldText_of_mem_printed hpair _) (printed_fieldTexts h))
  have hrules := Json.writes_object (forall_writes_rule h)
  obtain ⟨body, entries, hopen, hprinted, hentries⟩ := hdocument.text 0 ['\n'] ends_newline
  obtain ⟨depth, rest, hrest, hvalue⟩ :=
    Json.exists_filter_of_printed hprinted grammar.filter_printed.2.2.2.1
  obtain ⟨inner, rules, hopen', hprinted', hentries'⟩ := hrules.behind_blank depth hrest
  have hobject : ObjectText entries grammar.artifactText.toList ['\n'] := by
    refine ⟨body, ?_, hentries⟩
    rw [toList_artifactText, ← hopen]
    exact hdocument.start 0 _ ends_newline
  have hkeys : rules.map Prod.fst = grammar.rules.keys := by
    rw [Json.map_fst_of_printed hprinted', List.map_map]
    rfl
  rw [Artifact.entryRule?_eq_of_rulesText
    ⟨entries, ['\n'], _, rest, hobject, rfl, hvalue, inner, hopen', hentries'⟩, ← hkeys,
    List.head?_map]

end

end Grammar

end TaintFlow
