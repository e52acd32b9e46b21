/-
What the notes about precedence levels hold.

The levels are noted one at a time, and the rules come in the order of the table.
Each note that is made keeps the notes in increasing order of names
(`pairwise_lt_noteLevel`) and changes what is noted under one name only
(`levelsUnder_noteLevel`).  So in the end the notes hold, for each rule that uses
levels, its levels and nothing else (`levelsUnder_levelNotes`), whatever the order in
which the rules came.
-/
import TaintFlow.Grammar.PrecedenceLevels

namespace TaintFlow

/-! ## One note -/

theorem mem_keys_noteLevel {name other : String} {level : Int32}
    {notes : List (String × List Int32)} :
    other ∈ (noteLevel name level notes).map Prod.fst ↔ other = name ∨ other ∈ notes.map Prod.fst := by
  induction notes with
  | nil => simp [noteLevel]
  | cons note rest ih =>
    unfold noteLevel
    by_cases hname : name = note.1
    · rw [if_pos hname]
      simp [hname]
    · rw [if_neg hname]
      by_cases hlt : name < note.1
      · rw [if_pos hlt]
        simp
      · rw [if_neg hlt, List.map_cons, List.mem_cons, ih, List.map_cons, List.mem_cons]
        exact or_left_comm

/-- The notes stay in increasing order of names. -/
theorem pairwise_lt_noteLevel {name : String} {level : Int32} {notes : List (String × List Int32)}
    (h : (notes.map Prod.fst).Pairwise (· < ·)) :
    ((noteLevel name level notes).map Prod.fst).Pairwise (· < ·) := by
  induction notes with
  | nil => simp [noteLevel]
  | cons note rest ih =>
    rw [List.map_cons, List.pairwise_cons] at h
    obtain ⟨hnote, hrest⟩ := h
    unfold noteLevel
    by_cases hname : name = note.1
    · rw [if_pos hname, List.map_cons, List.pairwise_cons, hname]
      exact ⟨hnote, hrest⟩
    · rw [if_neg hname]
      by_cases hlt : name < note.1
      · rw [if_pos hlt, List.map_cons, List.map_cons, List.pairwise_cons, List.pairwise_cons]
        refine ⟨?_, hnote, hrest⟩
        intro other hother
        rcases List.mem_cons.mp hother with heq | hmem
        · exact heq ▸ hlt
        · exact String.lt_trans hlt (hnote other hmem)
      · rw [if_neg hlt, List.map_cons, List.pairwise_cons]
        refine ⟨fun other hother => ?_, ih hrest⟩
        rcases mem_keys_noteLevel.mp hother with heq | hmem
        · have hle : note.1 ≤ name := String.not_lt.mp hlt
          rw [heq]
          exact String.not_le.mp fun hge => hname (String.le_antisymm hge hle)
        · exact hnote other hmem

/-- The levels noted under a name; none if there is no note. -/
def levelsUnder (notes : List (String × List Int32)) (name : String) : List Int32 :=
  (notes.lookup name).getD []

theorem levelsUnder_cons (note : String × List Int32) (notes : List (String × List Int32))
    (name : String) :
    levelsUnder (note :: notes) name = if name = note.1 then note.2 else levelsUnder notes name := by
  unfold levelsUnder
  rw [List.lookup_cons]
  by_cases hname : name = note.1
  · rw [if_pos hname, beq_iff_eq.mpr hname]
    rfl
  · rw [if_neg hname, beq_false_of_ne hname]

theorem levelsUnder_eq_nil {notes : List (String × List Int32)} {name : String}
    (h : name ∉ notes.map Prod.fst) : levelsUnder notes name = [] := by
  induction notes with
  | nil => rfl
  | cons note rest ih =>
    rw [List.map_cons, List.mem_cons, not_or] at h
    rw [levelsUnder_cons, if_neg h.1]
    exact ih h.2

/-- A note changes what is noted under its own name only. -/
theorem levelsUnder_noteLevel {name : String} {level : Int32} {notes : List (String × List Int32)}
    (h : (notes.map Prod.fst).Pairwise (· < ·)) (other : String) :
    levelsUnder (noteLevel name level notes) other =
      if other = name then addLevel (levelsUnder notes name) level else levelsUnder notes other := by
  induction notes with
  | nil =>
    rw [noteLevel, levelsUnder_cons]
    rfl
  | cons note rest ih =>
    have hrest := (List.pairwise_cons.mp h).2
    unfold noteLevel
    by_cases hname : name = note.1
    · rw [if_pos hname, levelsUnder_cons, levelsUnder_cons, levelsUnder_cons, if_pos hname]
      by_cases hother : other = name
      · rw [if_pos hother, if_pos hother]
      · rw [if_neg hother, if_neg hother, if_neg (hname ▸ hother)]
    · rw [if_neg hname]
      by_cases hlt : name < note.1
      -- The names behind are greater still, so nothing was noted under this one.
      · have hnew : name ∉ (note :: rest).map Prod.fst := by
          intro hmem
          rcases List.mem_cons.mp hmem with heq | hmem
          · exact hname heq
          · have hgt := (List.pairwise_cons.mp h).1 name hmem
            exact String.lt_irrefl name (String.lt_trans hlt hgt)
        rw [if_pos hlt, levelsUnder_cons, levelsUnder_eq_nil hnew]
        rfl
      · rw [if_neg hlt, levelsUnder_cons, levelsUnder_cons, levelsUnder_cons, ih hrest,
          if_neg hname]
        by_cases hother : other = name
        · rw [if_pos hother, if_pos hother, if_neg (hother ▸ hname)]
        · rw [if_neg hother, if_neg hother]

/-! ## The notes of a grammar -/

theorem pairwise_lt_noteRule {notes : List (String × List Int32)} (entry : String × Rule)
    (h : (notes.map Prod.fst).Pairwise (· < ·)) :
    ((noteRule notes entry).map Prod.fst).Pairwise (· < ·) := by
  unfold noteRule
  induction entry.2.precedences generalizing notes with
  | nil => exact h
  | cons level levels ih => exact ih (pairwise_lt_noteLevel h)

/-- A rule changes what is noted under its own name only. -/
theorem levelsUnder_noteRule {notes : List (String × List Int32)} (entry : String × Rule)
    (h : (notes.map Prod.fst).Pairwise (· < ·)) (other : String) :
    levelsUnder (noteRule notes entry) other =
      if other = entry.1 then entry.2.precedences.foldl addLevel (levelsUnder notes entry.1)
      else levelsUnder notes other := by
  unfold noteRule
  induction entry.2.precedences generalizing notes with
  | nil =>
    by_cases hother : other = entry.1
    · rw [if_pos hother, hother]
      rfl
    · rw [if_neg hother]
      rfl
  | cons level levels ih =>
    rw [List.foldl_cons, ih (pairwise_lt_noteLevel h), levelsUnder_noteLevel h,
      levelsUnder_noteLevel h, if_pos rfl, List.foldl_cons]
    by_cases hother : other = entry.1
    · rw [if_pos hother, if_pos hother]
    · rw [if_neg hother, if_neg hother, if_neg hother]

theorem pairwise_lt_foldl_noteRule {notes : List (String × List Int32)}
    (entries : List (String × Rule)) (h : (notes.map Prod.fst).Pairwise (· < ·)) :
    ((entries.foldl noteRule notes).map Prod.fst).Pairwise (· < ·) := by
  induction entries generalizing notes with
  | nil => exact h
  | cons entry rest ih => exact ih (pairwise_lt_noteRule entry h)

/-- Under distinct names each rule has its own note, and other notes stay. -/
theorem levelsUnder_foldl_noteRule {notes : List (String × List Int32)}
    {entries : List (String × Rule)} (h : (notes.map Prod.fst).Pairwise (· < ·))
    (hnodup : (entries.map Prod.fst).Nodup) (name : String) :
    levelsUnder (entries.foldl noteRule notes) name =
      match entries.lookup name with
      | some rule => rule.precedences.foldl addLevel (levelsUnder notes name)
      | none => levelsUnder notes name := by
  induction entries generalizing notes with
  | nil => rfl
  | cons entry rest ih =>
    rw [List.map_cons, List.nodup_cons] at hnodup
    rw [List.foldl_cons, ih (pairwise_lt_noteRule entry h) hnodup.2, levelsUnder_noteRule entry h,
      List.lookup_cons]
    by_cases hname : name = entry.1
    · have hrest : rest.lookup name = none := by
        rw [List.lookup_eq_none_iff]
        intro other hother
        rw [bne_iff_ne, hname]
        exact fun heq => hnodup.1 (List.mem_map.mpr ⟨other, hother, heq.symm⟩)
      rw [hrest, if_pos hname, beq_iff_eq.mpr hname, hname]
    · rw [if_neg hname, beq_false_of_ne hname]

/-- Adding levels one by one keeps the first use of each. -/
theorem foldl_addLevel (levels added : List Int32) :
    added.foldl addLevel levels =
      levels ++ (added.filter fun level => !levels.contains level).eraseDups := by
  induction added generalizing levels with
  | nil => simp
  | cons level added ih =>
    rw [List.foldl_cons, ih, addLevel]
    by_cases hlevel : levels.contains level = true
    · rw [if_pos hlevel, List.filter_cons_of_neg (by simpa using hlevel)]
    · rw [if_neg hlevel, List.filter_cons_of_pos (by simpa using hlevel), List.eraseDups_cons,
        List.filter_filter, List.append_assoc]
      simp [Bool.beq_eq_decide_eq, Bool.and_comm]

theorem Rule.levels_eq_foldl (rule : Rule) :
    rule.levels = rule.precedences.foldl addLevel [] := by
  rw [foldl_addLevel, List.nil_append, levels]
  exact congrArg List.eraseDups (List.filter_eq_self.mpr fun _ _ => rfl).symm

namespace Grammar

theorem levelsUnder_levelNotes (grammar : Grammar) (name : String) :
    levelsUnder grammar.levelNotes name = ((grammar.rule? name).map Rule.levels).getD [] := by
  rw [levelNotes, levelsUnder_foldl_noteRule .nil grammar.rules.nodup, rule?, Table.get?]
  cases grammar.rules.entries.lookup name with
  | none => rfl
  | some rule =>
    exact rule.levels_eq_foldl.symm

theorem pairwise_lt_levelNotes (grammar : Grammar) :
    (grammar.levelNotes.map Prod.fst).Pairwise (· < ·) :=
  pairwise_lt_foldl_noteRule grammar.rules.entries .nil

theorem pairwise_lt_mixedLevels (grammar : Grammar) :
    (grammar.mixedLevels.map Prod.fst).Pairwise (· < ·) :=
  grammar.pairwise_lt_levelNotes.sublist (List.filter_sublist.map Prod.fst)

/-- The rules with several levels are told with all their levels. -/
theorem mem_mixedLevels_iff {grammar : Grammar} {name : String} {levels : List Int32} :
    (name, levels) ∈ grammar.mixedLevels ↔
      ∃ rule, (name, rule) ∈ grammar.rules.entries ∧ rule.levels = levels ∧ 1 < levels.length := by
  have hnodup : (grammar.levelNotes.map Prod.fst).Nodup :=
    grammar.pairwise_lt_levelNotes.imp String.ne_of_lt
  have hunder := grammar.levelsUnder_levelNotes name
  rw [mixedLevels, List.mem_filter, decide_eq_true_eq, ← lookup_eq_some_iff_mem hnodup]
  constructor
  · intro h
    obtain ⟨hlookup, hlength⟩ := h
    rw [levelsUnder, hlookup, Option.getD_some] at hunder
    cases hrule : grammar.rule? name with
    | none =>
      rw [hrule] at hunder
      rw [hunder] at hlength
      cases hlength
    | some rule =>
      rw [hrule] at hunder
      exact ⟨rule, Table.get?_eq_some_iff.mp hrule, hunder.symm, hlength⟩
  · intro h
    obtain ⟨rule, hrule, hlevels, hlength⟩ := h
    have hget : grammar.rule? name = some rule := Table.get?_eq_some_iff.mpr hrule
    rw [hget, Option.map_some, Option.getD_some, hlevels] at hunder
    refine ⟨?_, hlength⟩
    cases hlookup : grammar.levelNotes.lookup name with
    | none =>
      rw [levelsUnder, hlookup, Option.getD_none] at hunder
      rw [← hunder] at hlength
      cases hlength
    | some noted =>
      rw [levelsUnder, hlookup, Option.getD_some] at hunder
      rw [hunder]

end Grammar
end TaintFlow
