/-
Tables: values under distinct names.

A table keeps its entries in the order in which their names first came.  Putting
a value under a name that is there replaces the value and leaves the order
alone.  `sorted` lists the entries in increasing order of names.
-/
import TaintFlow.Text.Ordered

namespace TaintFlow

/-- The entries with `value` under `key`. -/
def putEntry {α : Type} (key : String) (value : α) : List (String × α) → List (String × α)
  | [] => [(key, value)]
  | entry :: rest =>
    if entry.1 = key then (key, value) :: rest else entry :: putEntry key value rest

theorem mem_keys_putEntry {α : Type} {key name : String} {value : α}
    {entries : List (String × α)} :
    name ∈ (putEntry key value entries).map Prod.fst ↔
      name = key ∨ name ∈ entries.map Prod.fst := by
  induction entries with
  | nil => simp [putEntry]
  | cons entry rest ih =>
    unfold putEntry
    split
    · next h => simp [h]
    · rw [List.map_cons, List.mem_cons, ih, List.map_cons, List.mem_cons]
      exact or_left_comm

theorem nodup_keys_putEntry {α : Type} {key : String} {value : α} {entries : List (String × α)}
    (h : (entries.map Prod.fst).Nodup) : ((putEntry key value entries).map Prod.fst).Nodup := by
  induction entries with
  | nil => simp [putEntry]
  | cons entry rest ih =>
    rw [List.map_cons, List.nodup_cons] at h
    unfold putEntry
    split
    · next heq => rw [List.map_cons, List.nodup_cons, ← heq]; exact h
    · next hne =>
      rw [List.map_cons, List.nodup_cons, mem_keys_putEntry]
      exact ⟨fun hmem => hmem.elim hne h.1, ih h.2⟩

theorem eq_or_mem_of_mem_putEntry {α : Type} {key : String} {value : α} {entry : String × α}
    {entries : List (String × α)} (h : entry ∈ putEntry key value entries) :
    entry = (key, value) ∨ entry ∈ entries := by
  induction entries with
  | nil => exact .inl (List.mem_singleton.mp h)
  | cons first rest ih =>
    unfold putEntry at h
    split at h
    · rcases List.mem_cons.mp h with heq | hmem
      · exact .inl heq
      · exact .inr (List.mem_cons_of_mem first hmem)
    · rcases List.mem_cons.mp h with rfl | hmem
      · exact .inr List.mem_cons_self
      · exact (ih hmem).imp_right (List.mem_cons_of_mem first)

/-- A new name comes last. -/
theorem putEntry_of_not_mem {α : Type} {key : String} {value : α} {entries : List (String × α)}
    (h : key ∉ entries.map Prod.fst) : putEntry key value entries = entries ++ [(key, value)] := by
  induction entries with
  | nil => rfl
  | cons entry rest ih =>
    rw [List.map_cons, List.mem_cons, not_or] at h
    rw [putEntry, if_neg (Ne.symm h.1), ih h.2, List.cons_append]

/-- Under distinct names an entry is found by its name. -/
theorem lookup_eq_some_iff_mem {α : Type} {entries : List (String × α)} {key : String} {value : α}
    (h : (entries.map Prod.fst).Nodup) :
    entries.lookup key = some value ↔ (key, value) ∈ entries := by
  induction entries with
  | nil => simp
  | cons entry rest ih =>
    rw [List.map_cons, List.nodup_cons] at h
    rw [List.lookup_cons, List.mem_cons]
    by_cases hkey : key = entry.1
    · have hrest : (key, value) ∉ rest :=
        fun hmem => h.1 (List.mem_map.mpr ⟨(key, value), hmem, hkey⟩)
      rw [beq_iff_eq.mpr hkey, or_iff_left hrest, Prod.ext_iff]
      simp [hkey, eq_comm]
    · have hentry : (key, value) ≠ entry := fun heq => hkey (congrArg Prod.fst heq)
      rw [beq_false_of_ne hkey, or_iff_right hentry]
      exact ih h.2

structure Table (α : Type) where
  entries : List (String × α)
  nodup : (entries.map Prod.fst).Nodup

namespace Table

variable {α : Type}

def empty : Table α := ⟨[], List.nodup_nil⟩

instance : Inhabited (Table α) := ⟨empty⟩

def insert (table : Table α) (key : String) (value : α) : Table α :=
  ⟨putEntry key value table.entries, nodup_keys_putEntry table.nodup⟩

/-- The table of a list of entries; of entries with one name the last counts. -/
def ofEntries (entries : List (String × α)) : Table α :=
  entries.foldl (fun table entry => table.insert entry.1 entry.2) empty

def keys (table : Table α) : List String := table.entries.map Prod.fst

def values (table : Table α) : List α := table.entries.map Prod.snd

def size (table : Table α) : Nat := table.entries.length

def get? (table : Table α) (key : String) : Option α := table.entries.lookup key

def contains (table : Table α) (key : String) : Bool := table.keys.contains key

/-- The entries in increasing order of their names. -/
def sorted (table : Table α) : List (String × α) :=
  table.entries.mergeSort fun a b => decide (a.1 ≤ b.1)

theorem mem_sorted {table : Table α} {entry : String × α} :
    entry ∈ table.sorted ↔ entry ∈ table.entries :=
  (List.mergeSort_perm _ _).mem_iff

/-- The names of the sorted entries increase, and none comes twice. -/
theorem pairwise_lt_sorted (table : Table α) :
    (table.sorted.map Prod.fst).Pairwise (· < ·) :=
  Text.pairwise_lt_mergeSort table.nodup

theorem get?_eq_some_iff {table : Table α} {key : String} {value : α} :
    table.get? key = some value ↔ (key, value) ∈ table.entries :=
  lookup_eq_some_iff_mem table.nodup

theorem mem_keys_insert {table : Table α} {key name : String} {value : α} :
    name ∈ (table.insert key value).keys ↔ name = key ∨ name ∈ table.keys :=
  mem_keys_putEntry

theorem mem_keys_foldl_insert {entries : List (String × α)} {table : Table α} {name : String} :
    name ∈ (entries.foldl (fun table entry => table.insert entry.1 entry.2) table).keys ↔
      name ∈ table.keys ∨ name ∈ entries.map Prod.fst := by
  induction entries generalizing table with
  | nil => simp
  | cons entry rest ih =>
    rw [List.foldl_cons, ih, mem_keys_insert, List.map_cons, List.mem_cons, or_assoc]
    exact or_left_comm

/-- A table has the names of the entries that it is made of. -/
theorem mem_keys_ofEntries {entries : List (String × α)} {name : String} :
    name ∈ (ofEntries entries).keys ↔ name ∈ entries.map Prod.fst := by
  rw [ofEntries, mem_keys_foldl_insert]
  exact or_iff_right List.not_mem_nil

/-- A table has no entries but those that it is made of. -/
theorem mem_of_mem_ofEntries {entries : List (String × α)} {entry : String × α}
    (h : entry ∈ (ofEntries entries).entries) : entry ∈ entries := by
  have hfoldl : ∀ (later : List (String × α)) (filled : Table α),
      entry ∈ (later.foldl (fun table entry => table.insert entry.1 entry.2) filled).entries →
      entry ∈ filled.entries ∨ entry ∈ later := by
    intro later
    induction later with
    | nil => exact fun filled hmem => .inl hmem
    | cons first later ih =>
      intro filled hmem
      rcases ih _ hmem with hfilled | hlater
      · rcases eq_or_mem_of_mem_putEntry hfilled with rfl | hfilled
        · exact .inr List.mem_cons_self
        · exact .inl hfilled
      · exact .inr (List.mem_cons_of_mem first hlater)
  exact (hfoldl entries empty h).resolve_left List.not_mem_nil

/-- A table is made of its own entries. -/
theorem ofEntries_entries (table : Table α) : ofEntries table.entries = table := by
  have hfoldl : ∀ (later : List (String × α)) (filled : Table α),
      ((filled.entries ++ later).map Prod.fst).Nodup →
      (later.foldl (fun table entry => table.insert entry.1 entry.2) filled).entries =
        filled.entries ++ later := by
    intro later
    induction later with
    | nil => exact fun filled _ => (List.append_nil _).symm
    | cons entry later ih =>
      intro filled hnodup
      have hnew : entry.1 ∉ filled.entries.map Prod.fst := by
        rw [List.map_append, List.map_cons, List.nodup_append] at hnodup
        exact fun hmem => hnodup.2.2 _ hmem _ List.mem_cons_self rfl
      have hput : (filled.insert entry.1 entry.2).entries = filled.entries ++ [entry] :=
        putEntry_of_not_mem hnew
      rw [List.foldl_cons, ih _ (by rw [hput, List.append_assoc]; exact hnodup), hput,
        List.append_assoc]
      rfl
  have hentries : (ofEntries table.entries).entries = table.entries :=
    hfoldl table.entries empty table.nodup
  cases table
  cases hmade : ofEntries _ with
  | mk entries nodup =>
    rw [hmade] at hentries
    cases hentries
    rfl

end Table
end TaintFlow
