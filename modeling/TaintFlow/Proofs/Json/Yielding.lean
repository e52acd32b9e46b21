/-
What is true of everything that a reader reads.

`Reader.Yields reader good` says that whatever value the reader makes of a text is
good.  A reader that is made of others yields what follows from what those yield,
with one lemma for each way to build a reader.  A record yields what is true of its
defaults and is kept by the update of each field (`Record.Yields`), whether the
fields come by name and in any order, or by place.
-/
import TaintFlow.Proofs.Json.Records

namespace TaintFlow
namespace Json

variable {α β ρ : Type}

structure Reader.Yields (reader : Reader α) (good : α → Prop) : Prop where
  run : ∀ {text rest : Input} {a : α}, reader.run text = .ok (a, rest) → good a

namespace Reader

/-- Nothing is said of what a reader reads. -/
theorem Yields.trivial (reader : Reader α) : reader.Yields fun _ => True := ⟨fun _ => .intro⟩

theorem Yields.imp {reader : Reader α} {good better : α → Prop} (h : reader.Yields good)
    (himp : ∀ a, good a → better a) : reader.Yields better :=
  ⟨fun hread => himp _ (h.run hread)⟩

theorem Yields.delay {reader : Unit → Reader α} {good : α → Prop}
    (h : (reader ()).Yields good) : (delay reader).Yields good := ⟨h.run⟩

theorem Yields.map {reader : Reader α} {good : α → Prop} {f : α → β} {better : β → Prop}
    (h : reader.Yields good) (hf : ∀ a, good a → better (f a)) :
    (reader.map f).Yields better := by
  refine ⟨fun {text rest b} hread => ?_⟩
  obtain ⟨a, ha, rfl⟩ := map_run_eq_ok_iff.mp hread
  exact hf a (h.run ha)

theorem Yields.optional {reader : Reader α} {good : α → Prop} (h : reader.Yields good) :
    reader.optional.Yields fun read => ∀ a, read = some a → good a := by
  refine ⟨fun {text rest read} hread a ha => ?_⟩
  rcases optional_run_eq_ok_iff.mp hread with ⟨rfl, -⟩ | ⟨found, rfl, -, hfound⟩
  · cases ha
  · cases ha
    exact h.run hfound

/-! ## Lists and objects -/

theorem forall_mem_of_items {item : Reader α} {good : α → Prop} (h : item.Yields good)
    {first : Bool} {text rest : Input} {as : List α}
    (hread : items item first text = .ok (as, rest)) : ∀ a ∈ as, good a := by
  fun_induction items item first text generalizing as rest with
  | case1 => cases hread
  | case2 =>
    cases hread
    exact List.forall_mem_nil _
  | case3 => cases hread
  | case4 => cases hread
  | case5 _ _ _ _ _ a _ ha _ _ hitems ih =>
    cases hread
    exact List.forall_mem_cons.mpr ⟨h.run ha, ih hitems⟩

theorem forall_mem_of_entries {value : Reader α} {good : α → Prop} (h : value.Yields good)
    {first : Bool} {text rest : Input} {read : List (String × α)}
    (hread : entries value first text = .ok (read, rest)) : ∀ entry ∈ read, good entry.2 := by
  fun_induction entries value first text generalizing read rest with
  | case1 => cases hread
  | case2 =>
    cases hread
    exact List.forall_mem_nil _
  | case3 => cases hread
  | case4 => cases hread
  | case5 => cases hread
  | case6 _ _ _ _ _ _ _ a _ ha _ _ hentries ih =>
    cases hread
    exact List.forall_mem_cons.mpr ⟨h.run ha, ih hentries⟩

theorem Yields.list {item : Reader α} {good : α → Prop} (h : item.Yields good) (budget : Nat) :
    (list budget item).Yields fun as => ∀ a ∈ as, good a := by
  refine ⟨fun {text rest as} hread => ?_⟩
  simp only [Reader.list] at hread
  split at hread
  · cases hread
  · split at hread
    · cases hread
    · exact forall_mem_of_items h hread
  · cases hread

theorem Yields.object {value : Reader α} {good : α → Prop} (h : value.Yields good)
    (budget : Nat) : (object budget value).Yields fun read => ∀ entry ∈ read, good entry.2 := by
  refine ⟨fun {text rest read} hread => ?_⟩
  simp only [Reader.object] at hread
  split at hread
  · cases hread
  · split at hread
    · cases hread
    · exact forall_mem_of_entries h hread
  · cases hread

theorem Yields.readAll {reader : Reader α} {good : α → Prop} (h : reader.Yields good)
    {text : Input} {a : α} (hread : reader.readAll text = .ok a) : good a := by
  unfold Reader.readAll at hread
  split at hread
  · cases hread
  · next hrun =>
    split at hread
    · cases hread
      exact h.run hrun
    · cases hread

end Reader

/-! ## Records -/

/-- The field changes a good record into a good one. -/
def Field.KeepsGood (good : ρ → Prop) (field : Field ρ) : Prop :=
  field.update.Yields fun update => ∀ value, good value → good (update value)

theorem Field.KeepsGood.of {key : String} {reader : Reader α} {set : α → ρ → ρ}
    {required : Bool} {good : ρ → Prop} {fit : α → Prop} (hreader : reader.Yields fit)
    (hset : ∀ a value, fit a → good value → good (set a value)) :
    (Field.of key reader set required).KeepsGood good :=
  hreader.map fun a ha value hvalue => hset a value ha hvalue

structure Record.Yields (record : Record ρ) (good : ρ → Prop) : Prop where
  default : good record.default
  fields : ∀ field ∈ record.fields, field.KeepsGood good

namespace Record

variable {record : Record ρ} {good : ρ → Prop}

theorem Yields.keyed (h : record.Yields good) {value v : ρ} {seen : List String} {first : Bool}
    {text rest : Input} (hvalue : good value)
    (hread : record.keyed value seen first text = .ok (v, rest)) : good v := by
  fun_induction Record.keyed record value seen first text with
  | case1 => cases hread
  | case2 => cases hread
  | case3 =>
    cases hread
    exact hvalue
  | case4 => cases hread
  | case5 => cases hread
  | case6 _ _ _ _ _ _ _ _ _ _ _ _ ih => exact ih hvalue hread
  | case7 => cases hread
  | case8 => cases hread
  | case9 => cases hread
  | case10 _ _ _ _ _ _ _ field hfield _ _ _ update _ hupdate ih =>
    have hkeeps := h.fields field (List.mem_of_find?_eq_some hfield)
    exact ih (hkeeps.run hupdate _ hvalue) hread

theorem good_of_listed {fields : List (Field ρ)}
    (hfields : ∀ field ∈ fields, field.KeepsGood good) {index : Nat} {value v : ρ}
    {first : Bool} {text rest : Input} (hvalue : good value)
    (hread : record.listed index value first fields text = .ok (v, rest)) : good v := by
  induction fields generalizing index value first text with
  | nil =>
    unfold Record.listed at hread
    split at hread
    · cases hread
    · cases hread
      exact hvalue
  | cons field fields ih =>
    rw [List.forall_mem_cons] at hfields
    unfold Record.listed at hread
    split at hread
    · cases hread
    · split at hread
      · cases hread
      · exact ih hfields.2 hvalue hread
    · split at hread
      · cases hread
      · next hupdate => exact ih hfields.2 (hfields.1.run hupdate value hvalue) hread

theorem Yields.reader (h : record.Yields good) (budget : Nat) :
    (record.reader budget).Yields good := by
  refine ⟨fun {text rest v} hread => ?_⟩
  rcases head_of_reader_run hread with hhead | hhead
  · obtain ⟨body, hopen⟩ := List.head?_eq_some_iff.mp hhead
    exact h.keyed h.default (keyed_of_reader_run hopen hread)
  · obtain ⟨body, hopen⟩ := List.head?_eq_some_iff.mp hhead
    exact good_of_listed h.fields h.default (listed_of_reader_run hopen hread)

/-- A record that may open no bracket is never read. -/
theorem yields_reader_zero (record : Record ρ) (good : ρ → Prop) :
    (record.reader 0).Yields good :=
  ⟨fun hread => absurd rfl (budget_ne_zero_of_reader_run hread)⟩

end Record
end Json
end TaintFlow
