/-
What it takes to write a text on a machine.

`machine.Writes action possible text` says that an action comes to this text or stops,
and that it comes to it exactly if `possible` holds and the machine can hold the text.
Every text that is put together on the way is a part of the whole, so only the length
of the whole counts in the end (`Writes.bind`).
-/
import Mathlib.Data.String.Basic
import TaintFlow.Machine

namespace TaintFlow
namespace Machine

variable {machine : Machine} {action : Except Halt String} {p q : Prop} {text out : String}

/-- What an action writes, and what has to hold for that. -/
def Writes (machine : Machine) (action : Except Halt String) (possible : Prop) (text : String) :
    Prop :=
  ∀ out, action = .ok out ↔ possible ∧ out = text ∧ text.utf8ByteSize ≤ machine.capacity

/-- An action in two steps comes to an end exactly if each of its steps does. -/
theorem bind_eq_ok_iff {α β : Type} {action : Except Halt α} {next : α → Except Halt β} {b : β} :
    action >>= next = .ok b ↔ ∃ a, action = .ok a ∧ next a = .ok b := by
  constructor
  · intro h
    cases action with
    | error halt => cases h
    | ok a => exact ⟨a, rfl, h⟩
  · rintro ⟨a, rfl, h⟩
    exact h

/-! ## Sums and differences -/

theorem add_of_lt {a b : Nat} (h : a + b < wordCount) : machine.add a b = .ok (a + b) := if_pos h

theorem sub_of_le {a b : Nat} (h : b ≤ a) : machine.sub a b = .ok (a - b) := if_pos h

/-- A sum comes to what is left of it in a word, on a machine that checks its sums only
if all of it is left. -/
theorem add_eq_ok_iff {a b c : Nat} :
    machine.add a b = .ok c ↔
      (machine.checked = true → a + b < wordCount) ∧ c = (a + b) % wordCount := by
  by_cases hword : a + b < wordCount
  · rw [add_of_lt hword, Nat.mod_eq_of_lt hword, Except.ok.injEq]
    constructor
    · rintro rfl
      exact ⟨fun _ => hword, rfl⟩
    · rintro ⟨-, rfl⟩
      rfl
  · rw [add, if_neg hword]
    cases hchecked : machine.checked with
    | true => simp [hword]
    | false => simp [eq_comm]

/-- The length of a text that the machine can hold and one more fit in a word. -/
theorem add_one_lt {n : Nat} (h : n ≤ machine.capacity) : n + 1 < wordCount := by
  have hcapacity := machine.capacity_lt
  have hword : 1 < wordCount := by decide
  omega

theorem add_one_of_le {n : Nat} (h : n ≤ machine.capacity) : machine.add n 1 = .ok (n + 1) :=
  add_of_lt (add_one_lt h)

/-! ## Texts -/

theorem utf8ByteSize_fill (c : Char) (count : Nat) :
    (String.ofList (List.replicate count c)).utf8ByteSize = count * c.utf8Size := by
  rw [String.utf8ByteSize_ofList]
  induction count with
  | zero => rw [Nat.zero_mul, List.replicate_zero, String.utf8Len_nil]
  | succ count ih => rw [List.replicate_succ, String.utf8Len_cons, ih, Nat.succ_mul]

/-- A character takes a byte or more. -/
theorem length_le_utf8ByteSize (text : String) : text.toList.length ≤ text.utf8ByteSize := by
  rw [← String.utf8Len_toList]
  induction text.toList with
  | nil => exact Nat.le_refl 0
  | cons c rest ih =>
    rw [List.length_cons, String.utf8Len_cons]
    exact Nat.add_le_add ih c.utf8Size_pos

theorem utf8ByteSize_le_append_left (text more : String) :
    text.utf8ByteSize ≤ (text ++ more).utf8ByteSize := by
  rw [String.utf8ByteSize_append]
  exact Nat.le_add_right _ _

theorem utf8ByteSize_le_append_right (text more : String) :
    more.utf8ByteSize ≤ (text ++ more).utf8ByteSize := by
  rw [String.utf8ByteSize_append]
  exact Nat.le_add_left _ _

theorem writes_append (text more : String) :
    machine.Writes (machine.append text more) True (text ++ more) := by
  intro out
  rw [append, String.utf8ByteSize_append, true_and]
  by_cases hfits : text.utf8ByteSize + more.utf8ByteSize ≤ machine.capacity
  · rw [if_pos hfits, Except.ok.injEq, and_iff_left hfits, eq_comm]
  · simp [hfits]

theorem writes_fill (c : Char) (count : Nat) :
    machine.Writes (machine.fill c count) True (String.ofList (List.replicate count c)) := by
  intro out
  rw [fill, utf8ByteSize_fill, true_and]
  by_cases hfits : count * c.utf8Size ≤ machine.capacity
  · rw [if_pos hfits, Except.ok.injEq, and_iff_left hfits, eq_comm]
  · simp [hfits]

theorem writes_self (h : text.utf8ByteSize ≤ machine.capacity) :
    machine.Writes (.ok text) True text := by
  intro out
  rw [Except.ok.injEq, true_and, and_iff_left h, eq_comm]

namespace Writes

theorem congr (h : machine.Writes action p text) (hpq : p ↔ q) : machine.Writes action q text :=
  fun out => (h out).trans (and_congr_left' hpq)

/-- What is written in the end is no shorter than a text on the way, so it alone has to
fit the machine. -/
theorem bind {next : String → Except Halt String} (h : machine.Writes action p text)
    (hle : text.utf8ByteSize ≤ out.utf8ByteSize)
    (hnext : text.utf8ByteSize ≤ machine.capacity → machine.Writes (next text) q out) :
    machine.Writes (action >>= next) (p ∧ q) out := by
  intro result
  rw [bind_eq_ok_iff]
  constructor
  · rintro ⟨found, haction, hresult⟩
    obtain ⟨hp, rfl, hfits⟩ := (h found).mp haction
    obtain ⟨hq, hout⟩ := (hnext hfits result).mp hresult
    exact ⟨⟨hp, hq⟩, hout⟩
  · rintro ⟨⟨hp, hq⟩, rfl, hfits⟩
    have hfound := hle.trans hfits
    exact ⟨text, (h text).mpr ⟨hp, rfl, hfound⟩, (hnext hfound result).mpr ⟨hq, rfl, hfits⟩⟩

/-- A step that needs nothing but room. -/
theorem andThen {next : String → Except Halt String} (h : machine.Writes action True text)
    (hle : text.utf8ByteSize ≤ out.utf8ByteSize)
    (hnext : text.utf8ByteSize ≤ machine.capacity → machine.Writes (next text) q out) :
    machine.Writes (action >>= next) q out :=
  (h.bind hle hnext).congr (and_iff_right trivial)

/-- A number on the way that is known. -/
theorem afterOk {count : Except Halt Nat} {n : Nat} {next : Nat → Except Halt String}
    (h : count = .ok n) (hnext : machine.Writes (next n) q out) :
    machine.Writes (count >>= next) q out := by
  rw [h]
  exact hnext

/-- A sum on the way that need not be a word. -/
theorem afterAdd {a b : Nat} {next : Nat → Except Halt String}
    (hnext : machine.Writes (next ((a + b) % wordCount)) q out) :
    machine.Writes (machine.add a b >>= next)
      ((machine.checked = true → a + b < wordCount) ∧ q) out := by
  intro result
  rw [bind_eq_ok_iff]
  constructor
  · rintro ⟨sum, hadd, hresult⟩
    obtain ⟨hword, rfl⟩ := add_eq_ok_iff.mp hadd
    obtain ⟨hq, hout⟩ := (hnext result).mp hresult
    exact ⟨⟨hword, hq⟩, hout⟩
  · rintro ⟨⟨hword, hq⟩, hout⟩
    exact ⟨_, add_eq_ok_iff.mpr ⟨hword, rfl⟩, (hnext result).mpr ⟨hq, hout⟩⟩

end Writes
end Machine
end TaintFlow
