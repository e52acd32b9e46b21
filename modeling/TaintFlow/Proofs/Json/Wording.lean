/-
What messages are made of.

A message has words of its own, which name what was expected, and may quote what
was read.  A number or a string that is quoted has no control character, since a
string is quoted with its escapes.  An unknown tag stands in the message as it was
read.  So when the words of a cause are plain, its message has the control
characters of an unknown tag and no others (`mem_message_iff`).
-/
import TaintFlow.Json.Scan

namespace TaintFlow
namespace Json

/-! ## Plain texts -/

/-- The text has no control characters. -/
def IsPlain (text : List Char) : Prop := ∀ c ∈ text, isControl c = false

instance (text : List Char) : Decidable (IsPlain text) :=
  List.decidableBAll (fun c => isControl c = false) text

theorem isPlain_nil : IsPlain [] := List.forall_mem_nil _

theorem isPlain_cons {c : Char} {text : List Char} :
    IsPlain (c :: text) ↔ isControl c = false ∧ IsPlain text :=
  List.forall_mem_cons

theorem isPlain_append {text more : List Char} :
    IsPlain (text ++ more) ↔ IsPlain text ∧ IsPlain more :=
  List.forall_mem_append

theorem IsPlain.subset {text part : List Char} (h : IsPlain text) (hpart : part ⊆ text) :
    IsPlain part := fun c hc => h c (hpart hc)

theorem IsPlain.not_mem {text : List Char} (h : IsPlain text) {c : Char}
    (hc : isControl c = true) : c ∉ text := by
  intro hmem
  rw [h c hmem] at hc
  cases hc

theorem isPlain_replicate {c : Char} (h : isControl c = false) (n : Nat) :
    IsPlain (List.replicate n c) := by
  intro d hd
  rw [(List.mem_replicate.mp hd).2]
  exact h

theorem isPlain_string_append {text more : String} :
    IsPlain (text ++ more).toList ↔ IsPlain text.toList ∧ IsPlain more.toList := by
  rw [String.toList_append, isPlain_append]

theorem isPlain_intercalate {separator : String} (hseparator : IsPlain separator.toList)
    {texts : List String} (h : ∀ text ∈ texts, IsPlain text.toList) :
    IsPlain (separator.intercalate texts).toList := by
  rw [String.toList_intercalate]
  induction texts with
  | nil => exact isPlain_nil
  | cons text texts ih =>
    rw [List.forall_mem_cons] at h
    cases texts with
    | nil => simpa using h.1
    | cons next texts =>
      rw [List.map_cons, List.map_cons, List.intercalate_cons_cons, isPlain_append,
        isPlain_append]
      exact ⟨⟨h.1, hseparator⟩, ih h.2⟩

/-! ## Numbers -/

theorem isControl_digitChar (n : Nat) : isControl n.digitChar = false := by
  by_cases hn : n < 16
  · have hdigits : ∀ digit < 16, isControl (Nat.digitChar digit) = false := by decide
    exact hdigits n hn
  · have hstar : n.digitChar = '*' := by
      unfold Nat.digitChar
      iterate 16 rw [if_neg (by omega)]
    rw [hstar]
    rfl

theorem isPlain_toDigits {base : Nat} (hbase : 1 < base) (n : Nat) :
    IsPlain (Nat.toDigits base n) := by
  induction n using Nat.strongRecOn with
  | ind n ih =>
    rw [Nat.toDigits_eq_if hbase]
    split
    · exact isPlain_cons.mpr ⟨isControl_digitChar n, isPlain_nil⟩
    · next hle =>
      have hless : n / base < n := Nat.div_lt_self (by omega) hbase
      exact isPlain_append.mpr
        ⟨ih _ hless, isPlain_cons.mpr ⟨isControl_digitChar _, isPlain_nil⟩⟩

theorem isPlain_repr (n : Nat) : IsPlain n.repr.toList := by
  rw [Nat.toList_repr]
  exact isPlain_toDigits (by decide) n

theorem isPlain_intRepr (n : Int) : IsPlain n.repr.toList := by
  cases n with
  | ofNat n => exact isPlain_repr n
  | negSucc n => exact isPlain_string_append.mpr ⟨by decide, isPlain_repr (n + 1)⟩

theorem isPlain_positional {digits : List Char} (h : IsPlain digits) (exponent : Int) :
    IsPlain (positional digits exponent) := by
  have hzeros := isPlain_replicate (c := '0') rfl
  have hdrop := h.subset (List.drop_subset (exponent.toNat + 1) digits)
  have htake := h.subset (List.take_subset (exponent.toNat + 1) digits)
  unfold positional
  split
  · exact isPlain_cons.mpr ⟨rfl, isPlain_cons.mpr ⟨rfl, isPlain_append.mpr ⟨hzeros _, h⟩⟩⟩
  · refine isPlain_append.mpr ⟨isPlain_append.mpr ⟨htake, hzeros _⟩, isPlain_cons.mpr ⟨rfl, ?_⟩⟩
    split
    · decide
    · exact hdrop

theorem isPlain_scientific {digits : List Char} (h : IsPlain digits) (exponent : Int) :
    IsPlain (scientific digits exponent) := by
  have hdrop := h.subset (List.drop_subset 1 digits)
  have htake := h.subset (List.take_subset 1 digits)
  unfold scientific
  refine isPlain_append.mpr ⟨isPlain_append.mpr ⟨htake, ?_⟩, isPlain_cons.mpr ⟨rfl,
    isPlain_cons.mpr ⟨?_, isPlain_repr _⟩⟩⟩
  · split
    · exact isPlain_nil
    · exact isPlain_cons.mpr ⟨rfl, hdrop⟩
  · split <;> rfl

theorem isPlain_numberText (n : Number) : IsPlain n.text := by
  cases n with
  | int n => exact isPlain_intRepr n
  | real negative x =>
    have hdouble : IsPlain (doubleText x) := by
      unfold doubleText
      split
      · decide
      · dsimp only
        split
        · exact isPlain_positional (isPlain_repr _) _
        · exact isPlain_scientific (isPlain_repr _) _
    refine isPlain_append.mpr ⟨?_, hdouble⟩
    split <;> decide

/-! ## Strings -/

theorem isHidden_of_isControl {c : Char} (h : isControl c = true) : Text.isHidden c = true := by
  have hless : c.toNat < 0x20 := of_decide_eq_true h
  refine List.any_eq_true.mpr ⟨(0x0, 0x1F), List.mem_cons_self, ?_⟩
  rw [Bool.and_eq_true, decide_eq_true_eq, decide_eq_true_eq]
  exact ⟨Nat.zero_le _, Nat.le_of_lt_succ hless⟩

theorem isPlain_quoteChar (c : Char) : IsPlain (Text.quoteChar c) := by
  unfold Text.quoteChar
  split
  · decide
  · decide
  · decide
  · decide
  · decide
  · decide
  · split
    · have hdigits : IsPlain (Nat.toDigits 16 c.toNat) := isPlain_toDigits (by decide) c.toNat
      exact isPlain_append.mpr ⟨isPlain_append.mpr ⟨by decide, hdigits⟩, by decide⟩
    · next hshown =>
      have hplain : isControl c = false := Bool.eq_false_iff.mpr fun hcontrol =>
        hshown (isHidden_of_isControl hcontrol)
      exact isPlain_cons.mpr ⟨hplain, isPlain_nil⟩

/-- A text between quotes is plain whatever it holds. -/
theorem isPlain_quoted (s : String) : IsPlain (Text.quoted s).toList := by
  rw [Text.quoted, String.toList_ofList]
  refine isPlain_append.mpr ⟨isPlain_cons.mpr ⟨rfl, fun c hc => ?_⟩, by decide⟩
  obtain ⟨d, -, hd⟩ := List.mem_flatMap.mp hc
  exact isPlain_quoteChar d c hd

theorem isPlain_foundText (found : Found) : IsPlain found.text.toList := by
  cases found with
  | null => decide
  | bool b => cases b <;> decide
  | number n =>
    cases n with
    | int n =>
      exact isPlain_string_append.mpr
        ⟨isPlain_string_append.mpr ⟨by decide, isPlain_intRepr n⟩, by decide⟩
    | real negative x =>
      refine isPlain_string_append.mpr ⟨isPlain_string_append.mpr ⟨by decide, ?_⟩, by decide⟩
      rw [String.toList_ofList]
      exact isPlain_numberText (.real negative x)
  | string s => exact isPlain_string_append.mpr ⟨by decide, isPlain_quoted s⟩
  | list => decide
  | object => decide

/-! ## Causes -/

namespace Cause

/-- The texts in a cause that name what was expected. -/
def words : Cause → List String
  | wrongType _ expected => [expected]
  | unknownTag _ known => known
  | missingField key => [key]
  | duplicateField key => [key]
  | shortRecord _ title _ => [title]
  | unmatched title => [title]
  | _ => []

def IsPlain (cause : Cause) : Prop := ∀ word ∈ cause.words, Json.IsPlain word.toList

theorem isPlain_named {name : String} : Json.IsPlain (named name).toList ↔
    Json.IsPlain name.toList := by
  rw [named, isPlain_string_append, isPlain_string_append, and_iff_left (by decide),
    and_iff_right (by decide)]

/-- But for unknown tags, a message with plain words is plain. -/
theorem isPlain_message {cause : Cause} (h : cause.IsPlain)
    (hknown : ∀ tag known, cause ≠ unknownTag tag known) : Json.IsPlain cause.message.toList := by
  cases cause with
  | unknownTag tag known => exact absurd rfl (hknown tag known)
  | wrongType found expected =>
    have hexpected : Json.IsPlain expected.toList := h expected List.mem_cons_self
    show Json.IsPlain ("invalid type: " ++ found.text ++ ", expected " ++ expected).toList
    simp only [isPlain_string_append]
    exact ⟨⟨⟨by decide, isPlain_foundText found⟩, by decide⟩, hexpected⟩
  | missingField key =>
    exact isPlain_string_append.mpr ⟨by decide, isPlain_named.mpr (h key List.mem_cons_self)⟩
  | duplicateField key =>
    exact isPlain_string_append.mpr ⟨by decide, isPlain_named.mpr (h key List.mem_cons_self)⟩
  | shortRecord length title size =>
    have htitle : Json.IsPlain title.toList := h title List.mem_cons_self
    show Json.IsPlain ("invalid length " ++ length.repr ++ ", expected " ++ title ++ " with " ++
      size.repr ++ " elements").toList
    simp only [isPlain_string_append]
    exact ⟨⟨⟨⟨⟨⟨by decide, isPlain_repr length⟩, by decide⟩, htitle⟩, by decide⟩,
      isPlain_repr size⟩, by decide⟩
  | unmatched title =>
    exact isPlain_string_append.mpr ⟨by decide, h title List.mem_cons_self⟩
  | _ => decide

/-- A control character in the message comes from a tag that is not known. -/
theorem mem_message_iff {cause : Cause} (h : cause.IsPlain) {c : Char}
    (hc : isControl c = true) :
    c ∈ cause.message.toList ↔ ∃ tag known, cause = unknownTag tag known ∧ c ∈ tag.toList := by
  by_cases hknown : ∃ tag known, cause = unknownTag tag known
  · obtain ⟨tag, known, rfl⟩ := hknown
    have hwords : Json.IsPlain (", ".intercalate (known.map named)).toList := by
      refine isPlain_intercalate (by decide) (List.forall_mem_map.mpr fun word hword => ?_)
      exact isPlain_named.mpr (h word hword)
    have hbefore : c ∉ "unknown variant ".toList := Json.IsPlain.not_mem (by decide) hc
    have hbehind : c ∉ ", expected one of ".toList := Json.IsPlain.not_mem (by decide) hc
    have hquote : c ∉ "`".toList := Json.IsPlain.not_mem (by decide) hc
    have hmem : c ∈ (unknownTag tag known).message.toList ↔ c ∈ tag.toList := by
      show c ∈ ("unknown variant " ++ ("`" ++ tag ++ "`") ++ ", expected one of " ++
        ", ".intercalate (known.map named)).toList ↔ _
      rw [String.toList_append, List.mem_append, or_iff_left (hwords.not_mem hc),
        String.toList_append, List.mem_append, or_iff_left hbehind,
        String.toList_append, List.mem_append, or_iff_right hbefore,
        String.toList_append, List.mem_append, or_iff_left hquote,
        String.toList_append, List.mem_append, or_iff_right hquote]
    rw [hmem]
    constructor
    · exact fun h => ⟨tag, known, rfl, h⟩
    · rintro ⟨other, others, heq, h⟩
      cases heq
      exact h
  · have hmessage := isPlain_message h fun tag known heq => hknown ⟨tag, known, heq⟩
    refine iff_of_false (hmessage.not_mem hc) ?_
    rintro ⟨tag, known, hcause, -⟩
    exact hknown ⟨tag, known, hcause⟩

end Cause

/-! ## Places -/

/-- A place lies on a line of its text. -/
theorem Place.line_advance (place : Place) (offset : Nat) (text : Input) :
    place.line ≤ (place.advance offset text).line ∧
      (place.advance offset text).line ≤ place.line + text.count '\n' := by
  induction text generalizing place offset with
  | nil => exact ⟨Nat.le_refl _, Nat.le_add_right _ _⟩
  | cons c text ih =>
    unfold advance
    split
    · exact ⟨Nat.le_refl _, Nat.le_add_right _ _⟩
    · split
      · next hc =>
        have hline := ih ⟨place.line + 1, 0⟩ (offset - 1)
        rw [hc, List.count_cons_self]
        dsimp only at hline
        omega
      · next hc =>
        have hline := ih ⟨place.line, place.column + c.utf8Size⟩ (offset - c.utf8Size)
        rw [List.count_cons_of_ne hc]
        exact hline

end Json
end TaintFlow
