/-
Numbers as the values of rules.

The value of a rule may be a number, of which only the integers of 32 bits are levels.
Readers of rules are local, and the other fields of a rule have nothing to do with its
value, so all depends on the numeral that stands there: the rule is read with the integer
that is written, or it is not read at all (`Rule.takesNumeral_of_valid`).
-/
import TaintFlow.Proofs.Artifact.Reading
import TaintFlow.Proofs.Json.Integers
import TaintFlow.Proofs.Json.Replacing

namespace TaintFlow

open Json (Blank EndsNumeral Field Input IntegerText NumeralForm ObjectFront Reader Record skipSpace)

/-! ## Values -/

namespace RuleValue

theorem reader_run_null {gap : Input} (hgap : Blank gap) (budget : Nat) (back : Input) :
    (reader budget).run (gap ++ ("null".toList ++ back)) = .ok (none, back) :=
  Reader.optional_run_eq_ok_iff.mpr (.inl ⟨rfl, Json.skipSpace_blank_append_cons hgap rfl _⟩)

/-- A numeral is read as a level where it is written as an integer of 32 bits. -/
theorem reader_run_numeral_iff {gap token back : Input} (hgap : Blank gap)
    (htoken : NumeralForm token) (hback : EndsNumeral back) {budget : Nat}
    {value : Option RuleValue} {rest : Input} :
    (reader budget).run (gap ++ (token ++ back)) = .ok (value, rest) ↔
      rest = back ∧ ∃ level : Int32, IntegerText level.toInt token [] ∧ value = some (.level level) := by
  obtain ⟨n, hnumeral⟩ := htoken.numeralText hback
  have hstart : skipSpace (gap ++ (token ++ back)) = token ++ back := by
    rw [Json.skipSpace_blank_append hgap, Json.skipSpace_value (.numeral hnumeral)]
  have hagain : skipSpace (token ++ back) = token ++ back := by
    rw [← hstart, Json.skipSpace_skipSpace]
  have hnull : (token ++ back).head? ≠ some 'n' := by
    obtain ⟨c, tail, heq, hc⟩ := hnumeral.startsNumeral
    rw [heq]
    exact fun hhead => Json.ne_of_startsNumeral hc (by decide) (Option.some.inj hhead)
  rw [← hagain] at hnumeral
  rw [reader, Reader.optional_run_eq_ok_iff, hstart]
  constructor
  · rintro (⟨-, hword⟩ | ⟨b, rfl, -, hread⟩)
    · exact absurd (congrArg List.head? hword) hnull
    · obtain ⟨json, hread, hb⟩ := Reader.convert_run_eq_ok_iff.mp hread
      obtain ⟨rfl, x, hnumber, rfl⟩ :=
        (Reader.value_run_eq_ok_iff_of_numeralText hnumeral).mp hread
      obtain ⟨level, rfl, rfl⟩ := ofJson?_number_eq_some_iff.mp hb
      rw [hagain] at hnumber
      have hlevel := (Json.numberHere_eq_int_iff.mp hnumber).1
      exact ⟨rfl, level, (Json.integerText_append_iff hback).mp hlevel, rfl⟩
  · rintro ⟨rfl, level, hlevel, rfl⟩
    have hleast := level.le_toInt
    have hgreatest := level.toInt_lt
    have hnumber := Json.numberHere_eq_int_iff.mpr
      ⟨(Json.integerText_append_iff hback).mpr hlevel, by omega, by omega⟩
    rw [← hagain] at hnumber
    have hread := (@Reader.value_run_eq_ok_iff_of_numeralText budget _ _ _ _ hnumeral _).mpr
      ⟨rfl, _, hnumber, rfl⟩
    have hb := ofJson?_number_eq_some_iff.mpr ⟨level, rfl, rfl⟩
    exact .inr ⟨_, rfl, hnull, Reader.convert_run_eq_ok_iff.mpr ⟨_, hread, hb⟩⟩

end RuleValue

/-! ## Rules -/

namespace Rule

theorem local_record {content member : Reader Rule} (hcontent : content.Local)
    (hmember : member.Local) (hspells : content.Spells) (hspells' : member.Spells)
    (budget : Nat) : (record budget content member).Local where
  spells := spells_record budget hspells hspells'
  fields := by
    simp only [record, List.forall_mem_cons]
    refine ⟨?_, ?_, ?_, ?_, ?_, ?_, ?_, ?_, List.forall_mem_nil _⟩
    · exact (Reader.local_tag budget _).map _
    · exact ((Reader.local_value budget).convert _ _).optional.map _
    · exact Reader.local_string.optional.map _
    · exact hcontent.optional.map _
    · exact (Reader.Local.list (fun _ => hmember) hspells').map _
    · exact Reader.local_bool.optional.map _
    · exact Reader.local_string.optional.map _
    · exact Reader.local_string.optional.map _

theorem local_closedReader : closedReader.Local :=
  Reader.local_of_fails fun hread => Record.budget_ne_zero_of_reader_run hread rfl

/-- The reader with one bracket more uses the readers with fewer. -/
theorem local_reader : ∀ budget, (reader budget).Local
  | 0 => local_closedReader
  | 1 => .delay ((local_record (local_reader 0) local_closedReader (spells_reader 0)
      spells_closedReader 0).reader 1)
  | budget + 2 => .delay ((local_record (local_reader (budget + 1)) (local_reader budget)
      (spells_reader (budget + 1)) (spells_reader budget) (budget + 1)).reader (budget + 2))

/-- No other field has to do with the value. -/
theorem commutes_value (budget : Nat) (content member : Reader Rule) (value : Option RuleValue) :
    ∀ field ∈ (record budget content member).fields, field.key ≠ "value" →
      field.Commutes fun rule => { rule with value } := by
  simp only [record, List.forall_mem_cons]
  refine ⟨?_, fun hne => absurd rfl hne, ?_, ?_, ?_, ?_, ?_, ?_, List.forall_mem_nil _⟩
  all_goals
    intro _
    refine Field.commutes_of fun _ _ => ?_
    rfl

/-- A reader that may open a bracket reads the record of rules. -/
theorem exists_record_of_reader : ∀ {budget}, budget ≠ 0 → ∃ inside content member,
    (record inside content member).Local ∧
      (reader budget).run = ((record inside content member).reader budget).run
  | 0, hbudget => absurd rfl hbudget
  | 1, _ => ⟨0, reader 0, closedReader, local_record (local_reader 0) local_closedReader
      (spells_reader 0) spells_closedReader 0, rfl⟩
  | budget + 2, _ => ⟨budget + 1, reader (budget + 1), reader budget,
      local_record (local_reader (budget + 1)) (local_reader budget) (spells_reader (budget + 1))
        (spells_reader budget) (budget + 1), rfl⟩

theorem budget_ne_zero_of_run {budget : Nat} {text rest : Input} {rule : Rule}
    (h : (reader budget).run text = .ok (rule, rest)) : budget ≠ 0 := by
  rintro rfl
  exact Record.budget_ne_zero_of_reader_run h rfl

/-- A numeral in the place of a null is read with the rule exactly if it is written as an
integer of 32 bits. -/
theorem reader_run_numeral_iff {budget : Nat} {front gap token back rest : Input} {rule : Rule}
    (hfront : ObjectFront "value" front) (hgap : Blank gap) (htoken : NumeralForm token)
    (hread : (reader budget).run (front ++ (gap ++ ("null".toList ++ back))) = .ok (rule, rest))
    (result : Rule × Input) :
    (reader budget).run (front ++ (gap ++ (token ++ back))) = .ok result ↔
      ∃ level : Int32, IntegerText level.toInt token [] ∧
        result = ({ rule with value := some (.level level) }, rest) := by
  obtain ⟨inside, content, member, hrecord, hreader⟩ :=
    exists_record_of_reader (budget_ne_zero_of_run hread)
  rw [hreader] at hread ⊢
  have hfield : (record inside content member).field? "value" =
      some (.of "value" (RuleValue.reader inside) fun value rule => { rule with value }) := rfl
  obtain ⟨value, stop, hold, hends, hiff⟩ := hrecord.reader_run_replace_iff hfield
    (commutes_value inside content member) (fun _ _ _ => rfl) hfront hread
  -- The null is read as no value, and reading it stops where `back` starts.
  obtain ⟨rfl, rfl⟩ := Prod.mk.inj
    (Except.ok.inj ((RuleValue.reader_run_null hgap inside back).symm.trans hold))
  have hnumeral := @RuleValue.reader_run_numeral_iff gap token back hgap htoken hends inside
  rw [hiff _ fun _ _ hb => (hnumeral.mp hb).1]
  constructor
  · rintro ⟨b, hb, rfl⟩
    obtain ⟨-, level, hlevel, rfl⟩ := hnumeral.mp hb
    exact ⟨level, hlevel, rfl⟩
  · rintro ⟨level, hlevel, rfl⟩
    exact ⟨_, hnumeral.mpr ⟨rfl, level, hlevel, rfl⟩, rfl⟩

/-- What becomes of a rule when a numeral stands in the place of its value: something is
read exactly if the numeral is an integer of 32 bits, and it is the rule with this integer
as its value.  `Reads result` says that `result` is read. -/
structure TakesNumeral (token : Input) (rule : Rule) (Reads : Rule → Prop) : Prop where
  reads_iff : (∃ result, Reads result) ↔
    ∃ n : Int, IntegerText n token [] ∧ -2147483648 ≤ n ∧ n ≤ 2147483647
  result_eq : ∀ {n : Int} {result : Rule}, IntegerText n token [] → Reads result →
    ∃ level : Int32, level.toInt = n ∧ result = { rule with value := some (.level level) } ∧
      (rule.kind.isPrecedence = true → result.precedence = some level)

theorem TakesNumeral.of_iff {token : Input} {rule : Rule} {Reads : Rule → Prop}
    (h : ∀ result, Reads result ↔ ∃ level : Int32, IntegerText level.toInt token [] ∧
      result = { rule with value := some (.level level) }) : TakesNumeral token rule Reads where
  reads_iff := by
    constructor
    · rintro ⟨result, hresult⟩
      obtain ⟨level, hlevel, -⟩ := (h result).mp hresult
      exact ⟨level.toInt, hlevel, level.le_toInt, Int.le_of_lt_add_one level.toInt_lt⟩
    · rintro ⟨n, hn, hleast, hgreatest⟩
      have hlevel : (Int32.ofInt n).toInt = n :=
        Int32.toInt_ofInt_of_le hleast (Int.lt_add_one_of_le hgreatest)
      exact ⟨_, (h _).mpr ⟨.ofInt n, hlevel.symm ▸ hn, rfl⟩⟩
  result_eq := by
    intro n result hn hresult
    obtain ⟨level, hlevel, rfl⟩ := (h result).mp hresult
    exact ⟨level, hlevel.eq hn, rfl, fun hkind => if_pos hkind⟩

/-- Take an object that is read as a rule, with a null as its value, and put a numeral in
the place of this null.  If the numeral has neither a fraction nor an exponent, is no minus
zero and fits 32 bits, then the same rule is read, but its value is the integer that the
numeral stands for, and so is its precedence if it is of such a kind.  With every other
numeral nothing is read.  This is so for a rule by itself, and for one inside another or
inside a grammar, which is read up to the same place then. -/
theorem takesNumeral_of_valid {front gap token back : Input} (hfront : ObjectFront "value" front)
    (hgap : Blank gap) (htoken : NumeralForm token) :
    (∀ rule, read (.ofList (front ++ gap ++ "null".toList ++ back)) = .ok rule →
      TakesNumeral token rule fun result =>
        read (.ofList (front ++ gap ++ token ++ back)) = .ok result) ∧
    ∀ budget rule rest,
      (reader budget).run (front ++ gap ++ "null".toList ++ back) = .ok (rule, rest) →
      (TakesNumeral token rule fun result =>
        (reader budget).run (front ++ gap ++ token ++ back) = .ok (result, rest)) ∧
      ∀ result stop, (reader budget).run (front ++ gap ++ token ++ back) = .ok (result, stop) →
        stop = rest := by
  simp only [List.append_assoc]
  constructor
  · intro rule hvalid
    refine .of_iff fun result => ?_
    rw [read, String.toList_ofList, Reader.readAll_eq_ok_iff] at hvalid ⊢
    obtain ⟨rest, hrun, hrest⟩ := hvalid
    have hiff := reader_run_numeral_iff hfront hgap htoken hrun
    constructor
    · rintro ⟨stop, hresult, -⟩
      obtain ⟨level, hlevel, heq⟩ := (hiff _).mp hresult
      exact ⟨level, hlevel, (Prod.mk.inj heq).1⟩
    · rintro ⟨level, hlevel, rfl⟩
      exact ⟨rest, (hiff _).mpr ⟨level, hlevel, rfl⟩, hrest⟩
  · intro budget rule rest hvalid
    have hiff := reader_run_numeral_iff hfront hgap htoken hvalid
    refine ⟨.of_iff fun result => ?_, fun result stop hresult => ?_⟩
    · rw [hiff]
      simp only [Prod.mk.injEq, and_true]
    · obtain ⟨level, -, heq⟩ := (hiff _).mp hresult
      exact (Prod.mk.inj heq).2

/-- A rule up to its value, whose key has an escape in it. -/
def levelFront : Input := "\n\x7b\"type\" : \"PREC\" ,\"\\u0076alue\":".toList

def levelBack : Input := ",\"content\":\x7b\"type\":\"BLANK\"\x7d\x7d".toList

theorem objectFront_levelFront : ObjectFront "value" levelFront := by
  have hkind : Json.EntryForm ("type", " \"PREC\" ".toList) "\"type\" : \"PREC\" ".toList :=
    @Json.EntryForm.keyed "type" [] "type\"".toList [' '] " \"PREC\" ".toList (by decide)
      (Json.stringRest_eq_ok_iff.mp (by decide +kernel)) (by decide)
      (Json.forms_item_iff.mpr ⟨[' '], by decide, by decide +kernel⟩)
  have hvalue : Json.EntriesFront "value" "\"\\u0076alue\":".toList :=
    @Json.EntriesFront.key "value" [] "\\u0076alue\"".toList [] (by decide)
      (Json.stringRest_eq_ok_iff.mp (by decide +kernel)) (by decide)
  exact @ObjectFront.opened "value" ['\n'] _ (by decide) (.behind hkind hvalue)

/-- The least integer of 32 bits is read as the precedence, and the one behind the greatest
is not read. -/
theorem takesNumeral_of_valid_limits :
    (∃ result, read (.ofList (levelFront ++ [' '] ++ "-2147483648".toList ++ levelBack)) =
      .ok result ∧ result.precedence = some (-2147483648)) ∧
    ∀ result, read (.ofList (levelFront ++ [' '] ++ "2147483648".toList ++ levelBack)) ≠
      .ok result := by
  have hdigits : Json.UnsignedForm "2147483648".toList :=
    @Json.UnsignedForm.parts "2147483648".toList [] [] (List.all_eq_true.mp (by decide))
      (by decide) (by decide) .absent .absent
  have hgap : Blank [' '] := by decide
  have hread : (read (.ofList (levelFront ++ [' '] ++ "null".toList ++ levelBack))).toOption.map
      Rule.kind = some .prec := by decide +kernel
  obtain ⟨rule, hvalid, hkind⟩ := Json.exists_ok_of_toOption_map hread
  constructor
  · have htakes :=
      (takesNumeral_of_valid objectFront_levelFront hgap (.negative hdigits)).1 rule hvalid
    have hleast : IntegerText (-2147483648) "-2147483648".toList [] :=
      (Json.numberHere_eq_int_iff.mp (by decide +kernel)).1
    obtain ⟨result, hresult⟩ := htakes.reads_iff.mpr ⟨_, hleast, by decide, by decide⟩
    obtain ⟨level, hlevel, -, hprecedence⟩ := htakes.result_eq hleast hresult
    obtain rfl : level = -2147483648 := Int32.toInt_inj.mp hlevel
    exact ⟨result, hresult, hprecedence (hkind ▸ rfl)⟩
  · intro result hresult
    have htakes :=
      (takesNumeral_of_valid objectFront_levelFront hgap (.positive hdigits)).1 rule hvalid
    have hbeyond : IntegerText 2147483648 "2147483648".toList [] :=
      (Json.numberHere_eq_int_iff.mp (by decide +kernel)).1
    obtain ⟨n, hn, -, hgreatest⟩ := htakes.reads_iff.mp ⟨result, hresult⟩
    have heq := hbeyond.eq hn
    omega

end Rule
end TaintFlow
