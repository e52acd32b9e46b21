/-
Notices on the way to a language.

A check, a load and a probe give their notices with their result.  A check with a
defect gives none, and otherwise goes from rules that cannot be reached to
left-recursive rules and to rules with several levels, each in increasing order.  A
load gives the notices of its check and one more, or none at all.  A probe gives
the notices of its load and, whatever happened, one more that tells its result.
`notices_all_or_none` states this for the three together.
-/
import TaintFlow.Binding.Probe
import TaintFlow.Proofs.Binding.Outcomes
import TaintFlow.Proofs.Grammar.Order

namespace TaintFlow

/-- An error comes without notices. -/
def Logged.SilentOnError {ε α : Type} (logged : Logged (Except ε α)) : Prop :=
  ∀ error, logged.result = .error error → logged.notices = []

namespace Grammar

/-! ## Notices of a check -/

/-- The notices are about rules that cannot be reached, then about left-recursive
rules, then about rules with several levels.  Of each sort there is at most one for
a rule, and they come in increasing order of rules. -/
def InTurn (grammar : Grammar) (notices : List Notice) : Prop :=
  ∃ (unreachable leftRecursive : List String) (mixed : List (String × List Int32)),
    notices = unreachable.map (.unreachableRule grammar.name) ++
      leftRecursive.map (.leftRecursiveRule grammar.name) ++
      mixed.map (fun (rule, levels) => .multiplePrecedenceLevels grammar.name rule levels) ∧
    unreachable.Pairwise (· < ·) ∧ leftRecursive.Pairwise (· < ·) ∧
    (mixed.map Prod.fst).Pairwise (· < ·)

theorem pairwise_lt_leftRecursiveRules (grammar : Grammar) :
    grammar.leftRecursiveRules.Pairwise (· < ·) :=
  grammar.rules.pairwise_lt_sorted.sublist (List.filter_sublist.map Prod.fst)

theorem inTurn_nil (grammar : Grammar) : grammar.InTurn [] :=
  ⟨[], [], [], rfl, .nil, .nil, .nil⟩

theorem inTurn_oddities (grammar : Grammar) (start : String) :
    grammar.InTurn (grammar.oddities start) :=
  ⟨grammar.unreachableRules start, grammar.leftRecursiveRules, grammar.mixedLevels, rfl,
    grammar.pairwise_lt_unreachableRules start, grammar.pairwise_lt_leftRecursiveRules,
    grammar.pairwise_lt_mixedLevels⟩

theorem silentOnError_check (grammar : Grammar) (start : String) :
    (grammar.check start).SilentOnError := by
  intro error herror
  rcases grammar.check_cases start with ⟨defect, -, hcheck⟩ | ⟨-, hcheck⟩
  · rw [hcheck]
  · rw [hcheck] at herror
    cases herror

theorem inTurn_check (grammar : Grammar) (start : String) :
    grammar.InTurn (grammar.check start).notices := by
  rcases grammar.check_cases start with ⟨defect, -, hcheck⟩ | ⟨-, hcheck⟩
  · rw [hcheck]
    exact grammar.inTurn_nil
  · rw [hcheck]
    exact grammar.inTurn_oddities start

/-- The names of the rules are distinct, so there are as many as rules. -/
theorem card_keys_rules (grammar : Grammar) :
    grammar.rules.keys.toFinset.card = grammar.rules.size := by
  have hcard : grammar.rules.keys.toFinset.card = grammar.rules.keys.length :=
    List.toFinset_card_of_nodup grammar.rules.nodup
  rw [hcard, Table.keys, List.length_map, Table.size]

end Grammar

namespace Binding

/-! ## Notices of a load -/

theorem silentOnError_load (handle : Handle) : handle.load.SilentOnError := by
  intro error herror
  rcases load_cases handle with ⟨other, -, hload⟩ | ⟨language, -, hload⟩
  · rw [hload]
  · rw [hload] at herror
    cases herror

theorem notices_of_load {handle : Handle} {language : Language}
    (h : handle.load.result = .ok language) :
    handle.load.notices = (language.grammar.check language.start).notices ++
      [.languageConstructed language.grammar.name language.start
        language.grammar.rules.keys.toFinset.card] := by
  rcases load_cases handle with ⟨error, -, hload⟩ | ⟨other, -, hload⟩
  · rw [hload] at h
    cases h
  · rw [hload] at h
    cases h
    rw [hload, Grammar.card_keys_rules]
    rfl

/-! ## Notices of a probe -/

/-- The notices of loading the handle that an accessor gives.  Without a handle
nothing is loaded. -/
def Access.loadNotices : Access → List Notice
  | .error _ => []
  | .ok handle => handle.load.notices

/-- A probe goes well when a handle is there and is accepted, and it ends with a
notice of the one kind or the other. -/
theorem probe_cases (name : String) (access : Access) :
    (∃ handle language, access = .ok handle ∧ handle.load.result = .ok language ∧
      probe name access =
        { result := .ok ()
          notices := access.loadNotices ++ [.grammarLoaded name language.ruleCount] }) ∨
    ((∀ handle language, access = .ok handle → handle.load.result ≠ .ok language) ∧
      ∃ reason, probe name access =
        { result := .error { grammar := name, reason }
          notices := access.loadNotices ++ [.grammarRefused name reason] }) := by
  cases access with
  | error text =>
    refine .inr ⟨fun handle _ haccess => ?_, _, rfl⟩
    cases haccess
  | ok handle =>
    cases hload : handle.load.result with
    | error error =>
      refine .inr ⟨fun other language haccess => ?_, error.message, ?_⟩
      · cases haccess
        rw [hload]
        simp
      · simp only [probe, Access.load, Access.loadNotices, hload]
    | ok language =>
      refine .inl ⟨handle, language, rfl, hload, ?_⟩
      simp only [probe, Access.load, Access.loadNotices, hload]

theorem probe_result_eq_ok_iff {name : String} {access : Access} :
    (probe name access).result = .ok () ↔
      ∃ handle language, access = .ok handle ∧ handle.load.result = .ok language := by
  rcases probe_cases name access with
    ⟨handle, language, haccess, hload, hprobe⟩ | ⟨hrefused, reason, hprobe⟩
  · rw [hprobe]
    exact ⟨fun _ => ⟨handle, language, haccess, hload⟩, fun _ => rfl⟩
  · rw [hprobe]
    constructor
    · intro h
      cases h
    · rintro ⟨handle, language, haccess, hload⟩
      exact absurd hload (hrefused handle language haccess)

/-- Along the chain from a check over a load to a probe, a step that fails adds
nothing to what was noted before it, but for the one notice with which every probe
ends. -/
theorem notices_all_or_none :
    (∀ (grammar : Grammar) (start : String), (grammar.check start).SilentOnError ∧
      grammar.InTurn (grammar.check start).notices) ∧
    (∀ handle : Handle, handle.load.SilentOnError ∧
      ∀ language, handle.load.result = .ok language →
        Grammar.read handle.text = .ok language.grammar ∧
        handle.load.notices = (language.grammar.check language.start).notices ++
          [.languageConstructed language.grammar.name language.start
            language.grammar.rules.keys.toFinset.card]) ∧
    ∀ (name : String) (access : Access),
      ((probe name access).result = .ok () ↔
        ∃ handle language, access = .ok handle ∧ handle.load.result = .ok language) ∧
      (∀ handle language, access = .ok handle → handle.load.result = .ok language →
        (probe name access).notices =
          access.loadNotices ++ [.grammarLoaded name language.ruleCount]) ∧
      ∀ failure, (probe name access).result = .error failure →
        failure.grammar = name ∧ (probe name access).notices =
          access.loadNotices ++ [.grammarRefused failure.grammar failure.reason] := by
  refine ⟨fun grammar start => ⟨grammar.silentOnError_check start, grammar.inTurn_check start⟩,
    fun handle => ⟨silentOnError_load handle, fun language hload => ?_⟩,
    fun name access => ⟨probe_result_eq_ok_iff, ?_⟩⟩
  · exact ⟨(accepts_of_load hload).read, notices_of_load hload⟩
  · rcases probe_cases name access with
      ⟨handle, language, haccess, hload, hprobe⟩ | ⟨hrefused, reason, hprobe⟩
    · rw [hprobe]
      refine ⟨fun other found hother hfound => ?_, fun failure hfailure => ?_⟩
      · cases haccess.symm.trans hother
        cases hload.symm.trans hfound
        rfl
      · cases hfailure
    · rw [hprobe]
      refine ⟨fun handle language haccess hload => ?_, fun failure hfailure => ?_⟩
      · exact absurd hload (hrefused handle language haccess)
      · cases hfailure
        exact ⟨rfl, rfl⟩

/-- A grammar whose rule stands for itself. -/
def harbour : Handle :=
  { text := "\x7b\"name\":\"harbour\"," ++
      "\"rules\":\x7b\"quay\":\x7b\"type\":\"SYMBOL\",\"name\":\"quay\"\x7d\x7d\x7d" }

/-- A load that goes well, and a probe with the version of no grammar. -/
theorem notices_all_or_none_harbour :
    (∃ language, harbour.load.result = .ok language ∧
      harbour.load.notices = (language.grammar.check language.start).notices ++
        [.languageConstructed language.grammar.name language.start
          language.grammar.rules.keys.toFinset.card]) ∧
    (probe "harbour" (.ok (harbour.withVersion 16))).result ≠ .ok () ∧
    ∀ failure, (probe "harbour" (.ok (harbour.withVersion 16))).result = .error failure →
      (probe "harbour" (.ok (harbour.withVersion 16))).notices =
        [.grammarRefused failure.grammar failure.reason] := by
  obtain ⟨-, hload, hprobe⟩ := notices_all_or_none
  refine ⟨?_, by decide +kernel, fun failure hfailure => ?_⟩
  · have hloaded : harbour.load.result.toOption.map Language.start = some "quay" := by
      decide +kernel
    obtain ⟨language, hlanguage, -⟩ := exists_load_of_map hloaded
    exact ⟨language, hlanguage, ((hload harbour).2 language hlanguage).2⟩
  · have hsilent : (harbour.withVersion 16).load.notices = [] := by decide +kernel
    have hnotices := ((hprobe "harbour" (.ok (harbour.withVersion 16))).2.2 failure hfailure).2
    rw [hnotices, Access.loadNotices, hsilent]
    rfl

end Binding
end TaintFlow
