/-
The search for unreachable rules.

`Reaches grammar start name` says that a finite chain of references leads from a
root of the grammar to `name`.  A search keeps the names it has seen and the
names it has yet to visit, and `SearchStep` is one turn of it.  A turn may take
any name off the list and may leave the list in any order, so that what is
proved about a search does not depend on how its list is kept.

No search goes on for ever (`wellFounded_searchStep`), and a search that cannot
go on has seen the names that are reached and no others
(`mem_seen_iff_of_finished`).  The invariant says where every root and every
target of a seen name is: among the seen names or on the list.  `visit` is one
of these searches, and `unreachableRule_notices` says what the notices of a
check tell about unreachable rules.
-/
import Mathlib
import TaintFlow.Proofs.Grammar.Usability

namespace TaintFlow
namespace Grammar

/-! ## References -/

/-- A symbol in the rule of the first name refers to the second. -/
def Refers (grammar : Grammar) (source target : String) : Prop :=
  ∃ rule, (source, rule) ∈ grammar.rules.entries ∧ rule.RefersTo target

/-- A grammar that is used from `start` is entered at this name. -/
def IsRoot (grammar : Grammar) (start name : String) : Prop :=
  name = start ∨ (∃ rule ∈ grammar.extras ++ grammar.externals, rule.RefersTo name) ∨
    name ∈ grammar.supertypes

/-- A chain of references leads from a root to this name. -/
def Reaches (grammar : Grammar) (start name : String) : Prop :=
  ∃ root, grammar.IsRoot start root ∧ Relation.ReflTransGen grammar.Refers root name

theorem mem_referencesOf_iff {grammar : Grammar} {source target : String} :
    target ∈ grammar.referencesOf source ↔ grammar.Refers source target := by
  unfold referencesOf rule? Refers
  cases hrule : grammar.rules.get? source with
  | none =>
    constructor
    · intro h
      cases h
    · rintro ⟨rule, hmem, _⟩
      rw [Table.get?_eq_some_iff.mpr hmem] at hrule
      cases hrule
  | some rule =>
    rw [Option.map_some, Option.getD_some, Rule.mem_references_iff]
    have hmem := Table.get?_eq_some_iff.mp hrule
    constructor
    · intro h
      exact ⟨rule, hmem, h⟩
    · rintro ⟨other, hother, h⟩
      rw [Table.get?_eq_some_iff.mpr hother, Option.some.injEq] at hrule
      exact hrule ▸ h

theorem mem_roots_iff {grammar : Grammar} {start name : String} :
    name ∈ grammar.roots start ↔ grammar.IsRoot start name := by
  simp only [roots, List.cons_append, List.mem_cons, List.mem_append, List.mem_flatMap,
    Rule.mem_references_iff, IsRoot]

theorem referencesOf_eq_nil {grammar : Grammar} {name : String}
    (h : name ∉ grammar.rules.keys) : grammar.referencesOf name = [] := by
  refine List.eq_nil_iff_forall_not_mem.mpr fun target htarget => ?_
  obtain ⟨rule, hmem, _⟩ := mem_referencesOf_iff.mp htarget
  exact h (List.mem_map.mpr ⟨(name, rule), hmem, rfl⟩)

theorem Reaches.of_isRoot {grammar : Grammar} {start name : String}
    (h : grammar.IsRoot start name) : grammar.Reaches start name :=
  ⟨name, h, .refl⟩

theorem Reaches.of_refers {grammar : Grammar} {start source target : String}
    (hsource : grammar.Reaches start source) (h : grammar.Refers source target) :
    grammar.Reaches start target := by
  obtain ⟨root, hroot, hchain⟩ := hsource
  exact ⟨root, hroot, hchain.tail h⟩

/-! ## Turns of a search -/

/-- The names that a search has seen, and those it has yet to visit. -/
structure Search where
  seen : List String
  todo : List String

/-- The search of a grammar that is used from `start`, before its first turn. -/
def Search.initial (grammar : Grammar) (start : String) : Search := ⟨[], grammar.roots start⟩

/-- One turn: some name is taken off the list.  If it was not seen before, it is
from now on, and what it refers to is put on the list. -/
inductive SearchStep (grammar : Grammar) : Search → Search → Prop where
  | known {seen todo rest : List String} {name : String} (htodo : todo.Perm (name :: rest))
      (hseen : name ∈ seen) : SearchStep grammar ⟨seen, todo⟩ ⟨seen, rest⟩
  | fresh {seen todo rest next : List String} {name : String} (htodo : todo.Perm (name :: rest))
      (hseen : name ∉ seen) (hnext : next.Perm (grammar.referencesOf name ++ rest)) :
      SearchStep grammar ⟨seen, todo⟩ ⟨name :: seen, next⟩

theorem exists_searchStep {grammar : Grammar} {seen todo : List String} (h : todo ≠ []) :
    ∃ next, SearchStep grammar ⟨seen, todo⟩ next := by
  cases todo with
  | nil => exact absurd rfl h
  | cons name rest =>
    by_cases hseen : name ∈ seen
    · exact ⟨_, .known (.refl _) hseen⟩
    · exact ⟨_, .fresh (.refl _) hseen (.refl _)⟩

/-- What a search has left to do: the rules it has not seen, then the names on
its list. -/
def Search.remaining (grammar : Grammar) (search : Search) : Nat × Nat :=
  (grammar.unseen search.seen, search.todo.length)

/-- A turn leaves less to do.  It sees a rule for the first time, or it takes a
name off the list and puts nothing on it. -/
theorem remaining_lt_of_searchStep {grammar : Grammar} {now next : Search}
    (h : SearchStep grammar now next) :
    Prod.Lex (· < ·) (· < ·) (next.remaining grammar) (now.remaining grammar) := by
  cases h with
  | known htodo _ =>
    refine Prod.Lex.right _ ?_
    rw [htodo.length_eq]
    exact Nat.lt_succ_self _
  | @fresh seen todo rest next name htodo hseen hnext =>
    by_cases hrule : name ∈ grammar.rules.keys
    · exact Prod.Lex.left _ _ (unseen_cons_lt hrule hseen)
    · have hlength : next.length < todo.length := by
        rw [hnext.length_eq, htodo.length_eq, referencesOf_eq_nil hrule]
        exact Nat.lt_succ_self _
      rcases Nat.lt_or_eq_of_le (unseen_cons_le grammar seen name) with hlt | heq
      · exact Prod.Lex.left _ _ hlt
      · show Prod.Lex _ _ (grammar.unseen (name :: seen), next.length) _
        rw [heq]
        exact Prod.Lex.right _ hlength

/-- No search takes turns for ever. -/
theorem wellFounded_searchStep (grammar : Grammar) :
    WellFounded fun next now => SearchStep grammar now next :=
  Subrelation.wf (fun h => remaining_lt_of_searchStep h)
    (InvImage.wf (Search.remaining grammar) (Prod.lex Nat.lt_wfRel Nat.lt_wfRel).wf)

/-! ## What a search finds -/

def Search.Knows (search : Search) (name : String) : Prop :=
  name ∈ search.seen ∨ name ∈ search.todo

/-- What holds throughout a search: it knows only names that are reached, and
among them every root and whatever a seen name refers to. -/
structure Search.Sound (grammar : Grammar) (start : String) (search : Search) : Prop where
  reaches : ∀ name, search.Knows name → grammar.Reaches start name
  roots : ∀ name, grammar.IsRoot start name → search.Knows name
  closed : ∀ source ∈ search.seen, ∀ target, grammar.Refers source target → search.Knows target

theorem Search.sound_initial (grammar : Grammar) (start : String) :
    (Search.initial grammar start).Sound grammar start where
  reaches name h := by
    rcases h with h | h
    · cases h
    · exact .of_isRoot (mem_roots_iff.mp h)
  roots name h := .inr (mem_roots_iff.mpr h)
  closed source h := by cases h

/-- A turn after which the same names are known, and the same are seen, keeps a
search sound. -/
theorem Search.Sound.known {grammar : Grammar} {start name : String} {seen todo rest : List String}
    (h : Search.Sound grammar start ⟨seen, todo⟩) (htodo : todo.Perm (name :: rest))
    (hseen : name ∈ seen) : Search.Sound grammar start ⟨seen, rest⟩ := by
  have hknows : ∀ other, Search.Knows ⟨seen, rest⟩ other ↔ Search.Knows ⟨seen, todo⟩ other := by
    intro other
    simp only [Search.Knows, htodo.mem_iff, List.mem_cons]
    constructor
    · rintro (h | h)
      · exact .inl h
      · exact .inr (.inr h)
    · rintro (h | rfl | h)
      · exact .inl h
      · exact .inl hseen
      · exact .inr h
  exact ⟨fun other hother => h.reaches other ((hknows other).mp hother),
    fun other hother => (hknows other).mpr (h.roots other hother),
    fun source hsource target htarget => (hknows target).mpr (h.closed source hsource target htarget)⟩

/-- Seeing a name for the first time makes known what it refers to. -/
theorem Search.Sound.fresh {grammar : Grammar} {start name : String}
    {seen todo rest next : List String} (h : Search.Sound grammar start ⟨seen, todo⟩)
    (htodo : todo.Perm (name :: rest)) (hnext : next.Perm (grammar.referencesOf name ++ rest)) :
    Search.Sound grammar start ⟨name :: seen, next⟩ := by
  have hknows : ∀ other, Search.Knows ⟨name :: seen, next⟩ other ↔
      Search.Knows ⟨seen, todo⟩ other ∨ grammar.Refers name other := by
    intro other
    simp only [Search.Knows, htodo.mem_iff, hnext.mem_iff, List.mem_cons, List.mem_append,
      mem_referencesOf_iff]
    constructor
    · rintro ((rfl | h) | h | h)
      · exact .inl (.inr (.inl rfl))
      · exact .inl (.inl h)
      · exact .inr h
      · exact .inl (.inr (.inr h))
    · rintro ((h | rfl | h) | h)
      · exact .inl (.inr h)
      · exact .inl (.inl rfl)
      · exact .inr (.inr h)
      · exact .inr (.inl h)
  have hname : grammar.Reaches start name :=
    h.reaches name (.inr (htodo.mem_iff.mpr List.mem_cons_self))
  refine ⟨fun other hother => ?_, fun other hother => ?_, fun source hsource target htarget => ?_⟩
  · rcases (hknows other).mp hother with hold | hrefers
    · exact h.reaches other hold
    · exact hname.of_refers hrefers
  · exact (hknows other).mpr (.inl (h.roots other hother))
  · rcases List.mem_cons.mp hsource with rfl | hsource
    · exact (hknows target).mpr (.inr htarget)
    · exact (hknows target).mpr (.inl (h.closed source hsource target htarget))

theorem Search.Sound.step {grammar : Grammar} {start : String} {now next : Search}
    (h : now.Sound grammar start) (hstep : SearchStep grammar now next) :
    next.Sound grammar start := by
  cases hstep with
  | known htodo hseen => exact h.known htodo hseen
  | fresh htodo _ hnext => exact h.fresh htodo hnext

theorem Search.Sound.run {grammar : Grammar} {start : String} {now final : Search}
    (h : now.Sound grammar start) (hrun : Relation.ReflTransGen (SearchStep grammar) now final) :
    final.Sound grammar start := by
  induction hrun with
  | refl => exact h
  | tail _ hstep ih => exact ih.step hstep

/-- With nothing left on its list, a sound search has seen what is reached. -/
theorem Search.Sound.mem_seen_iff {grammar : Grammar} {start name : String} {seen : List String}
    (h : Search.Sound grammar start ⟨seen, []⟩) : name ∈ seen ↔ grammar.Reaches start name := by
  have hseen : ∀ other, Search.Knows ⟨seen, []⟩ other ↔ other ∈ seen := fun other =>
    or_iff_left List.not_mem_nil
  constructor
  · intro hmem
    exact h.reaches name (.inl hmem)
  · rintro ⟨root, hroot, hchain⟩
    induction hchain with
    | refl => exact (hseen root).mp (h.roots root hroot)
    | tail _ hrefers ih => exact (hseen _).mp (h.closed _ ih _ hrefers)

/-- A search that cannot go on has seen exactly the names that are reached. -/
theorem mem_seen_iff_of_finished {grammar : Grammar} {start name : String} {final : Search}
    (hrun : Relation.ReflTransGen (SearchStep grammar) (.initial grammar start) final)
    (hfinished : ∀ next, ¬ SearchStep grammar final next) :
    name ∈ final.seen ↔ grammar.Reaches start name := by
  have hsound := (Search.sound_initial grammar start).run hrun
  obtain ⟨seen, todo⟩ := final
  cases todo with
  | nil => exact hsound.mem_seen_iff
  | cons first rest =>
    obtain ⟨next, hstep⟩ := exists_searchStep (List.cons_ne_nil first rest)
    exact absurd hstep (hfinished next)

/-! ## The search of a check -/

/-- Visiting names is a search that takes the first name of its list. -/
theorem run_visit (grammar : Grammar) (seen todo : List String) :
    Relation.ReflTransGen (SearchStep grammar) ⟨seen, todo⟩ ⟨grammar.visit seen todo, []⟩ := by
  fun_induction visit grammar seen todo with
  | case1 => exact .refl
  | case2 seen name rest hseen ih => exact .head (.known (.refl _) hseen) ih
  | case3 seen name rest hseen _ ih => exact .head (.fresh (.refl _) hseen (.refl _)) ih
  | case4 seen name rest hseen hrule ih =>
    refine .head (.fresh (.refl _) hseen ?_) ih
    rw [referencesOf_eq_nil hrule]
    exact .refl _

theorem mem_reachable_iff {grammar : Grammar} {start name : String} :
    name ∈ grammar.reachable start ↔ grammar.Reaches start name :=
  ((Search.sound_initial grammar start).run (run_visit grammar [] _)).mem_seen_iff

theorem mem_unreachableRules_iff {grammar : Grammar} {start name : String} :
    name ∈ grammar.unreachableRules start ↔
      name ∈ grammar.rules.keys ∧ name ∉ grammar.inline ∧ ¬ grammar.Reaches start name := by
  have hkeys : name ∈ grammar.rules.sorted.map Prod.fst ↔ name ∈ grammar.rules.keys :=
    ((List.mergeSort_perm _ _).map Prod.fst).mem_iff
  simp only [unreachableRules, List.mem_filter, hkeys, Bool.and_eq_true, Bool.not_eq_true',
    List.contains_eq_mem, decide_eq_false_iff_not, mem_reachable_iff]
  exact and_congr_right fun _ => and_comm

theorem pairwise_lt_unreachableRules (grammar : Grammar) (start : String) :
    (grammar.unreachableRules start).Pairwise (· < ·) :=
  grammar.rules.pairwise_lt_sorted.filter _

/-- Of the notices of a check, those about unreachable rules come from the list
of unreachable rules. -/
theorem filter_unreachable_oddities (grammar : Grammar) (start : String) :
    ((grammar.oddities start).filter fun notice => notice.message == "unreachable rule") =
      (grammar.unreachableRules start).map (.unreachableRule grammar.name) := by
  rw [oddities, List.filter_append, List.filter_append, List.filter_map, List.filter_map,
    List.filter_map]
  rw [List.filter_eq_self.mpr (fun name _ => by rfl), List.filter_eq_nil_iff.mpr,
    List.filter_eq_nil_iff.mpr, List.map_nil, List.map_nil, List.append_nil, List.append_nil]
  · intro _ _
    exact Bool.false_ne_true
  · intro _ _
    exact Bool.false_ne_true

/-- The search for unreachable rules ends, whichever name is visited next, with
the names that are reached; and a check that passes gives one notice, in
increasing order of names, for each rule that is neither reached nor inlined. -/
theorem unreachableRule_notices {grammar : Grammar} {start : String}
    (h : (grammar.check start).result = .ok ()) :
    (WellFounded fun next now => SearchStep grammar now next) ∧
    Relation.ReflTransGen (SearchStep grammar) (.initial grammar start)
      ⟨grammar.reachable start, []⟩ ∧
    (∀ final, Relation.ReflTransGen (SearchStep grammar) (.initial grammar start) final →
      (∀ next, ¬ SearchStep grammar final next) →
        ∀ name, name ∈ final.seen ↔ grammar.Reaches start name) ∧
    ∃ names : List String,
      ((grammar.check start).notices.filter fun notice => notice.message == "unreachable rule") =
        names.map (.unreachableRule grammar.name) ∧
      names.Pairwise (· < ·) ∧
      ∀ name, name ∈ names ↔
        name ∈ grammar.rules.keys ∧ name ∉ grammar.inline ∧ ¬ grammar.Reaches start name := by
  have hnotices : (grammar.check start).notices = grammar.oddities start := by
    rw [check, check_result_eq_ok_iff.mp h]
  refine ⟨wellFounded_searchStep grammar, run_visit grammar [] _, ?_,
    grammar.unreachableRules start, ?_, pairwise_lt_unreachableRules grammar start, ?_⟩
  · intro final hrun hfinished name
    exact mem_seen_iff_of_finished hrun hfinished
  · rw [hnotices]
    exact filter_unreachable_oddities grammar start
  · intro name
    exact mem_unreachableRules_iff

/-- A grammar whose start rule refers to itself, beside two rules that refer to
each other, a rule that is inlined, and an extra that names no rule. -/
def islands : Grammar where
  name := "islands"
  rules := .ofEntries [("shore", { kind := .symbol, name := some "shore" }),
    ("west", { kind := .symbol, name := some "east" }),
    ("east", { kind := .symbol, name := some "west" }), ("reef", { kind := .blank })]
  extras := [{ kind := .symbol, name := some "fog" }]
  inline := ["reef"]

theorem unreachableRule_notices_islands :
    (islands.check "shore").result = .ok () ∧
    ∃ names : List String,
      ((islands.check "shore").notices.filter fun notice => notice.message == "unreachable rule") =
        names.map (.unreachableRule "islands") ∧
      names.Pairwise (· < ·) ∧
      ∀ name, name ∈ names ↔
        name ∈ islands.rules.keys ∧ name ∉ islands.inline ∧ ¬ islands.Reaches "shore" name := by
  have hcheck : (islands.check "shore").result = .ok () := by cbv
  exact ⟨hcheck, (unreachableRule_notices hcheck).2.2.2⟩

example : (islands.check "shore").notices = [.unreachableRule "islands" "east",
    .unreachableRule "islands" "west", .leftRecursiveRule "islands" "shore"] := by cbv

end Grammar
end TaintFlow
