/-
What a tree can begin with.

`Nullable` says which trees can stand for nothing, and `First` which symbols a tree can
begin with: in a sequence the next member counts as long as all before it are nullable,
and a token is looked into like anything else.

The test for left recursion looks at the first member of a sequence only, and into no
token.  So it names only symbols that a tree can begin with (`first_of_startsWith`), and
where first members are not nullable and there are no tokens, it misses none of them
(`startsWith_of_first`).  `startsWith_iff_first` puts both together.
-/
import TaintFlow.Proofs.Grammar.Depth

namespace TaintFlow
namespace Rule

/-- The tree can stand for nothing. -/
inductive Nullable : Rule → Prop where
  | blank {rule : Rule} (hkind : rule.kind = .blank) : Nullable rule
  | repetition {rule : Rule} (hkind : rule.kind = .repetition) : Nullable rule
  | seq {rule : Rule} (hkind : rule.kind = .seq)
      (hmembers : ∀ member ∈ rule.members, Nullable member) : Nullable rule
  | choice {rule member : Rule} (hkind : rule.kind = .choice) (hmember : member ∈ rule.members)
      (h : Nullable member) : Nullable rule
  | content {rule content : Rule}
      (hkind : rule.kind ∈ [RuleKind.prec, .precLeft, .precRight, .precDynamic, .field, .renamed,
        .repetition1])
      (hcontent : rule.content = some content) (h : Nullable content) : Nullable rule

/-- The tree can begin with the symbol of this name. -/
inductive First (name : String) : Rule → Prop where
  | symbol {rule : Rule} (hkind : rule.kind = .symbol) (hname : rule.name = some name) :
      First name rule
  | choice {rule member : Rule} (hkind : rule.kind = .choice) (hmember : member ∈ rule.members)
      (h : First name member) : First name rule
  | seq {rule member : Rule} {before behind : List Rule} (hkind : rule.kind = .seq)
      (hmembers : rule.members = before ++ member :: behind)
      (hbefore : ∀ earlier ∈ before, Nullable earlier) (h : First name member) : First name rule
  | content {rule content : Rule}
      (hkind : rule.kind ∈ [RuleKind.prec, .precLeft, .precRight, .precDynamic, .field, .renamed,
        .repetition, .repetition1, .token, .immediateToken, .reserved])
      (hcontent : rule.content = some content) (h : First name content) : First name rule

/-! ## The test names only what a tree can begin with -/

/- The recursion is that of the test, which looks into the content or into members, as
the kind of a node has it. -/
mutual
theorem first_of_startsWith {name : String} :
    ∀ rule : Rule, rule.startsWith name = true → First name rule
  | ⟨kind, value, symbol, content, members, named, flags, contextName⟩, h => by
    cases kind with
    | symbol => exact .symbol rfl (beq_iff_eq.mp h)
    | seq =>
      obtain ⟨first, rest, hmembers, hfirst⟩ := first_of_firstStartsWith members h
      exact .seq rfl (hmembers : members = [] ++ first :: rest) (List.forall_mem_nil _) hfirst
    | choice =>
      obtain ⟨member, hmember, hfirst⟩ := first_of_anyStartsWith members h
      exact .choice rfl hmember hfirst
    | prec | precLeft | precRight | precDynamic | field | renamed | repetition | repetition1 =>
      obtain ⟨inner, hcontent, hfirst⟩ := first_of_contentStartsWith content h
      exact .content (by simp) hcontent hfirst
    | blank | string | pattern | token | immediateToken | reserved => cases h

theorem first_of_contentStartsWith {name : String} :
    ∀ content : Option Rule, contentStartsWith name content = true →
      ∃ inner, content = some inner ∧ First name inner
  | none, h => by cases h
  | some inner, h => ⟨inner, rfl, first_of_startsWith inner h⟩

theorem first_of_firstStartsWith {name : String} :
    ∀ members : List Rule, firstStartsWith name members = true →
      ∃ first rest, members = first :: rest ∧ First name first
  | [], h => by cases h
  | first :: rest, h => ⟨first, rest, rfl, first_of_startsWith first h⟩

theorem first_of_anyStartsWith {name : String} :
    ∀ members : List Rule, anyStartsWith name members = true →
      ∃ member ∈ members, First name member
  | [], h => by cases h
  | first :: rest, h => by
    rw [anyStartsWith, Bool.or_eq_true] at h
    rcases h with hfirst | hrest
    · exact ⟨first, List.mem_cons_self, first_of_startsWith first hfirst⟩
    · obtain ⟨member, hmember, hbegins⟩ := first_of_anyStartsWith rest hrest
      exact ⟨member, List.mem_cons_of_mem first hmember, hbegins⟩
end

/-! ## Where the test misses nothing -/

/-- In a sequence anywhere in the tree the first member is not nullable, and nothing in
the tree is a token or has reserved words of its own. -/
structure FirstDecides (rule : Rule) : Prop where
  seq : ∀ node, Occurs node rule → node.kind = .seq →
    ∀ first ∈ node.members.head?, ¬Nullable first
  token : ∀ node, Occurs node rule →
    node.kind ∉ [RuleKind.token, .immediateToken, .reserved]

theorem FirstDecides.content {rule content : Rule} (h : rule.FirstDecides)
    (hcontent : rule.content = some content) : content.FirstDecides where
  seq node hnode := h.seq node (.inContent hcontent hnode)
  token node hnode := h.token node (.inContent hcontent hnode)

theorem FirstDecides.member {rule member : Rule} (h : rule.FirstDecides)
    (hmember : member ∈ rule.members) : member.FirstDecides where
  seq node hnode := h.seq node (.inMember hmember hnode)
  token node hnode := h.token node (.inMember hmember hnode)

theorem startsWith_of_symbol {name : String} {rule : Rule} (hkind : rule.kind = .symbol) :
    rule.startsWith name = (rule.name == some name) := by
  cases rule
  cases hkind
  rfl

theorem startsWith_of_choice {name : String} {rule : Rule} (hkind : rule.kind = .choice) :
    rule.startsWith name = rule.members.any (startsWith name) := by
  cases rule
  cases hkind
  exact anyStartsWith_eq name _

theorem startsWith_of_seq {name : String} {rule : Rule} (hkind : rule.kind = .seq) :
    rule.startsWith name = rule.members.head?.any (startsWith name) := by
  obtain ⟨kind, value, symbol, content, members, named, flags, contextName⟩ := rule
  cases hkind
  cases members <;> rfl

theorem startsWith_of_content {name : String} {rule : Rule}
    (hkind : rule.kind ∈ [RuleKind.prec, .precLeft, .precRight, .precDynamic, .field, .renamed,
      .repetition, .repetition1]) :
    rule.startsWith name = rule.content.any (startsWith name) := by
  obtain ⟨kind, value, symbol, content, members, named, flags, contextName⟩ := rule
  cases kind with
  | prec | precLeft | precRight | precDynamic | field | renamed | repetition | repetition1 =>
    cases content <;> rfl
  | symbol | seq | choice | blank | string | pattern | token | immediateToken | reserved =>
    exact absurd hkind (by simp)

theorem startsWith_of_first {name : String} {rule : Rule} (h : First name rule)
    (hdecides : rule.FirstDecides) : rule.startsWith name = true := by
  induction h with
  | symbol hkind hname =>
    rw [startsWith_of_symbol hkind, hname, beq_self_eq_true]
  | @choice rule member hkind hmember _ ih =>
    rw [startsWith_of_choice hkind, List.any_eq_true]
    exact ⟨member, hmember, ih (hdecides.member hmember)⟩
  | @seq rule member before behind hkind hmembers hbefore _ ih =>
    have hmember : member ∈ rule.members := by
      rw [hmembers]
      exact List.mem_append_right before List.mem_cons_self
    rw [startsWith_of_seq hkind]
    cases before with
    | nil =>
      rw [hmembers]
      exact ih (hdecides.member hmember)
    | cons first before =>
      -- the first member would be a nullable one
      have hhead : first ∈ rule.members.head? := by
        rw [hmembers]
        rfl
      exact absurd (hbefore first List.mem_cons_self) (hdecides.seq rule .self hkind first hhead)
  | @content rule content hkind hcontent _ ih =>
    have hsplit : rule.kind ∈ [RuleKind.prec, .precLeft, .precRight, .precDynamic, .field, .renamed,
        .repetition, .repetition1] ++ [.token, .immediateToken, .reserved] := hkind
    have hfollowed := (List.mem_append.mp hsplit).resolve_right (hdecides.token rule .self)
    rw [startsWith_of_content hfollowed, hcontent]
    exact ih (hdecides.content hcontent)

/-- A tree can begin with whatever the test for left recursion says that it starts
with.  Where first members of sequences are not nullable and there are no tokens, the
test says it of all that the tree can begin with. -/
theorem startsWith_iff_first (rule : Rule) (name : String) :
    (rule.startsWith name = true → First name rule) ∧
      (rule.FirstDecides → First name rule → rule.startsWith name = true) :=
  ⟨first_of_startsWith rule, fun hdecides h => startsWith_of_first h hdecides⟩

/-- A rule that begins with itself, though not in each of its ways, with a symbol among
the members of a node that has a content. -/
def cove : Rule where
  kind := .precLeft
  content := some {
    kind := .choice
    members := [{ kind := .string }, {
      kind := .seq
      members := [{ kind := .symbol, name := some "cove" }, { kind := .repetition }] }] }
  members := [{ kind := .symbol, name := some "stray" }]

theorem startsWith_iff_first_cove :
    cove.startsWith "cove" = true ∧ First "cove" cove ∧ cove.FirstDecides ∧
      ¬First "stray" cove := by
  have hfirst : First "cove" cove := (cove.startsWith_iff_first "cove").1 (by decide)
  have hsymbol : ∀ rule : Rule, rule.kind = .symbol → ¬Nullable rule := by
    intro rule hkind hnullable
    cases hnullable <;> simp_all
  have hheads : ∀ node ∈ cove.walk, node.kind = .seq →
      node.members.head?.all (fun first => first.kind == .symbol) = true := by
    decide
  have htokens : ∀ node ∈ cove.walk, node.kind ∉ [RuleKind.token, .immediateToken, .reserved] := by
    decide
  have hdecides : cove.FirstDecides := by
    refine ⟨fun node hnode hkind first hfirst => ?_, fun node hnode => ?_⟩
    · have hhead := hheads node (mem_walk_iff.mpr hnode) hkind
      rw [Option.mem_def.mp hfirst, Option.all_some, beq_iff_eq] at hhead
      exact hsymbol first hhead
    · exact htokens node (mem_walk_iff.mpr hnode)
  refine ⟨(cove.startsWith_iff_first "cove").2 hdecides hfirst, hfirst, hdecides, fun hstray => ?_⟩
  have hstart := (cove.startsWith_iff_first "stray").2 hdecides hstray
  exact absurd hstart (by decide)

end Rule
end TaintFlow
