/-
Nodes by the paths that lead to them.

A path goes from the root of a rule to a node, step by step: to the content, or to
the member at some place.  Paths are in pre-order when a node comes before what is
inside it, the content before the members, and the members come from left to right
(`Before`).  The order is said of paths and not of a list of nodes, so it has
nothing to do with how a tree is gone through.

`exists_path_of_walk` says that a walk has this order: what stands at an earlier
path stands earlier in the walk.
-/
import TaintFlow.Proofs.Grammar.Occurrence

namespace TaintFlow

/-- A step from a node to one of its children. -/
inductive Step where
  | content
  | member (index : Nat)
  deriving DecidableEq

/-- The steps from the root of a tree to one of its nodes. -/
abbrev Path := List Step

/-- The pre-order of paths. -/
inductive Path.Before : Path → Path → Prop where
  /-- A node comes before what is inside it. -/
  | inside {step : Step} {path : Path} : Before [] (step :: path)
  | content {path other : Path} {index : Nat} :
      Before (.content :: path) (.member index :: other)
  | members {path other : Path} {index later : Nat} (h : index < later) :
      Before (.member index :: path) (.member later :: other)
  | deeper {step : Step} {path other : Path} (h : Before path other) :
      Before (step :: path) (step :: other)

/-- Of two paths one comes first. -/
theorem Path.before_or_before {path other : Path} (hne : path ≠ other) :
    Before path other ∨ Before other path := by
  induction path generalizing other with
  | nil =>
    obtain ⟨step, rest, rfl⟩ := List.exists_cons_of_ne_nil hne.symm
    exact .inl .inside
  | cons step path ih =>
    cases other with
    | nil => exact .inr .inside
    | cons next other =>
      by_cases hstep : step = next
      · subst hstep
        have hpaths : path ≠ other := fun heq => hne (congrArg (step :: ·) heq)
        exact (ih hpaths).imp .deeper .deeper
      · cases step with
        | content =>
          cases next with
          | content => exact absurd rfl hstep
          | member index => exact .inl .content
        | member index =>
          cases next with
          | content => exact .inr .content
          | member later =>
            have hindex : index ≠ later := fun heq => hstep (congrArg Step.member heq)
            exact (Nat.lt_or_gt_of_ne hindex).imp .members .members

/-- A place in two lists, one behind the other, is in the first or in the second. -/
theorem place_in_append {α : Type} {first second front back : List α} {a : α}
    (h : first ++ second = front ++ a :: back) :
    (∃ rest, first = front ++ a :: rest) ∨
      ∃ rest, front = first ++ rest ∧ second = rest ++ a :: back := by
  rcases List.append_eq_append_iff.mp h with ⟨rest, hfront, hsecond⟩ | ⟨rest, hfirst, hrest⟩
  · exact .inr ⟨rest, hfront, hsecond⟩
  · cases rest with
    | nil =>
      rw [List.append_nil] at hfirst
      exact .inr ⟨[], by rw [hfirst, List.append_nil], hrest.symm⟩
    | cons b rest =>
      obtain ⟨rfl, -⟩ := List.cons.inj hrest
      exact .inl ⟨rest, hfirst⟩

namespace Rule

/-- The node at the end of a path, if the path stays in the tree. -/
def node? (rule : Rule) : Path → Option Rule
  | [] => some rule
  | .content :: path => rule.content.bind fun content => content.node? path
  | .member index :: path => rule.members[index]?.bind fun member => member.node? path

theorem node?_content_eq_some_iff {rule node : Rule} {path : Path} :
    rule.node? (.content :: path) = some node ↔
      ∃ content, rule.content = some content ∧ content.node? path = some node :=
  Option.bind_eq_some_iff

theorem node?_member_eq_some_iff {rule node : Rule} {index : Nat} {path : Path} :
    rule.node? (.member index :: path) = some node ↔
      ∃ member, rule.members[index]? = some member ∧ member.node? path = some node :=
  Option.bind_eq_some_iff

theorem occurs_of_node? {rule node : Rule} {path : Path} (h : rule.node? path = some node) :
    Occurs node rule := by
  induction path generalizing rule with
  | nil =>
    obtain rfl := Option.some.inj h
    exact .self
  | cons step path ih =>
    cases step with
    | content =>
      obtain ⟨content, hcontent, hnode⟩ := node?_content_eq_some_iff.mp h
      exact .inContent hcontent (ih hnode)
    | member index =>
      obtain ⟨member, hmember, hnode⟩ := node?_member_eq_some_iff.mp h
      exact .inMember (List.mem_of_getElem? hmember) (ih hnode)

/-! ## The order of a walk -/

/-- The nodes of the members that come before the one at a path in the member at an
index. -/
def EarlierMember (members : List Rule) (index : Nat) (path : Path) (earlier : Rule) : Prop :=
  ∃ place other member, (place < index ∨ place = index ∧ Path.Before other path) ∧
    members[place]? = some member ∧ member.node? other = some earlier

/- The recursion is that of the walk.  A node of the content has the root and earlier
nodes of the content before it, and a node of a member has the whole content and the
members to its left before it too. -/
mutual
theorem exists_path_of_walk {node : Rule} {back : List Rule} :
    ∀ (rule : Rule) (front : List Rule), rule.walk = front ++ node :: back →
      ∃ path, rule.node? path = some node ∧
        ∀ other earlier, Path.Before other path → rule.node? other = some earlier →
          earlier ∈ front
  | ⟨kind, value, name, content, members, named, flags, contextName⟩, front, h => by
    rw [walk] at h
    cases front with
    | nil =>
      obtain ⟨rfl, -⟩ := List.cons.inj h
      refine ⟨[], rfl, fun other earlier hbefore => ?_⟩
      cases hbefore
    | cons root front =>
      obtain ⟨rfl, hrest⟩ := List.cons.inj h
      rcases place_in_append hrest with ⟨rest, hcontent⟩ | ⟨rest, rfl, hmembers⟩
      · obtain ⟨inner, path, rfl, hnode, hearlier⟩ :=
          exists_path_of_walkContent content front hcontent
        refine ⟨.content :: path, hnode, fun other earlier hbefore hother => ?_⟩
        cases hbefore with
        | inside => exact List.mem_cons.mpr (.inl (Option.some.inj hother).symm)
        | deeper hbefore => exact List.mem_cons_of_mem _ (hearlier _ _ hbefore hother)
      · obtain ⟨index, member, path, hmember, hnode, hearlier⟩ :=
          exists_path_of_walkMembers members rest hmembers
        refine ⟨.member index :: path, node?_member_eq_some_iff.mpr ⟨member, hmember, hnode⟩,
          fun other earlier hbefore hother => ?_⟩
        cases hbefore with
        | inside => exact List.mem_cons.mpr (.inl (Option.some.inj hother).symm)
        | content =>
          obtain ⟨inner, rfl, hinner⟩ := node?_content_eq_some_iff.mp hother
          have hwalk : earlier ∈ inner.walk := mem_walk_iff.mpr (occurs_of_node? hinner)
          exact List.mem_cons_of_mem _ (List.mem_append_left _ hwalk)
        | members hlt =>
          obtain ⟨left, hleft, hnode⟩ := node?_member_eq_some_iff.mp hother
          have hmem := hearlier earlier ⟨_, _, left, .inl hlt, hleft, hnode⟩
          exact List.mem_cons_of_mem _ (List.mem_append_right _ hmem)
        | deeper hbefore =>
          obtain ⟨left, hleft, hnode⟩ := node?_member_eq_some_iff.mp hother
          have hmem := hearlier earlier ⟨_, _, left, .inr ⟨rfl, hbefore⟩, hleft, hnode⟩
          exact List.mem_cons_of_mem _ (List.mem_append_right _ hmem)

theorem exists_path_of_walkContent {node : Rule} {back : List Rule} :
    ∀ (content : Option Rule) (front : List Rule), walkContent content = front ++ node :: back →
      ∃ inner path, content = some inner ∧ inner.node? path = some node ∧
        ∀ other earlier, Path.Before other path → inner.node? other = some earlier →
          earlier ∈ front
  | none, front, h => by
    rw [walkContent] at h
    exact absurd h.symm (List.append_ne_nil_of_right_ne_nil front (List.cons_ne_nil node back))
  | some inner, front, h => by
    rw [walkContent] at h
    obtain ⟨path, hnode, hearlier⟩ := exists_path_of_walk inner front h
    exact ⟨inner, path, rfl, hnode, hearlier⟩

theorem exists_path_of_walkMembers {node : Rule} {back : List Rule} :
    ∀ (members front : List Rule), walkMembers members = front ++ node :: back →
      ∃ index member path, members[index]? = some member ∧ member.node? path = some node ∧
        ∀ earlier, EarlierMember members index path earlier → earlier ∈ front
  | [], front, h => by
    rw [walkMembers] at h
    exact absurd h.symm (List.append_ne_nil_of_right_ne_nil front (List.cons_ne_nil node back))
  | first :: rest, front, h => by
    rw [walkMembers] at h
    rcases place_in_append h with ⟨behind, hfirst⟩ | ⟨behind, rfl, hrest⟩
    · obtain ⟨path, hnode, hearlier⟩ := exists_path_of_walk first front hfirst
      refine ⟨0, first, path, rfl, hnode, ?_⟩
      rintro earlier ⟨place, other, member, hplace | ⟨rfl, hbefore⟩, hmember, hother⟩
      · exact absurd hplace (Nat.not_lt_zero place)
      · obtain rfl := Option.some.inj hmember
        exact hearlier other earlier hbefore hother
    · obtain ⟨index, member, path, hmember, hnode, hearlier⟩ :=
        exists_path_of_walkMembers rest behind hrest
      refine ⟨index + 1, member, path, hmember, hnode, ?_⟩
      rintro earlier ⟨place, other, left, hplace, hleft, hother⟩
      cases place with
      | zero =>
        obtain rfl := Option.some.inj hleft
        exact List.mem_append_left _ (mem_walk_iff.mpr (occurs_of_node? hother))
      | succ place =>
        have hplace : place < index ∨ place = index ∧ Path.Before other path := by
          rcases hplace with hlt | ⟨heq, hbefore⟩
          · exact .inl (Nat.lt_of_succ_lt_succ hlt)
          · exact .inr ⟨Nat.succ.inj heq, hbefore⟩
        exact List.mem_append_right _ (hearlier earlier ⟨place, other, left, hplace, hleft, hother⟩)
end

end Rule
end TaintFlow
