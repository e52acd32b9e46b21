/-
How deep a tree goes, and how deep one has to call for it.

The weight of a path counts a step to the content once and a step to a member twice,
which is what the brackets around them come to in an artifact.  A tree fits in a
budget (`FitsIn`) when all its paths weigh less.

`walkWithin` and `startsWithWithin` go through a tree as `walk` and `startsWith` do,
but may make only so many calls inside one another, and come to nothing where they
would need more.  `walkWithin_eq` and `startsWithWithin_eq` say that a tree that fits
in a budget needs no more levels than that.
-/
import TaintFlow.Grammar.LeftRecursion
import TaintFlow.Proofs.Grammar.Paths

namespace TaintFlow

def Step.weight : Step → Nat
  | .content => 1
  | .member _ => 2

namespace Path

/-- The number of steps to a content, and twice the number of steps to a member. -/
def weight : Path → Nat
  | [] => 0
  | step :: path => step.weight + weight path

theorem length_le_weight (path : Path) : path.length ≤ path.weight := by
  induction path with
  | nil => exact Nat.le_refl 0
  | cons step path ih =>
    have hstep : 1 ≤ step.weight := by
      cases step with
      | content => exact Nat.le_refl 1
      | member _ => exact Nat.le_succ 1
    show path.length + 1 ≤ step.weight + weight path
    omega

end Path

/-! ## Calls that come to something -/

theorem mapM_eq_some_map {α β : Type} {f : α → Option β} {g : α → β} {as : List α}
    (h : ∀ a ∈ as, f a = some (g a)) : as.mapM f = some (as.map g) := by
  induction as with
  | nil => rfl
  | cons a as ih =>
    rw [List.forall_mem_cons] at h
    rw [List.mapM_cons, h.1, ih h.2]
    rfl

theorem anyM_eq_some_any {α : Type} {f : α → Option Bool} {g : α → Bool} {as : List α}
    (h : ∀ a ∈ as, f a = some (g a)) : as.anyM f = some (as.any g) := by
  induction as with
  | nil => rfl
  | cons a as ih =>
    rw [List.forall_mem_cons] at h
    rw [List.anyM, h.1, List.any_cons]
    cases g a with
    | true => rfl
    | false => exact ih h.2

namespace Rule

/-! ## Budgets -/

def FitsIn (budget : Nat) (tree : Rule) : Prop :=
  ∀ path node, tree.node? path = some node → path.weight < budget

theorem FitsIn.mono {budget more : Nat} {tree : Rule} (h : tree.FitsIn budget)
    (hle : budget ≤ more) : tree.FitsIn more :=
  fun path node hnode => Nat.lt_of_lt_of_le (h path node hnode) hle

/-- The children of a node fit in what is left of the budget in it: all of it for the
content, and one less for the members, which have a bracket around them. -/
structure ChildrenFit (budget : Nat) (tree : Rule) : Prop where
  content : ∀ content, tree.content = some content → content.FitsIn budget
  members : ∀ member ∈ tree.members, member.FitsIn (budget - 1)

theorem ChildrenFit.fitsIn {budget : Nat} {tree : Rule} (h : tree.ChildrenFit budget) :
    tree.FitsIn (budget + 1) := by
  intro path node hnode
  cases path with
  | nil => exact Nat.succ_pos budget
  | cons step path =>
    cases step with
    | content =>
      obtain ⟨content, hcontent, hinner⟩ := node?_content_eq_some_iff.mp hnode
      have hweight := h.content content hcontent path node hinner
      show 1 + Path.weight path < budget + 1
      omega
    | member index =>
      obtain ⟨member, hmember, hinner⟩ := node?_member_eq_some_iff.mp hnode
      have hweight := h.members member (List.mem_of_getElem? hmember) path node hinner
      show 2 + Path.weight path < budget + 1
      omega

/-! ## Levels of calls -/

/-- The walk of a tree with at most `levels` calls inside one another. -/
def walkWithin : (levels : Nat) → Rule → Option (List Rule)
  | 0, _ => none
  | levels + 1, tree =>
    (tree.children.mapM (walkWithin levels)).map fun walks => tree :: walks.flatten

/-- The test for what a tree starts with, with at most `levels` calls inside one
another. -/
def startsWithWithin (name : String) : (levels : Nat) → Rule → Option Bool
  | 0, _ => none
  | levels + 1, tree =>
    match tree.kind with
    | .symbol => some (tree.name == some name)
    | .seq =>
      match tree.members with
      | [] => some false
      | first :: _ => startsWithWithin name levels first
    | .choice => tree.members.anyM (startsWithWithin name levels)
    | .prec | .precLeft | .precRight | .precDynamic | .field | .renamed | .repetition
    | .repetition1 =>
      match tree.content with
      | none => some false
      | some content => startsWithWithin name levels content
    | _ => some false

/-- No node is further from the root than the levels that are left. -/
def HasLevels (levels : Nat) (tree : Rule) : Prop :=
  ∀ path node, tree.node? path = some node → path.length < levels

theorem FitsIn.hasLevels {budget : Nat} {tree : Rule} (h : tree.FitsIn budget) :
    tree.HasLevels budget :=
  fun path node hnode => Nat.lt_of_le_of_lt path.length_le_weight (h path node hnode)

theorem not_hasLevels_zero (tree : Rule) : ¬tree.HasLevels 0 :=
  fun h => Nat.not_lt_zero 0 (h [] tree rfl)

theorem HasLevels.content {levels : Nat} {tree content : Rule} (h : tree.HasLevels (levels + 1))
    (hcontent : tree.content = some content) : content.HasLevels levels := by
  intro path node hnode
  have hlength := h (.content :: path) node
    (node?_content_eq_some_iff.mpr ⟨content, hcontent, hnode⟩)
  exact Nat.lt_of_succ_lt_succ hlength

theorem HasLevels.member {levels : Nat} {tree member : Rule} (h : tree.HasLevels (levels + 1))
    (hmember : member ∈ tree.members) : member.HasLevels levels := by
  intro path node hnode
  obtain ⟨index, hindex⟩ := List.mem_iff_getElem?.mp hmember
  have hlength := h (.member index :: path) node
    (node?_member_eq_some_iff.mpr ⟨member, hindex, hnode⟩)
  exact Nat.lt_of_succ_lt_succ hlength

theorem HasLevels.child {levels : Nat} {tree child : Rule} (h : tree.HasLevels (levels + 1))
    (hchild : child ∈ tree.children) : child.HasLevels levels := by
  rcases List.mem_append.mp hchild with hcontent | hmember
  · exact h.content (Option.mem_toList.mp hcontent)
  · exact h.member hmember

/-- The walk of a tree calls no deeper than the tree goes. -/
theorem walkWithin_eq {levels : Nat} {tree : Rule} (h : tree.HasLevels levels) :
    tree.walkWithin levels = some tree.walk := by
  induction levels generalizing tree with
  | zero => exact absurd h tree.not_hasLevels_zero
  | succ levels ih =>
    have hchildren : tree.children.mapM (walkWithin levels) = some (tree.children.map walk) :=
      mapM_eq_some_map fun child hchild => ih (h.child hchild)
    rw [walkWithin, hchildren, Option.map_some, walk_eq tree, List.flatMap]

theorem anyStartsWith_eq (name : String) (members : List Rule) :
    anyStartsWith name members = members.any (startsWith name) := by
  induction members with
  | nil => rfl
  | cons first rest ih => rw [anyStartsWith, List.any_cons, ih]

/-- The test for what a tree starts with calls no deeper than the tree goes. -/
theorem startsWithWithin_eq {levels : Nat} {tree : Rule} (h : tree.HasLevels levels)
    (name : String) : tree.startsWithWithin name levels = some (tree.startsWith name) := by
  induction levels generalizing tree with
  | zero => exact absurd h tree.not_hasLevels_zero
  | succ levels ih =>
    have hcontent : (match tree.content with
        | none => some false
        | some content => startsWithWithin name levels content) =
          some (contentStartsWith name tree.content) := by
      cases hcontent : tree.content with
      | none => rfl
      | some content => exact ih (h.content hcontent)
    have hfirst : (match tree.members with
        | [] => some false
        | first :: _ => startsWithWithin name levels first) =
          some (firstStartsWith name tree.members) := by
      cases hmembers : tree.members with
      | nil => rfl
      | cons first rest =>
        have hmem : first ∈ tree.members := by
          rw [hmembers]
          exact List.mem_cons_self
        exact ih (h.member hmem)
    have hany : tree.members.anyM (startsWithWithin name levels) =
        some (anyStartsWith name tree.members) := by
      rw [anyStartsWith_eq]
      exact anyM_eq_some_any fun member hmember => ih (h.member hmember)
    obtain ⟨kind, value, symbol, content, members, named, flags, contextName⟩ := tree
    unfold startsWithWithin startsWith
    cases kind with
    | seq => exact hfirst
    | choice => exact hany
    | prec | precLeft | precRight | precDynamic | field | renamed | repetition | repetition1 =>
      exact hcontent
    | symbol | blank | string | pattern | token | immediateToken | reserved => rfl

end Rule
end TaintFlow
