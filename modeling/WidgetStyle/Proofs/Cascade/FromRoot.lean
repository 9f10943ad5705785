import WidgetStyle.Proofs.Cascade.Agreement
import WidgetStyle.Proofs.Matching.Siblings

/-!
# Styles from scratch

The style that a node has by itself, and the one that it gets when styles are
computed from the root down to it, both without any cache.  These are what a
cached style is measured against.  The second depends on the node, its ancestors,
and all the siblings before one of these, and on nothing else.
-/

namespace WidgetStyle

namespace Cascade

/-- The style at the end of a path, each node inheriting from the one above it.
The path starts with the lowest node; an empty path has no style. -/
def styleDown (cascade : Cascade) (surroundings : Surroundings) :
    List Node → Except StyleError (Option Style)
  | [] => .ok none
  | node :: above =>
      match cascade.styleDown surroundings above with
      | .error error => .error error
      | .ok parentStyle => (cascade.styleBelow parentStyle surroundings node).map some

/-- The style of a node computed from the root down, nothing for an unknown
node. -/
def freshStyle (cascade : Cascade) (tree : Tree) (id : NodeId) :
    Except StyleError (Option Style) :=
  match tree.get? id with
  | none => .ok none
  | some node => cascade.styleDown tree.surroundings (node :: tree.ancestors id)

/-- The style of a node by itself, nothing for an unknown node. -/
def plainStyle (cascade : Cascade) (tree : Tree) (id : NodeId) :
    Except StyleError (Option Style) :=
  match tree.get? id with
  | none => .ok none
  | some node => (cascade.styleOf tree.surroundings node).map some

/-- The style from scratch of a parent, nothing where there is no parent. -/
def styleAbove (cascade : Cascade) (tree : Tree) (parent : Option NodeId) :
    Except StyleError (Option Style) :=
  match parent with
  | none => .ok none
  | some parent => cascade.freshStyle tree parent

end Cascade

/-! ## From the parent to the node -/

namespace Tree

theorem climb_eq_chain (tree : Tree) (bound : Nat) (node : Node) :
    tree.climb bound node = Surroundings.chain tree.parent? bound node := by
  induction bound generalizing node with
  | zero => rfl
  | succ bound ih =>
      rw [climb, Surroundings.chain]
      cases tree.parent? node with
      | none => rfl
      | some parent => exact congrArg (parent :: ·) (ih parent)

namespace FormedBy

variable {birth : NodeId → Int} {tree : Tree}

theorem ancestors_root {id : NodeId} (parentless : tree.parentId? id = none) :
    tree.ancestors id = [] := by
  rw [ancestors]
  cases found : tree.get? id with
  | none => rfl
  | some node =>
      have last : tree.parent? node = none := by
        rw [parent?_eq found, parentless]
        rfl
      simp only [climb_eq_chain, Surroundings.chain_of_none last]

theorem ancestors_child (formed : tree.FormedBy birth) {id parent : NodeId} {upper : Node}
    (link : tree.parentId? id = some parent) (found : tree.get? parent = some upper) :
    tree.ancestors id = upper :: tree.ancestors parent := by
  obtain ⟨node, lookup⟩ := contains_iff.mp (contains_of_parentId? link)
  have step : tree.parent? node = some upper := by
    rw [parent?_eq lookup, link]
    exact found
  have ends := formed.ends_parent? found
  have fewer := elders_lt (contains_of_get? found) (formed.parentOlder link)
  have total := elders_lt_size birth (contains_of_get? lookup)
  rw [ancestors, ancestors, lookup, found]
  simp only [climb_eq_chain]
  obtain ⟨bound, size⟩ : ∃ bound, tree.size = bound + 1 := ⟨tree.size - 1, by omega⟩
  rw [ends.chain_eq (elders_le_size birth tree parent), size, Surroundings.chain_of_some step,
    ends.chain_eq (by omega)]

/-- The style from scratch of a node is computed from that of its parent. -/
theorem freshStyle_of_get? (formed : tree.FormedBy birth) (cascade : Cascade) {id : NodeId}
    {node : Node} (found : tree.get? id = some node) :
    cascade.freshStyle tree id =
      match cascade.styleAbove tree node.parent with
      | .error error => .error error
      | .ok above => (cascade.styleBelow above tree.surroundings node).map some := by
  have link := parentId?_of_get? found
  rw [Cascade.freshStyle, found]
  simp only [Cascade.styleDown]
  cases above : node.parent with
  | none =>
      rw [above] at link
      rw [ancestors_root link]
      rfl
  | some parent =>
      rw [above] at link
      obtain ⟨upper, upperFound⟩ := contains_iff.mp (formed.contains_parent link)
      rw [formed.ancestors_child link upperFound, Cascade.styleAbove, Cascade.freshStyle,
        upperFound]

theorem freshStyle_unknown (cascade : Cascade) {id : NodeId} (unknown : tree.get? id = none) :
    cascade.freshStyle tree id = .ok none := by
  rw [Cascade.freshStyle, unknown]

/-- A node of the tree has a style from scratch, or an error that stops it. -/
theorem freshStyle_ne_none (formed : tree.FormedBy birth) (cascade : Cascade) {id : NodeId}
    (known : tree.contains id = true) : cascade.freshStyle tree id ≠ .ok none := by
  obtain ⟨node, found⟩ := contains_iff.mp known
  rw [formed.freshStyle_of_get? cascade found]
  cases cascade.styleAbove tree node.parent with
  | error error => exact nofun
  | ok above =>
      cases result : cascade.styleBelow above tree.surroundings node with
      | error error => simp [result, Except.map]
      | ok style => simp [result, Except.map]

end FormedBy

end Tree

/-! ## Errors -/

namespace Cascade

/-- Whether a declaration fails does not depend on the style that it is applied to. -/
theorem apply_error {bindings : Variables} {declaration : Declaration} {style : Style}
    {error : StyleError} (failed : apply bindings style declaration = .error error)
    (other : Style) : apply bindings other declaration = .error error := by
  rw [apply, Style.declare?] at failed ⊢
  cases read : declarationAssignments? declaration.property declaration.value bindings with
  | error stopped =>
      rw [read] at failed
      cases failed
      rfl
  | ok assignments =>
      rw [read] at failed
      cases failed

theorem applyAll_error {bindings : Variables} {declarations : List Declaration} {style : Style}
    {error : StyleError} (failed : applyAll bindings style declarations = .error error)
    (other : Style) : applyAll bindings other declarations = .error error := by
  induction declarations generalizing style other with
  | nil => cases failed
  | cons declaration rest ih =>
      rw [applyAll] at failed ⊢
      cases first : apply bindings style declaration with
      | error stopped =>
          rw [first] at failed
          cases failed
          rw [apply_error first other]
      | ok next =>
          rw [first] at failed
          cases second : apply bindings other declaration with
          | error stopped =>
              rw [apply_error second style] at first
              cases first
          | ok otherNext => exact ih failed otherNext

theorem styleFrom_error {cascade : Cascade} {base : Style} {surroundings : Surroundings}
    {node : Node} {error : StyleError}
    (failed : cascade.styleFrom base surroundings node = .error error) (other : Style) :
    cascade.styleFrom other surroundings node = .error error := by
  rw [styleFrom] at failed ⊢
  cases done : cascade.matchesOf surroundings node with
  | error stopped =>
      rw [done] at failed
      exact failed
  | ok matched =>
      rw [done] at failed
      simp only at failed ⊢
      cases first : applyAll cascade.sheet.bindings base (declarationsOf false matched) with
      | error stopped =>
          rw [first] at failed
          cases failed
          rw [applyAll_error first other]
      | ok normal =>
          rw [first] at failed
          cases second : applyAll cascade.sheet.bindings other
              (declarationsOf false matched) with
          | error stopped =>
              rw [applyAll_error second base] at first
              cases first
          | ok otherNormal => exact applyAll_error failed _

end Cascade

/-- A node that cannot be styled, whatever it inherits, has no style from scratch. -/
theorem Tree.FormedBy.exists_error_of_styleBelow {birth : NodeId → Int} {tree : Tree}
    (formed : tree.FormedBy birth)
    {cascade : Cascade} {id : NodeId} {node : Node} {parentStyle : Option Style}
    {error : StyleError} (found : tree.get? id = some node)
    (failed : cascade.styleBelow parentStyle tree.surroundings node = .error error) :
    ∃ error, cascade.freshStyle tree id = .error error := by
  rw [formed.freshStyle_of_get? cascade found]
  cases cascade.styleAbove tree node.parent with
  | error stopped => exact ⟨stopped, rfl⟩
  | ok above =>
      have again : cascade.styleBelow above tree.surroundings node = .error error :=
        Cascade.styleFrom_error failed _
      simp only [again]
      exact ⟨error, rfl⟩

/-! ## Trees that resemble each other -/

/-- Inheriting is alike for some pairs of nodes: they cannot be told apart by
matching, they carry the same inline styles, and so do their parents. -/
structure Tree.Inherits (left right : Tree) (Seen Paired : NodeId → NodeId → Prop) : Prop where
  resemble : Tree.Resemble left right Seen
  seen : ∀ {first second}, Paired first second → Seen first second
  inlineStyle : ∀ {first second one other}, Paired first second →
    left.get? first = some one → right.get? second = some other →
      one.inlineStyle = other.inlineStyle
  parent : ∀ {first second}, Paired first second →
    Option.Rel Paired (left.parentId? first) (right.parentId? second)

namespace Tree.Inherits

variable {left right : Tree} {leftBirth rightBirth : NodeId → Int}
  {Seen Paired : NodeId → NodeId → Prop}

/-- Paired nodes have the same style from scratch. -/
theorem freshStyle_eq (inherits : Tree.Inherits left right Seen Paired)
    (leftFormed : left.FormedBy leftBirth) (rightFormed : right.FormedBy rightBirth)
    (cascade : Cascade)
    {first second : NodeId} (paired : Paired first second) :
    cascade.freshStyle left first = cascade.freshStyle right second := by
  have alive : ∀ {first second}, Paired first second → left.contains first = true := by
    intro first second paired
    obtain ⟨one, -, found, -⟩ := inherits.resemble.like (inherits.seen paired)
    exact contains_of_get? found
  refine leftFormed.inductionUp
    (motive := fun first => ∀ second, Paired first second →
      cascade.freshStyle left first = cascade.freshStyle right second)
    ?_ (alive paired) second paired
  intro first _ above second paired
  obtain ⟨one, other, found, otherFound, -⟩ := inherits.resemble.like (inherits.seen paired)
  have parents := inherits.parent paired
  have styles := cascade.styleFrom_eq (inherits.resemble.surroundings leftFormed rightFormed)
    ⟨first, second, inherits.seen paired, found, otherFound⟩
    (inherits.inlineStyle paired found otherFound)
  have same : cascade.styleAbove left one.parent = cascade.styleAbove right other.parent := by
    rw [← parentId?_of_get? found, ← parentId?_of_get? otherFound]
    cases link : left.parentId? first with
    | none =>
        rw [link] at parents
        cases parents' : right.parentId? second with
        | none => rfl
        | some parent => rw [parents'] at parents; cases parents
    | some parent =>
        rw [link] at parents
        cases parents' : right.parentId? second with
        | none => rw [parents'] at parents; cases parents
        | some parent' =>
            rw [parents'] at parents
            cases parents with
            | some paired => exact above parent link parent' paired
  rw [leftFormed.freshStyle_of_get? cascade found, rightFormed.freshStyle_of_get? cascade otherFound,
    same]
  simp only [Cascade.styleBelow, styles]

end Tree.Inherits

end WidgetStyle
