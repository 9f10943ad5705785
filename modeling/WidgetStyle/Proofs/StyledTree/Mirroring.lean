import WidgetStyle.Proofs.StyledTree.Runs
import WidgetStyle.Proofs.Tree.Region

/-!
# Trees that mirror views

A build brings the tree in line with a view: every node becomes what its part of
the view describes, with children that mirror the children of that part in order.
Mirroring is a matter of cores and lists of children alone, so a change that
leaves these alone in a subtree leaves the subtree a mirror.  Nodes that mirror a
view are plain: nothing but builds has made them what they are.
-/

namespace WidgetStyle

open StyledTree

/-! ## Identities -/

namespace Identity

/-- Two identities of one kind of widget, with the same set of classes. -/
structure Agrees (left right : Identity) : Prop where
  widgetType : left.widgetType = right.widgetType
  elementId : left.elementId = right.elementId
  classes : ∀ name, name ∈ left.classes ↔ name ∈ right.classes

theorem foldl_insertName_of_nodup {names more : List String} (distinct : (names ++ more).Nodup) :
    more.foldl insertName names = names ++ more := by
  induction more generalizing names with
  | nil => rw [List.append_nil, List.foldl_nil]
  | cons name rest ih =>
      have split := List.nodup_append.mp distinct
      have new : names.contains name = false := by
        rw [Bool.eq_false_iff, ne_eq, List.contains_iff_mem]
        intro member
        exact split.2.2 name member name List.mem_cons_self rfl
      rw [List.foldl_cons, insertName, new, if_neg Bool.false_ne_true, ih, List.append_assoc]
      · rfl
      · rwa [List.append_assoc]

theorem foldl_insertName_nil {names : List String} (distinct : names.Nodup) :
    names.foldl insertName [] = names :=
  foldl_insertName_of_nodup distinct

theorem mem_insertName_iff {names : List String} {name other : String} :
    other ∈ insertName names name ↔ other ∈ names ∨ other = name := by
  rw [insertName]
  split
  · rename_i known
    rw [List.contains_iff_mem] at known
    rw [iff_self_or]
    rintro rfl
    exact known
  · rw [List.mem_append, List.mem_singleton]

theorem mem_foldl_insertName_iff {names more : List String} {name : String} :
    name ∈ more.foldl insertName names ↔ name ∈ names ∨ name ∈ more := by
  induction more generalizing names with
  | nil => simp
  | cons first rest ih => rw [List.foldl_cons, ih, mem_insertName_iff, List.mem_cons, or_assoc]

theorem mem_iff_of_sameNames {left right : List String} (same : sameNames left right = true)
    (name : String) : name ∈ left ↔ name ∈ right := by
  rw [sameNames, Bool.and_eq_true, List.all_eq_true, List.all_eq_true] at same
  constructor
  · intro member
    exact List.contains_iff_mem.mp (same.1 name member)
  · intro member
    exact List.contains_iff_mem.mp (same.2 name member)

end Identity

namespace View

mutual

/-- Every widget of the view lists each of its classes once. -/
def Proper : View → Prop
  | widget identity children => identity.classes.Nodup ∧ AllProper children

/-- All the views are proper. -/
def AllProper : List View → Prop
  | [] => True
  | view :: rest => view.Proper ∧ AllProper rest

end

theorem allProper_iff {views : List View} :
    AllProper views ↔ ∀ view, view ∈ views → view.Proper := by
  induction views with
  | nil => simp [AllProper]
  | cons view rest ih => simp [AllProper, ih]

theorem allProper_append_iff {views others : List View} :
    AllProper (views ++ others) ↔ AllProper views ∧ AllProper others := by
  simp only [allProper_iff, List.mem_append]
  constructor
  · intro proper
    exact ⟨fun view member => proper view (.inl member),
      fun view member => proper view (.inr member)⟩
  · rintro ⟨first, second⟩ view (member | member)
    · exact first view member
    · exact second view member

end View

/-! ## Plain nodes -/

/-- A core as builds make it: in no special state, with no place of its own and no
style of its own. -/
structure Node.Plain (node : Node) : Prop where
  flags : node.flags = {}
  placement : node.placement = {}
  inlineStyle : node.inlineStyle = none
  classes : node.identity.classes.Nodup

namespace Tree

variable {before tree after : Tree}

/-- All nodes are plain. -/
def Plain (tree : Tree) : Prop :=
  ∀ id node, tree.core? id = some node → node.Plain

theorem plain_newNode (tree : Tree) {identity : Identity} (distinct : identity.classes.Nodup)
    (parent : Option NodeId) : (tree.newNode identity parent).core.Plain where
  flags := rfl
  placement := by
    cases parent <;> rfl
  inlineStyle := rfl
  classes := distinct

theorem Plain.append (plain : tree.Plain) (wellFormed : tree.WellFormed) {parent new : NodeId}
    {identity : Identity} (distinct : identity.classes.Nodup)
    (added : tree.appendChild parent identity = .ok (new, after)) : after.Plain := by
  intro id node found
  rw [(wellFormed.appended added).core] at found
  split at found
  · cases found
    exact plain_newNode tree distinct _
  · exact plain id node found

theorem Plain.remove (plain : tree.Plain) (wellFormed : tree.WellFormed) (id : NodeId) :
    (tree.removeSubtree id).2.Plain := by
  cases known : tree.get? id with
  | none => rwa [removeSubtree_unknown known]
  | some removed =>
      intro other node found
      have alive := contains_of_get? known
      have kept := ((wellFormed.removed alive).contains_iff wellFormed.toLinkedBy).mp
        ((contains_eq_isSome_core? _ other).trans (Option.isSome_iff_exists.mpr ⟨node, found⟩))
      rw [wellFormed.core?_removeSubtree alive kept.2] at found
      exact plain other node found

theorem Plain.permute (plain : tree.Plain) (wellFormed : tree.WellFormed) {parent : NodeId}
    {order : List NodeId} (done : tree.permuteChildren parent order = .ok after) :
    after.Plain := by
  intro id node found
  rw [(wellFormed.permuted done).core] at found
  exact plain id node found

theorem Plain.reclass (plain : tree.Plain) {changed : NodeId} {classes : List String}
    (distinct : classes.Nodup) (done : tree.replaceClasses changed classes = .ok after) :
    after.Plain := by
  intro id node found
  rw [(reclassed done).core, Identity.foldl_insertName_nil distinct] at found
  split at found
  · obtain ⟨former, lookup, same⟩ := Option.map_eq_some_iff.mp found
    have kept := plain changed former lookup
    rw [← same]
    exact ⟨kept.flags, kept.placement, kept.inlineStyle, distinct⟩
  · exact plain id node found

/-! ## Mirrors -/

mutual

/-- The node and all that is below it are as the view describes. -/
inductive Mirrors (tree : Tree) : NodeId → View → Prop where
  | widget {id : NodeId} {node : Node} {identity : Identity} {children : List View} :
      tree.core? id = some node → node.identity.Agrees identity →
        MirrorsAll tree (tree.childrenOf id) children →
          Mirrors tree id (.widget identity children)

/-- The nodes mirror the views one by one. -/
inductive MirrorsAll (tree : Tree) : List NodeId → List View → Prop where
  | nil : MirrorsAll tree [] []
  | cons {id : NodeId} {ids : List NodeId} {view : View} {views : List View} :
      Mirrors tree id view → MirrorsAll tree ids views → MirrorsAll tree (id :: ids) (view :: views)

end

theorem Mirrors.contains {id : NodeId} {view : View} (mirrors : tree.Mirrors id view) :
    tree.contains id = true := by
  cases mirrors with
  | widget found _ _ =>
      rw [contains_eq_isSome_core?, found]
      rfl

theorem mirrorsAll_iff_forall₂ {ids : List NodeId} {views : List View} :
    tree.MirrorsAll ids views ↔ List.Forall₂ tree.Mirrors ids views := by
  induction ids generalizing views with
  | nil =>
      constructor
      · intro mirrors
        cases mirrors
        exact .nil
      · intro mirrors
        cases mirrors
        exact .nil
  | cons id ids ih =>
      constructor
      · intro mirrors
        cases mirrors with
        | cons first rest => exact .cons first (ih.mp rest)
      · intro mirrors
        cases mirrors with
        | cons first rest => exact .cons first (ih.mpr rest)

theorem MirrorsAll.append {first second : List NodeId} {firstViews secondViews : List View}
    (front : tree.MirrorsAll first firstViews) (back : tree.MirrorsAll second secondViews) :
    tree.MirrorsAll (first ++ second) (firstViews ++ secondViews) := by
  rw [mirrorsAll_iff_forall₂] at front back ⊢
  exact List.rel_append front back

/-- What is left alone from some nodes downwards stays a mirror there. -/
structure Untouched (before after : Tree) (Kept : NodeId → Prop) : Prop where
  core : ∀ {id}, Kept id → after.core? id = before.core? id
  children : ∀ {id}, Kept id → after.childrenOf id = before.childrenOf id
  down : ∀ {id child}, Kept id → child ∈ before.childrenOf id → Kept child

mutual

theorem Mirrors.transport {Kept : NodeId → Prop} (untouched : Untouched before after Kept)
    {id : NodeId} : {view : View} → before.Mirrors id view → Kept id → after.Mirrors id view
  | .widget _ _, .widget found agrees below, kept => by
      refine .widget ((untouched.core kept).trans found) agrees ?_
      rw [untouched.children kept]
      exact MirrorsAll.transport untouched below fun _ member => untouched.down kept member

theorem MirrorsAll.transport {Kept : NodeId → Prop} (untouched : Untouched before after Kept) :
    {ids : List NodeId} → {views : List View} → before.MirrorsAll ids views →
      (∀ id, id ∈ ids → Kept id) → after.MirrorsAll ids views
  | _, _, .nil, _ => .nil
  | _, _, .cons first rest, kept =>
      .cons (Mirrors.transport untouched first (kept _ List.mem_cons_self))
        (MirrorsAll.transport untouched rest fun id member => kept id (List.mem_cons_of_mem _ member))

end

/-- A mirror that lies apart from what a change touches stays a mirror. -/
theorem Mirrors.outside {Touched : NodeId → Prop} (confined : Confined before after Touched)
    (linked : before.Linked) {top : NodeId} {view : View} (mirrors : before.Mirrors top view)
    (apart : ∀ id, before.Below top id → ¬Touched id) : after.Mirrors top view := by
  have untouched : Untouched before after fun id =>
      before.contains id = true ∧ before.Below top id := by
    constructor
    · intro id kept
      exact confined.core kept.1 (apart id kept.2)
    · intro id kept
      exact confined.children kept.1 (apart id kept.2)
    · intro id child kept member
      exact ⟨linked.contains_child member, .child (linked.childOf.mp member) kept.2⟩
  exact mirrors.transport untouched ⟨mirrors.contains, .top⟩

theorem MirrorsAll.outside {Touched : NodeId → Prop} (confined : Confined before after Touched)
    (linked : before.Linked) {tops : List NodeId} {views : List View}
    (mirrors : before.MirrorsAll tops views)
    (apart : ∀ top, top ∈ tops → ∀ id, before.Below top id → ¬Touched id) :
    after.MirrorsAll tops views := by
  induction tops generalizing views with
  | nil =>
      cases mirrors
      exact .nil
  | cons top rest ih =>
      cases mirrors with
      | cons first others =>
          refine .cons (first.outside confined linked (apart top List.mem_cons_self)) ?_
          exact ih others fun other member => apart other (List.mem_cons_of_mem _ member)

end Tree

end WidgetStyle
