import Mathlib.Data.List.Pairwise
import WidgetStyle.Proofs.History.Basic
import WidgetStyle.Proofs.Tree.Core
import WidgetStyle.Proofs.Tree.Entries

/-!
# The registry of a reachable tree

A change of a tree does one thing to its registry: it withdraws the nodes that go,
or whose identity changes, and then enters at most one node, the new one or the one
with its new identity.  All else that a change does leaves identities and registry
alone.  So the registry lists the same nodes as a search through the tree would
find, and an element id that no two nodes ever shared leads to the node that has it.
-/

namespace WidgetStyle

/-- When no value is found twice, two items that have one value are the same. -/
theorem eq_of_nodup_filterMap {Item Value : Type} {items : List Item}
    {value? : Item → Option Value} (distinct : (items.filterMap value?).Nodup) {left right : Item}
    {value : Value} (first : left ∈ items) (second : right ∈ items)
    (found : value? left = some value) (again : value? right = some value) : left = right := by
  rw [List.Nodup, List.pairwise_filterMap] at distinct
  have symmetric : Std.Symm fun left right : Item =>
      ∀ one, value? left = some one → ∀ two, value? right = some two → one ≠ two :=
    ⟨fun _ _ apart two second one first => (apart one first two second).symm⟩
  by_contra different
  exact distinct.forall first second different value found value again rfl

namespace Tree

variable {tree before middle after : Tree} {id new : NodeId} {identity : Identity}
  {gone : List Node}

/-- The element ids of all nodes that have one. -/
def elementKeys (tree : Tree) : List String :=
  tree.nodes.filterMap fun node => Registry.elementKey? node.identity

/-- The registry has all nodes of the tree entered and nothing else, and a node
lists each of its classes once. -/
structure Registered (tree : Tree) : Prop where
  keeps : tree.registry.Keeps tree.identityOf?
  classesDistinct : ∀ {id identity}, tree.identityOf? id = some identity →
    identity.classes.Nodup

theorem registered_empty (first : NodeId) : Registered { nextId := first } where
  keeps := Registry.keeps_empty
  classesDistinct found := by cases found

theorem unshared_of_elementKeys_nodup (distinct : tree.elementKeys.Nodup) :
    Registry.Unshared tree.identityOf? := by
  rintro id other identity otherIdentity name kept otherKept key otherKey
  rcases identityOf?_eq_some_iff.mp kept with ⟨node, found, rfl⟩
  rcases identityOf?_eq_some_iff.mp otherKept with ⟨otherNode, otherFound, rfl⟩
  have same := eq_of_nodup_filterMap distinct (mem_of_get? found) (mem_of_get? otherFound) key
    otherKey
  grind

/-! ## What changes do to the entries -/

/-- Nodes lost their entries, either for good or until they are entered again. -/
structure Withdrawn (before after : Tree) (gone : List Node) : Prop where
  known : ∀ node ∈ gone, before.identityOf? node.id = some node.identity
  registry : after.registry = before.registry.withdrawAll gone
  identities : after.identityOf? = Registry.without before.identityOf? gone

/-- A node was entered that had no entries. -/
structure Entered (before after : Tree) (new : NodeId) (identity : Identity) : Prop where
  fresh : before.identityOf? new = none
  distinct : identity.classes.Nodup
  registry : after.registry = before.registry.enter new identity
  identities : after.identityOf? = Function.update before.identityOf? new (some identity)

/-- What a change does to the entries: some nodes are withdrawn, and then at most one
is entered. -/
def Rebooked (before after : Tree) : Prop :=
  ∃ middle gone, Withdrawn before middle gone ∧
    (SameEntries middle after ∨ ∃ new identity, Entered middle after new identity)

namespace SameEntries

theorem withdrawn (same : SameEntries before middle) (withdrawn : Withdrawn middle after gone) :
    Withdrawn before after gone where
  known := by simpa [same.identities] using withdrawn.known
  registry := by rw [withdrawn.registry, same.registry]
  identities := by rw [withdrawn.identities, same.identities]

theorem rebooked (same : SameEntries before after) : Rebooked before after := by
  refine ⟨before, [], ?_, .inl same⟩
  exact ⟨by simp, rfl, rfl⟩

end SameEntries

theorem Entered.then_same (entered : Entered before middle new identity)
    (same : SameEntries middle after) : Entered before after new identity where
  fresh := entered.fresh
  distinct := entered.distinct
  registry := same.registry.trans entered.registry
  identities := same.identities.trans entered.identities

theorem Entered.rebooked (entered : Entered before after new identity) :
    Rebooked before after := by
  refine ⟨before, [], ?_, .inr ⟨new, identity, entered⟩⟩
  exact ⟨by simp, rfl, rfl⟩

/-! ## Changes that keep the entries -/

theorem sameEntries_root (tree : Tree) (root : Option NodeId) :
    SameEntries tree { tree with root } :=
  ⟨rfl, rfl⟩

theorem sameEntries_detach (tree : Tree) (node : Node) : SameEntries tree (tree.detach node) := by
  rw [detach]
  split
  · apply SameEntries.trans _ (restyled_placeChildren _ _).toSameEntries
    exact sameEntries_modify tree _ _ (fun _ => rfl) fun _ => rfl
  · exact .refl tree

theorem sameEntries_permuteChildren {parent : NodeId} {order : List NodeId}
    (done : tree.permuteChildren parent order = .ok after) : SameEntries tree after := by
  rcases permuteChildren_eq_ok_iff.mp done with ⟨-, -, rfl⟩
  have ordered : SameEntries tree (tree.reordered parent order) :=
    sameEntries_modify tree parent _ (fun _ => rfl) fun _ => rfl
  exact ordered.trans (restyled_placeChildren _ _).toSameEntries

/-! ## Changes of the entries -/

theorem withdrawn_dropNodes (tree : Tree) (ids : List NodeId) :
    Withdrawn tree (tree.dropNodes ids) (ids.filterMap tree.get?) where
  known := by
    intro node member
    rcases List.mem_filterMap.mp member with ⟨id, -, found⟩
    rw [id_of_get? found]
    exact identityOf?_of_get? found
  registry := rfl
  identities := by
    funext id
    rw [identityOf?, get?_dropNodes, Registry.without_apply]
    have dropped : id ∈ (ids.filterMap tree.get?).map (·.id) ↔
        id ∈ ids ∧ tree.contains id = true := by
      simp only [List.mem_map, List.mem_filterMap, contains_iff]
      constructor
      · rintro ⟨node, ⟨other, member, found⟩, rfl⟩
        rw [id_of_get? found]
        exact ⟨member, node, found⟩
      · rintro ⟨member, node, found⟩
        exact ⟨node, ⟨id, member, found⟩, id_of_get? found⟩
    simp only [dropped]
    cases found : tree.get? id with
    | none => simp [identityOf?, found]
    | some node =>
        simp only [contains_of_get? found, and_true]
        split <;> simp [identityOf?, found]

/-- Giving a node another identity withdraws it and enters it again. -/
theorem rebooked_setIdentity {node : Node} (found : tree.get? id = some node)
    (distinct : identity.classes.Nodup) : Rebooked tree (tree.setIdentity node identity) := by
  have named := id_of_get? found
  rw [← named] at found
  -- In between, the registry is that of the tree without the node.
  refine ⟨tree.dropNodes [node.id], [node], ?_, .inr ⟨node.id, identity, ?_⟩⟩
  · have withdrawn := withdrawn_dropNodes tree [node.id]
    simpa [found] using withdrawn
  · have marked := restyled_dirtyDependents
      { tree.modify node.id (fun node => { node with identity }) with
        registry := (tree.registry.withdraw node.id node.identity).enter node.id identity }
      node.id
    refine Entered.then_same ⟨?_, distinct, ?_, ?_⟩ marked.toSameEntries
    · simp [identityOf?]
    · simp [dropNodes, found]
    · funext other
      have changed := get?_modify tree node.id other (fun node => { node with identity })
        fun _ => rfl
      change ((tree.modify node.id fun node => { node with identity }).get? other).map _ = _
      rw [changed]
      by_cases same : other = node.id
      · simp [same, found]
      · simp [same, identityOf?]

theorem Linked.entered_insertNode (linked : tree.Linked) (parent : Option NodeId)
    (distinct : identity.classes.Nodup) :
    Entered tree (tree.insertNode identity parent).2 tree.nextId identity where
  fresh := by simp [identityOf?, linked.get?_nextId]
  distinct := distinct
  registry := rfl
  identities := by
    funext id
    rw [identityOf?, linked.get?_insertNode]
    by_cases same : id = tree.nextId
    · simp [same, newNode]
    · simp [same, identityOf?]

theorem withdrawn_removeSubtree (tree : Tree) (id : NodeId) :
    ∃ gone, Withdrawn tree (tree.removeSubtree id).2 gone := by
  rw [removeSubtree]
  split
  · exact ⟨[], by simp, rfl, rfl⟩
  · rename_i node found
    refine ⟨((tree.detach node).subtree id).filterMap (tree.detach node).get?, ?_⟩
    apply (sameEntries_detach tree node).withdrawn
    have dropped := withdrawn_dropNodes (tree.detach node) ((tree.detach node).subtree id)
    simp only
    split
    · exact ⟨dropped.known, dropped.registry, dropped.identities⟩
    · exact dropped

theorem WellFormed.rebooked_plantRoot (formed : tree.WellFormed)
    (distinct : identity.classes.Nodup) : Rebooked tree (tree.plantRoot identity).2 := by
  rw [Tree.plantRoot]
  cases rooted : tree.root with
  | none =>
      have entered := formed.toLinked.entered_insertNode none distinct
      exact (entered.then_same (sameEntries_root _ _)).rebooked
  | some root =>
      rcases withdrawn_removeSubtree tree root with ⟨gone, withdrawn⟩
      have entered := (formed.removeSubtree root).toLinked.entered_insertNode none distinct
      exact ⟨_, gone, withdrawn, .inr ⟨_, _, entered.then_same (sameEntries_root _ _)⟩⟩

theorem WellFormed.rebooked_appendChild (formed : tree.WellFormed) {parent : NodeId}
    (distinct : identity.classes.Nodup)
    (added : tree.appendChild parent identity = .ok (new, after)) : Rebooked tree after := by
  cases found : tree.get? parent with
  | none =>
      rw [appendChild_unknown found] at added
      cases added
  | some node =>
      rw [appendChild_of_get? found] at added
      cases added
      have entered := formed.toLinked.entered_insertNode (some parent) distinct
      have linked : SameEntries (tree.insertNode identity (some parent)).2
          (tree.grown parent identity) :=
        sameEntries_modify _ parent _ (fun _ => rfl) fun _ => rfl
      have placed := (restyled_placeChildren (tree.grown parent identity) parent).toSameEntries
      exact (entered.then_same (linked.trans placed)).rebooked

/-! ## What rebooking keeps -/

theorem Registered.withdrawn (registered : before.Registered)
    (withdrawn : Withdrawn before after gone) : after.Registered where
  keeps := by
    rw [withdrawn.registry, withdrawn.identities]
    apply registered.keeps.withdrawAll
    intro node member kept found
    rw [withdrawn.known node member] at found
    exact (Option.some.inj found).symm
  classesDistinct := by
    intro id identity found
    rw [withdrawn.identities, Registry.without_apply] at found
    split at found
    · cases found
    · exact registered.classesDistinct found

theorem Registered.entered (registered : before.Registered)
    (entered : Entered before after new identity) : after.Registered where
  keeps := by
    rw [entered.registry, entered.identities]
    exact registered.keeps.enter entered.fresh entered.distinct
  classesDistinct := by
    intro id other found
    rw [entered.identities] at found
    by_cases same : id = new
    · rw [same, Function.update_self] at found
      cases found
      exact entered.distinct
    · rw [Function.update_of_ne same] at found
      exact registered.classesDistinct found

theorem Registered.rebooked (registered : before.Registered) (rebooked : Rebooked before after) :
    after.Registered := by
  rcases rebooked with ⟨middle, gone, withdrawn, rest⟩
  have left := registered.withdrawn withdrawn
  rcases rest with same | ⟨new, identity, entered⟩
  · constructor
    · rw [same.registry, same.identities]
      exact left.keeps
    · rw [same.identities]
      exact left.classesDistinct
  · exact left.entered entered

theorem Rebooked.finds (rebooked : Rebooked before after)
    (finds : before.registry.Finds before.identityOf?) (distinct : after.elementKeys.Nodup) :
    after.registry.Finds after.identityOf? := by
  rcases rebooked with ⟨middle, gone, withdrawn, rest⟩
  have left : middle.registry.Finds middle.identityOf? := by
    rw [withdrawn.registry, withdrawn.identities]
    exact finds.withdrawAll gone
  rcases rest with same | ⟨new, identity, entered⟩
  · rwa [same.registry, same.identities]
  · have unshared := unshared_of_elementKeys_nodup distinct
    rw [entered.identities] at unshared
    rw [entered.registry, entered.identities]
    exact left.enter unshared

end Tree

namespace TreeChange

open WidgetStyle.Tree

variable {tree : Tree}

/-- Whether the identity that the change gives to a new node lists each class once. -/
def ListsClassesOnce : TreeChange → Prop
  | plantRoot identity | appendChild _ identity => identity.classes.Nodup
  | _ => True

theorem rebooked_apply (formed : tree.WellFormed) (registered : tree.Registered)
    {change : TreeChange} (once : change.ListsClassesOnce) : Rebooked tree (change.apply tree) := by
  have effect := effect_apply change tree
  generalize change.apply tree = after at effect
  cases effect with
  | planted identity => exact formed.rebooked_plantRoot once
  | appended added => exact formed.rebooked_appendChild once added
  | removed id =>
      rcases withdrawn_removeSubtree tree id with ⟨gone, withdrawn⟩
      exact ⟨_, gone, withdrawn, .inl (.refl _)⟩
  | permuted done => exact (sameEntries_permuteChildren done).rebooked
  | renamed found distinct =>
      have before := registered.classesDistinct (identityOf?_of_get? found)
      exact rebooked_setIdentity found (distinct before)
  | restyled same => exact same.toSameEntries.rebooked

/-! ## Histories -/

theorem mem_moments_self (tree : Tree) (changes : List TreeChange) :
    tree ∈ moments tree changes := by
  cases changes <;> simp [moments]

/-- Nodes are found by element ids that no two nodes shared at any moment. -/
theorem finds_replay (formed : tree.WellFormed) (registered : tree.Registered)
    (finds : tree.registry.Finds tree.identityOf?) {changes : List TreeChange}
    (once : ∀ change ∈ changes, change.ListsClassesOnce)
    (distinct : ∀ moment ∈ moments tree changes, moment.elementKeys.Nodup) :
    (replay tree changes).registry.Finds (replay tree changes).identityOf? := by
  induction changes generalizing tree with
  | nil => exact finds
  | cons change later ih =>
      have rebooked := rebooked_apply formed registered (once change List.mem_cons_self)
      have onwards : ∀ moment ∈ moments (change.apply tree) later, moment.elementKeys.Nodup :=
        fun moment member => distinct moment (List.mem_cons_of_mem _ member)
      apply ih (wellFormed_apply formed change) (registered.rebooked rebooked)
      · exact rebooked.finds finds (onwards _ (mem_moments_self _ later))
      · exact fun other member => once other (List.mem_cons_of_mem _ member)
      · exact onwards

theorem registered_replay_of (formed : tree.WellFormed) (registered : tree.Registered)
    {changes : List TreeChange} (once : ∀ change ∈ changes, change.ListsClassesOnce) :
    (replay tree changes).Registered := by
  induction changes generalizing tree with
  | nil => exact registered
  | cons change later ih =>
      have rebooked := rebooked_apply formed registered (once change List.mem_cons_self)
      apply ih (wellFormed_apply formed change) (registered.rebooked rebooked)
      exact fun other member => once other (List.mem_cons_of_mem _ member)

/-- At the end of any history the registry lists exactly the nodes of the tree under
their types and classes, and refers by an element id to a node that has it.  If no
two nodes shared an element id at any moment, then it finds every node that has one. -/
theorem registered_replay (first : NodeId) (changes : List TreeChange)
    (once : ∀ change ∈ changes, change.ListsClassesOnce) :
    (replay { nextId := first } changes).Registered ∧
      ((∀ moment ∈ moments { nextId := first } changes, moment.elementKeys.Nodup) →
        ∀ name id, name ≠ "" →
          ((replay { nextId := first } changes).idOfElement? name = some id ↔
            ∃ node, (replay { nextId := first } changes).get? id = some node ∧
              node.identity.elementId = some name)) := by
  have formed := wellFormed_empty first
  have empty := registered_empty first
  have registered := registered_replay_of formed empty once
  refine ⟨registered, ?_⟩
  intro distinct name id inhabited
  constructor
  · intro lookup
    rcases registered.keeps.elements name id lookup with ⟨identity, kept, key⟩
    rcases identityOf?_eq_some_iff.mp kept with ⟨node, found, rfl⟩
    exact ⟨node, found, (Registry.elementKey?_eq_some_iff.mp key).1⟩
  · rintro ⟨node, found, named⟩
    have finds := finds_replay formed empty (fun _ _ _ found => by cases found) once distinct
    apply finds id node.identity name (identityOf?_of_get? found)
    exact Registry.elementKey?_eq_some_iff.mpr ⟨named, inhabited⟩

/-- Two rows, the second of which gets another element id before the first one goes. -/
def rows : List TreeChange :=
  [ .plantRoot { widgetType := "App" },
    .appendChild ⟨1⟩ { widgetType := "Row", elementId := some "top", classes := ["wide"] },
    .appendChild ⟨1⟩ { widgetType := "Row", elementId := some "low", classes := ["wide", "dim"] },
    .replaceElementId ⟨3⟩ (some "only"),
    .removeSubtree ⟨2⟩ ]

theorem rows_registered :
    (∀ change ∈ rows, change.ListsClassesOnce) ∧
      (∀ moment ∈ moments { nextId := ⟨1⟩ } rows, moment.elementKeys.Nodup) ∧
      (replay { nextId := ⟨1⟩ } rows).Registered ∧
      (replay { nextId := ⟨1⟩ } rows).idOfElement? "only" = some ⟨3⟩ := by
  have once : ∀ change ∈ rows, change.ListsClassesOnce := by
    simp [rows, ListsClassesOnce]
  have distinct : ∀ moment ∈ moments { nextId := ⟨1⟩ } rows, moment.elementKeys.Nodup := by
    decide +kernel
  have registered := registered_replay ⟨1⟩ rows once
  refine ⟨once, distinct, registered.1, ?_⟩
  apply (registered.2 distinct "only" ⟨3⟩ (by decide)).mpr
  exact ⟨_, rfl, rfl⟩

end TreeChange

end WidgetStyle
