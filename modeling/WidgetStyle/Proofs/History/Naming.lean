import WidgetStyle.Proofs.History.Registration
import WidgetStyle.Proofs.Matching.Single

/-!
# Shared element ids

Several nodes may have one element id, and the registry refers to at most one of them.  A node
is entered under its element id when it is made and whenever its identity is set, even to what
it was.  The registry leads from an element id to the node that was entered under it last, for
as long as that node has it.  When that node goes or is renamed the element id leads nowhere,
although other nodes may have it, until one of them is entered again.
-/

namespace WidgetStyle

namespace Registry

variable {registry : Registry} {identities : NodeId → Option Identity} {id : NodeId}
  {identity : Identity} {name : String} {last : Option NodeId}

/-- From the element id the registry leads to the given node, if that has the element id. -/
def LeadsTo (registry : Registry) (identities : NodeId → Option Identity) (name : String)
    (last : Option NodeId) : Prop :=
  ∀ id, registry.byElementId.get? name = some id ↔
    last = some id ∧ (identities id).bind elementKey? = some name

theorem LeadsTo.withdraw (leads : registry.LeadsTo identities name last)
    (known : ∀ kept, identities id = some kept → kept = identity) :
    (registry.withdraw id identity).LeadsTo (Function.update identities id none) name last := by
  intro other
  rw [get?_byElementId_withdraw]
  by_cases same : other = id
  · subst same
    simp only [Function.update_self, Option.bind_none, reduceCtorEq, and_false, iff_false]
    split
    · simp
    · rename_i foreign
      intro found
      rcases (leads other).mp found with ⟨-, key⟩
      rcases Option.bind_eq_some_iff.mp key with ⟨kept, present, key⟩
      rw [known kept present] at key
      exact foreign ⟨key, found⟩
  · rw [Function.update_of_ne same, ← leads other]
    split
    · rename_i owned
      simp [owned.2, Ne.symm same]
    · exact Iff.rfl

theorem LeadsTo.withdrawAll {gone : List Node} (leads : registry.LeadsTo identities name last)
    (known : ∀ node ∈ gone, ∀ kept, identities node.id = some kept → kept = node.identity) :
    (registry.withdrawAll gone).LeadsTo (without identities gone) name last := by
  induction gone generalizing registry identities with
  | nil => exact leads
  | cons node rest ih =>
      apply ih (leads.withdraw (known node List.mem_cons_self))
      intro other member kept found
      apply known other (List.mem_cons_of_mem _ member)
      by_cases same : other.id = node.id
      · simp [same] at found
      · rwa [Function.update_of_ne same] at found

theorem LeadsTo.enter (leads : registry.LeadsTo identities name last)
    (fresh : identities id = none) :
    (registry.enter id identity).LeadsTo (Function.update identities id (some identity)) name
      (if elementKey? identity = some name then some id else last) := by
  intro other
  rw [get?_byElementId_enter]
  by_cases same : other = id
  · subst same
    have absent : registry.byElementId.get? name ≠ some other := by
      intro found
      have present := ((leads other).mp found).2
      simp [fresh] at present
    split
    · rename_i own
      simp [own]
    · rename_i foreign
      simp [absent, foreign]
  · rw [Function.update_of_ne same]
    split
    · simp [Ne.symm same]
    · exact leads other

end Registry

namespace Tree

variable {tree before after : Tree} {id new : NodeId} {identity : Identity} {gone : List Node}
  {name : String} {last : Option NodeId}

/-- The element id of the node with the given id. -/
def elementIdOf? (tree : Tree) (id : NodeId) : Option String :=
  (tree.identityOf? id).bind (·.elementId)

theorem elementKey?_bind_eq_some_iff (inhabited : name ≠ "") :
    (tree.identityOf? id).bind Registry.elementKey? = some name ↔
      tree.elementIdOf? id = some name := by
  simp [elementIdOf?, Option.bind_eq_some_iff, Registry.elementKey?_eq_some_iff, inhabited]

/-- Some nodes lost their entries, and then a node without an entry was entered. -/
structure Renewed (before after : Tree) (gone : List Node) (new : NodeId) (identity : Identity) :
    Prop where
  known : ∀ node ∈ gone, before.identityOf? node.id = some node.identity
  fresh : Registry.without before.identityOf? gone new = none
  registry : after.registry = (before.registry.withdrawAll gone).enter new identity
  identities : after.identityOf? =
    Function.update (Registry.without before.identityOf? gone) new (some identity)

theorem Renewed.then_same {middle : Tree} (renewed : Renewed before middle gone new identity)
    (same : SameEntries middle after) : Renewed before after gone new identity where
  known := renewed.known
  fresh := renewed.fresh
  registry := same.registry.trans renewed.registry
  identities := same.identities.trans renewed.identities

theorem Linked.renewed_insertNode (linked : tree.Linked) (parent : Option NodeId)
    (identity : Identity) :
    Renewed tree (tree.insertNode identity parent).2 [] tree.nextId identity where
  known := by simp
  fresh := by simp [Registry.without, identityOf?, linked.get?_nextId]
  registry := rfl
  identities := by
    funext id
    rw [identityOf?, linked.get?_insertNode]
    by_cases same : id = tree.nextId
    · simp [same, newNode]
    · simp [same, Registry.without, identityOf?]

theorem WellFormed.renewed_plantRoot (formed : tree.WellFormed) (identity : Identity) :
    ∃ gone, Renewed tree (tree.plantRoot identity).2 gone (tree.plantRoot identity).1 identity := by
  rw [Tree.plantRoot]
  cases tree.root with
  | none =>
      have renewed := formed.toLinked.renewed_insertNode none identity
      exact ⟨[], renewed.then_same (sameEntries_root _ _)⟩
  | some root =>
      rcases withdrawn_removeSubtree tree root with ⟨gone, withdrawn⟩
      have renewed := (formed.removeSubtree root).toLinked.renewed_insertNode none identity
      refine ⟨gone, withdrawn.known, ?_, ?_, ?_⟩
      · rw [← withdrawn.identities]
        exact renewed.fresh
      · rw [← withdrawn.registry]
        exact renewed.registry
      · rw [← withdrawn.identities]
        exact renewed.identities

theorem WellFormed.renewed_appendChild (formed : tree.WellFormed) {parent : NodeId}
    (added : tree.appendChild parent identity = .ok (new, after)) :
    Renewed tree after [] new identity := by
  cases found : tree.get? parent with
  | none =>
      rw [appendChild_unknown found] at added
      cases added
  | some node =>
      rw [appendChild_of_get? found] at added
      cases added
      have renewed := formed.toLinked.renewed_insertNode (some parent) identity
      have linked : SameEntries (tree.insertNode identity (some parent)).2
          (tree.grown parent identity) :=
        sameEntries_modify _ parent _ (fun _ => rfl) fun _ => rfl
      have placed := (restyled_placeChildren (tree.grown parent identity) parent).toSameEntries
      exact renewed.then_same (linked.trans placed)

theorem renewed_setIdentity {node : Node} (found : tree.get? id = some node)
    (identity : Identity) : Renewed tree (tree.setIdentity node identity) [node] id identity := by
  have named := id_of_get? found
  subst named
  have marked := restyled_dirtyDependents
    { tree.modify node.id (fun node => { node with identity }) with
      registry := (tree.registry.withdraw node.id node.identity).enter node.id identity }
    node.id
  apply Renewed.then_same _ marked.toSameEntries
  constructor
  case known => simpa using identityOf?_of_get? found
  case fresh => simp [Registry.without_apply]
  case registry => rfl
  case identities =>
    funext other
    have changed := get?_modify tree node.id other (fun node => { node with identity }) fun _ => rfl
    change ((tree.modify node.id fun node => { node with identity }).get? other).map _ = _
    rw [changed]
    by_cases same : other = node.id
    · simp [same, found]
    · simp [same, Registry.without_apply, identityOf?]

/-! ## Leading to a node -/

/-- From the element id the registry of the tree leads to the given node, if that has it. -/
def LeadsTo (tree : Tree) (name : String) (last : Option NodeId) : Prop :=
  tree.registry.LeadsTo tree.identityOf? name last

theorem LeadsTo.withdrawAll (leads : tree.LeadsTo name last)
    (known : ∀ node ∈ gone, tree.identityOf? node.id = some node.identity) :
    (tree.registry.withdrawAll gone).LeadsTo (Registry.without tree.identityOf? gone) name last := by
  apply Registry.LeadsTo.withdrawAll leads
  intro node member kept found
  rw [known node member] at found
  exact (Option.some.inj found).symm

theorem LeadsTo.withdrawn (leads : before.LeadsTo name last)
    (withdrawn : Withdrawn before after gone) : after.LeadsTo name last := by
  rw [LeadsTo, withdrawn.registry, withdrawn.identities]
  exact leads.withdrawAll withdrawn.known

theorem LeadsTo.renewed (leads : before.LeadsTo name last) (inhabited : name ≠ "")
    (renewed : Renewed before after gone new identity) :
    after.LeadsTo name (if after.elementIdOf? new = some name then some new else last) := by
  have own : after.elementIdOf? new = some name ↔ Registry.elementKey? identity = some name := by
    rw [← elementKey?_bind_eq_some_iff inhabited, renewed.identities]
    simp
  simp only [own]
  rw [LeadsTo, renewed.registry, renewed.identities]
  exact (leads.withdrawAll renewed.known).enter renewed.fresh

/-- The node is in the tree and has the element id. -/
def Bears (tree : Tree) (node : Node) (name : String) : Prop :=
  tree.get? node.id = some node ∧ node.identity.elementId = some name

/-- An element id leads to a node whenever some node has it. -/
def FindsBearer (tree : Tree) (name : String) : Prop :=
  tree.nodeOfElement? name ≠ none ↔ ∃ node, tree.Bears node name

@[simp] theorem elementIdOf?_of_get? {node : Node} (found : tree.get? id = some node) :
    tree.elementIdOf? id = node.identity.elementId := by
  simp [elementIdOf?, found]

theorem LeadsTo.nodeOfElement?_eq_some_iff (leads : tree.LeadsTo name last)
    (inhabited : name ≠ "") {node : Node} :
    tree.nodeOfElement? name = some node ↔ last = some node.id ∧ tree.Bears node name := by
  rw [nodeOfElement?, Option.bind_eq_some_iff, Bears]
  constructor
  · intro looked
    rcases looked with ⟨id, lookup, found⟩
    have led := (leads id).mp lookup
    rw [elementKey?_bind_eq_some_iff inhabited, elementIdOf?_of_get? found] at led
    rw [id_of_get? found]
    exact ⟨led.1, found, led.2⟩
  · intro bears
    rcases bears with ⟨entered, found, named⟩
    refine ⟨node.id, (leads node.id).mpr ⟨entered, ?_⟩, found⟩
    rwa [elementKey?_bind_eq_some_iff inhabited, elementIdOf?_of_get? found]

theorem Linked.select_ofId_ne_nil_iff (linked : tree.Linked) :
    tree.select (.ofId name) ≠ [] ↔ ∃ node, tree.Bears node name := by
  rw [Ne, List.eq_nil_iff_forall_not_mem]
  simp only [linked.mem_select_iff, Selector.selects_ofId_iff, Bears, not_forall, not_not]

end Tree

namespace TreeChange

open WidgetStyle.Tree

variable {tree : Tree} {change : TreeChange} {id : NodeId} {name : String} {last : Option NodeId}

/-! ## Entries -/

/-- The node that a change enters into the registry. -/
def entered? (tree : Tree) (change : TreeChange) : Option NodeId :=
  (change.issued? tree).or (change.renamed? tree)

/-- The node that a change enters under an element id. -/
def namedBy? (name : String) (tree : Tree) (change : TreeChange) : Option NodeId :=
  (change.entered? tree).filter fun id =>
    decide ((change.apply tree).elementIdOf? id = some name)

/-- The nodes that the changes of a history enter under an element id, in order. -/
def namings (name : String) (tree : Tree) : List TreeChange → List NodeId
  | [] => []
  | change :: later =>
      (change.namedBy? name tree).toList ++ namings name (change.apply tree) later

/-- A change that enters no node withdraws some at most. -/
theorem withdrawn_apply (idle : change.entered? tree = none) :
    ∃ gone, Withdrawn tree (change.apply tree) gone := by
  have unchanged {after : Tree} (same : SameEntries tree after) :
      ∃ gone, Withdrawn tree after gone :=
    ⟨[], by simp, same.registry, same.identities⟩
  rcases Option.or_eq_none_iff.mp idle with ⟨unissued, unnamed⟩
  by_cases restyles : change.restyles = true
  · exact unchanged (restyled_apply restyles tree).toSameEntries
  · by_cases renames : change.renames = true
    · rw [apply_of_not_renamed? renames unnamed]
      exact unchanged (.refl tree)
    · cases change with
      | plantRoot identity => cases unissued
      | appendChild parent identity =>
          cases found : tree.get? parent with
          | none =>
              simp only [apply, outcome, appendChild_unknown found]
              exact unchanged (.refl tree)
          | some node => simp [issued?, appendChild_of_get? found, Except.toOption] at unissued
      | removeSubtree id => exact withdrawn_removeSubtree tree id
      | permuteChildren parent order =>
          cases done : tree.permuteChildren parent order with
          | error error =>
              simp only [apply, outcome, done]
              exact unchanged (.refl tree)
          | ok after =>
              simp only [apply, outcome, done]
              exact unchanged (sameEntries_permuteChildren done)
      | _ =>
          first
          | exact absurd rfl restyles
          | exact absurd rfl renames

/-- A change that enters a node withdraws some first at most. -/
theorem renewed_apply (formed : tree.WellFormed) (entered : change.entered? tree = some id) :
    ∃ gone identity, Renewed tree (change.apply tree) gone id identity := by
  rcases Option.or_eq_some_iff.mp entered with issued | ⟨-, renamed⟩
  · cases change with
    | plantRoot identity =>
        cases issued
        rcases formed.renewed_plantRoot identity with ⟨gone, renewed⟩
        exact ⟨gone, identity, renewed⟩
    | appendChild parent identity =>
        cases added : tree.appendChild parent identity with
        | error error => simp [issued?, added, Except.toOption] at issued
        | ok pair =>
            simp only [issued?, added, Except.toOption, Option.map_some, Option.some.injEq]
              at issued
            subst issued
            have renewed := formed.renewed_appendChild added
            simp only [apply, outcome, added]
            exact ⟨[], identity, renewed⟩
    | _ => cases issued
  · rcases apply_of_renamed? renamed with ⟨node, identity, found, applied⟩
    rw [applied]
    exact ⟨[node], identity, renewed_setIdentity found identity⟩

/-! ## Histories -/

theorem leadsTo_apply (formed : tree.WellFormed) (leads : tree.LeadsTo name last)
    (inhabited : name ≠ "") (change : TreeChange) :
    (change.apply tree).LeadsTo name ((change.namedBy? name tree).or last) := by
  rw [namedBy?]
  cases entered : change.entered? tree with
  | none =>
      rcases withdrawn_apply entered with ⟨gone, withdrawn⟩
      exact leads.withdrawn withdrawn
  | some id =>
      rcases renewed_apply formed entered with ⟨gone, identity, renewed⟩
      have led := leads.renewed inhabited renewed
      rw [Option.filter_some]
      by_cases named : (change.apply tree).elementIdOf? id = some name
      · rw [if_pos named] at led
        rwa [if_pos (decide_eq_true named), Option.some_or]
      · rw [if_neg named] at led
        rwa [if_neg (by simpa using named), Option.none_or]

theorem leadsTo_replay (formed : tree.WellFormed) (leads : tree.LeadsTo name last)
    (inhabited : name ≠ "") (changes : List TreeChange) :
    (replay tree changes).LeadsTo name ((namings name tree changes).getLast?.or last) := by
  induction changes generalizing tree last with
  | nil => exact leads
  | cons change later ih =>
      have led := ih (wellFormed_apply formed change) (leadsTo_apply formed leads inhabited change)
      have single : ((change.namedBy? name tree).toList).getLast? = change.namedBy? name tree := by
        cases change.namedBy? name tree <;> rfl
      rw [namings, List.getLast?_append, single, Option.or_assoc]
      exact led

/-- At the end of any history an element id leads to the node that was entered under it last, if
that still has it.  So an element id that some node has, and that a query then finds, leads to a
node exactly when the node that was entered last still has it. -/
theorem findsBearer_replay_iff (first : NodeId) (changes : List TreeChange)
    (isName : IsName name.toList) :
    (∀ node, (replay { nextId := first } changes).nodeOfElement? name = some node ↔
        (namings name { nextId := first } changes).getLast? = some node.id ∧
          (replay { nextId := first } changes).Bears node name) ∧
      (∃ selector, Selector.parse ("#" ++ name) = .ok selector ∧
        ((replay { nextId := first } changes).select selector ≠ [] ↔
          ∃ node, (replay { nextId := first } changes).Bears node name)) ∧
      ((replay { nextId := first } changes).FindsBearer name ↔
        ((∃ node, (replay { nextId := first } changes).Bears node name) →
          ∃ node, (replay { nextId := first } changes).Bears node name ∧
            (namings name { nextId := first } changes).getLast? = some node.id)) := by
  have formed := wellFormed_empty first
  have inhabited : name ≠ "" := by
    intro empty
    subst empty
    exact isName.inhabited rfl
  have nothing : Tree.LeadsTo { nextId := first } name none := by
    intro id
    simp [Table.get?]
  have leads := leadsTo_replay formed nothing inhabited changes
  rw [Option.or_none] at leads
  have found (node : Node) :
      (replay { nextId := first } changes).nodeOfElement? name = some node ↔
        (namings name { nextId := first } changes).getLast? = some node.id ∧
          (replay { nextId := first } changes).Bears node name :=
    leads.nodeOfElement?_eq_some_iff inhabited
  refine ⟨found, ⟨.ofId name, Selector.parse_ofId isName, ?_⟩, ?_⟩
  · exact (wellFormed_replay formed changes).toLinked.select_ofId_ne_nil_iff
  · simp only [FindsBearer, Option.ne_none_iff_exists', found]
    constructor
    · intro finds bearer
      rcases finds.mpr bearer with ⟨node, entered, bears⟩
      exact ⟨node, bears, entered⟩
    · intro kept
      constructor
      · intro looked
        rcases looked with ⟨node, -, bears⟩
        exact ⟨node, bears⟩
      · intro bearer
        rcases kept bearer with ⟨node, bears, entered⟩
        exact ⟨node, entered, bears⟩

/-- Two rows with one element id, the first of which is entered again before the second goes. -/
def twinsRestored : List TreeChange :=
  [ .plantRoot { widgetType := "App" },
    .appendChild ⟨1⟩ { widgetType := "Row", elementId := some "low" },
    .appendChild ⟨1⟩ { widgetType := "Row", elementId := some "low" },
    .insertClass ⟨2⟩ "wide",
    .removeSubtree ⟨3⟩ ]

theorem twinsRestored_found :
    namings "low" { nextId := ⟨1⟩ } twinsRestored = [⟨2⟩, ⟨3⟩, ⟨2⟩] ∧
      ∃ node, (replay { nextId := ⟨1⟩ } twinsRestored).Bears node "low" ∧
        (replay { nextId := ⟨1⟩ } twinsRestored).nodeOfElement? "low" = some node := by
  have isName : IsName "low".toList := by decide +kernel
  have stated := findsBearer_replay_iff ⟨1⟩ twinsRestored isName
  have entered : namings "low" { nextId := ⟨1⟩ } twinsRestored = [⟨2⟩, ⟨3⟩, ⟨2⟩] := by
    decide +kernel
  have present :
      ((replay { nextId := ⟨1⟩ } twinsRestored).get? ⟨2⟩).map (·.identity.elementId) =
        some (some "low") := by
    decide +kernel
  rcases Option.map_eq_some_iff.mp present with ⟨node, found, named⟩
  have own := id_of_get? found
  have bears : (replay { nextId := ⟨1⟩ } twinsRestored).Bears node "low" := by
    rw [Bears, own]
    exact ⟨found, named⟩
  refine ⟨entered, node, bears, (stated.1 node).mpr ⟨?_, bears⟩⟩
  rw [entered, own]
  rfl

/-- Two rows with one element id, the second of which goes. -/
def twins : List TreeChange :=
  [ .plantRoot { widgetType := "App" },
    .appendChild ⟨1⟩ { widgetType := "Row", elementId := some "low" },
    .appendChild ⟨1⟩ { widgetType := "Row", elementId := some "low" },
    .removeSubtree ⟨3⟩ ]

/-- The first row is still there, and its element id leads nowhere. -/
theorem twins_lost :
    namings "low" { nextId := ⟨1⟩ } twins = [⟨2⟩, ⟨3⟩] ∧
      (replay { nextId := ⟨1⟩ } twins).nodeOfElement? "low" = none ∧
      (∃ node, (replay { nextId := ⟨1⟩ } twins).Bears node "low") ∧
      ¬(replay { nextId := ⟨1⟩ } twins).FindsBearer "low" := by
  have lost : (replay { nextId := ⟨1⟩ } twins).nodeOfElement? "low" = none := by
    decide +kernel
  have present :
      ((replay { nextId := ⟨1⟩ } twins).get? ⟨2⟩).map (·.identity.elementId) =
        some (some "low") := by
    decide +kernel
  rcases Option.map_eq_some_iff.mp present with ⟨node, found, named⟩
  have bears : (replay { nextId := ⟨1⟩ } twins).Bears node "low" := by
    rw [Bears, id_of_get? found]
    exact ⟨found, named⟩
  refine ⟨by decide +kernel, lost, ⟨node, bears⟩, ?_⟩
  intro finds
  exact finds.mpr ⟨node, bears⟩ lost

end TreeChange

end WidgetStyle
