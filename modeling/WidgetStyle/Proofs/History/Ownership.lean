import Mathlib.Data.List.Induction
import WidgetStyle.Proofs.History.Shape

/-!
# Who has a flag

The focus and the pointer are given to one node and taken from all others.  The state of a node
can also be changed by itself, and then nobody else is asked.  So whether a node has a flag is
decided by the last change that ruled on it, which is the giving of the flag or a change of this
very node.  At most one node has the flag because it was given it.  Any number of nodes may have
it because their own states say so.
-/

namespace WidgetStyle

/-- The value that a flag has in the end, if the changes touch it. -/
def Flags.lastWritten? (flag : Flag) (changes : List (Flag × Bool)) : Option Bool :=
  changes.reverse.lookup flag

theorem Flags.read_writeAll (flags : Flags) (changes : List (Flag × Bool)) (flag : Flag) :
    (flags.writeAll changes).read flag = (lastWritten? flag changes).getD (flags.read flag) := by
  induction changes using List.reverseRecOn with
  | nil => rfl
  | append_singleton earlier change ih =>
      rw [writeAll, List.foldl_concat, read_write, ← writeAll, ih, lastWritten?, lastWritten?,
        List.reverse_concat, List.lookup_cons]
      by_cases same : flag = change.1
      · simp [same]
      · rw [if_neg same, beq_false_of_ne same]

/-- What was decided about a flag of a node, by a giving of the flag, which rules on every node,
or by a change of the state of this node. -/
inductive Ruling where
  | shared (has : Bool)
  | own (has : Bool)
deriving DecidableEq, Repr

/-- Whether the node is to have the flag. -/
def Ruling.has : Ruling → Bool
  | shared has | own has => has

theorem Node.read_core {flag : Flag} (shown : flag ≠ .dirty) (node : Node) :
    node.core.flags.read flag = node.flags.read flag := by
  cases flag <;> first | rfl | exact absurd rfl shown

namespace Tree

variable {tree before after : Tree} {flag : Flag} {id : NodeId}

/-! ## The flags of a node -/

/-- Whether the node with the given id has the flag. -/
def flagOf? (tree : Tree) (flag : Flag) (id : NodeId) : Option Bool :=
  (tree.get? id).map (·.flags.read flag)

@[simp] theorem flagOf?_of_get? {node : Node} (found : tree.get? id = some node) (flag : Flag) :
    tree.flagOf? flag id = some (node.flags.read flag) := by
  rw [flagOf?, found, Option.map_some]

theorem flagOf?_of_not_contains (unknown : tree.contains id = false) (flag : Flag) :
    tree.flagOf? flag id = none := by
  rw [flagOf?, Option.map_eq_none_iff]
  simpa [contains] using unknown

theorem contains_of_flagOf? {has : Bool} (found : tree.flagOf? flag id = some has) :
    tree.contains id = true := by
  rcases Option.map_eq_some_iff.mp found with ⟨node, found, -⟩
  exact contains_of_get? found

/-- A flag other than the dirty one is part of the core of a node. -/
theorem flagOf?_eq_core? (shown : flag ≠ .dirty) (tree : Tree) (id : NodeId) :
    tree.flagOf? flag id = (tree.core? id).map (·.flags.read flag) := by
  rw [flagOf?, core?, Option.map_map]
  congr 1
  funext node
  exact (Node.read_core shown node).symm

theorem flagOf?_of_core?_eq (shown : flag ≠ .dirty) (same : after.core? id = before.core? id) :
    after.flagOf? flag id = before.flagOf? flag id := by
  rw [flagOf?_eq_core? shown, flagOf?_eq_core? shown, same]

theorem SameOutline.flagOf?_eq (same : SameOutline before after) (shown : flag ≠ .dirty)
    (id : NodeId) : after.flagOf? flag id = before.flagOf? flag id :=
  flagOf?_of_core?_eq shown (same.core?_eq id).symm

theorem flagOf?_modify (tree : Tree) (flag : Flag) (id other : NodeId) (change : Node → Node)
    (keepsId : ∀ node, (change node).id = node.id) :
    (tree.modify id change).flagOf? flag other =
      if other = id then (tree.get? id).map fun node => (change node).flags.read flag
      else tree.flagOf? flag other := by
  rw [flagOf?, get?_modify tree id other change keepsId]
  split
  · rw [Option.map_map]
    rfl
  · rfl

/-- A change of one node with all that it makes dirty. -/
theorem flagOf?_changed (shown : flag ≠ .dirty) (tree : Tree) (id other : NodeId)
    (change : Node → Node) (keepsId : ∀ node, (change node).id = node.id) :
    ((tree.modify id change).dirtyDependents id).flagOf? flag other =
      if other = id then (tree.get? id).map fun node => (change node).flags.read flag
      else tree.flagOf? flag other := by
  rw [(sameOutline_dirtyDependents _ id).flagOf?_eq shown]
  exact flagOf?_modify tree flag id other change keepsId

theorem flagOf?_setIdentity (shown : flag ≠ .dirty) (tree : Tree) (node : Node)
    (identity : Identity) (other : NodeId) :
    (tree.setIdentity node identity).flagOf? flag other = tree.flagOf? flag other := by
  have renamed := flagOf?_modify tree flag node.id other (fun node => { node with identity })
    fun _ => rfl
  rw [setIdentity, (sameOutline_dirtyDependents _ node.id).flagOf?_eq shown]
  refine renamed.trans ?_
  split
  · rename_i same
    rw [same, flagOf?]
  · rfl

/-! ## Giving a flag to one node -/

theorem flagOf?_turnFlag (shown : flag ≠ .dirty) (tree : Tree) (turned : Flag) (value : Bool)
    (id other : NodeId) :
    (tree.turnFlag turned value id).flagOf? flag other =
      if flag = turned ∧ other = id then (tree.flagOf? flag other).map fun _ => value
      else tree.flagOf? flag other := by
  cases found : tree.get? id with
  | none =>
      rw [turnFlag, found]
      by_cases same : other = id
      · simp [flagOf?, same, found]
      · simp [same]
  | some node =>
      by_cases idle : node.flags.read turned = value
      · rw [turnFlag, found]
        simp only [idle, if_true]
        split
        · rename_i own
          rw [own.1, own.2, flagOf?_of_get? found, idle, Option.map_some]
        · rfl
      · have changed := flagOf?_changed shown tree id other
          (fun node => { node with flags := node.flags.write turned value }) fun _ => rfl
        rw [turnFlag, found]
        simp only [idle, if_false]
        refine changed.trans ?_
        by_cases same : other = id
        · subst same
          simp only [found, flagOf?, Option.map_some, Flags.read_write, and_true, if_true]
          split <;> rfl
        · simp [same]

theorem flagOf?_turnFlags (shown : flag ≠ .dirty) (tree : Tree) (turned : Flag) (value : Bool)
    (ids : List NodeId) (other : NodeId) :
    (ids.foldl (fun result id => result.turnFlag turned value id) tree).flagOf? flag other =
      if flag = turned ∧ other ∈ ids then (tree.flagOf? flag other).map fun _ => value
      else tree.flagOf? flag other := by
  induction ids generalizing tree with
  | nil => simp
  | cons id later ih =>
      rw [List.foldl_cons, ih, flagOf?_turnFlag shown]
      by_cases own : flag = turned
      · by_cases same : other = id <;> simp [own, same, Function.comp_def]
      · simp [own]

/-- Of the nodes only the owner has a flag after it was given, and other flags are as they were. -/
theorem flagOf?_giveFlag (shown : flag ≠ .dirty) (tree : Tree) (given : Flag)
    (owner : Option NodeId) (id : NodeId) :
    (tree.giveFlag given owner).flagOf? flag id =
      if flag = given then (tree.flagOf? flag id).map fun _ => decide (owner = some id)
      else tree.flagOf? flag id := by
  have unknown (foreign : id ∉ tree.nodes.map (·.id)) : tree.flagOf? flag id = none := by
    rw [← contains_iff_mem, Bool.not_eq_true] at foreign
    exact flagOf?_of_not_contains foreign flag
  by_cases own : flag = given
  · by_cases known : id ∈ tree.nodes.map (·.id)
    · cases owner with
      | none => simp only [giveFlag, flagOf?_turnFlags shown, List.mem_filter]; simp [own, known]
      | some other =>
          simp only [giveFlag, flagOf?_turnFlag shown, flagOf?_turnFlags shown, List.mem_filter]
          by_cases same : id = other
          · simp [own, same]
          · simp [own, known, same, Ne.symm same]
    · cases owner <;>
        simp only [giveFlag, flagOf?_turnFlag shown, flagOf?_turnFlags shown, unknown known,
          Option.map_none, ite_self]
  · cases owner <;>
      simp only [giveFlag, flagOf?_turnFlag shown, flagOf?_turnFlags shown, own, false_and,
        if_false]

end Tree

namespace TreeChange

open WidgetStyle.Tree

variable {tree : Tree} {change : TreeChange} {flag : Flag} {id : NodeId}

/-! ## Rulings -/

/-- What a change rules about a flag of a node. -/
def ruling? (flag : Flag) (id : NodeId) : TreeChange → Option Ruling
  | giveFocus owner => if flag = .focused then some (.shared (decide (owner = some id))) else none
  | giveHover owner => if flag = .hovered then some (.shared (decide (owner = some id))) else none
  | writeFlags target changes =>
      if id = target then
        ((flagChanges changes).toOption.bind (Flags.lastWritten? flag)).map .own
      else none
  | replaceFlags target flags => if id = target then some (.own (flags.read flag)) else none
  | _ => none

/-- The value that a flag has after a ruling, if there is one, when it had the given one. -/
def ruled (ruling : Option Ruling) (value : Bool) : Bool :=
  (ruling.map Ruling.has).getD value

theorem map_ruled_none (had : Option Bool) : had.map (ruled none) = had := by
  cases had <;> rfl

/-- A change that asks for one node, restates it as it was found and marks whatever it makes
dirty. -/
theorem flagOf?_restated (shown : flag ≠ .dirty) {target : NodeId} (restate : Node → Node → Node)
    (mark : Tree → Tree) {ruling : Option Ruling}
    (asks : change.outcome tree =
      (tree.require target).map fun found => mark (tree.modify target (restate found)))
    (marks : ∀ marked, SameOutline marked (mark marked))
    (keepsId : ∀ found node, (restate found node).id = node.id)
    (reads : ∀ found node, (restate found node).flags.read flag =
      ruled ruling (node.flags.read flag)) :
    (change.apply tree).flagOf? flag id =
      (tree.flagOf? flag id).map (ruled (if id = target then ruling else none)) := by
  cases found : tree.get? target with
  | some node =>
      rw [apply_of_get? change asks found, (marks _).flagOf?_eq shown,
        flagOf?_modify tree flag target id (restate node) (keepsId node)]
      by_cases own : id = target
      · simp [own, flagOf?, Function.comp_def, reads]
      · rw [if_neg own, if_neg own, map_ruled_none]
  | none =>
      rw [apply_unknown change asks found]
      by_cases own : id = target
      · simp [flagOf?, own, found]
      · rw [if_neg own, map_ruled_none]

theorem flagOf?_writeFlags (shown : flag ≠ .dirty) (tree : Tree) (id target : NodeId)
    (changes : List (String × Bool)) :
    ((writeFlags target changes).apply tree).flagOf? flag id =
      (tree.flagOf? flag id).map (ruled ((writeFlags target changes).ruling? flag id)) := by
  rw [ruling?]
  cases read : flagChanges changes with
  | error error =>
      have refused : (writeFlags target changes).apply tree = tree := by
        simp [apply, outcome, Tree.writeFlags, read]
      simp [refused, Except.toOption, map_ruled_none]
  | ok known =>
      apply flagOf?_restated shown
        (fun _ node => { node with flags := node.flags.writeAll known })
        (dirtyDependents · target)
      case asks => simp [outcome, Tree.writeFlags, read, modifyState_eq]
      case marks => exact fun marked => sameOutline_dirtyDependents marked target
      case keepsId => exact fun _ _ => rfl
      case reads =>
        intro found node
        rw [Flags.read_writeAll, ruled, Option.map_map]
        simp [Except.toOption, Function.comp_def, Ruling.has]

/-- Of the changes of state and style the ones that rule on a flag set it as they rule. -/
theorem flagOf?_restyled (shown : flag ≠ .dirty) (restyles : change.restyles = true)
    (tree : Tree) (id : NodeId) :
    (change.apply tree).flagOf? flag id =
      (tree.flagOf? flag id).map (ruled (change.ruling? flag id)) := by
  have outlined {after : Tree} (same : SameOutline tree after) :
      after.flagOf? flag id = (tree.flagOf? flag id).map (ruled none) := by
    rw [same.flagOf?_eq shown, map_ruled_none]
  have given (shared : Flag) (owner : Option NodeId) :
      (tree.giveFlag shared owner).flagOf? flag id = (tree.flagOf? flag id).map
        (ruled (if flag = shared then some (.shared (decide (owner = some id))) else none)) := by
    rw [flagOf?_giveFlag shown]
    split
    · rfl
    · rw [map_ruled_none]
  cases change with
  | replaceInlineStyle target style =>
      have quiet : (replaceInlineStyle target style).ruling? flag id =
          if id = target then none else none := (ite_self none).symm
      rw [quiet]
      apply flagOf?_restated shown (fun _ node => { node with inlineStyle := style })
        (Tree.dirtySubtree · target) rfl
      case marks => exact fun marked => sameOutline_dirtySubtree marked target
      case keepsId => exact fun _ _ => rfl
      case reads => exact fun _ _ => rfl
  | writeFlags target changes => exact flagOf?_writeFlags shown tree id target changes
  | replaceFlags target flags =>
      apply flagOf?_restated shown
        (fun found node => { node with
          flags, placement := .ofIndex found.placement.index found.placement.total })
        (dirtyDependents · target) rfl
      case marks => exact fun marked => sameOutline_dirtyDependents marked target
      case keepsId => exact fun _ _ => rfl
      case reads => exact fun _ _ => rfl
  | dirtySubtree target => exact outlined (sameOutline_dirtySubtree tree target)
  | cleanAll => exact outlined (sameOutline_cleanAll tree)
  | giveFocus owner => exact given .focused owner
  | giveHover owner => exact given .hovered owner
  | _ => cases restyles

/-- Where a flag of a node after a change comes from. -/
inductive FlagFrom (tree after : Tree) (flag : Flag) (id : NodeId) (ruling : Option Ruling) :
    Prop where
  | born : id = tree.nextId → after.flagOf? flag id = some false →
      FlagFrom tree after flag id ruling
  | lived {had : Bool} : tree.flagOf? flag id = some had →
      after.flagOf? flag id = some (ruled ruling had) → FlagFrom tree after flag id ruling

theorem flagFrom_of_eq {after : Tree} (same : after.flagOf? flag id = tree.flagOf? flag id)
    (live : after.contains id = true) : FlagFrom tree after flag id none := by
  rcases contains_iff.mp live with ⟨node, found⟩
  have had := flagOf?_of_get? found flag
  exact .lived (same.symm.trans had) had

theorem flagFrom_of_newNode (shown : flag ≠ .dirty) {after : Tree} {identity : Identity}
    {parent : Option NodeId} {ruling : Option Ruling}
    (core : after.core? tree.nextId = some (tree.newNode identity parent).core) :
    FlagFrom tree after flag tree.nextId ruling := by
  apply FlagFrom.born rfl
  rw [flagOf?_eq_core? shown, core, Option.map_some, Node.read_core shown]
  cases flag <;> first | rfl | exact absurd rfl shown

/-- A change of the nodes or of their links leaves flags alone, and a new node has none. -/
theorem flagFrom_of_outcome (formed : tree.WellFormed) (shown : flag ≠ .dirty)
    (moves : ¬change.restyles = true) (leaves : ¬change.renames = true) {after : Tree}
    (done : change.outcome tree = .ok after) (live : after.contains id = true) :
    FlagFrom tree after flag id none := by
  have kept (core : after.core? id = tree.core? id) : FlagFrom tree after flag id none :=
    flagFrom_of_eq (flagOf?_of_core?_eq shown core) live
  cases change with
  | plantRoot identity =>
      cases done
      rcases formed.plantRoot_eq identity with ⟨registry, planted⟩
      have core : (tree.plantRoot identity).2.core? tree.nextId =
          some (tree.newNode identity none).core := by
        simp [planted, core?, get?, newNode]
      rw [planted] at live
      have own : id = tree.nextId := by simpa [contains_iff_mem, newNode] using live
      subst own
      exact flagFrom_of_newNode shown core
  | appendChild parent identity =>
      rcases exists_of_map_eq_ok done with ⟨pair, added, same⟩
      cases same
      have appended := formed.appended added
      have core := appended.core id
      rw [appended.new_eq] at core
      by_cases new : id = tree.nextId
      · subst new
        rw [if_pos rfl] at core
        exact flagFrom_of_newNode shown core
      · rw [if_neg new] at core
        exact kept core
  | removeSubtree target =>
      cases done
      cases found : tree.get? target with
      | none => exact kept (by rw [removeSubtree_unknown found])
      | some node =>
          have known := contains_of_get? found
          have apart := ((formed.removed known).contains_iff formed.toLinkedBy).mp live
          exact kept (formed.core?_removeSubtree known apart.2)
  | permuteChildren parent order => exact kept ((formed.permuted done).core id)
  | _ =>
      first
      | exact absurd rfl moves
      | exact absurd rfl leaves

theorem flagFrom_moved (formed : tree.WellFormed) (shown : flag ≠ .dirty)
    (moves : ¬change.restyles = true) (live : (change.apply tree).contains id = true) :
    FlagFrom tree (change.apply tree) flag id none := by
  by_cases renames : change.renames = true
  · cases renamed : change.renamed? tree with
    | none =>
        rw [apply_of_not_renamed? renames renamed] at live ⊢
        exact flagFrom_of_eq rfl live
    | some target =>
        rcases apply_of_renamed? renamed with ⟨node, identity, -, applied⟩
        rw [applied] at live ⊢
        exact flagFrom_of_eq (flagOf?_setIdentity shown tree node identity id) live
  · cases done : change.outcome tree with
    | error error =>
        have same : change.apply tree = tree := by rw [apply, done]
        rw [same] at live ⊢
        exact flagFrom_of_eq rfl live
    | ok after =>
        have same : change.apply tree = after := by rw [apply, done]
        rw [same] at live ⊢
        exact flagFrom_of_outcome formed shown moves renames done live

theorem flagFrom_apply (formed : tree.WellFormed) (shown : flag ≠ .dirty) (change : TreeChange)
    (live : (change.apply tree).contains id = true) :
    FlagFrom tree (change.apply tree) flag id (change.ruling? flag id) := by
  by_cases restyles : change.restyles = true
  · rw [← (restyled_apply restyles tree).links.contains_eq id] at live
    rcases contains_iff.mp live with ⟨node, found⟩
    have had := flagOf?_of_get? found flag
    have now := flagOf?_restyled shown restyles tree id
    rw [had] at now
    exact .lived had now
  · have quiet : change.ruling? flag id = none := by
      cases change <;> first | rfl | exact absurd rfl restyles
    rw [quiet]
    exact flagFrom_moved formed shown restyles live

/-! ## Flags at the end of a history -/

/-- What a change rules about a node, if that is in the tree. -/
def rulingIn (tree : Tree) (flag : Flag) (id : NodeId) (change : TreeChange) : List Ruling :=
  if tree.contains id then (change.ruling? flag id).toList else []

/-- What the changes of a history rule about a flag of a node, in order. -/
def rulings (tree : Tree) (flag : Flag) (id : NodeId) : List TreeChange → List Ruling
  | [] => []
  | change :: later =>
      change.rulingIn tree flag id ++ rulings (change.apply tree) flag id later

/-- The flag of each node is as the last ruling on it said, and at most one node has it because
it was given the flag.  A node on which there was a ruling cannot be mistaken for a later one. -/
structure FlagRuled (flag : Flag) (tree : Tree) (done : NodeId → List Ruling) : Prop where
  older : ∀ id, done id ≠ [] → id.value < tree.nextId.value
  decided : ∀ id, tree.contains id = true →
    tree.flagOf? flag id = some (ruled (done id).getLast? false)
  single : ∀ left right, tree.contains left = true → tree.contains right = true →
    (done left).getLast? = some (.shared true) → (done right).getLast? = some (.shared true) →
      left = right

theorem getLast?_append_ruling (earlier : List Ruling) (ruling : Option Ruling) :
    (earlier ++ ruling.toList).getLast? = ruling.or earlier.getLast? := by
  cases ruling <;> simp

/-- A ruling on all nodes is a giving of the flag, which names its owner. -/
theorem exists_owner_of_ruling? {has : Bool} (given : change.ruling? flag id = some (.shared has)) :
    ∃ owner, has = decide (owner = some id) ∧
      ∀ other, change.ruling? flag other = some (.shared (decide (owner = some other))) := by
  cases change with
  | giveFocus owner =>
      simp only [ruling?, Option.ite_none_right_eq_some, Option.some.injEq,
        Ruling.shared.injEq] at given
      exact ⟨owner, given.2.symm, fun other => if_pos given.1⟩
  | giveHover owner =>
      simp only [ruling?, Option.ite_none_right_eq_some, Option.some.injEq,
        Ruling.shared.injEq] at given
      exact ⟨owner, given.2.symm, fun other => if_pos given.1⟩
  | _ => simp [ruling?, Option.bind_eq_some_iff] at given

section Step

variable {done : NodeId → List Ruling}

theorem FlagRuled.unruled (held : FlagRuled flag tree done) : done tree.nextId = [] := by
  by_contra ruled
  exact Int.lt_irrefl _ (held.older tree.nextId ruled)

theorem FlagRuled.decided_apply (formed : tree.WellFormed) (shown : flag ≠ .dirty)
    (held : FlagRuled flag tree done) (change : TreeChange)
    (live : (change.apply tree).contains id = true) :
    (change.apply tree).flagOf? flag id =
      some (ruled (done id ++ change.rulingIn tree flag id).getLast? false) := by
  cases flagFrom_apply formed shown change live with
  | born new lacks =>
      subst new
      have unknown : tree.contains tree.nextId = false := by
        simp [contains, formed.toLinked.get?_nextId]
      rw [lacks, held.unruled, rulingIn, unknown]
      rfl
  | lived had now =>
      have known := contains_of_flagOf? had
      have decided := held.decided id known
      rw [had, Option.some.injEq] at decided
      rw [now, decided, rulingIn, if_pos known, getLast?_append_ruling]
      cases change.ruling? flag id <;> rfl

/-- A node with a ruling that a change leaves in the tree was there before the change. -/
theorem FlagRuled.known_of_ruled (formed : tree.WellFormed) (shown : flag ≠ .dirty)
    (held : FlagRuled flag tree done) (live : (change.apply tree).contains id = true)
    {ruling : Ruling}
    (ruled : (done id ++ change.rulingIn tree flag id).getLast? = some ruling) :
    tree.contains id = true := by
  by_contra unknown
  rw [rulingIn, if_neg unknown, List.append_nil] at ruled
  cases flagFrom_apply formed shown change live with
  | born new lacks =>
      rw [new, held.unruled] at ruled
      cases ruled
  | lived had now => exact unknown (contains_of_flagOf? had)

/-- Either the change gives the flag to a node, or this was done before and the change does not
rule on the node. -/
theorem FlagRuled.given_cases (formed : tree.WellFormed) (shown : flag ≠ .dirty)
    (held : FlagRuled flag tree done) (live : (change.apply tree).contains id = true)
    (given : (done id ++ change.rulingIn tree flag id).getLast? = some (.shared true)) :
    tree.contains id = true ∧
      (change.ruling? flag id = some (.shared true) ∨
        change.ruling? flag id = none ∧ (done id).getLast? = some (.shared true)) := by
  have known := held.known_of_ruled formed shown live given
  rw [rulingIn, if_pos known, getLast?_append_ruling] at given
  refine ⟨known, ?_⟩
  cases ruling : change.ruling? flag id with
  | none =>
      rw [ruling, Option.none_or] at given
      exact .inr ⟨rfl, given⟩
  | some own =>
      rw [ruling, Option.some_or] at given
      exact .inl given

theorem flagRuled_apply (formed : tree.WellFormed) (shown : flag ≠ .dirty)
    (held : FlagRuled flag tree done) (change : TreeChange) :
    FlagRuled flag (change.apply tree) fun id => done id ++ change.rulingIn tree flag id := by
  constructor
  case older =>
    intro id ruled
    have before : id.value < tree.nextId.value := by
      cases known : tree.contains id with
      | true => exact formed.beforeNext known
      | false => exact held.older id (by simpa [rulingIn, known] using ruled)
    exact Int.lt_of_lt_of_le before (nextId_le_apply formed change)
  case decided => exact fun id live => held.decided_apply formed shown change live
  case single =>
    intro left right leftLive rightLive leftGiven rightGiven
    rcases held.given_cases formed shown leftLive leftGiven with ⟨leftKnown, leftCases⟩
    rcases held.given_cases formed shown rightLive rightGiven with ⟨rightKnown, rightCases⟩
    rcases leftCases with leftNow | ⟨leftQuiet, leftBefore⟩
    · rcases exists_owner_of_ruling? leftNow with ⟨owner, leftOwns, every⟩
      rw [every right] at rightCases
      simp_all
    · rcases rightCases with rightNow | ⟨-, rightBefore⟩
      · rcases exists_owner_of_ruling? rightNow with ⟨owner, -, every⟩
        rw [every left] at leftQuiet
        cases leftQuiet
      · exact held.single left right leftKnown rightKnown leftBefore rightBefore

end Step

theorem flagRuled_replay (formed : tree.WellFormed) (shown : flag ≠ .dirty)
    {done : NodeId → List Ruling} (held : FlagRuled flag tree done) (changes : List TreeChange) :
    FlagRuled flag (replay tree changes) fun id => done id ++ rulings tree flag id changes := by
  induction changes generalizing tree done with
  | nil => simpa [replay, rulings] using held
  | cons change later ih =>
      have next := ih (wellFormed_apply formed change) (flagRuled_apply formed shown held change)
      simp only [rulings, ← List.append_assoc]
      exact next

/-- At the end of any history in which every node has a state of its own a node has a flag
exactly if the last ruling on the node says so, be it that the node was given the flag or that
its state was changed.  At most one node has the flag because it was given it. -/
theorem flag_replay_iff (first : NodeId) (changes : List TreeChange) {flag : Flag}
    (shown : flag ≠ .dirty) :
    (∀ id node, (replay { nextId := first } changes).get? id = some node →
      (node.flags.read flag = true ↔
        (rulings { nextId := first } flag id changes).getLast? = some (.shared true) ∨
          (rulings { nextId := first } flag id changes).getLast? = some (.own true))) ∧
    ∀ left right, (replay { nextId := first } changes).contains left = true →
      (replay { nextId := first } changes).contains right = true →
      (rulings { nextId := first } flag left changes).getLast? = some (.shared true) →
      (rulings { nextId := first } flag right changes).getLast? = some (.shared true) →
        left = right := by
  have nothing : FlagRuled flag { nextId := first } fun _ => [] := by
    constructor <;> simp [contains, get?]
  have held := flagRuled_replay (wellFormed_empty first) shown nothing changes
  refine ⟨?_, held.single⟩
  intro id node found
  have decided := held.decided id (contains_of_get? found)
  rw [flagOf?_of_get? found, Option.some.injEq, List.nil_append] at decided
  rw [decided]
  cases (rulings { nextId := first } flag id changes).getLast? with
  | none => simp [ruled]
  | some ruling => cases ruling <;> simp [ruled, Ruling.has]

/-- Two nodes, the focus given to the first one, and the state of the second one changed. -/
def focusedTwice : List TreeChange :=
  [ .plantRoot { widgetType := "App" },
    .appendChild ⟨1⟩ { widgetType := "Input" },
    .appendChild ⟨1⟩ { widgetType := "Input" },
    .giveFocus (some ⟨2⟩),
    .writeFlags ⟨3⟩ [("focused", true)] ]

theorem focusedTwice_ruled :
    Flag.focused ≠ .dirty ∧
      ∃ given stated, (replay { nextId := ⟨1⟩ } focusedTwice).get? ⟨2⟩ = some given ∧
        (replay { nextId := ⟨1⟩ } focusedTwice).get? ⟨3⟩ = some stated ∧
        given.flags.read .focused = true ∧ stated.flags.read .focused = true := by
  have shown : Flag.focused ≠ .dirty := by decide
  have ruled := (flag_replay_iff ⟨1⟩ focusedTwice shown).1
  have givenRuled : rulings { nextId := ⟨1⟩ } .focused ⟨2⟩ focusedTwice = [.shared true] := by
    decide +kernel
  have statedRuled : rulings { nextId := ⟨1⟩ } .focused ⟨3⟩ focusedTwice =
      [.shared false, .own true] := by
    decide +kernel
  have givenLive : (replay { nextId := ⟨1⟩ } focusedTwice).contains ⟨2⟩ = true := by
    decide +kernel
  have statedLive : (replay { nextId := ⟨1⟩ } focusedTwice).contains ⟨3⟩ = true := by
    decide +kernel
  rcases contains_iff.mp givenLive with ⟨given, givenFound⟩
  rcases contains_iff.mp statedLive with ⟨stated, statedFound⟩
  refine ⟨shown, given, stated, givenFound, statedFound, ?_, ?_⟩
  · exact (ruled ⟨2⟩ given givenFound).mpr (.inl (by rw [givenRuled]; rfl))
  · exact (ruled ⟨3⟩ stated statedFound).mpr (.inr (by rw [statedRuled]; rfl))

theorem focusedTwice_shared :
    ∃ left right, left ≠ right ∧
      (replay { nextId := ⟨1⟩ } focusedTwice).flagOf? .focused left = some true ∧
      (replay { nextId := ⟨1⟩ } focusedTwice).flagOf? .focused right = some true :=
  ⟨⟨2⟩, ⟨3⟩, by decide, by decide +kernel⟩

end TreeChange

end WidgetStyle
