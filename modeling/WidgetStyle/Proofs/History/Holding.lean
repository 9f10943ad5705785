import WidgetStyle.Proofs.History.Sharing

/-!
# States held together

Nodes of one group show one state: the same flags and the same place, however the state is
written to.  Groups that have no node in common stay so, and whatever a change writes, it
writes to all the nodes of a group alike.  A node that comes is in no group, and one that is
given a state shows what the others of its new group show.
-/

namespace WidgetStyle

/-- What the state of a node shows: the flags and the place. -/
def Node.shown (node : Node) : Flags × Placement :=
  (node.flags, node.placement)

namespace Sharing

variable {sharing : Sharing} {id one other another : NodeId} {ids : List NodeId}

/-- Two nodes hold a state together. -/
def Together (sharing : Sharing) (one other : NodeId) : Prop :=
  ∃ group ∈ sharing, one ∈ group ∧ other ∈ group

/-- Nobody is in two groups, or twice in one. -/
structure Apart (sharing : Sharing) : Prop where
  distinct : ∀ group ∈ sharing, group.Nodup
  single : ∀ first ∈ sharing, ∀ second ∈ sharing, ∀ id ∈ first, id ∈ second → first = second

namespace Apart

theorem tail {group : List NodeId} {rest : Sharing} (apart : Apart (group :: rest)) :
    Apart rest where
  distinct later member := apart.distinct later (List.mem_cons_of_mem group member)
  single first member second also :=
    apart.single first (List.mem_cons_of_mem group member) second
      (List.mem_cons_of_mem group also)

theorem leave (apart : sharing.Apart) (id : NodeId) : (sharing.leave id).Apart where
  distinct := by
    intro group member
    rcases List.mem_map.mp member with ⟨before, among, rfl⟩
    exact (apart.distinct before among).filter _
  single := by
    intro first member second also id inFirst inSecond
    rcases List.mem_map.mp member with ⟨before, among, rfl⟩
    rcases List.mem_map.mp also with ⟨other, besides, rfl⟩
    rw [apart.single before among other besides id (List.mem_of_mem_filter inFirst)
      (List.mem_of_mem_filter inSecond)]

end Apart

theorem not_mem_of_leave {group : List NodeId} (member : group ∈ sharing.leave id) :
    id ∉ group := by
  rcases List.mem_map.mp member with ⟨before, -, rfl⟩
  simp

theorem together_of_leave (together : (sharing.leave id).Together one other) :
    sharing.Together one other := by
  rcases together with ⟨group, member, inGroup, alsoIn⟩
  rcases List.mem_map.mp member with ⟨before, among, rfl⟩
  exact ⟨before, among, List.mem_of_mem_filter inGroup, List.mem_of_mem_filter alsoIn⟩

/-! ## Holders -/

@[simp] theorem mem_widened_iff {group : List NodeId} :
    id ∈ ids ++ group.filter (fun member => !ids.contains member) ↔ id ∈ ids ∨ id ∈ group := by
  by_cases listed : id ∈ ids <;> simp [listed]

theorem mem_holders_iff (apart : sharing.Apart) :
    id ∈ sharing.holders ids ↔
      id ∈ ids ∨ ∃ group ∈ sharing, id ∈ group ∧ ∃ member ∈ group, member ∈ ids := by
  induction sharing generalizing ids with
  | nil => simp [holders]
  | cons group rest ih =>
      rw [holders, List.exists_mem_cons_iff]
      split
      · rename_i meets
        rcases List.any_eq_true.mp meets with ⟨member, inGroup, listed⟩
        have through : ∃ member ∈ group, member ∈ ids :=
          ⟨member, inGroup, List.contains_iff_mem.mp listed⟩
        rw [ih apart.tail, mem_widened_iff]
        constructor
        · rintro ((known | joined) | ⟨later, among, inLater, common, inside, widened⟩)
          · exact .inl known
          · exact .inr (.inl ⟨joined, through⟩)
          · rcases mem_widened_iff.mp widened with known | joined
            · exact .inr (.inr ⟨later, among, inLater, common, inside, known⟩)
            · have same := apart.single later (List.mem_cons_of_mem group among) group
                List.mem_cons_self common inside joined
              exact .inr (.inl ⟨same ▸ inLater, through⟩)
        · rintro (known | ⟨joined, -⟩ | ⟨later, among, inLater, common, inside, known⟩)
          · exact .inl (.inl known)
          · exact .inl (.inr joined)
          · exact .inr ⟨later, among, inLater, common, inside, mem_widened_iff.mpr (.inl known)⟩
      · rename_i misses
        have unmet : ¬(id ∈ group ∧ ∃ member ∈ group, member ∈ ids) := by
          rintro ⟨-, member, inGroup, listed⟩
          exact misses (List.any_eq_true.mpr ⟨member, inGroup, List.contains_iff_mem.mpr listed⟩)
        rw [ih apart.tail, or_iff_right unmet]

theorem nodup_holders (apart : sharing.Apart) (distinct : ids.Nodup) :
    (sharing.holders ids).Nodup := by
  induction sharing generalizing ids with
  | nil => exact distinct
  | cons group rest ih =>
      rw [holders]
      split
      · have new := (apart.distinct group List.mem_cons_self).filter fun member =>
          !ids.contains member
        refine ih apart.tail (distinct.append new ?_)
        intro member listed added
        simp [listed] at added
      · exact ih apart.tail distinct

/-- Of two nodes that hold a state together, a write that meets the one meets the other. -/
theorem Together.mem_holders_iff (together : sharing.Together one other) (apart : sharing.Apart) :
    one ∈ sharing.holders ids ↔ other ∈ sharing.holders ids := by
  rcases together with ⟨group, among, inGroup, alsoIn⟩
  have onwards {first second : NodeId} (inFirst : first ∈ group) (inSecond : second ∈ group)
      (held : first ∈ sharing.holders ids) : second ∈ sharing.holders ids := by
    rw [Sharing.mem_holders_iff apart] at held ⊢
    rcases held with listed | ⟨another, besides, inside, through⟩
    · exact .inr ⟨group, among, inSecond, first, inFirst, listed⟩
    · rw [apart.single another besides group among first inside inFirst] at through
      exact .inr ⟨group, among, inSecond, through⟩
  exact ⟨onwards inGroup alsoIn, onwards alsoIn inGroup⟩

/-! ## Who joins a group -/

theorem Apart.join (apart : sharing.Apart) (id other : NodeId) : (sharing.join id other).Apart := by
  rw [Sharing.join]
  split
  · exact apart
  · rename_i different
    have left := apart.leave id
    have outside : id ∉ (sharing.leave id).holders [other] := by
      rw [mem_holders_iff left]
      rintro (same | ⟨group, among, inside, -⟩)
      · exact different (List.mem_singleton.mp same)
      · exact not_mem_of_leave among inside
    have elsewhere {group : List NodeId} {member : NodeId}
        (among : group ∈ (sharing.leave id).filter fun group => !group.contains other)
        (inside : member ∈ group) : member ∉ id :: (sharing.leave id).holders [other] := by
      rcases List.mem_filter.mp among with ⟨among, without⟩
      rw [List.mem_cons, mem_holders_iff left]
      rintro (rfl | same | ⟨another, besides, inAnother, common, inCommon, same⟩)
      · exact not_mem_of_leave among inside
      · rw [List.mem_singleton.mp same] at inside
        simp [inside] at without
      · rw [List.mem_singleton.mp same] at inCommon
        rw [left.single another besides group among member inAnother inside] at inCommon
        simp [inCommon] at without
    refine ⟨?_, ?_⟩
    · intro group member
      rcases List.mem_cons.mp member with rfl | member
      · exact List.nodup_cons.mpr ⟨outside, nodup_holders left (List.nodup_singleton other)⟩
      · exact left.distinct group (List.mem_of_mem_filter member)
    · intro first member second also common inFirst inSecond
      rcases List.mem_cons.mp member with rfl | member
      · rcases List.mem_cons.mp also with rfl | also
        · rfl
        · exact absurd inFirst (elsewhere also inSecond)
      · rcases List.mem_cons.mp also with rfl | also
        · exact absurd inSecond (elsewhere member inFirst)
        · exact left.single first (List.mem_of_mem_filter member) second
            (List.mem_of_mem_filter also) common inFirst inSecond

/-- Who holds a state together once a node has joined another one: the two with all that the
other one held its state with, and those who held one together before. -/
theorem together_of_join (apart : sharing.Apart)
    (together : (sharing.join id other).Together one another) :
    (one ∈ (sharing.join id other).holders [id] ∧
      another ∈ (sharing.join id other).holders [id]) ∨ sharing.Together one another := by
  rcases together with ⟨group, among, inGroup, alsoIn⟩
  have joined := among
  rw [Sharing.join] at joined
  split at joined
  · exact .inr ⟨group, joined, inGroup, alsoIn⟩
  · rcases List.mem_cons.mp joined with new | kept
    · have through : ∃ member ∈ group, member ∈ [id] :=
        ⟨id, by rw [new]; exact List.mem_cons_self, List.mem_singleton_self id⟩
      have holds {member : NodeId} (inside : member ∈ group) :
          member ∈ (sharing.join id other).holders [id] :=
        (mem_holders_iff (apart.join id other)).mpr (.inr ⟨group, among, inside, through⟩)
      exact .inl ⟨holds inGroup, holds alsoIn⟩
    · exact .inr (together_of_leave ⟨group, List.mem_of_mem_filter kept, inGroup, alsoIn⟩)

theorem mem_of_leave {group : List NodeId} (among : group ∈ sharing.leave id)
    (inside : one ∈ group) : ∃ before ∈ sharing, one ∈ before := by
  rcases List.mem_map.mp among with ⟨before, member, rfl⟩
  exact ⟨before, member, List.mem_of_mem_filter inside⟩

theorem mem_of_join (apart : sharing.Apart) {group : List NodeId}
    (among : group ∈ sharing.join id other) (inside : one ∈ group) :
    one = id ∨ one = other ∨ ∃ before ∈ sharing, one ∈ before := by
  rw [Sharing.join] at among
  split at among
  · exact .inr (.inr ⟨group, among, inside⟩)
  · rcases List.mem_cons.mp among with rfl | kept
    · rcases List.mem_cons.mp inside with same | held
      · exact .inl same
      · rcases (mem_holders_iff (apart.leave id)).mp held with same | ⟨group, among, inGroup, -⟩
        · exact .inr (.inl (List.mem_singleton.mp same))
        · exact .inr (.inr (mem_of_leave among inGroup))
    · exact .inr (.inr (mem_of_leave (List.mem_of_mem_filter kept) inside))

end Sharing

namespace Tree

variable {sharing : Sharing} {tree before middle after : Tree sharing} {id : NodeId}

/-! ## What is written to states -/

/-- What is there of the later tree was there of the earlier one, with the same written to
states that are held together, or else came in between. -/
structure Rewritten (before after : Tree sharing) : Prop where
  nextId : before.nextId.value ≤ after.nextId.value
  written : ∃ write : NodeId → Flags × Placement → Flags × Placement,
    (∀ one other, sharing.Together one other → write one = write other) ∧
      ∀ node ∈ after.nodes,
        (∃ old ∈ before.nodes, old.id = node.id ∧ node.shown = write node.id old.shown) ∨
          (before.nextId.value ≤ node.id.value ∧ node.id.value < after.nextId.value)

namespace Rewritten

/-- The same was written to all states. -/
theorem of_each (write : Flags × Placement → Flags × Placement)
    (each : ∀ node ∈ after.nodes,
      ∃ old ∈ before.nodes, old.id = node.id ∧ node.shown = write old.shown)
    (nextId : after.nextId = before.nextId) : Rewritten before after where
  nextId := Int.le_of_eq (congrArg NodeId.value nextId.symm)
  written := ⟨fun _ => write, fun _ _ _ => rfl, fun node member => .inl (each node member)⟩

/-- Nothing was written. -/
theorem of_subset (nodes : ∀ node ∈ after.nodes, node ∈ before.nodes)
    (nextId : after.nextId = before.nextId) : Rewritten before after :=
  of_each (fun shown => shown) (fun node member => ⟨node, nodes node member, rfl, rfl⟩) nextId

theorem refl (tree : Tree sharing) : Rewritten tree tree :=
  of_subset (fun _ member => member) rfl

theorem trans (first : Rewritten before middle) (second : Rewritten middle after) :
    Rewritten before after where
  nextId := Int.le_trans first.nextId second.nextId
  written := by
    rcases first.written with ⟨write, alike, earlier⟩
    rcases second.written with ⟨again, alikeAgain, later⟩
    refine ⟨fun id shown => again id (write id shown), ?_, ?_⟩
    · intro one other together
      simp only [alike one other together, alikeAgain one other together]
    · intro node member
      rcases later node member with ⟨old, among, sameId, shown⟩ | ⟨new, issued⟩
      · rcases earlier old among with ⟨older, listed, oldId, oldShown⟩ | ⟨new, issued⟩
        · refine .inl ⟨older, listed, oldId.trans sameId, ?_⟩
          rw [shown, oldShown, sameId]
        · rw [sameId] at new issued
          exact .inr ⟨new, Int.lt_of_lt_of_le issued second.nextId⟩
      · exact .inr ⟨Int.le_trans first.nextId new, issued⟩

theorem foldl {Item : Type} {step : Tree sharing → Item → Tree sharing}
    (each : ∀ tree item, Rewritten tree (step tree item)) (tree : Tree sharing)
    (items : List Item) : Rewritten tree (items.foldl step tree) := by
  induction items generalizing tree with
  | nil => exact refl tree
  | cons item later ih => exact (each tree item).trans (ih _)

/-- A change of each node by itself, which writes to those in a set of ids and to no others. -/
theorem of_map (ids : List NodeId) (change : Node → Node)
    (write : Flags × Placement → Flags × Placement)
    (nodes : after.nodes = before.nodes.map fun node => if node.id ∈ ids then change node else node)
    (nextId : after.nextId = before.nextId) (keepsId : ∀ node, (change node).id = node.id)
    (writes : ∀ node, (change node).shown = write node.shown)
    (alike : ∀ one other, sharing.Together one other → (one ∈ ids ↔ other ∈ ids)) :
    Rewritten before after where
  nextId := Int.le_of_eq (congrArg NodeId.value nextId.symm)
  written := by
    refine ⟨fun id => if id ∈ ids then write else fun shown => shown, ?_, ?_⟩
    · intro one other together
      simp only [alike one other together]
    · intro node member
      rw [nodes] at member
      rcases List.mem_map.mp member with ⟨old, among, rfl⟩
      refine .inl ⟨old, among, ?_⟩
      by_cases listed : old.id ∈ ids
      · simp [listed, keepsId, writes]
      · simp [listed]

end Rewritten

/-- A change of one node that leaves its state alone. -/
theorem rewritten_modify (tree : Tree sharing) (id : NodeId) (change : Node → Node)
    (keepsId : ∀ node, (change node).id = node.id)
    (keeps : ∀ node, (change node).shown = node.shown) :
    Rewritten tree (tree.modify id change) := by
  refine .of_each (fun shown => shown) ?_ rfl
  intro node member
  rcases List.mem_map.mp member with ⟨old, among, rfl⟩
  refine ⟨old, among, ?_⟩
  by_cases here : old.id = id
  · simp [here, keepsId, keeps]
  · simp [here]

theorem rewritten_cleanAll (tree : Tree sharing) : Rewritten tree tree.cleanAll := by
  refine .of_each (fun shown => ({ shown.1 with dirty := false }, shown.2)) ?_ rfl
  intro node member
  rcases List.mem_map.mp member with ⟨old, among, rfl⟩
  exact ⟨old, among, rfl, rfl⟩

theorem rewritten_insertNode (tree : Tree sharing) (identity : Identity)
    (parent : Option NodeId) : Rewritten tree (tree.insertNode identity parent).2 where
  nextId := Int.le_add_one (Int.le_refl _)
  written := by
    refine ⟨fun _ shown => shown, fun _ _ _ => rfl, ?_⟩
    intro node member
    rcases List.mem_append.mp member with old | new
    · exact .inl ⟨node, old, rfl, rfl⟩
    · rw [List.mem_singleton.mp new]
      exact .inr ⟨Int.le_refl _, Int.lt_succ _⟩

theorem rewritten_dropNodes (tree : Tree sharing) (ids : List NodeId) :
    Rewritten tree (tree.dropNodes ids) :=
  .of_subset (fun _ member => List.mem_of_mem_filter member) rfl

/-- A change made for each of some nodes is made once for each node that is among them. -/
theorem nodes_foldl_modify {ids : List NodeId} (distinct : ids.Nodup) (tree : Tree sharing)
    (change : Node → Node) (keepsId : ∀ node, (change node).id = node.id) :
    (ids.foldl (fun result id => result.modify id change) tree).nodes =
      tree.nodes.map fun node => if node.id ∈ ids then change node else node := by
  induction ids generalizing tree with
  | nil => simp
  | cons id later ih =>
      rcases List.nodup_cons.mp distinct with ⟨fresh, distinct⟩
      rw [List.foldl_cons, ih distinct, modify, List.map_map]
      apply List.map_congr_left
      intro node _
      by_cases here : node.id = id
      · simp [here, keepsId, fresh]
      · simp [here]

theorem nextId_foldl_modify (tree : Tree sharing) (ids : List NodeId) (change : Node → Node) :
    (ids.foldl (fun result id => result.modify id change) tree).nextId = tree.nextId := by
  induction ids generalizing tree with
  | nil => rfl
  | cons id later ih => exact ih (tree.modify id change)

section Writing

variable (apart : sharing.Apart)

include apart

theorem nodes_modifyState (tree : Tree sharing) (id : NodeId) (change : Node → Node)
    (keepsId : ∀ node, (change node).id = node.id) :
    (tree.modifyState id change).nodes =
      tree.nodes.map fun node => if node.id ∈ sharing.holders [id] then change node else node :=
  nodes_foldl_modify (Sharing.nodup_holders apart (List.nodup_singleton id)) tree change keepsId

theorem rewritten_modifyState (tree : Tree sharing) (id : NodeId) (change : Node → Node)
    (write : Flags × Placement → Flags × Placement)
    (keepsId : ∀ node, (change node).id = node.id)
    (writes : ∀ node, (change node).shown = write node.shown) :
    Rewritten tree (tree.modifyState id change) :=
  .of_map _ change write (nodes_modifyState apart tree id change keepsId)
    (nextId_foldl_modify tree _ change) keepsId writes
    fun _ _ together => together.mem_holders_iff apart

theorem rewritten_dirtySubtree (tree : Tree sharing) (id : NodeId) :
    Rewritten tree (tree.dirtySubtree id) := by
  rw [dirtySubtree]
  split
  · refine .of_map (sharing.holders (tree.subtree id)) Node.dirtied
      (fun shown => ({ shown.1 with dirty := true }, shown.2)) ?_ rfl (fun _ => rfl)
      (fun _ => rfl) fun _ _ together => together.mem_holders_iff apart
    simp
  · exact .refl tree

theorem rewritten_dirtyDependents (tree : Tree sharing) (id : NodeId) :
    Rewritten tree (tree.dirtyDependents id) :=
  (rewritten_dirtySubtree apart tree id).trans (.foldl (rewritten_dirtySubtree apart) _ _)

/-- A change of a state with all that it makes dirty. -/
theorem rewritten_changed (tree : Tree sharing) (id : NodeId) (change : Node → Node)
    (write : Flags × Placement → Flags × Placement)
    (keepsId : ∀ node, (change node).id = node.id)
    (writes : ∀ node, (change node).shown = write node.shown) :
    Rewritten tree ((tree.modifyState id change).dirtyDependents id) :=
  (rewritten_modifyState apart tree id change write keepsId writes).trans
    (rewritten_dirtyDependents apart _ id)

theorem rewritten_placeChild (total : Nat) (tree : Tree sharing) (entry : NodeId × Nat) :
    Rewritten tree (placeChild total tree entry) := by
  have placed := rewritten_modifyState apart tree entry.1
    (fun node => { node with placement := .ofIndex entry.2 total })
    (fun shown => (shown.1, .ofIndex entry.2 total)) (fun _ => rfl) fun _ => rfl
  rw [placeChild]
  split
  · exact .refl tree
  · simp only
    split
    · exact placed
    · exact placed.trans (rewritten_dirtySubtree apart _ entry.1)

theorem rewritten_placeChildren (tree : Tree sharing) (parent : NodeId) :
    Rewritten tree (tree.placeChildren parent) :=
  .foldl (rewritten_placeChild apart _) tree _

theorem rewritten_turnFlag (tree : Tree sharing) (flag : Flag) (value : Bool) (id : NodeId) :
    Rewritten tree (tree.turnFlag flag value id) := by
  rw [turnFlag]
  split
  · split
    · exact .refl tree
    · exact rewritten_changed apart tree id _
        (fun shown => (shown.1.write flag value, shown.2)) (fun _ => rfl) fun _ => rfl
  · exact .refl tree

theorem rewritten_giveFlag (tree : Tree sharing) (flag : Flag) (owner : Option NodeId) :
    Rewritten tree (tree.giveFlag flag owner) := by
  have cleared := Rewritten.foldl
    (fun tree id => rewritten_turnFlag apart tree flag false id) tree
  cases owner with
  | none => exact cleared _
  | some id => exact (cleared _).trans (rewritten_turnFlag apart _ flag true id)

theorem rewritten_detach (tree : Tree sharing) (node : Node) :
    Rewritten tree (tree.detach node) := by
  rw [detach]
  split
  · rename_i parent _
    refine .trans ?_ (rewritten_placeChildren apart _ parent.id)
    exact rewritten_modify tree parent.id _ (fun _ => rfl) fun _ => rfl
  · exact .refl tree

theorem rewritten_removeSubtree (tree : Tree sharing) (id : NodeId) :
    Rewritten tree (tree.removeSubtree id).2 := by
  rw [removeSubtree]
  split
  · exact .refl tree
  · rename_i node _
    have rest := (rewritten_detach apart tree node).trans
      (rewritten_dropNodes _ ((tree.detach node).subtree id))
    simp only
    split
    · exact rest.trans (.of_subset (fun _ member => member) rfl)
    · exact rest

theorem rewritten_plantRoot (tree : Tree sharing) (identity : Identity) :
    Rewritten tree (tree.plantRoot identity).2 := by
  have planted (cleared : Tree sharing) : Rewritten cleared
      { (cleared.insertNode identity none).2 with
        root := some (cleared.insertNode identity none).1 } :=
    (rewritten_insertNode cleared identity none).trans (.of_subset (fun _ member => member) rfl)
  rw [plantRoot]
  cases tree.root with
  | none => exact planted tree
  | some root => exact (rewritten_removeSubtree apart tree root).trans (planted _)

theorem rewritten_setIdentity (tree : Tree sharing) (node : Node) (identity : Identity) :
    Rewritten tree (tree.setIdentity node identity) := by
  refine .trans ?_ (rewritten_dirtyDependents apart _ node.id)
  have changed := rewritten_modify tree node.id (fun node => { node with identity })
    (fun _ => rfl) fun _ => rfl
  exact changed.trans (.of_subset (fun _ member => member) rfl)

end Writing

/-! ## Trees in which one state shows one thing -/

/-- Nodes that hold a state together show the same, and an id that is in a group or belongs
to a node has been handed out. -/
structure Held (tree : Tree sharing) : Prop where
  apart : sharing.Apart
  issued : ∀ node ∈ tree.nodes, node.id.value < tree.nextId.value
  members : ∀ group ∈ sharing, ∀ id ∈ group, id.value < tree.nextId.value
  alike : ∀ node ∈ tree.nodes, ∀ twin ∈ tree.nodes,
    sharing.Together node.id twin.id → node.shown = twin.shown

namespace Held

theorem rewritten (held : before.Held) (rewritten : Rewritten before after) : after.Held where
  apart := held.apart
  issued := by
    intro node member
    rcases rewritten.written with ⟨write, -, kept⟩
    rcases kept node member with ⟨old, among, same, -⟩ | ⟨-, issued⟩
    · rw [← same]
      exact Int.lt_of_lt_of_le (held.issued old among) rewritten.nextId
    · exact issued
  members group among id inside :=
    Int.lt_of_lt_of_le (held.members group among id inside) rewritten.nextId
  alike := by
    intro node member twin also together
    rcases rewritten.written with ⟨write, alike, kept⟩
    rcases id together with ⟨group, among, inGroup, alsoIn⟩
    rcases kept node member with ⟨old, listed, same, shown⟩ | ⟨new, -⟩
    · rcases kept twin also with ⟨other, listedToo, sameToo, shownToo⟩ | ⟨new, -⟩
      · have before := held.alike old listed other listedToo (by rwa [same, sameToo])
        rw [shown, shownToo, before, alike _ _ together]
      · exact absurd (held.members group among twin.id alsoIn) (Int.not_lt.mpr new)
    · exact absurd (held.members group among node.id inGroup) (Int.not_lt.mpr new)

end Held

end Tree

namespace TreeChange

open WidgetStyle.Tree

variable {sharing : Sharing} {tree after : Tree sharing}

theorem rewritten_outcome (apart : sharing.Apart) {change : TreeChange}
    (done : change.outcome tree = .ok after) : Rewritten tree after := by
  cases change with
  | plantRoot identity =>
      cases done
      exact rewritten_plantRoot apart tree identity
  | appendChild parent identity =>
      rcases exists_of_map_eq_ok done with ⟨pair, added, rfl⟩
      rw [Tree.appendChild] at added
      split at added
      · cases added
      · cases added
        have linked := rewritten_modify (tree.insertNode identity (some parent)).2 parent
          (fun node => { node with children := node.children ++ [tree.nextId] })
          (fun _ => rfl) fun _ => rfl
        exact ((rewritten_insertNode tree identity (some parent)).trans linked).trans
          (rewritten_placeChildren apart _ parent)
  | removeSubtree id =>
      cases done
      exact rewritten_removeSubtree apart tree id
  | permuteChildren parent order =>
      rw [outcome, Tree.permuteChildren] at done
      split at done
      · cases done
      · split at done
        · cases done
          refine .trans ?_ (rewritten_placeChildren apart _ parent)
          exact rewritten_modify tree parent _ (fun _ => rfl) fun _ => rfl
        · cases done
  | replaceClasses id classes =>
      rcases require_map_eq_ok done with ⟨node, -, rfl⟩
      exact rewritten_setIdentity apart tree node _
  | insertClass id name =>
      rcases require_map_eq_ok done with ⟨node, -, rfl⟩
      split
      · exact .refl tree
      · exact rewritten_setIdentity apart tree node _
  | eraseClass id name =>
      rcases require_map_eq_ok done with ⟨node, -, rfl⟩
      split
      · exact rewritten_setIdentity apart tree node _
      · exact .refl tree
  | replaceElementId id elementId =>
      rcases require_map_eq_ok done with ⟨node, -, rfl⟩
      exact rewritten_setIdentity apart tree node _
  | replaceInlineStyle id style =>
      rcases require_map_eq_ok done with ⟨node, -, rfl⟩
      refine .trans ?_ (rewritten_dirtySubtree apart _ id)
      exact rewritten_modify tree id _ (fun _ => rfl) fun _ => rfl
  | writeFlags id changes =>
      simp only [outcome, Tree.writeFlags] at done
      split at done
      · cases done
      · rename_i known _
        rcases require_map_eq_ok done with ⟨node, -, rfl⟩
        exact rewritten_changed apart tree id _
          (fun shown => (shown.1.writeAll known, shown.2)) (fun _ => rfl) fun _ => rfl
  | replaceFlags id flags =>
      rcases require_map_eq_ok done with ⟨node, -, rfl⟩
      exact rewritten_changed apart tree id _
        (fun _ => (flags, .ofIndex node.placement.index node.placement.total))
        (fun _ => rfl) fun _ => rfl
  | dirtySubtree id =>
      cases done
      exact rewritten_dirtySubtree apart tree id
  | cleanAll =>
      cases done
      exact rewritten_cleanAll tree
  | giveFocus owner =>
      cases done
      exact rewritten_giveFlag apart tree .focused owner
  | giveHover owner =>
      cases done
      exact rewritten_giveFlag apart tree .hovered owner

theorem held_apply (held : tree.Held) (change : TreeChange) : (change.apply tree).Held :=
  apply_of_outcome held fun done => held.rewritten (rewritten_outcome held.apart done)

end TreeChange

namespace Tree

variable {sharing : Sharing} {tree : Tree sharing} {id other : NodeId}

/-- Nodes hold their states on when one of them is about to get a new one. -/
theorem held_leave (held : tree.Held) (id : NodeId) : (tree.regroup (sharing.leave id)).Held where
  apart := held.apart.leave id
  issued := held.issued
  members := by
    intro group among one inside
    rcases Sharing.mem_of_leave among inside with ⟨before, member, inBefore⟩
    exact held.members before member one inBefore
  alike node member twin also together :=
    held.alike node member twin also (Sharing.together_of_leave together)

theorem held_regroup (held : tree.Held) (change : TreeChange) :
    (tree.regroup (change.sharingAfter sharing)).Held := by
  cases change with
  | replaceFlags id flags => exact held_leave held id
  | _ => exact held

/-- One state is written to, which some nodes come to hold together, and nobody else holds one
together who did not before. -/
theorem held_written (held : tree.Held) {groups : Sharing} (apart : groups.Apart)
    (members : ∀ group ∈ groups, ∀ id ∈ group, id.value < tree.nextId.value)
    (joined : ∀ one another, groups.Together one another →
      (one ∈ groups.holders [id] ∧ another ∈ groups.holders [id]) ∨ sharing.Together one another)
    (flags : Flags) (placement : Placement) :
    ((tree.regroup groups).modifyState id fun node => { node with flags, placement }).Held := by
  have nodes := nodes_modifyState apart (tree.regroup groups) id
    (fun node => { node with flags, placement }) fun _ => rfl
  have nextId : ((tree.regroup groups).modifyState id fun node =>
      { node with flags, placement }).nextId = tree.nextId := nextId_foldl_modify _ _ _
  have found {node : Node}
      (member : node ∈ ((tree.regroup groups).modifyState id fun node =>
        { node with flags, placement }).nodes) :
      ∃ old ∈ tree.nodes, old.id = node.id ∧
        node.shown = if node.id ∈ groups.holders [id] then (flags, placement) else old.shown := by
    rw [nodes] at member
    rcases List.mem_map.mp member with ⟨old, among, rfl⟩
    refine ⟨old, among, ?_⟩
    by_cases written : old.id ∈ groups.holders [id]
    · simp [written, Node.shown]
    · simp [written]
  refine ⟨apart, ?_, ?_, ?_⟩
  · intro node member
    rcases found member with ⟨old, among, same, -⟩
    rw [nextId, ← same]
    exact held.issued old among
  · rw [nextId]
    exact members
  · intro node member twin also together
    rcases found member with ⟨old, among, same, shown⟩
    rcases found also with ⟨other, amongToo, sameToo, shownToo⟩
    rw [shown, shownToo]
    rcases joined node.id twin.id together with ⟨holds, holdsToo⟩ | before
    · rw [if_pos holds, if_pos holdsToo]
    · rw [held.alike old among other amongToo (by rwa [same, sameToo])]
      simp only [together.mem_holders_iff apart]

theorem held_shareState (held : tree.Held) {after : Tree (sharing.join id other)}
    (given : tree.shareState id other = .ok after) : after.Held := by
  rw [shareState] at given
  split at given
  · cases given
  · rename_i holder asked
    rcases require_map_eq_ok given with ⟨node, found, rfl⟩
    have apart := held.apart.join id other
    have otherIssued : other.value < tree.nextId.value := by
      rw [require] at asked
      split at asked
      · rename_i holds
        rw [← id_of_get? holds]
        exact held.issued _ (mem_of_get? holds)
      · cases asked
    have idIssued : id.value < tree.nextId.value := by
      rw [← id_of_get? found]
      exact held.issued node (mem_of_get? found)
    have members : ∀ group ∈ sharing.join id other, ∀ one ∈ group,
        one.value < tree.nextId.value := by
      intro group among one inside
      rcases Sharing.mem_of_join held.apart among inside with rfl | rfl | ⟨before, member, inBefore⟩
      · exact idIssued
      · exact otherIssued
      · exact held.members before member one inBefore
    have written := held_written held apart members
      (fun _ _ together => Sharing.together_of_join held.apart together) holder.flags
      (.ofIndex node.placement.index node.placement.total)
    exact written.rewritten (rewritten_dirtyDependents apart _ id)

theorem held_blank (first : NodeId) : Held ({ nextId := first } : Tree) where
  apart := ⟨by simp, by simp⟩
  issued := by simp
  members := by simp
  alike := by simp

end Tree

namespace SharedTree

theorem held_apply {shared : SharedTree} (held : shared.tree.Held) (change : SharedChange) :
    (shared.apply change).tree.Held := by
  cases change with
  | change change => exact TreeChange.held_apply (Tree.held_regroup held change) change
  | shareState id other =>
      rw [apply]
      split
      · rename_i given
        exact Tree.held_shareState held given
      · exact held

theorem held_replay {shared : SharedTree} (held : shared.tree.Held) (changes : List SharedChange) :
    (replay shared changes).tree.Held := by
  induction changes generalizing shared with
  | nil => exact held
  | cons change later ih => exact ih (held_apply held change)

/-- However a history goes, nodes that hold a state together show the same flags and the same
place in the end. -/
theorem shown_eq_of_together (first : NodeId) (changes : List SharedChange)
    {one other : NodeId} {node twin : Node}
    (together :
      (replay { tree := { nextId := first } } changes).sharing.Together one other)
    (found : (replay { tree := { nextId := first } } changes).tree.get? one = some node)
    (foundTwin : (replay { tree := { nextId := first } } changes).tree.get? other = some twin) :
    node.flags = twin.flags ∧ node.placement = twin.placement := by
  have blank : ({ tree := { nextId := first } } : SharedTree).tree.Held := Tree.held_blank first
  have held := held_replay blank changes
  rw [← Tree.id_of_get? found, ← Tree.id_of_get? foundTwin] at together
  have same := held.alike node (Tree.mem_of_get? found) twin (Tree.mem_of_get? foundTwin) together
  exact ⟨congrArg Prod.fst same, congrArg Prod.snd same⟩

end SharedTree

end WidgetStyle
