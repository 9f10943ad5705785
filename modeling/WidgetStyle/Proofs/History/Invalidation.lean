import WidgetStyle.Proofs.History.Ownership
import WidgetStyle.Proofs.StyledTree.Completeness
import WidgetStyle.Proofs.Tree.DocumentOrder

/-!
# What gets dirty

A change of a node's identity or state is seen from everything below the node and below the
siblings after it, and exactly these nodes get dirty.  When a flag is given to a node, the
nodes that had it or get it turn, and the dirty nodes are the old ones with the footprints of
all that turned.  How many nodes had the flag before makes no difference, and giving the flag
once more turns none.
-/

namespace WidgetStyle

/-- The node without one of its flags and without the mark as dirty. -/
def Node.hiding (flag : Flag) (node : Node) : Node :=
  { node with flags := (node.flags.write flag false).write .dirty false }

namespace Tree

variable {birth : NodeId → Int} {before after changed tree : Tree} {flag : Flag}
  {target id : NodeId}

/-! ## Footprints -/

/-- What sees a change of a node: all that lies below it, and all that lies below a sibling
listed after it. -/
def Footprint (tree : Tree) (target id : NodeId) : Prop :=
  tree.Below target id ∨ ∃ later, tree.ListedBefore target later ∧ tree.Below later id

theorem LinkedBy.affects_iff (linked : tree.LinkedBy birth) :
    tree.Affects target id ↔ tree.Footprint target id := by
  simp only [Affects, Footprint, linked.mem_followingSiblings_iff]
  rfl

theorem SameLinks.footprint_iff (same : SameLinks before after) :
    after.Footprint target id ↔ before.Footprint target id := by
  simp only [Footprint, ListedBefore, same.below_iff, same.children]

theorem LinkedBy.contains_of_footprint (linked : tree.LinkedBy birth)
    (known : tree.contains target = true) (reached : tree.Footprint target id) :
    tree.contains id = true := by
  rcases reached with below | ⟨later, listed, below⟩
  · exact contains_below known below
  · rcases linked.exists_parent_of_listedBefore listed with ⟨parent, -, link⟩
    exact contains_below (contains_of_parentId? link) below

/-- A node is clean after the change of another one if it was clean and is out of reach. -/
theorem LinkedBy.isClean_changed_iff (linked : tree.LinkedBy birth)
    (links : SameLinks tree changed)
    (elsewhere : ∀ other, other ≠ target → changed.get? other = tree.get? other) :
    (changed.dirtyDependents target).IsClean id ↔
      tree.IsClean id ∧ ¬tree.Footprint target id := by
  have changedLinked := links.linkedBy linked
  rw [changedLinked.isClean_dirtyDependents_iff, changedLinked.affects_iff, links.footprint_iff]
  by_cases same : id = target
  · have reached : tree.Footprint target id := .inl (same ▸ .top)
    simp [reached]
  · rw [IsClean, IsClean, elsewhere id same]

/-! ## Giving a flag -/

/-- The node has the flag and is to lose it, or it lacks the flag and is to get it. -/
def Turns (tree : Tree) (flag : Flag) (owner : Option NodeId) (id : NodeId) : Prop :=
  tree.flagOf? flag id = some !decide (owner = some id)

theorem turns_iff (shown : flag ≠ .dirty) {owner : Option NodeId} :
    tree.Turns flag owner id ↔
      (tree.giveFlag flag owner).flagOf? flag id ≠ tree.flagOf? flag id := by
  rw [Turns, flagOf?_giveFlag shown, if_pos rfl]
  cases tree.flagOf? flag id with
  | none => simp
  | some had => cases had <;> simp

theorem contains_of_turns {owner : Option NodeId} (turns : tree.Turns flag owner id) :
    tree.contains id = true :=
  contains_of_flagOf? turns

theorem turnFlag_eq_self {value : Bool} (idle : tree.flagOf? flag target ≠ some !value) :
    tree.turnFlag flag value target = tree := by
  rw [turnFlag]
  split
  · rename_i node found
    rw [flagOf?_of_get? found] at idle
    rw [if_pos (by simpa using idle)]
  · rfl

theorem LinkedBy.isClean_turnFlag_iff (linked : tree.LinkedBy birth) {value : Bool} :
    (tree.turnFlag flag value target).IsClean id ↔
      tree.IsClean id ∧
        (tree.flagOf? flag target = some (!value) → ¬tree.Footprint target id) := by
  by_cases turns : tree.flagOf? flag target = some (!value)
  · rcases Option.map_eq_some_iff.mp turns with ⟨node, found, had⟩
    let restate : Node → Node := fun node => { node with flags := node.flags.write flag value }
    have links : SameLinks tree (tree.modify target restate) :=
      (restyled_modify tree target restate fun _ => rfl).links
    have elsewhere (other : NodeId) (apart : other ≠ target) :
        (tree.modify target restate).get? other = tree.get? other := by
      rw [get?_modify tree target other restate fun _ => rfl, if_neg apart]
    have turned : tree.turnFlag flag value target =
        (tree.modify target restate).dirtyDependents target := by
      rw [turnFlag, found]
      simp only [had]
      rw [if_neg (by simp), modifyState_eq]
    rw [turned, linked.isClean_changed_iff links elsewhere]
    simp [turns]
  · rw [turnFlag_eq_self turns]
    simp [turns]

theorem LinkedBy.isClean_turnFlags_iff (linked : tree.LinkedBy birth) (shown : flag ≠ .dirty)
    {value : Bool} {targets : List NodeId} :
    (targets.foldl (fun result target => result.turnFlag flag value target) tree).IsClean id ↔
      tree.IsClean id ∧ ∀ target ∈ targets,
        tree.flagOf? flag target = some (!value) → ¬tree.Footprint target id := by
  induction targets generalizing tree with
  | nil => simp
  | cons first rest ih =>
      have links := (restyled_turnFlag tree flag value first).links
      rw [List.foldl_cons, ih (links.linkedBy linked), linked.isClean_turnFlag_iff]
      simp only [links.footprint_iff, flagOf?_turnFlag shown]
      constructor
      · intro parts
        refine ⟨parts.1.1, ?_⟩
        intro target member had
        by_cases same : target = first
        · subst same
          exact parts.1.2 had
        · have later := (List.mem_cons.mp member).resolve_left same
          exact parts.2 target later (by simpa [same] using had)
      · intro parts
        refine ⟨⟨parts.1, parts.2 first List.mem_cons_self⟩, ?_⟩
        intro target later had
        by_cases same : target = first
        · -- A node that turned once does not turn back.
          subst same
          cases found : tree.flagOf? flag target <;> simp [found] at had
        · exact parts.2 target (List.mem_cons_of_mem first later) (by simpa [same] using had)

/-- The nodes that lose the flag when it is given: all but the owner. -/
def others (tree : Tree) (owner : Option NodeId) : List NodeId :=
  (tree.nodes.map (·.id)).filter fun other => decide (some other ≠ owner)

theorem mem_others_iff {owner : Option NodeId} :
    target ∈ tree.others owner ↔ tree.contains target = true ∧ owner ≠ some target := by
  rw [others, List.mem_filter, contains_iff_mem, decide_eq_true_eq, ne_comm]

theorem LinkedBy.isClean_turnOthers_iff (linked : tree.LinkedBy birth) (shown : flag ≠ .dirty)
    (owner : Option NodeId) (id : NodeId) :
    ((tree.others owner).foldl (fun result target => result.turnFlag flag false target)
        tree).IsClean id ↔
      tree.IsClean id ∧ ∀ target, owner ≠ some target → tree.Turns flag owner target →
        ¬tree.Footprint target id := by
  rw [linked.isClean_turnFlags_iff shown]
  constructor
  · intro parts
    refine ⟨parts.1, ?_⟩
    intro target apart turns
    apply parts.2 target (mem_others_iff.mpr ⟨contains_of_turns turns, apart⟩)
    rwa [Turns, decide_eq_false apart] at turns
  · intro parts
    refine ⟨parts.1, ?_⟩
    intro target member had
    have apart := (mem_others_iff.mp member).2
    apply parts.2 target apart
    rwa [Turns, decide_eq_false apart]

theorem LinkedBy.isClean_giveFlag_iff (linked : tree.LinkedBy birth) (shown : flag ≠ .dirty)
    {owner : Option NodeId} :
    (tree.giveFlag flag owner).IsClean id ↔
      tree.IsClean id ∧ ∀ target, tree.Turns flag owner target → ¬tree.Footprint target id := by
  have cleared := linked.isClean_turnOthers_iff shown owner id
  cases owner with
  | none =>
      apply cleared.trans
      simp
  | some own =>
      let turned := (tree.others (some own)).foldl
        (fun result target => result.turnFlag flag false target) tree
      have links : SameLinks tree turned :=
        (Restyled.foldl (restyled_turnFlag · flag false) tree (tree.others (some own))).links
      have kept : turned.flagOf? flag own = tree.flagOf? flag own := by
        rw [flagOf?_turnFlags shown, if_neg]
        intro among
        exact (mem_others_iff.mp among.2).2 rfl
      have gets : tree.Turns flag (some own) own ↔ tree.flagOf? flag own = some !true := by
        rw [Turns, decide_eq_true rfl]
      change (turned.turnFlag flag true own).IsClean id ↔ _
      rw [(links.linkedBy linked).isClean_turnFlag_iff, cleared, links.footprint_iff, kept,
        ← gets]
      constructor
      · intro parts
        refine ⟨parts.1.1, ?_⟩
        intro target turns
        by_cases same : own = target
        · subst same
          exact parts.2 turns
        · exact parts.1.2 target (fun equal => same (Option.some.inj equal)) turns
      · intro parts
        exact ⟨⟨parts.1, fun target _ => parts.2 target⟩, parts.2 own⟩

theorem turnFlags_eq_self {value : Bool} {targets : List NodeId}
    (idle : ∀ target ∈ targets, tree.flagOf? flag target ≠ some !value) :
    targets.foldl (fun result target => result.turnFlag flag value target) tree = tree := by
  induction targets with
  | nil => rfl
  | cons first rest ih =>
      rw [List.foldl_cons, turnFlag_eq_self (idle first List.mem_cons_self)]
      exact ih fun target later => idle target (List.mem_cons_of_mem first later)

/-- Where no node turns, giving a flag changes nothing. -/
theorem giveFlag_eq_self {owner : Option NodeId} (idle : ∀ id, ¬tree.Turns flag owner id) :
    tree.giveFlag flag owner = tree := by
  have cleared : (tree.others owner).foldl
      (fun result target => result.turnFlag flag false target) tree = tree := by
    apply turnFlags_eq_self
    intro target member had
    apply idle target
    rw [Turns, decide_eq_false (mem_others_iff.mp member).2]
    exact had
  cases owner with
  | none => exact cleared
  | some own =>
      apply (congrArg (turnFlag · flag true own) cleared).trans
      apply turnFlag_eq_self
      intro had
      apply idle own
      rw [Turns, decide_eq_true rfl]
      exact had

/-- After a flag was given no node turns when it is given once more. -/
theorem giveFlag_giveFlag (shown : flag ≠ .dirty) (tree : Tree) (owner : Option NodeId) :
    (tree.giveFlag flag owner).giveFlag flag owner = tree.giveFlag flag owner := by
  apply giveFlag_eq_self
  intro id turns
  rw [Turns, flagOf?_giveFlag shown, if_pos rfl] at turns
  cases found : tree.flagOf? flag id <;> simp [found] at turns

/-! ## What else changes -/

theorem hiding_dirtied (flag : Flag) (node : Node) :
    node.dirtied.hiding flag = node.hiding flag := by
  cases flag <;> rfl

theorem hiding_write (flag : Flag) (value : Bool) (node : Node) :
    { node with flags := node.flags.write flag value }.hiding flag = node.hiding flag := by
  cases flag <;> rfl

theorem sameBut_turnFlag (flag : Flag) (value : Bool) (tree : Tree) (id : NodeId) :
    SameBut (Node.hiding flag) tree (tree.turnFlag flag value id) := by
  have marks := sameBut_dirtySubtree (hiding_dirtied flag)
  rw [turnFlag]
  split
  · split
    · exact .refl tree
    · have written := sameBut_modify tree id
        (fun node => { node with flags := node.flags.write flag value }) (hiding_write flag value)
      exact (written.trans (marks _ id)).trans (.foldl marks _ _)
  · exact .refl tree

theorem sameBut_giveFlag (flag : Flag) (tree : Tree) (owner : Option NodeId) :
    SameBut (Node.hiding flag) tree (tree.giveFlag flag owner) := by
  have cleared := SameBut.foldl (sameBut_turnFlag flag false) tree
  cases owner with
  | none => exact cleared _
  | some own => exact (cleared _).trans (sameBut_turnFlag flag true _ own)

/-! ## Dirty nodes -/

/-- The nodes that are dirty are the old ones and those that are reached. -/
theorem LinkedBy.mem_dirtyIds_iff_of_isClean (linked : before.LinkedBy birth)
    (links : SameLinks before after) {reached : Prop}
    (clean : after.IsClean id ↔ before.IsClean id ∧ ¬reached)
    (known : reached → before.contains id = true) :
    id ∈ after.dirtyIds ↔ id ∈ before.dirtyIds ∨ reached := by
  rw [StyledTree.mem_dirtyIds_iff (links.linkedBy linked), StyledTree.mem_dirtyIds_iff linked,
    ← links.contains_eq, clean]
  tauto

/-- What giving a flag does: among the nodes only the owner has it, the nodes that turned are
dirty with all that sees them, and nothing else changed. -/
structure Gave (flag : Flag) (owner : Option NodeId) (before after : Tree) : Prop
    extends SameBut (Node.hiding flag) before after where
  owned : ∀ id, before.contains id = true →
    (after.flagOf? flag id = some true ↔ owner = some id)
  dirty : ∀ id, id ∈ after.dirtyIds ↔ id ∈ before.dirtyIds ∨
    ∃ turned, after.flagOf? flag turned ≠ before.flagOf? flag turned ∧
      before.Footprint turned id
  again : after.giveFlag flag owner = after

theorem LinkedBy.gave_giveFlag (linked : tree.LinkedBy birth) (shown : flag ≠ .dirty)
    (owner : Option NodeId) : Gave flag owner tree (tree.giveFlag flag owner) where
  toSameBut := sameBut_giveFlag flag tree owner
  owned := by
    intro id known
    rcases contains_iff.mp known with ⟨node, found⟩
    rw [flagOf?_giveFlag shown, if_pos rfl, flagOf?_of_get? found]
    simp
  dirty := by
    intro id
    apply linked.mem_dirtyIds_iff_of_isClean (restyled_giveFlag tree flag owner).links
    · rw [linked.isClean_giveFlag_iff shown]
      simp [turns_iff shown]
    · intro reached
      rcases reached with ⟨turned, turns, sees⟩
      exact linked.contains_of_footprint (contains_of_turns ((turns_iff shown).mpr turns)) sees
  again := giveFlag_giveFlag shown tree owner

/-- The dirty nodes are the old ones and those that see a change of the node. -/
def Dirtied (before after : Tree) (target : NodeId) : Prop :=
  ∀ id, id ∈ after.dirtyIds ↔ id ∈ before.dirtyIds ∨ before.Footprint target id

theorem LinkedBy.dirtied_changed (linked : tree.LinkedBy birth)
    (known : tree.contains target = true) (links : SameLinks tree changed)
    (elsewhere : ∀ other, other ≠ target → changed.get? other = tree.get? other) :
    Dirtied tree (changed.dirtyDependents target) target := by
  intro id
  have marked := (restyled_dirtyDependents changed target).links
  apply linked.mem_dirtyIds_iff_of_isClean (links.trans marked)
  · exact linked.isClean_changed_iff links elsewhere
  · exact linked.contains_of_footprint known

theorem LinkedBy.dirtied_modify (linked : tree.LinkedBy birth)
    (known : tree.contains target = true) (restate : Node → Node)
    (keeps : ∀ node, (restate node).frame = node.frame) :
    Dirtied tree ((tree.modify target restate).dirtyDependents target) target := by
  apply linked.dirtied_changed known (restyled_modify tree target restate keeps).links
  intro other apart
  rw [get?_modify tree target other restate fun node => (Node.frame_eq_iff.mp (keeps node)).1,
    if_neg apart]

theorem LinkedBy.dirtied_setIdentity (linked : tree.LinkedBy birth) {node : Node}
    (found : tree.get? target = some node) (identity : Identity) :
    Dirtied tree (tree.setIdentity node identity) target := by
  have named := id_of_get? found
  rw [setIdentity, named]
  apply linked.dirtied_changed (contains_of_get? found)
  · have modified := sameLinks_modify tree target (fun node => { node with identity })
      (fun _ => rfl) (fun _ => rfl) fun _ => rfl
    exact ⟨modified.ids, modified.root, modified.nextId, modified.parents, modified.children⟩
  · intro other apart
    have kept := get?_modify tree target other (fun node => { node with identity }) fun _ => rfl
    rw [if_neg apart] at kept
    exact kept

/-- Giving the focus or the pointer, and changing the identity or the state of a node, makes
exactly those nodes dirty that see a node which changed, where every node has a state of its
own.  Every history leads to a proper tree. -/
theorem Proper.dirties_footprint (proper : tree.Proper) :
    (∀ owner, Gave .focused owner tree (tree.giveFocus owner)) ∧
    (∀ owner, Gave .hovered owner tree (tree.giveHover owner)) ∧
    ∀ target, tree.contains target = true →
      (∀ changes known, flagChanges changes = .ok known →
        ∃ after, tree.writeFlags target changes = .ok after ∧ Dirtied tree after target) ∧
      (∀ classes, ∃ after, tree.replaceClasses target classes = .ok after ∧
        Dirtied tree after target) ∧
      (∀ elementId, ∃ after, tree.replaceElementId target elementId = .ok after ∧
        Dirtied tree after target) ∧
      ∀ flags : Flags, ∃ after, tree.replaceFlags target flags = .ok after ∧
        Dirtied tree after target ∧
        ∀ flag, flag ≠ .dirty → after.flagOf? flag target = some (flags.read flag) := by
  have linked := proper.formedBy_depth.toLinkedBy
  refine ⟨linked.gave_giveFlag (by decide), linked.gave_giveFlag (by decide), ?_⟩
  intro target alive
  rcases contains_iff.mp alive with ⟨node, found⟩
  refine ⟨?_, ?_, ?_, ?_⟩
  · intro changes known read
    refine ⟨_, by rw [writeFlags, read, require, found]; rfl, ?_⟩
    exact linked.dirtied_modify alive _ fun _ => rfl
  · intro classes
    refine ⟨_, by rw [replaceClasses, require, found]; rfl, ?_⟩
    exact linked.dirtied_setIdentity found _
  · intro elementId
    refine ⟨_, by rw [replaceElementId, require, found]; rfl, ?_⟩
    exact linked.dirtied_setIdentity found _
  · intro flags
    refine ⟨_, by rw [replaceFlags, require, found]; rfl, ?_, ?_⟩
    · exact linked.dirtied_modify alive _ fun _ => rfl
    · intro flag shown
      have written := flagOf?_changed shown tree target target (fun holder => { holder with
        flags
        placement := Placement.ofIndex node.placement.index node.placement.total }) fun _ => rfl
      rw [if_pos rfl, found] at written
      exact written

end Tree

namespace TreeChange

open WidgetStyle.Tree

/-- Two of three inputs have the focus, and all nodes are clean. -/
def focusedTwiceClean : List TreeChange :=
  [ .plantRoot { widgetType := "App" },
    .appendChild ⟨1⟩ { widgetType := "Label" },
    .appendChild ⟨1⟩ { widgetType := "Input" },
    .appendChild ⟨1⟩ { widgetType := "Input" },
    .appendChild ⟨4⟩ { widgetType := "Icon" },
    .appendChild ⟨1⟩ { widgetType := "Input" },
    .giveFocus (some ⟨3⟩),
    .writeFlags ⟨4⟩ [("focused", true)],
    .cleanAll ]

theorem focusedTwiceClean_dirtied :
    (replay { nextId := ⟨1⟩ } focusedTwiceClean).Proper ∧
      (replay { nextId := ⟨1⟩ } focusedTwiceClean).dirtyIds = [] ∧
      ∃ after, after = (replay { nextId := ⟨1⟩ } focusedTwiceClean).giveFocus (some ⟨4⟩) ∧
        Gave .focused (some ⟨4⟩) (replay { nextId := ⟨1⟩ } focusedTwiceClean) after ∧
        after.dirtyIds = [⟨3⟩, ⟨4⟩, ⟨5⟩, ⟨6⟩] ∧
        ∃ disabled, (replay { nextId := ⟨1⟩ } focusedTwiceClean).writeFlags ⟨4⟩
            [("disabled", true)] = .ok disabled ∧
          Dirtied (replay { nextId := ⟨1⟩ } focusedTwiceClean) disabled ⟨4⟩ := by
  have proper := (wellFormed_replay (wellFormed_empty ⟨1⟩) focusedTwiceClean).proper
  rcases proper.dirties_footprint with ⟨focus, -, each⟩
  have live : (replay { nextId := ⟨1⟩ } focusedTwiceClean).contains ⟨4⟩ = true := by
    decide +kernel
  refine ⟨proper, by decide +kernel, _, rfl, focus (some ⟨4⟩), by decide +kernel, ?_⟩
  exact (each ⟨4⟩ live).1 [("disabled", true)] _ rfl

end TreeChange

/-- A clean root. -/
def cleanRoot : List TreeChange :=
  [.plantRoot { widgetType := "App" }, .cleanAll]

/-- Of two rows that hold one state, either has the focus when it is given to the other one.  And
where a flag cannot be written, nothing gets dirty. -/
theorem SharedTree.twinRows_both_focused :
    (twinRows.tree.giveFocus (some ⟨2⟩)).snapshot.flagOf? .focused ⟨3⟩ = some true ∧
      (¬Tree.Gave .focused (some ⟨2⟩) twinRows.tree.snapshot
        (twinRows.tree.giveFocus (some ⟨2⟩)).snapshot) ∧
      (TreeChange.replay { nextId := ⟨1⟩ } cleanRoot).contains ⟨1⟩ = true ∧
      (TreeChange.replay { nextId := ⟨1⟩ } cleanRoot).writeFlags ⟨1⟩ [("bogus", true)] =
        .error (.unknownFlags ["bogus"]) ∧
      ¬Tree.Dirtied (TreeChange.replay { nextId := ⟨1⟩ } cleanRoot)
        (TreeChange.replay { nextId := ⟨1⟩ } (cleanRoot ++ [.writeFlags ⟨1⟩ [("bogus", true)]]))
        ⟨1⟩ := by
  have other : (twinRows.tree.giveFocus (some ⟨2⟩)).snapshot.flagOf? .focused ⟨3⟩ =
      some true := by
    decide +kernel
  refine ⟨other, ?_, by decide +kernel, by decide +kernel, ?_⟩
  · intro gave
    cases (gave.owned ⟨3⟩ (by decide +kernel)).mp other
  · intro dirtied
    have clean : (TreeChange.replay { nextId := ⟨1⟩ }
        (cleanRoot ++ [.writeFlags ⟨1⟩ [("bogus", true)]])).dirtyIds = [] := by
      decide +kernel
    have reached := (dirtied ⟨1⟩).mpr (.inr (.inl .top))
    rw [clean] at reached
    cases reached

end WidgetStyle
