import WidgetStyle.Proofs.StyledTree.Moves
import WidgetStyle.Proofs.Table

/-!
# Cached styles and the styles of nodes

A computed style is kept twice, in the cache and with its node.  Wherever one of them is written
or dropped, so is the other, unless a node is taken away behind the back of the styled tree.
So in every state of a course that does not do this, the cache holds styles of nodes that are
there, and each node has the style that is cached for it, or neither is there.
-/

namespace WidgetStyle

/-- What nodes carry is in step with the cache, and all their ids were handed out before the
next one. -/
structure InStep (attire : List Node) (styles : Table NodeId Style) (next : NodeId) : Prop where
  agrees : ∀ worn ∈ attire, worn.computed = styles.get? worn.id
  live : ∀ id ∈ styles.keys, ∃ worn ∈ attire, worn.id = id
  issued : ∀ worn ∈ attire, worn.id.value < next.value

namespace InStep

variable {attire : List Node} {styles : Table NodeId Style} {next id : NodeId}

theorem nothing (next : NodeId) : InStep [] {} next where
  agrees := fun _ member => nomatch member
  live := fun _ member => nomatch member
  issued := fun _ member => nomatch member

/-- Nothing is cached for the next id. -/
theorem get?_next (inStep : InStep attire styles next) : styles.get? next = none := by
  rw [Option.eq_none_iff_forall_ne_some]
  intro style cached
  rcases inStep.live next (Table.mem_keys_of_get? cached) with ⟨worn, member, same⟩
  have earlier := inStep.issued worn member
  rw [same] at earlier
  exact Int.lt_irrefl _ earlier

theorem grow (inStep : InStep attire styles next) :
    InStep (attire ++ [.bare next]) styles next.next where
  agrees := by
    intro worn member
    rcases List.mem_append.mp member with former | new
    · exact inStep.agrees worn former
    · rw [List.mem_singleton.mp new]
      exact inStep.get?_next.symm
  live := by
    intro id cached
    rcases inStep.live id cached with ⟨worn, member, same⟩
    exact ⟨worn, List.mem_append_left _ member, same⟩
  issued := by
    intro worn member
    have step : next.next.value = next.value + 1 := rfl
    rcases List.mem_append.mp member with former | new
    · have earlier := inStep.issued worn former
      omega
    · rw [List.mem_singleton.mp new, step]
      exact Int.lt_succ _

/-- A change of what one node carries goes with a change of the cache at its id. -/
theorem modify (inStep : InStep attire styles next) {wear : Node → Node}
    {after : Table NodeId Style} (keepsId : ∀ worn, (wear worn).id = worn.id)
    (here : ∀ worn ∈ attire, worn.id = id → (wear worn).computed = after.get? id)
    (others : ∀ other, other ≠ id → after.get? other = styles.get? other)
    (live : ∀ other ∈ after.keys, ∃ worn ∈ attire, worn.id = other) :
    InStep (attire.map fun worn => if worn.id = id then wear worn else worn) after next := by
  have named (worn : Node) : (if worn.id = id then wear worn else worn).id = worn.id := by
    split
    · exact keepsId worn
    · rfl
  constructor
  case agrees =>
    rw [List.forall_mem_map]
    intro worn member
    rw [named]
    split
    · rename_i same
      rw [here worn member same, same]
    · rename_i different
      rw [inStep.agrees worn member, others _ different]
  case live =>
    intro other cached
    rcases live other cached with ⟨worn, member, same⟩
    exact ⟨_, List.mem_map_of_mem member, (named worn).trans same⟩
  case issued =>
    rw [List.forall_mem_map]
    intro worn member
    rw [named]
    exact inStep.issued worn member

theorem dress (inStep : InStep attire styles next) (style : Option Style) :
    InStep (attire.map fun worn => if worn.id = id then { worn with inlineStyle := style } else worn)
      styles next := by
  apply inStep.modify
  case keepsId => exact fun _ => rfl
  case here =>
    intro worn member same
    rw [← same]
    exact inStep.agrees worn member
  case others => exact fun _ _ => rfl
  case live => exact inStep.live

theorem drop (inStep : InStep attire styles next) :
    InStep (attire.map fun worn => if worn.id = id then { worn with computed := none } else worn)
      (styles.erase id) next := by
  apply inStep.modify
  case keepsId => exact fun _ => rfl
  case here =>
    intro worn _ _
    simp
  case others =>
    intro other different
    simp [different]
  case live =>
    intro other cached
    exact inStep.live other (Table.mem_keys_erase_iff.mp cached).2

theorem keep (inStep : InStep attire styles next) (style : Style)
    (known : ∃ worn ∈ attire, worn.id = id) :
    InStep (attire.map fun worn => if worn.id = id then { worn with computed := some style } else worn)
      (styles.put id style) next := by
  apply inStep.modify
  case keepsId => exact fun _ => rfl
  case here =>
    intro worn _ _
    simp
  case others =>
    intro other different
    simp [different]
  case live =>
    intro other cached
    rcases Table.mem_keys_put_iff.mp cached with rfl | former
    · exact known
    · exact inStep.live other former

theorem remove (inStep : InStep attire styles next) (gone : List NodeId) :
    InStep (attire.filter fun worn => !gone.contains worn.id)
      (gone.foldl (fun styles id => styles.erase id) styles) next := by
  have stays {worn : Node} :
      worn ∈ attire.filter (fun worn => !gone.contains worn.id) ↔ worn ∈ attire ∧ worn.id ∉ gone := by
    simp
  constructor
  case agrees =>
    intro worn member
    rw [stays] at member
    rw [StyledTree.get?_foldl_erase, if_neg member.2]
    exact inStep.agrees worn member.1
  case live =>
    intro id cached
    rcases Table.mem_keys_foldl_erase_iff.mp cached with ⟨staying, former⟩
    rcases inStep.live id former with ⟨worn, member, rfl⟩
    exact ⟨worn, stays.mpr ⟨member, staying⟩, rfl⟩
  case issued => exact fun worn member => inStep.issued worn (stays.mp member).1

theorem strip (inStep : InStep attire styles next) {less : List Node}
    (stripped : less.Sublist (attire.map fun worn => { worn with computed := none })) :
    InStep less {} next := by
  have bare : ∀ worn ∈ less, worn.computed = none ∧ worn.id.value < next.value := by
    intro worn member
    rcases List.mem_map.mp (stripped.subset member) with ⟨former, formerMember, rfl⟩
    exact ⟨rfl, inStep.issued former formerMember⟩
  constructor
  case agrees => exact fun worn member => (bare worn member).1
  case live => exact fun _ member => nomatch member
  case issued => exact fun worn member => (bare worn member).2

end InStep

namespace StyledTree

variable {given : Style → Prop} {start styled : StyledTree}

/-- The nodes of the styled tree are in step with its cache. -/
def InStep (styled : StyledTree) : Prop :=
  WidgetStyle.InStep styled.tree.attire styled.styles styled.tree.nextId

/-- As long as no node is lost, every move keeps nodes and cache in step. -/
theorem Moves.inStep (moves : Moves given True start styled) (initial : start.InStep) :
    styled.InStep := by
  induction moves with
  | start => exact initial
  | leave _ same cached ih =>
      rw [InStep, same.attire, same.nextId, cached]
      exact ih
  | grow _ grows ih =>
      rw [InStep, grows.attire, grows.nextId]
      exact ih.grow
  | @dress styled tree id style _ _ same ih =>
      have dressed := styled.tree.attire_modify id
        (fun node => { node with inlineStyle := style })
        (fun worn => { worn with inlineStyle := style }) fun _ => rfl
      rw [InStep, same.attire, same.nextId, dressed]
      exact ih.dress style
  | cut _ _ losing => exact absurd trivial losing
  | @remove styled id _ ih =>
      have stays := styled.tree.attire_removeSubtree id
      have next := styled.tree.nextId_removeSubtree id
      rw [InStep, removeSubtree]
      simp only [stays, next]
      exact ih.remove _
  | @drop styled id _ ih =>
      have dropped := styled.tree.attire_modify id (fun node => { node with computed := none })
        (fun worn => { worn with computed := none }) fun _ => rfl
      rw [InStep, dropStyle]
      simp only [dropped]
      exact ih.drop
  | @keep styled node live base style _ found _ _ _ ih =>
      have kept := styled.tree.attire_modify node.id
        (fun node =>
          { node with computed := some style, flags := { node.flags with dirty := false } })
        (fun worn => { worn with computed := some style }) fun _ => rfl
      have known := Tree.exists_mem_attire_iff.mpr (Tree.contains_of_get? found)
      rw [InStep, tree_keepStyle]
      simp only [kept]
      exact ih.keep style known
  | strip _ stripped nextId cached ih =>
      rw [InStep, nextId, cached]
      exact ih.strip stripped

/-- No action takes a node from the tree without the style that is cached for it: subtrees are
removed through the styled tree, and a root is planted in an empty tree only. -/
def Unsevered (styled : StyledTree) : Action → Prop
  | .request (.change change) => change.Spares styled.tree
  | _ => True

/-- In every state of a course in which no node is severed from its cached style, all cached
styles belong to nodes that are there, and the style that a node carries is the one that is
cached for it. -/
theorem cache_in_step {sheet : Sheet} {config : Config} {first : NodeId}
    (course : Course Unsevered (blank sheet config first) styled) :
    (∀ id ∈ styled.styles.keys, styled.tree.contains id = true) ∧
      ∀ id node, styled.tree.get? id = some node → node.computed = styled.styles.get? id := by
  have moves : Moves (fun _ => True) True (blank sheet config first) styled := by
    apply course.moves
    · intro _ change _
      exact change.gives_of_forall fun _ => trivial
    · exact fun _ _ _ permitted => permitted
  have inStep := moves.inStep (.nothing first)
  constructor
  · intro id cached
    exact Tree.exists_mem_attire_iff.mp (inStep.live id cached)
  · intro id node found
    rw [← Tree.id_of_get? found]
    exact inStep.agrees node.attire (Tree.attire_mem_attire found)

/-- A label and its row are removed after all styles were computed, and one style is computed
anew after an edit that was not announced and turned the labels blue. -/
def pruned : StyledTree :=
  ((((((blank (.ofRule "Label" "color" "red") {} ⟨1⟩).act
    (.request (.rebuild (.widget { widgetType := "App" }
      [.widget { widgetType := "Row" } [.widget { widgetType := "Label" } []],
        .widget { widgetType := "Label" } []])))).act
    (.request .refreshDown)).act
    (.editSheetSilently fun _ => .ofRule "Label" "color" "blue")).act
    (.request (.change (.insertClass ⟨4⟩ "hot")))).act
    (.request (.removeSubtree ⟨2⟩))).act (.request (.inheritedStyle ⟨4⟩))

theorem pruned_in_step :
    pruned.styles.keys = [⟨1⟩, ⟨4⟩] ∧
      (∀ id ∈ pruned.styles.keys, pruned.tree.contains id = true) ∧
        ∀ id node, pruned.tree.get? id = some node → node.computed = pruned.styles.get? id := by
  have course : Course Unsevered (blank (.ofRule "Label" "color" "red") {} ⟨1⟩) pruned :=
    .next (.next (.next (.next (.next (.next .start trivial) trivial) trivial) trivial) trivial)
      trivial
  exact ⟨by decide +kernel, cache_in_step course⟩

end StyledTree

end WidgetStyle
