import WidgetStyle.Matching.Selector
import WidgetStyle.Proofs.Selector.Readings
import WidgetStyle.Proofs.Tree.DocumentOrder

/-!
# Selectors of one name

A widget type, a class or an element id by itself is a selector.  It is read from the name
behind its sign, and in a linked tree it selects each node once that has the name.
-/

namespace WidgetStyle

open WidgetStyle.Text

namespace Selector

/-- The selector of all nodes of a widget type. -/
def ofElement (name : String) : Selector :=
  ofCompound { element := some name }

/-- The selector of all nodes with a class. -/
def ofClass (name : String) : Selector :=
  ofCompound { classes := [name] }

/-- The selector of all nodes with an element id. -/
def ofId (name : String) : Selector :=
  ofCompound { id := some name }

/-! ## Reading -/

/-- A selector of one compound is what is read from the compound alone. -/
theorem parse_ofCompound {compound : Compound} (wellFormed : compound.WellFormed)
    (writable : compound.isWritable = true) {text : String}
    (written : text.toList = compound.render) : parse text = .ok (ofCompound compound) := by
  have read : readCompound {} compound.render = .ok (compound, []) := by
    simpa using readCompound_exact wellFormed writable paused_nil
  have reads : ReadsLinks text.toList (ofCompound compound).links :=
    written ▸ .last read wellFormed.inhabited blank_nil
  exact reads.parse_eq

theorem parse_ofElement {name : String} (isName : IsName name.toList)
    (starts : name.toList.head?.any isNameStart = true) : parse name = .ok (ofElement name) := by
  have wellFormed : Compound.WellFormed { element := some name } := by
    constructor <;> simp [Compound.isEmpty, isName, starts]
  exact parse_ofCompound wellFormed rfl (by simp [Compound.render])

theorem parse_ofClass {name : String} (isName : IsName name.toList) :
    parse ("." ++ name) = .ok (ofClass name) := by
  have wellFormed : Compound.WellFormed { classes := [name] } := by
    constructor <;> simp [Compound.isEmpty, isName]
  exact parse_ofCompound wellFormed rfl (by simp [Compound.render])

theorem parse_ofId {name : String} (isName : IsName name.toList) :
    parse ("#" ++ name) = .ok (ofId name) := by
  have wellFormed : Compound.WellFormed { id := some name } := by
    constructor <;> simp [Compound.isEmpty, isName]
  exact parse_ofCompound wellFormed rfl (by simp [Compound.render])

/-! ## Selecting -/

variable {surroundings : Surroundings} {node : Node} {name : String}

@[simp] theorem selects_ofCompound (compound : Compound) (surroundings : Surroundings)
    (node : Node) : (ofCompound compound).selects surroundings node = compound.holdsOf node := by
  simp [ofCompound, selects, matchesFrom]

theorem selects_ofElement_iff :
    (ofElement name).selects surroundings node = true ↔ node.identity.widgetType = name := by
  simp [ofElement, Compound.holdsOf]

theorem selects_ofClass_iff :
    (ofClass name).selects surroundings node = true ↔ name ∈ node.identity.classes := by
  simp [ofClass, Compound.holdsOf, Identity.hasClass]

theorem selects_ofId_iff :
    (ofId name).selects surroundings node = true ↔ node.identity.elementId = some name := by
  simp [ofId, Compound.holdsOf]

end Selector

namespace Tree

variable {tree : Tree} {selector : Selector}

/-! ## Queries -/

theorem Linked.mem_select_iff (linked : tree.Linked) {node : Node} :
    node ∈ tree.select selector ↔
      tree.get? node.id = some node ∧ selector.selects tree.surroundings node = true := by
  rw [select, List.mem_filter, linked.mem_preorderNodes_iff]

/-- What a selector selects is listed in document order. -/
theorem Linked.pairwise_select (linked : tree.Linked) (selector : Selector) :
    (tree.select selector).Pairwise fun first second => tree.Precedes first.id second.id :=
  linked.pairwise_preorderNodes.filter _

theorem Linked.nodup_select (linked : tree.Linked) (selector : Selector) :
    (tree.select selector).Nodup := by
  apply (linked.pairwise_select selector).imp
  intro first second order same
  subst same
  exact linked.not_precedes_symm order order

theorem selectFirst?_eq (tree : Tree) (selector : Selector) :
    tree.selectFirst? selector = (tree.select selector).head? := by
  rw [selectFirst?, select, List.head?_filter]

end Tree

end WidgetStyle
