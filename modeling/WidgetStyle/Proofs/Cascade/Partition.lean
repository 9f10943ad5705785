import Mathlib.Data.List.Basic
import Mathlib.Data.List.Enum
import Mathlib.Data.List.Nodup
import WidgetStyle.Proofs.Cascade.Filing

/-!
# The parts of an index

An index files every selector with a target once: under the id of the target, or else under its
element name, or else under its first class, or else for all nodes.  Filing a position adds it to
one part and leaves the others alone, so all parts together hold the positions of the selectors
with a target, each once.  For a node the parts that its identity names are put together, and what
they share is listed once.
-/

namespace WidgetStyle

namespace Buckets

variable {Key Value : Type} [DecidableEq Key]

/-- All values, whatever they are gathered under. -/
def values (buckets : Buckets Key Value) : List Value :=
  buckets.entries.flatMap Prod.snd

theorem perm_values_putIn (key : Key) (value : Value) (entries : List (Key × List Value)) :
    ((Table.putIn key ((entries.lookup key).getD [] ++ [value]) entries).flatMap Prod.snd).Perm
      (value :: entries.flatMap Prod.snd) := by
  induction entries with
  | nil => exact .refl _
  | cons entry rest ih =>
      obtain ⟨other, listed⟩ := entry
      rw [Table.putIn, List.lookup_cons]
      by_cases same : other = key
      · subst same
        rw [if_pos rfl, beq_self_eq_true, List.flatMap_cons, List.flatMap_cons]
        simp only [Option.getD_some, List.append_assoc, List.singleton_append]
        exact List.perm_middle
      · rw [if_neg same, beq_false_of_ne (Ne.symm same), List.flatMap_cons, List.flatMap_cons]
        exact (ih.append_left listed).trans List.perm_middle

/-- Adding a value adds it once. -/
theorem perm_values_add (buckets : Buckets Key Value) (key : Key) (value : Value) :
    (add buckets key value).values.Perm (value :: buckets.values) :=
  perm_values_putIn key value buckets.entries

end Buckets

/-! ## What a target goes by -/

namespace Compound

variable {compound : Compound} {name : String}

theorem filingKey_eq_id_iff : compound.filingKey = .id name ↔ compound.id = some name := by
  unfold filingKey
  grind

theorem filingKey_eq_element_iff :
    compound.filingKey = .element name ↔ compound.id = none ∧ compound.element = some name := by
  unfold filingKey
  grind

theorem filingKey_eq_hasClass_iff :
    compound.filingKey = .hasClass name ↔
      compound.id = none ∧ compound.element = none ∧ compound.classes.head? = some name := by
  unfold filingKey
  grind

theorem filingKey_eq_universal_iff :
    compound.filingKey = .universal ↔
      compound.id = none ∧ compound.element = none ∧ compound.classes = [] := by
  unfold filingKey
  grind

end Compound

namespace TargetIndex

variable {selectors : List Selector} {position : Nat}

/-- All positions that are filed, in whatever part. -/
def positions (index : TargetIndex) : List Nat :=
  index.universal ++ index.byId.values ++ index.byElement.values ++ index.byClass.values

theorem size_eq (index : TargetIndex) : index.size = index.positions.length := by
  simp only [size, positions, Buckets.values, List.length_append]

theorem perm_positions_file (index : TargetIndex) (key : FilingKey) (position : Nat) :
    (index.file key position).positions.Perm (position :: index.positions) := by
  cases key with
  | id name =>
      have added := Buckets.perm_values_add index.byId name position
      have front := (added.append_left index.universal).trans List.perm_middle
      exact (front.append_right index.byElement.values).append_right index.byClass.values
  | element name =>
      have added := Buckets.perm_values_add index.byElement name position
      have front := (added.append_left (index.universal ++ index.byId.values)).trans
        List.perm_middle
      exact front.append_right index.byClass.values
  | hasClass name =>
      have added := Buckets.perm_values_add index.byClass name position
      exact (added.append_left _).trans List.perm_middle
  | universal =>
      simp only [positions, file, List.append_assoc, List.singleton_append]
      exact List.perm_middle

theorem perm_positions_add (index : TargetIndex) (selector : Selector) (position : Nat) :
    (index.add selector position).positions.Perm
      (selector.target?.toList.map (fun _ => position) ++ index.positions) := by
  rw [add]
  cases selector.target? with
  | none => exact .refl _
  | some target => exact perm_positions_file index target.filingKey position

theorem perm_positions_foldl_add (index : TargetIndex) (entries : List (Selector × Nat)) :
    (entries.foldl (fun index entry => index.add entry.1 entry.2) index).positions.Perm
      ((entries.filter fun entry => entry.1.target?.isSome).map Prod.snd ++ index.positions) := by
  induction entries generalizing index with
  | nil => exact .refl _
  | cons entry rest ih =>
      rw [List.foldl_cons]
      refine (ih _).trans ?_
      have step := (perm_positions_add index entry.1 entry.2).append_left
        ((rest.filter fun entry => entry.1.target?.isSome).map Prod.snd)
      refine step.trans ?_
      cases target : entry.1.target? with
      | none => simp [target]
      | some target =>
          rw [List.filter_cons_of_pos (by simp [target])]
          exact List.perm_middle

/-- The positions that an index files are those of the selectors with a target. -/
theorem perm_positions_ofSelectors (selectors : List Selector) :
    (ofSelectors selectors).positions.Perm
      ((selectors.zipIdx.filter fun entry => entry.1.target?.isSome).map Prod.snd) := by
  have filed := perm_positions_foldl_add {} selectors.zipIdx
  rw [show ({} : TargetIndex).positions = [] from rfl, List.append_nil] at filed
  exact filed

/-- The target of the selector at a position, if there is one. -/
def targetAt? (selectors : List Selector) (position : Nat) : Option Compound :=
  selectors[position]?.bind Selector.target?

theorem nodup_positions_ofSelectors (selectors : List Selector) :
    (ofSelectors selectors).positions.Nodup := by
  rw [(perm_positions_ofSelectors selectors).nodup_iff]
  have places : ((selectors.zipIdx.filter fun entry => entry.1.target?.isSome).map
      Prod.snd).Sublist (selectors.zipIdx.map Prod.snd) := List.filter_sublist.map _
  rw [List.zipIdx_map_snd] at places
  exact places.nodup List.nodup_range'

theorem mem_positions_ofSelectors_iff :
    position ∈ (ofSelectors selectors).positions ↔
      (targetAt? selectors position).isSome = true := by
  rw [(perm_positions_ofSelectors selectors).mem_iff]
  cases selector : selectors[position]? with
  | none => simp [targetAt?, selector, List.mem_zipIdx_iff_getElem?]
  | some selector => simp [targetAt?, *, List.mem_zipIdx_iff_getElem?]

theorem length_filter_zipIdx (selectors : List Selector) (start : Nat) :
    ((selectors.zipIdx start).filter fun entry => entry.1.target?.isSome).length =
      (selectors.filter fun selector => !selector.isEmpty).length := by
  induction selectors generalizing start with
  | nil => rfl
  | cons selector rest ih =>
      have target : selector.target?.isSome = !selector.isEmpty := by
        rw [Selector.target?, Selector.isEmpty, Option.isSome_map]
        cases selector.links <;> simp
      rw [List.zipIdx_cons, List.filter_cons, List.filter_cons, ← target]
      cases selector.target?.isSome <;> simp [ih]

theorem mem_positionsAt_ofSelectors_iff_targetAt? {key : FilingKey} :
    position ∈ (ofSelectors selectors).positionsAt key ↔
      ∃ target, targetAt? selectors position = some target ∧ target.filingKey = key := by
  rw [mem_positionsAt_ofSelectors_iff]
  simp only [targetAt?, Selector.filingKey?, Option.bind_eq_some_iff, Option.map_eq_some_iff]
  constructor
  · rintro ⟨selector, listed, target, found, filed⟩
    exact ⟨target, ⟨selector, listed, found⟩, filed⟩
  · rintro ⟨target, ⟨selector, listed, found⟩, filed⟩
    exact ⟨selector, listed, target, found, filed⟩

/-- The positions under a key are those of the selectors whose target goes by it. -/
theorem mem_positionsAt_ofSelectors_iff_filed {named : Compound → Prop} (key : FilingKey)
    (filed : ∀ target : Compound, target.filingKey = key ↔ named target) :
    position ∈ (ofSelectors selectors).positionsAt key ↔
      ∃ target, targetAt? selectors position = some target ∧ named target := by
  simp only [mem_positionsAt_ofSelectors_iff_targetAt?, filed]

theorem mem_positionsOfId_iff {index : TargetIndex} {elementId : Option String} :
    position ∈ index.positionsOfId elementId ↔
      ∃ name, elementId = some name ∧ name ≠ "" ∧ position ∈ Buckets.valuesAt index.byId name := by
  cases elementId with
  | none => simp [positionsOfId]
  | some name => simp [positionsOfId]

/-- The index of any selectors has the position of every selector with a target once over all its
parts, under the name that the target goes by, and no other position.  Any node is given, each
once, the positions that are filed for all nodes, under its element id unless that is empty, under
its widget type, or under one of its classes. -/
theorem ofSelectors_files_once (selectors : List Selector) :
    let index := ofSelectors selectors
    (∀ position, index.positions.count position =
      if (targetAt? selectors position).isSome then 1 else 0) ∧
    index.size = (selectors.filter fun selector => !selector.isEmpty).length ∧
    (∀ position name, position ∈ Buckets.valuesAt index.byId name ↔
      ∃ target, targetAt? selectors position = some target ∧ target.id = some name) ∧
    (∀ position name, position ∈ Buckets.valuesAt index.byElement name ↔
      ∃ target, targetAt? selectors position = some target ∧
        target.id = none ∧ target.element = some name) ∧
    (∀ position name, position ∈ Buckets.valuesAt index.byClass name ↔
      ∃ target, targetAt? selectors position = some target ∧
        target.id = none ∧ target.element = none ∧ target.classes.head? = some name) ∧
    (∀ position, position ∈ index.universal ↔
      ∃ target, targetAt? selectors position = some target ∧
        target.id = none ∧ target.element = none ∧ target.classes = []) ∧
    ∀ identity : Identity, (index.positionsFor identity).Nodup ∧
      ∀ position, position ∈ index.positionsFor identity ↔
        position ∈ index.universal ∨
          (∃ name, identity.elementId = some name ∧ name ≠ "" ∧
            position ∈ Buckets.valuesAt index.byId name) ∨
          position ∈ Buckets.valuesAt index.byElement identity.widgetType ∨
          ∃ name ∈ identity.classes, position ∈ Buckets.valuesAt index.byClass name := by
  refine ⟨?_, ?_, ?_, ?_, ?_, ?_, ?_⟩
  · intro position
    rw [(nodup_positions_ofSelectors selectors).count]
    simp only [mem_positions_ofSelectors_iff]
  · rw [size_eq, (perm_positions_ofSelectors selectors).length_eq, List.length_map]
    exact length_filter_zipIdx selectors 0
  · intro position name
    exact mem_positionsAt_ofSelectors_iff_filed (.id name) fun _ =>
      Compound.filingKey_eq_id_iff
  · intro position name
    exact mem_positionsAt_ofSelectors_iff_filed (.element name) fun _ =>
      Compound.filingKey_eq_element_iff
  · intro position name
    exact mem_positionsAt_ofSelectors_iff_filed (.hasClass name) fun _ =>
      Compound.filingKey_eq_hasClass_iff
  · intro position
    exact mem_positionsAt_ofSelectors_iff_filed .universal fun _ =>
      Compound.filingKey_eq_universal_iff
  · intro identity
    refine ⟨eraseDups_nodup _, fun position => ?_⟩
    simp only [positionsFor, List.mem_eraseDups, List.mem_append, List.mem_flatMap,
      mem_positionsOfId_iff, or_assoc]

end TargetIndex

end WidgetStyle
