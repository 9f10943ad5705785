import Mathlib.Data.List.Perm.Subperm
import Mathlib.Logic.Function.Basic
import WidgetStyle.Tree.Registry

/-!
# What a registry has entered

Buckets list what holds under their keys, and a registry keeps the identities of
some nodes when its buckets list them by widget type and by class, and its table
of element ids refers to none but them.  Entering a node adds its identity to those
that are kept, and withdrawing it takes the identity away.
-/

namespace WidgetStyle

namespace Buckets

variable {Key Value : Type} [DecidableEq Key] {buckets : Buckets Key Value}
  {holds : Key → Value → Prop} {key : Key} {value : Value}

/-- The buckets list exactly the values that hold under each key, each once, and no
bucket is kept empty. -/
structure Lists (buckets : Buckets Key Value) (holds : Key → Value → Prop) : Prop where
  distinct : ∀ key, (valuesAt buckets key).Nodup
  listed : ∀ key value, value ∈ valuesAt buckets key ↔ holds key value
  filled : ∀ key, buckets.get? key ≠ some []

namespace Lists

theorem empty : Lists ({} : Buckets Key Value) fun _ _ => False where
  distinct _ := .nil
  listed _ _ := by simp [valuesAt, Table.get?]
  filled _ := by simp [Table.get?]

theorem congr {same : Key → Value → Prop} (lists : Lists buckets holds)
    (agree : ∀ key value, holds key value ↔ same key value) : Lists buckets same where
  distinct := lists.distinct
  listed key value := (lists.listed key value).trans (agree key value)
  filled := lists.filled

theorem add (lists : Lists buckets holds) (new : ¬holds key value) :
    Lists (Buckets.add buckets key value) fun other member =>
      holds other member ∨ other = key ∧ member = value where
  distinct other := by
    rw [valuesAt_add]
    split
    · rw [List.nodup_append]
      refine ⟨lists.distinct key, by simp, ?_⟩
      intro member listed last single same
      rw [List.mem_singleton] at single
      rw [same, single, lists.listed] at listed
      exact new listed
    · exact lists.distinct other
  listed other member := by
    rw [valuesAt_add]
    split <;> simp [*, lists.listed]
  filled other := by
    rw [Buckets.add, Table.get?_put]
    split
    · simp
    · exact lists.filled other

theorem remove [DecidableEq Value] (lists : Lists buckets holds) (key : Key) (value : Value) :
    Lists (Buckets.remove buckets key value) fun other member =>
      holds other member ∧ ¬(other = key ∧ member = value) where
  distinct other := by
    rw [valuesAt_remove]
    split
    · exact (lists.distinct key).erase value
    · exact lists.distinct other
  listed other member := by
    rw [valuesAt_remove]
    split
    · rw [(lists.distinct key).mem_erase_iff]
      simp [*, lists.listed, and_comm]
    · simp [*, lists.listed]
  filled other := by
    rw [Buckets.remove]
    split
    · rw [Table.get?_erase]
      split
      · simp
      · exact lists.filled other
    · rename_i inhabited
      rw [Table.get?_put]
      split
      · simpa using inhabited
      · exact lists.filled other

/-- Adding a value under some keys, each once. -/
theorem foldl_add {keys : List Key} (lists : Lists buckets holds) (distinct : keys.Nodup)
    (new : ∀ key ∈ keys, ¬holds key value) :
    Lists (keys.foldl (fun result key => Buckets.add result key value) buckets)
      fun other member => holds other member ∨ other ∈ keys ∧ member = value := by
  induction keys generalizing buckets holds with
  | nil => simpa using lists
  | cons first rest ih =>
      rw [List.nodup_cons] at distinct
      have added := lists.add (new first List.mem_cons_self)
      have later : ∀ key ∈ rest, ¬(holds key value ∨ key = first ∧ value = value) := by
        intro key member either
        rcases either with old | ⟨same, -⟩
        · exact new key (List.mem_cons_of_mem _ member) old
        · exact distinct.1 (same ▸ member)
      apply (ih added distinct.2 later).congr
      intro other member
      simp only [List.mem_cons]
      tauto

/-- Removing a value under some keys. -/
theorem foldl_remove [DecidableEq Value] (lists : Lists buckets holds) (keys : List Key)
    (value : Value) :
    Lists (keys.foldl (fun result key => Buckets.remove result key value) buckets)
      fun other member => holds other member ∧ ¬(other ∈ keys ∧ member = value) := by
  induction keys generalizing buckets holds with
  | nil => simpa using lists
  | cons first rest ih =>
      apply (ih (lists.remove first value)).congr
      intro other member
      simp only [List.mem_cons]
      tauto

end Lists

end Buckets

namespace Registry

variable {registry : Registry} {identities : NodeId → Option Identity} {id : NodeId}
  {identity : Identity}

theorem elementKey?_eq_some_iff {name : String} :
    elementKey? identity = some name ↔ identity.elementId = some name ∧ name ≠ "" := by
  simp [elementKey?, Option.filter_eq_some_iff]

/-- The registry has the identities of these nodes entered, and those of no others.
Of several nodes with one element id it may refer to any or to none. -/
structure Keeps (registry : Registry) (identities : NodeId → Option Identity) : Prop where
  types : registry.byType.Lists fun name id =>
    ∃ identity, identities id = some identity ∧ identity.widgetType = name
  classes : registry.byClass.Lists fun name id =>
    ∃ identity, identities id = some identity ∧ name ∈ identity.classes
  elements : ∀ name id, registry.byElementId.get? name = some id →
    ∃ identity, identities id = some identity ∧ elementKey? identity = some name

/-- No two nodes have the same element id. -/
def Unshared (identities : NodeId → Option Identity) : Prop :=
  ∀ id other identity otherIdentity name,
    identities id = some identity → identities other = some otherIdentity →
      elementKey? identity = some name → elementKey? otherIdentity = some name → id = other

/-- Every node with an element id is found by it. -/
def Finds (registry : Registry) (identities : NodeId → Option Identity) : Prop :=
  ∀ id identity name, identities id = some identity → elementKey? identity = some name →
    registry.byElementId.get? name = some id

theorem keeps_empty : Keeps {} fun _ => none where
  types := Buckets.Lists.empty.congr (by simp)
  classes := Buckets.Lists.empty.congr (by simp)
  elements _ _ found := by cases found

theorem get?_byElementId_enter (registry : Registry) (id : NodeId) (identity : Identity)
    (name : String) :
    (registry.enter id identity).byElementId.get? name =
      if elementKey? identity = some name then some id else registry.byElementId.get? name := by
  rw [enter]
  cases key : elementKey? identity with
  | none => simp
  | some own => simp [eq_comm]

theorem get?_byElementId_withdraw (registry : Registry) (id : NodeId) (identity : Identity)
    (name : String) :
    (registry.withdraw id identity).byElementId.get? name =
      if elementKey? identity = some name ∧ registry.byElementId.get? name = some id then none
      else registry.byElementId.get? name := by
  rw [withdraw]
  cases key : elementKey? identity with
  | none => simp
  | some own =>
      simp only
      split
      · rename_i owned
        rw [Table.get?_erase]
        by_cases same : name = own
        · simp [same, owned]
        · simp [same, Ne.symm same]
      · rename_i foreign
        by_cases same : own = name
        · simp [← same, foreign]
        · simp [same]

theorem Keeps.enter (keeps : registry.Keeps identities) (fresh : identities id = none)
    (distinct : identity.classes.Nodup) :
    (registry.enter id identity).Keeps (Function.update identities id (some identity)) where
  types := by
    have new : ¬∃ known, identities id = some known ∧ known.widgetType = identity.widgetType := by
      simp [fresh]
    apply (keeps.types.add new).congr
    intro name other
    by_cases same : other = id
    · simp [same, fresh, eq_comm]
    · simp [same]
  classes := by
    have new : ∀ name ∈ identity.classes,
        ¬∃ known, identities id = some known ∧ name ∈ known.classes := by
      simp [fresh]
    apply (keeps.classes.foldl_add distinct new).congr
    intro name other
    by_cases same : other = id
    · simp [same, fresh]
    · simp [same]
  elements := by
    intro name other found
    rw [get?_byElementId_enter] at found
    split at found
    · rename_i key
      cases found
      exact ⟨identity, by simp, key⟩
    · rcases keeps.elements name other found with ⟨known, kept, key⟩
      have different : other ≠ id := by
        intro same
        rw [same, fresh] at kept
        cases kept
      exact ⟨known, by simp [different, kept], key⟩

theorem Keeps.withdraw (keeps : registry.Keeps identities)
    (known : ∀ kept, identities id = some kept → kept = identity) :
    (registry.withdraw id identity).Keeps (Function.update identities id none) where
  types := by
    apply (keeps.types.remove identity.widgetType id).congr
    intro name other
    by_cases same : other = id
    · rw [same, Function.update_self]
      constructor
      · intro left
        rcases left with ⟨⟨kept, found, named⟩, outside⟩
        rw [known kept found] at named
        exact absurd ⟨named.symm, rfl⟩ outside
      · rintro ⟨kept, found, -⟩
        cases found
    · simp [same]
  classes := by
    apply (keeps.classes.foldl_remove identity.classes id).congr
    intro name other
    by_cases same : other = id
    · rw [same, Function.update_self]
      constructor
      · intro left
        rcases left with ⟨⟨kept, found, member⟩, outside⟩
        rw [known kept found] at member
        exact absurd ⟨member, rfl⟩ outside
      · rintro ⟨kept, found, -⟩
        cases found
    · simp [same]
  elements := by
    intro name other found
    rw [get?_byElementId_withdraw] at found
    split at found
    · cases found
    · rename_i kept
      rcases keeps.elements name other found with ⟨former, formerKept, key⟩
      have different : other ≠ id := by
        intro same
        rw [same] at found formerKept
        rw [known former formerKept] at key
        exact kept ⟨key, found⟩
      exact ⟨former, by simp [different, formerKept], key⟩

/-- A node that is entered is found from then on, if nobody else has its element id. -/
theorem Finds.enter (finds : registry.Finds identities)
    (unshared : Unshared (Function.update identities id (some identity))) :
    (registry.enter id identity).Finds (Function.update identities id (some identity)) := by
  intro other kept name found key
  rw [get?_byElementId_enter]
  split
  · rename_i own
    rw [unshared other id kept identity name found (by simp) key own]
  · rename_i foreign
    have different : other ≠ id := by
      intro same
      rw [same, Function.update_self] at found
      cases found
      exact foreign key
    rw [Function.update_of_ne different] at found
    exact finds other kept name found key

theorem Finds.withdraw (finds : registry.Finds identities) :
    (registry.withdraw id identity).Finds (Function.update identities id none) := by
  intro other kept name found key
  by_cases same : other = id
  · rw [same, Function.update_self] at found
    cases found
  · rw [Function.update_of_ne same] at found
    have owner := finds other kept name found key
    rw [get?_byElementId_withdraw, owner, if_neg]
    simp [same]

/-! ## Several nodes -/

/-- The registry without some nodes. -/
def withdrawAll (registry : Registry) (gone : List Node) : Registry :=
  gone.foldl (fun registry node => registry.withdraw node.id node.identity) registry

/-- The identities without those of some nodes. -/
def without (identities : NodeId → Option Identity) (gone : List Node) :
    NodeId → Option Identity :=
  gone.foldl (fun identities node => Function.update identities node.id none) identities

theorem without_apply (identities : NodeId → Option Identity) (gone : List Node) (id : NodeId) :
    without identities gone id = if id ∈ gone.map (·.id) then none else identities id := by
  induction gone generalizing identities with
  | nil => rfl
  | cons node rest ih =>
      rw [without, List.foldl_cons, ← without, ih]
      by_cases same : id = node.id
      · simp [same]
      · simp [same]

theorem Keeps.withdrawAll {gone : List Node} (keeps : registry.Keeps identities)
    (known : ∀ node ∈ gone, ∀ kept, identities node.id = some kept → kept = node.identity) :
    (registry.withdrawAll gone).Keeps (without identities gone) := by
  induction gone generalizing registry identities with
  | nil => exact keeps
  | cons node rest ih =>
      apply ih (keeps.withdraw (known node List.mem_cons_self))
      intro other member kept found
      apply known other (List.mem_cons_of_mem _ member)
      by_cases same : other.id = node.id
      · rw [same, Function.update_self] at found
        cases found
      · rwa [Function.update_of_ne same] at found

theorem Finds.withdrawAll (finds : registry.Finds identities) (gone : List Node) :
    (registry.withdrawAll gone).Finds (without identities gone) := by
  induction gone generalizing registry identities with
  | nil => exact finds
  | cons node rest ih => exact ih finds.withdraw

end Registry

end WidgetStyle
