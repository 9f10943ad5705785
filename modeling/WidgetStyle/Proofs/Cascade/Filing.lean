import WidgetStyle.Cascade.TargetIndex

/-!
# What an index has filed

The index of a list of selectors has, under each key, the positions of the selectors
that go by the key, in order.  A node of some identity is looked up under the keys
that fit the identity, and no position is given twice.
-/

namespace WidgetStyle

/-- A node of this identity has the name that a selector going by the key asks for.
No node is looked up by an empty element id. -/
def FilingKey.Fits (identity : Identity) : FilingKey → Prop
  | .id name => identity.elementId = some name ∧ name ≠ ""
  | .element name => identity.widgetType = name
  | .hasClass name => name ∈ identity.classes
  | .universal => True

/-- What a selector goes by, none for the empty selector. -/
def Selector.filingKey? (selector : Selector) : Option FilingKey :=
  selector.target?.map Compound.filingKey

theorem eraseDups_nodup (members : List Nat) : members.eraseDups.Nodup := by
  cases members with
  | nil => exact .nil
  | cons first rest =>
      rw [List.eraseDups_cons, List.nodup_cons]
      constructor
      · simp [List.mem_eraseDups]
      · exact eraseDups_nodup _
termination_by members.length
decreasing_by
  have shorter := List.length_filter_le (fun other => !other == first) rest
  simp only [List.length_cons]
  omega

namespace TargetIndex

variable {identity : Identity} {position : Nat} {key : FilingKey} {selectors : List Selector}

/-- The positions filed under a key. -/
def positionsAt (index : TargetIndex) : FilingKey → List Nat
  | .id name => Buckets.valuesAt index.byId name
  | .element name => Buckets.valuesAt index.byElement name
  | .hasClass name => Buckets.valuesAt index.byClass name
  | .universal => index.universal

theorem positionsAt_file (index : TargetIndex) (key other : FilingKey) (position : Nat) :
    (index.file key position).positionsAt other =
      if other = key then index.positionsAt key ++ [position] else index.positionsAt other := by
  cases key <;> cases other <;> simp [file, positionsAt]

theorem positionsAt_add (index : TargetIndex) (selector : Selector) (position : Nat)
    (key : FilingKey) :
    (index.add selector position).positionsAt key =
      index.positionsAt key ++ if selector.filingKey? = some key then [position] else [] := by
  rw [add, Selector.filingKey?]
  cases selector.target? with
  | none => simp
  | some target =>
      rw [positionsAt_file]
      by_cases same : key = target.filingKey
      · simp [same]
      · simp [same, Ne.symm same]

theorem positionsAt_foldl_add (index : TargetIndex) (entries : List (Selector × Nat))
    (key : FilingKey) :
    (entries.foldl (fun index entry => index.add entry.1 entry.2) index).positionsAt key =
      index.positionsAt key ++
        (entries.filter fun entry => decide (entry.1.filingKey? = some key)).map (·.2) := by
  induction entries generalizing index with
  | nil => simp
  | cons entry rest ih =>
      rw [List.foldl_cons, ih, positionsAt_add, List.filter_cons, List.append_assoc]
      by_cases filed : entry.1.filingKey? = some key <;> simp [filed]

/-- Under a key the index has the positions of the selectors that go by the key, in
order. -/
theorem positionsAt_ofSelectors (selectors : List Selector) (key : FilingKey) :
    (ofSelectors selectors).positionsAt key =
      (selectors.zipIdx.filter fun entry => decide (entry.1.filingKey? = some key)).map (·.2) := by
  rw [ofSelectors, positionsAt_foldl_add]
  cases key <;> rfl

theorem mem_positionsAt_ofSelectors_iff :
    position ∈ (ofSelectors selectors).positionsAt key ↔
      ∃ selector, selectors[position]? = some selector ∧ selector.filingKey? = some key := by
  simp [positionsAt_ofSelectors, List.mem_zipIdx_iff_getElem?]

/-- The positions given for an identity are those under the keys that fit it. -/
theorem mem_positionsFor_iff (index : TargetIndex) :
    position ∈ index.positionsFor identity ↔
      ∃ key, FilingKey.Fits identity key ∧ position ∈ index.positionsAt key := by
  simp only [positionsFor, List.mem_eraseDups, List.mem_append, List.mem_flatMap]
  constructor
  · rintro (((everywhere | byId) | byElement) | ⟨name, listed, byClass⟩)
    · exact ⟨.universal, trivial, everywhere⟩
    · cases same : identity.elementId with
      | none => simp [positionsOfId, same] at byId
      | some name =>
          have found : name ≠ "" ∧ position ∈ Buckets.valuesAt index.byId name := by
            simpa [positionsOfId, same] using byId
          exact ⟨.id name, ⟨same, found.1⟩, found.2⟩
    · exact ⟨.element identity.widgetType, rfl, byElement⟩
    · exact ⟨.hasClass name, listed, byClass⟩
  · rintro ⟨key, fits, filed⟩
    cases key with
    | universal => exact .inl (.inl (.inl filed))
    | id name =>
        rcases fits with ⟨same, inhabited⟩
        refine .inl (.inl (.inr ?_))
        simpa [positionsOfId, positionsAt, same, inhabited] using filed
    | element name =>
        refine .inl (.inr ?_)
        rw [FilingKey.Fits] at fits
        rwa [fits]
    | hasClass name => exact .inr ⟨name, fits, filed⟩

end TargetIndex

end WidgetStyle
