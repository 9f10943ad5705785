import WidgetStyle.Proofs.Style.Range
import WidgetStyle.Proofs.StyledTree.Moves

/-!
# Styled trees with styles in range

When every inline style that is set is in range, then so is every style that a styled tree comes
to hold: computed styles start from the default style or from a cached one, and the cascade stays
in range from there.  A query caches the style that it returns, so returned styles are in range
as well.
-/

namespace WidgetStyle

/-- The styles that a node carries are in range. -/
structure Node.CarriesInRange (worn : Node) : Prop where
  computed : ∀ style ∈ worn.computed, style.InRange
  inlineStyle : ∀ style ∈ worn.inlineStyle, style.InRange

theorem Node.carriesInRange_bare (id : NodeId) : (Node.bare id).CarriesInRange where
  computed := fun _ member => nomatch member
  inlineStyle := fun _ member => nomatch member

/-- A node that loses its computed style carries its inline style only. -/
theorem Node.CarriesInRange.strip {node : Node} (carries : node.CarriesInRange) :
    Node.CarriesInRange { node with computed := none } where
  computed := by simp
  inlineStyle := carries.inlineStyle

theorem Node.carriesInRange_attire_iff {node : Node} :
    node.attire.CarriesInRange ↔ node.CarriesInRange :=
  ⟨fun carries => ⟨carries.computed, carries.inlineStyle⟩,
    fun carries => ⟨carries.computed, carries.inlineStyle⟩⟩

namespace StyledTree

variable {given : Style → Prop} {lossless : Prop} {start styled : StyledTree}

/-! ## The invariant -/

/-- Cached styles are in range, and so are the styles that nodes carry. -/
structure InRange (styled : StyledTree) : Prop where
  cached : ∀ id style, styled.styles.get? id = some style → style.InRange
  carried : ∀ worn ∈ styled.tree.attire, worn.CarriesInRange

theorem inRange_blank (sheet : Sheet) (config : Config) (first : NodeId) :
    (blank sheet config first).InRange where
  cached := fun _ _ found => nomatch found
  carried := fun _ member => nomatch member

namespace InRange

theorem carried_modify (inRange : styled.InRange) (id : NodeId) {change : Node → Node}
    (each : ∀ node, node.CarriesInRange → (change node).CarriesInRange) :
    ∀ worn ∈ (styled.tree.modify id change).attire, worn.CarriesInRange := by
  simp only [Tree.attire, Tree.modify, List.forall_mem_map, Node.carriesInRange_attire_iff]
  intro node member
  have carries : node.CarriesInRange :=
    Node.carriesInRange_attire_iff.mp (inRange.carried node.attire (List.mem_map_of_mem member))
  split
  · exact each node carries
  · exact carries

theorem carried_removeSubtree (inRange : styled.InRange) (id : NodeId) :
    ∀ worn ∈ (styled.tree.removeSubtree id).2.attire, worn.CarriesInRange := by
  rw [Tree.attire_removeSubtree, Tree.attireWithout]
  intro worn member
  exact inRange.carried worn (List.mem_filter.mp member).1

theorem of_get? (inRange : styled.InRange) {id : NodeId} {node : Node}
    (found : styled.tree.get? id = some node) : node.CarriesInRange :=
  Node.carriesInRange_attire_iff.mp (inRange.carried _ (Tree.attire_mem_attire found))

theorem of_offers (inRange : styled.InRange) {base : Style} (offers : styled.Offers base) :
    base.InRange := by
  rcases offers with rfl | ⟨parent, style, fields, cached, rfl⟩
  · exact Style.inRange_default
  · exact (inRange.cached parent style cached).inherit fields

theorem keep (inRange : styled.InRange) (id : NodeId) {style : Style} (fits : style.InRange) :
    (styled.keepStyle id style).InRange := by
  constructor
  case cached =>
    intro other found cached
    rw [keepStyle, Table.get?_put] at cached
    split at cached
    · cases cached
      exact fits
    · exact inRange.cached other found cached
  case carried =>
    rw [tree_keepStyle]
    apply inRange.carried_modify
    intro node carries
    constructor
    case computed =>
      intro kept same
      cases same
      exact fits
    case inlineStyle => exact carries.inlineStyle

theorem drop (inRange : styled.InRange) (id : NodeId) : (styled.dropStyle id).InRange := by
  constructor
  case cached =>
    intro other style cached
    rw [dropStyle, Table.get?_erase] at cached
    split at cached
    · cases cached
    · exact inRange.cached other style cached
  case carried => exact inRange.carried_modify id fun _ carries => carries.strip

theorem remove (inRange : styled.InRange) (id : NodeId) :
    (styled.removeSubtree id).2.InRange where
  cached := by
    intro other style cached
    rw [removeSubtree, get?_foldl_erase] at cached
    split at cached
    · cases cached
    · exact inRange.cached other style cached
  carried := inRange.carried_removeSubtree id

end InRange

/-- As long as the inline styles that are set are in range, every move keeps all styles in
range. -/
theorem Moves.inRange (moves : Moves given lossless start styled)
    (givenInRange : ∀ style, given style → style.InRange) (initial : start.InRange) :
    styled.InRange := by
  induction moves with
  | start => exact initial
  | leave _ same cached ih =>
      constructor
      · rw [cached]
        exact ih.cached
      · rw [same.attire]
        exact ih.carried
  | grow _ grows ih =>
      constructor
      · exact ih.cached
      · rw [grows.attire]
        exact List.forall_mem_append.mpr ⟨ih.carried,
          List.forall_mem_singleton.mpr (Node.carriesInRange_bare _)⟩
  | @dress styled tree id style _ dressed same ih =>
      constructor
      · exact ih.cached
      · rw [same.attire]
        apply ih.carried_modify
        intro node carries
        constructor
        case computed => exact carries.computed
        case inlineStyle => exact fun own set => givenInRange own (dressed own set)
  | cut id _ _ ih => exact ⟨ih.cached, ih.carried_removeSubtree id⟩
  | remove id _ ih => exact ih.remove id
  | drop id _ ih => exact ih.drop id
  | @keep styled node live base style _ found same offers done ih =>
      refine ih.keep node.id (Cascade.inRange_styleFrom (ih.of_offers offers) ?_ done)
      intro own set
      exact (ih.of_get? found).inlineStyle own (same.trans set)
  | strip _ stripped _ cached ih =>
      constructor
      · rw [cached]
        exact fun _ _ found => nomatch found
      · intro worn member
        rcases List.mem_map.mp (stripped.subset member) with ⟨former, formerMember, rfl⟩
        exact (ih.carried former formerMember).strip

/-! ## Returned styles -/

theorem get?_computeBelow {node : Node} {style : Style}
    (done : (styled.computeBelow node).1 = .ok style) :
    (styled.computeBelow node).2.styles.get? node.id = some style := by
  rw [computeBelow] at done ⊢
  split at done
  · cases done
  · cases done
    simp [keepStyle]

/-- A style that is returned is cached from then on. -/
theorem get?_ownStyle {id : NodeId} {style : Style}
    (returned : (styled.ownStyle id).1 = .ok (some style)) :
    (styled.ownStyle id).2.styles.get? id = some style := by
  rw [ownStyle] at returned ⊢
  cases found : styled.tree.get? id with
  | none =>
      rw [found] at returned
      cases returned
  | some node =>
      simp only [found] at returned ⊢
      cases trusted : styled.trusted? node with
      | some kept =>
          simp only [trusted] at returned ⊢
          cases returned
          have handed : styled.trustedAt? id = some style := by
            rw [trustedAt?, found, Option.bind_some, trusted]
          exact (trustedAt?_eq_some_iff.mp handed).2
      | none =>
          simp only [trusted] at returned ⊢
          split at returned
          · cases returned
          · cases returned
            simp [keepStyle]

theorem get?_inheritedStyleWithin {bound : Nat} {id : NodeId} {style : Style}
    (returned : (styled.inheritedStyleWithin bound id).1 = .ok (some style)) :
    (styled.inheritedStyleWithin bound id).2.styles.get? id = some style := by
  cases bound with
  | zero => cases returned
  | succ bound =>
      cases found : styled.tree.get? id with
      | none =>
          rw [inheritedStyleWithin_unknown found] at returned
          cases returned
      | some node =>
          cases trusted : styled.trustedAt? id with
          | some kept =>
              rw [inheritedStyleWithin_trusted trusted] at returned ⊢
              cases returned
              exact (trustedAt?_eq_some_iff.mp trusted).2
          | none =>
              rw [inheritedStyleWithin_untrusted found trusted] at returned ⊢
              split at returned
              · cases returned
              · rcases exists_of_map_eq_ok returned with ⟨computed, done, same⟩
                cases same
                rw [← Tree.id_of_get? found]
                exact get?_computeBelow done

/-! ## Courses -/

/-- An inline style that the action sets is made by declarations. -/
def DeclaresInline (_ : StyledTree) : Action → Prop
  | .request (.change change) => change.Gives Style.Declared
  | _ => True

theorem Course.inRange {sheet : Sheet} {config : Config} {first : NodeId}
    (course : Course DeclaresInline (blank sheet config first) styled) : styled.InRange := by
  have moves : Moves Style.Declared False (blank sheet config first) styled := by
    apply course.moves
    · exact fun permitted => permitted
    · exact fun losing => losing.elim
  exact moves.inRange (fun _ declared => declared.inRange) (inRange_blank sheet config first)

/-- Whatever happens to a styled tree, as long as its inline styles are made by declarations,
the styles that it caches, that its nodes have and that it returns are in range. -/
theorem styles_inRange {sheet : Sheet} {config : Config} {first : NodeId}
    (course : Course DeclaresInline (blank sheet config first) styled) :
    (∀ id style, styled.styles.get? id = some style → style.InRange) ∧
      (∀ id node style, styled.tree.get? id = some node → node.computed = some style →
        style.InRange) ∧
      (∀ id style, (styled.ownStyle id).1 = .ok (some style) → style.InRange) ∧
      (∀ id style, (styled.inheritedStyle id).1 = .ok (some style) → style.InRange) ∧
      ∀ text color, Color.parse? text = some color → color.InRange := by
  have next (request : Request) (permitted : DeclaresInline styled (.request request)) :
      (styled.perform request).InRange := (course.next permitted).inRange
  refine ⟨course.inRange.cached, ?_, ?_, ?_, fun _ _ => Color.inRange_parse?⟩
  · intro id node style found computed
    exact (course.inRange.of_get? found).computed style computed
  · intro id style returned
    exact (next (.ownStyle id) trivial).cached id style (get?_ownStyle returned)
  · intro id style returned
    exact (next (.inheritedStyle id) trivial).cached id style (get?_inheritedStyleWithin returned)

/-- A style that differs from the default one in its gap only. -/
def gapped : Style :=
  { gap := 7 }

theorem declared_gapped : gapped.Declared :=
  .declare .default (show ({} : Style).declare? "gap" "7px" {} = .ok (some gapped) by decide +kernel)

/-- A label that the sheet makes more than opaque, and that has a gap of its own. -/
def overdone : StyledTree :=
  (((blank (.ofRule "Label" "opacity" "1.5") {} ⟨1⟩).act
    (.request (.rebuild (.widget { widgetType := "App" }
      [.widget { widgetType := "Label" } []])))).act
    (.request (.change (.replaceInlineStyle ⟨2⟩ (some gapped))))).act
    (.request (.inheritedStyle ⟨2⟩))

theorem overdone_inRange :
    (overdone.styles.get? ⟨2⟩).map (fun style => (style.gap, style.opacity)) = some (7, .one) ∧
      (∀ id style, overdone.styles.get? id = some style → style.InRange) ∧
      (∀ id node style, overdone.tree.get? id = some node → node.computed = some style →
        style.InRange) ∧
      (∀ id style, (overdone.ownStyle id).1 = .ok (some style) → style.InRange) ∧
      (∀ id style, (overdone.inheritedStyle id).1 = .ok (some style) → style.InRange) ∧
      ∀ text color, Color.parse? text = some color → color.InRange := by
  have course : Course DeclaresInline (blank (.ofRule "Label" "opacity" "1.5") {} ⟨1⟩) overdone :=
    .next (.next (.next .start trivial) declared_gapped) trivial
  exact ⟨by decide +kernel, styles_inRange course⟩

end StyledTree

end WidgetStyle
