import WidgetStyle.Proofs.Cascade.Application

/-!
# What declarations write

Whether a declaration applies, which slots it writes and what it writes into them does not
depend on the style that it is applied to.  So a declaration, and a list of them, is a constant
writer: on every style it writes the same values into the same slots.  What a constant writer
has written is written again by a later run of it, whatever was written in between.
-/

namespace WidgetStyle

open WidgetStyle.Text

/-! ## Writes -/

/-- Values for some slots of a style. -/
abbrev Writes := (slot : Slot) → Option slot.Value

/-- The slots that have a value hold it, and the others hold what the style held. -/
structure Style.Overwritten (style : Style) (writes : Writes) (after : Style) : Prop where
  written : ∀ {slot : Slot} {value : slot.Value}, writes slot = some value →
    after.read slot = value
  untouched : ∀ {slot : Slot}, writes slot = none → after.read slot = style.read slot

/-- The writes with later ones over them. -/
def Writes.andThen (writes later : Writes) : Writes :=
  fun slot => (later slot).or (writes slot)

namespace Style

variable {style between after other : Style} {writes later : Writes}

theorem overwritten_iff :
    style.Overwritten writes after ↔
      ∀ slot, after.read slot = (writes slot).getD (style.read slot) := by
  constructor
  · intro overwritten slot
    cases found : writes slot with
    | none => exact overwritten.untouched found
    | some value => exact overwritten.written found
  · intro reads
    constructor
    · intro slot value found
      rw [reads, found]
      rfl
    · intro slot found
      rw [reads, found]
      rfl

theorem overwritten_nothing (style : Style) : style.Overwritten (fun _ => none) style :=
  overwritten_iff.mpr fun _ => rfl

theorem Overwritten.andThen (first : style.Overwritten writes between)
    (second : between.Overwritten later after) :
    style.Overwritten (writes.andThen later) after := by
  rw [overwritten_iff] at first second ⊢
  intro slot
  rw [second, first, Writes.andThen]
  cases later slot <;> rfl

/-- A style is what is written into it and what it held before. -/
theorem Overwritten.unique (one : style.Overwritten writes after)
    (two : style.Overwritten writes other) : after = other := by
  rw [overwritten_iff] at one two
  exact ext_read fun slot => (one slot).trans (two slot).symm

/-- Writes that come last hide the same ones made before. -/
theorem Overwritten.hides (overwritten : style.Overwritten writes between)
    (again : between.Overwritten (later.andThen writes) after) :
    style.Overwritten (later.andThen writes) after := by
  rw [overwritten_iff] at overwritten again ⊢
  intro slot
  rw [again, overwritten, Writes.andThen]
  cases writes slot <;> rfl

end Style

/-! ## Constant writers -/

/-- The step fails on all styles, or it writes the same values into the same slots of each. -/
def ConstantWriter (step : Style → Except StyleError Style) : Prop :=
  (∃ error, ∀ style, step style = .error error) ∨
    ∃ writes : Writes, ∀ style, ∃ after, step style = .ok after ∧ style.Overwritten writes after

namespace ConstantWriter

variable {step other : Style → Except StyleError Style}

theorem done : ConstantWriter .ok :=
  .inr ⟨fun _ => none, fun style => ⟨style, rfl, style.overwritten_nothing⟩⟩

theorem andThen (first : ConstantWriter step) (second : ConstantWriter other) :
    ConstantWriter fun style => step style >>= other := by
  rcases first with ⟨error, fails⟩ | ⟨writes, succeeds⟩
  · left
    exact ⟨error, fun style => by simp only [fails]; rfl⟩
  · rcases second with ⟨error, fails⟩ | ⟨later, follows⟩
    · left
      refine ⟨error, fun style => ?_⟩
      rcases succeeds style with ⟨between, run, -⟩
      simp only [run]
      exact fails between
    · right
      refine ⟨writes.andThen later, fun style => ?_⟩
      rcases succeeds style with ⟨between, run, overwritten⟩
      rcases follows between with ⟨after, runs, further⟩
      simp only [run]
      exact ⟨after, runs, overwritten.andThen further⟩

/-- A run before has no effect on what a later run of the same writer leaves. -/
theorem again (first : ConstantWriter step) (second : ConstantWriter other)
    (style after : Style) :
    (step style >>= other >>= step) = .ok after ↔ (other style >>= step) = .ok after := by
  rcases first with ⟨error, fails⟩ | ⟨writes, succeeds⟩
  · constructor
    · intro done
      rcases exists_of_bind_eq_ok done with ⟨between, -, last⟩
      cases (fails between).symm.trans last
    · intro done
      rcases exists_of_bind_eq_ok done with ⟨between, -, last⟩
      cases (fails between).symm.trans last
  · rcases succeeds style with ⟨once, run, overwritten⟩
    rcases second with ⟨error, fails⟩ | ⟨later, follows⟩
    · have early : (step style >>= other) = .error error := by
        rw [run]
        exact fails once
      rw [early, fails style]
    · rcases follows once with ⟨changed, changes, onto⟩
      rcases succeeds changed with ⟨twice, runs, finished⟩
      rcases follows style with ⟨plain, reaches, direct⟩
      rcases succeeds plain with ⟨last, ends, complete⟩
      have same : twice = last :=
        (overwritten.hides (onto.andThen finished)).unique (direct.andThen complete)
      have left : (step style >>= other >>= step) = .ok twice := by
        simp only [run]
        exact (congrArg (· >>= step) changes).trans runs
      have right : (other style >>= step) = .ok last := by
        simp only [reaches]
        exact ends
      rw [left, right, same]

end ConstantWriter

/-! ## Properties -/

namespace Property

/-- The slots that the property writes whenever it writes. -/
def primary : Property → List Slot
  | slot target => [target]
  | box target => Field.slotsOfBox target
  | border => [.borderStyle]

/-- The slots that the property can write. -/
def slots : Property → List Slot
  | slot target => [target]
  | box target => Field.slotsOfBox target
  | border => [.borderStyle, .borderColor]

/-- The assignments write all of one choice of slots, and no slot that is not the property's. -/
theorem slots_of_assignments? {property : Property} {text : List Char}
    {assignments : List Assignment} (read : property.assignments? text = .ok (some assignments)) :
    property.primary ⊆ assignments.map (·.slot) ∧ assignments.map (·.slot) ⊆ property.slots := by
  cases property with
  | slot target =>
      rcases exists_of_map_eq_ok read with ⟨value, -, brought⟩
      rcases Option.map_eq_some_iff.mp brought with ⟨value, -, rfl⟩
      simp [primary, slots]
  | box target =>
      rcases exists_of_map_eq_ok read with ⟨counts, -, brought⟩
      rcases Option.map_eq_some_iff.mp brought with ⟨spacing, -, rfl⟩
      simp [primary, slots, Field.slotsOfBox, Function.comp_def]
  | border =>
      have written := Except.ok.inj read
      unfold borderAssignments? at written
      simp only at written
      split at written
      · cases written
      · split at written
        · cases written
          simp [primary, slots]
        · rcases Option.map_eq_some_iff.mp written with ⟨color, -, rfl⟩
          simp [primary, slots]

end Property

/-! ## Declarations -/

/-- What a declaration does to styles.  It fails on all of them, or it leaves all of them alone,
or its property writes the same values into the same slots of each: all that the property always
writes, and no slot that is not the property's. -/
inductive Declaration.Effect (bindings : Variables) (declaration : Declaration) : Prop where
  | fails (error : StyleError) :
      (∀ style : Style,
        style.declare? declaration.property declaration.value bindings = .error error) →
      declaration.Effect bindings
  | nothing :
      (∀ style : Style,
        style.declare? declaration.property declaration.value bindings = .ok none ∧
          Cascade.apply bindings style declaration = .ok style) →
      declaration.Effect bindings
  | writes {property : Property} (writes : Writes) :
      Property.dispatch? (String.ofList (lower (trim declaration.property.toList))) =
        some property →
      (∀ slot ∈ property.primary, (writes slot).isSome = true) →
      (∀ slot, (writes slot).isSome = true → slot ∈ property.slots) →
      (∀ style : Style, ∃ after,
        style.declare? declaration.property declaration.value bindings = .ok (some after) ∧
          Cascade.apply bindings style declaration = .ok after ∧
            style.Overwritten writes after) →
      declaration.Effect bindings

theorem isSome_valueFor? {slot : Slot} {assignments : List Assignment} :
    (assignments.filterMap (·.valueFor? slot)).getLast?.isSome = true ↔
      slot ∈ assignments.map (·.slot) := by
  rw [List.getLast?_isSome, List.mem_map]
  constructor
  · intro inhabited
    rcases List.exists_mem_of_ne_nil _ inhabited with ⟨value, member⟩
    rcases List.mem_filterMap.mp member with ⟨assignment, listed, found⟩
    refine ⟨assignment, listed, ?_⟩
    rw [Assignment.valueFor?] at found
    split at found
    · assumption
    · cases found
  · intro among
    rcases among with ⟨assignment, listed, rfl⟩
    have own : assignment.valueFor? assignment.slot = some assignment.value := by
      rw [Assignment.valueFor?, dif_pos rfl]
    exact List.ne_nil_of_mem (List.mem_filterMap.mpr ⟨assignment, listed, own⟩)

namespace Cascade

variable {bindings : Variables} {declaration : Declaration}

theorem effect_of_assignments {property : Property} {assignments : List Assignment}
    (named : Property.dispatch? (String.ofList (lower (trim declaration.property.toList))) =
      some property)
    (read : property.assignments? (trim (bindings.expand declaration.value).toList) =
      .ok (some assignments)) : declaration.Effect bindings := by
  have slots := Property.slots_of_assignments? read
  have assigned : declaration.assignments? bindings = .ok (some assignments) := by
    rw [Declaration.assignments?, declarationAssignments?, named]
    exact read
  refine .writes (fun slot => (assignments.filterMap (·.valueFor? slot)).getLast?) named ?_ ?_ ?_
  · intro slot member
    exact isSome_valueFor?.mpr (slots.1 member)
  · intro slot written
    exact slots.2 (isSome_valueFor?.mp written)
  · intro style
    refine ⟨style.assignAll assignments, ?_, ?_, ?_⟩
    · rw [Style.declare?, ← Declaration.assignments?, assigned]
      rfl
    · rw [apply_eq_map, assigned]
      rfl
    · exact Style.overwritten_iff.mpr (style.read_assignAll assignments)

theorem effect (bindings : Variables) (declaration : Declaration) :
    declaration.Effect bindings := by
  cases assigned : declaration.assignments? bindings with
  | error error =>
      refine .fails error fun style => ?_
      rw [Style.declare?, ← Declaration.assignments?, assigned]
      rfl
  | ok found =>
      cases found with
      | none =>
          refine .nothing fun style => ⟨?_, ?_⟩
          · rw [Style.declare?, ← Declaration.assignments?, assigned]
            rfl
          · rw [apply_eq_map, assigned]
            rfl
      | some assignments =>
          rw [Declaration.assignments?, declarationAssignments?] at assigned
          split at assigned
          · cases assigned
          · rename_i property named
            exact effect_of_assignments named assigned

theorem constantWriter_apply (bindings : Variables) (declaration : Declaration) :
    ConstantWriter fun style => apply bindings style declaration := by
  cases effect bindings declaration with
  | fails error fails =>
      left
      refine ⟨error, fun style => ?_⟩
      simp only [apply, fails]
      rfl
  | nothing leaves =>
      right
      exact ⟨fun _ => none, fun style => ⟨style, (leaves style).2, style.overwritten_nothing⟩⟩
  | writes writes named primary slots succeeds =>
      right
      refine ⟨writes, fun style => ?_⟩
      rcases succeeds style with ⟨after, -, applied, overwritten⟩
      exact ⟨after, applied, overwritten⟩

theorem applyAll_cons (style : Style) (rest : List Declaration) :
    applyAll bindings style (declaration :: rest) =
      (apply bindings style declaration >>= fun next => applyAll bindings next rest) := by
  rw [applyAll]
  cases apply bindings style declaration <;> rfl

theorem constantWriter_applyAll (bindings : Variables) (declarations : List Declaration) :
    ConstantWriter fun style => applyAll bindings style declarations := by
  induction declarations with
  | nil => exact ConstantWriter.done
  | cons declaration rest ih =>
      simp only [applyAll_cons]
      exact (constantWriter_apply bindings declaration).andThen ih

/-- Every declaration has the same effect on all styles, and a list of declarations that is
applied again, with any others in between, leaves what it leaves when it is applied only then. -/
theorem declarations_write_alike :
    (∀ (bindings : Variables) (declaration : Declaration), declaration.Effect bindings) ∧
      ∀ (bindings otherBindings : Variables) (declarations others : List Declaration)
        (style after : Style),
        (do
          let once ← applyAll bindings style declarations
          let changed ← applyAll otherBindings once others
          applyAll bindings changed declarations) = .ok after ↔
        (do
          let changed ← applyAll otherBindings style others
          applyAll bindings changed declarations) = .ok after := by
  constructor
  · exact effect
  · intro bindings otherBindings declarations others style after
    have law := (constantWriter_applyAll bindings declarations).again
      (constantWriter_applyAll otherBindings others) style after
    rwa [bind_assoc] at law

end Cascade

end WidgetStyle
