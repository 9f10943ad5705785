import WidgetStyle.Proofs.StyledTree.Runs

/-!
# Queries that get in each other's way

There are two ways to ask for the style of a node: by itself, and with
inheritance.  Both keep what they compute in one cache, so a style that was
computed in one way is handed out when it is asked for in the other.  Answers are
independent of earlier queries exactly when the two ways agree on every node.
-/

namespace WidgetStyle.StyledTree

/-- One of the two ways to ask for the style of a node. -/
inductive Query where
  | own (id : NodeId)
  | inherited (id : NodeId)
deriving DecidableEq, Repr

/-- The answer to a query, and the styled tree after it. -/
def ask (styled : StyledTree) : Query → Except StyleError (Option Style) × StyledTree
  | .own id => styled.ownStyle id
  | .inherited id => styled.inheritedStyle id

/-- The answers to some queries, made one after the other. -/
def answers (styled : StyledTree) : List Query → List (Except StyleError (Option Style))
  | [] => []
  | query :: rest => (styled.ask query).1 :: (styled.ask query).2.answers rest

/-- The style of a node by itself against the sheet as it is. -/
def plainStyle (styled : StyledTree) (id : NodeId) : Except StyleError (Option Style) :=
  (Cascade.ofSheet styled.sheet styled.config).plainStyle styled.tree id

/-- The answer to a query that is computed without any cache. -/
def pureAnswer (styled : StyledTree) : Query → Except StyleError (Option Style)
  | .own id => styled.plainStyle id
  | .inherited id => styled.freshStyle id

variable {styled : StyledTree}

/-! ## States without computed styles -/

/-- The requests that compute no style. -/
def StylesNothing (_ : StyledTree) : Request → Prop
  | .ownStyle _ | .inheritedStyle _ | .refresh | .refreshDown => False
  | .change _ | .replaceSheet _ | .editSheet _ | .dirtyAll | .dirtySubtree _ | .focusElement _
  | .hoverElement _ | .removeSubtree _ | .clearTree | .buildFlat _ _ | .rebuild _ => True

theorem Follows.uncached {before after : StyledTree} (follows : Follows before after)
    (uncached : before.Uncached) : after.Uncached := by
  intro id
  apply Option.eq_none_iff_forall_ne_some.mpr
  intro style cached
  have former := follows.styles cached
  rw [uncached] at former
  cases former

theorem keptByRebuild_uncached :
    KeptByRebuild fun styled => styled.WellFormed ∧ styled.Uncached where
  append := by
    intro before grown parent identity id kept added
    exact ⟨keptByRebuild_wellFormed.append kept.1 added, keptByAppend_uncached kept.2 added⟩
  adopt := by
    intro before adopted id identity kept done
    refine ⟨keptByRebuild_wellFormed.adopt kept.1 done, ?_⟩
    rcases adopt?_eq_some done with rfl | ⟨tree, -, rfl⟩
    · exact kept.2
    · exact kept.2
  remove := by
    intro before id kept
    have follows := follows_removeSubtree kept.1.tree id
    exact ⟨follows.wellFormed kept.1, follows.uncached kept.2⟩
  permute := by
    intro before parent order tree kept permuted
    exact ⟨keptByRebuild_wellFormed.permute kept.1 permuted, kept.2⟩

theorem uncached_perform (formed : styled.WellFormed) (uncached : styled.Uncached)
    {request : Request} (permitted : StylesNothing styled request) :
    (styled.perform request).Uncached := by
  cases request with
  | change change => exact uncached
  | replaceSheet sheet => exact fun _ => rfl
  | editSheet edit => exact fun _ => rfl
  | dirtyAll => exact fun _ => rfl
  | dirtySubtree id => exact (follows_dirtySubtree formed.tree id).uncached uncached
  | focusElement elementId => exact (follows_focusElement formed.tree elementId).uncached uncached
  | hoverElement elementId => exact (follows_hoverElement formed.tree elementId).uncached uncached
  | removeSubtree id => exact (follows_removeSubtree formed.tree id).uncached uncached
  | clearTree => exact fun _ => rfl
  | buildFlat identity children =>
      rw [perform]
      split
      · rename_i done
        exact uncached_buildAnew done
      · exact uncached
  | rebuild view =>
      rw [perform]
      split
      · rename_i done
        exact (holds_rebuild keptByRebuild_uncached ⟨formed, uncached⟩
          ⟨wellFormed_planted formed _, fun _ => rfl⟩ done).2
      · exact uncached
  | ownStyle id => exact permitted.elim
  | inheritedStyle id => exact permitted.elim
  | refresh => exact permitted.elim
  | refreshDown => exact permitted.elim

theorem Run.uncached {sheet : Sheet} {config : Config} {first : NodeId}
    (run : Run StylesNothing (blank sheet config first) styled) : styled.Uncached := by
  have invariant : styled.WellFormed ∧ styled.Uncached := by
    refine @Run.invariant _ _ _ (fun styled => styled.WellFormed ∧ styled.Uncached) run ?_ ?_
    · exact ⟨wellFormed_blank sheet config first, fun _ => rfl⟩
    · intro before request kept permitted
      exact ⟨wellFormed_perform kept.1 request, uncached_perform kept.1 kept.2 permitted⟩
  exact invariant.2

/-! ## Styles by themselves -/

theorem SameContent.plainStyle_eq {before after : StyledTree} (same : SameContent before after)
    (formed : before.WellFormed) (id : NodeId) : after.plainStyle id = before.plainStyle id := by
  rw [plainStyle, plainStyle, same.sheet, same.config]
  exact same.tree.plainStyle_eq formed.tree.toFormedBy _ id

theorem SameContent.pureAnswer_eq {before after : StyledTree} (same : SameContent before after)
    (formed : before.WellFormed) (query : Query) :
    after.pureAnswer query = before.pureAnswer query := by
  cases query with
  | own id => exact same.plainStyle_eq formed id
  | inherited id => exact same.freshStyle_eq formed id

theorem ownStyle_unknown {id : NodeId} (unknown : styled.tree.get? id = none) :
    styled.ownStyle id = (.ok none, styled) := by
  rw [ownStyle, unknown]

theorem ownStyle_trusted {id : NodeId} {style : Style}
    (trusted : styled.trustedAt? id = some style) :
    styled.ownStyle id = (.ok (some style), styled) := by
  obtain ⟨node, found, kept⟩ := Option.bind_eq_some_iff.mp trusted
  rw [ownStyle, found]
  simp only [kept]

/-- A style that cannot be handed out is computed, and kept unless that fails. -/
theorem ownStyle_untrusted (formed : styled.WellFormed) {id : NodeId}
    (known : styled.tree.contains id = true) (untrusted : styled.trustedAt? id = none) :
    (∃ error, styled.plainStyle id = .error error ∧
      styled.ownStyle id = (.error error, styled.prepare)) ∨
    ∃ style, styled.plainStyle id = .ok (some style) ∧
      styled.ownStyle id = (.ok (some style), styled.prepare.keepStyle id style) := by
  obtain ⟨node, found⟩ := Tree.contains_iff.mp known
  rw [trustedAt?, found, Option.bind_some] at untrusted
  have prepared : styled.prepare.cascade = .ofSheet styled.sheet styled.config :=
    formed.prepare.cascade_eq
  have bare : styled.prepare.surroundings = styled.tree.surroundings := rfl
  rw [plainStyle, Cascade.plainStyle, ownStyle, found]
  simp only [untrusted, prepared, bare]
  cases (Cascade.ofSheet styled.sheet styled.config).styleOf styled.tree.surroundings node with
  | error error => exact .inl ⟨error, rfl, rfl⟩
  | ok style => exact .inr ⟨style, rfl, rfl⟩

/-! ## Independence -/

/-- The two ways to ask for a style agree: where one of them gives a style, the
other one gives the same. -/
def StylesAgree (styled : StyledTree) : Prop :=
  ∀ id style, styled.plainStyle id = .ok (some style) ↔ styled.freshStyle id = .ok (some style)

/-- Where the two ways agree, either one answers as if there were no cache. -/
theorem ask_of_stylesAgree (formed : styled.WellFormed) (coherent : styled.Coherent)
    (agree : styled.StylesAgree) (query : Query) :
    (styled.ask query).1 = styled.pureAnswer query ∧ (styled.ask query).2.Coherent := by
  cases query with
  | inherited id =>
      have answered := answered_inheritedStyle formed coherent id
      exact ⟨answered.answer_eq, answered.coherent⟩
  | own id =>
      change (styled.ownStyle id).1 = styled.plainStyle id ∧ (styled.ownStyle id).2.Coherent
      cases found : styled.tree.get? id with
      | none =>
          rw [ownStyle_unknown found, plainStyle, Cascade.plainStyle, found]
          exact ⟨rfl, coherent⟩
      | some node =>
          have known := Tree.contains_of_get? found
          cases handed : styled.trustedAt? id with
          | some style =>
              rw [ownStyle_trusted handed]
              exact ⟨((agree id style).mpr (coherent id style handed)).symm, coherent⟩
          | none =>
              rcases ownStyle_untrusted formed known handed with
                ⟨error, plain, answer⟩ | ⟨style, plain, answer⟩
              · rw [answer]
                exact ⟨plain.symm, coherent⟩
              · rw [answer]
                have fresh : styled.prepare.freshStyle id = .ok (some style) :=
                  (agree id style).mp plain
                have prepared : styled.prepare.Coherent := coherent
                exact ⟨plain.symm, coherent_keepStyle formed.prepare prepared known fresh⟩

theorem sameContent_ask (styled : StyledTree) (query : Query) :
    SameContent styled (styled.ask query).2 := by
  cases query with
  | own id => exact sameContent_ownStyle styled id
  | inherited id => exact sameContent_inheritedStyle styled id

theorem answers_of_stylesAgree (formed : styled.WellFormed) (coherent : styled.Coherent)
    (agree : styled.StylesAgree) (queries : List Query) :
    styled.answers queries = queries.map styled.pureAnswer := by
  induction queries generalizing styled with
  | nil => rfl
  | cons query rest ih =>
      have asked := ask_of_stylesAgree formed coherent agree query
      have same := sameContent_ask styled query
      have later : (styled.ask query).2.StylesAgree := by
        intro id style
        rw [same.plainStyle_eq formed, same.freshStyle_eq formed]
        exact agree id style
      have pure : (styled.ask query).2.pureAnswer = styled.pureAnswer :=
        funext fun other => same.pureAnswer_eq formed other
      rw [answers, List.map_cons, asked.1, ih (same.wellFormed formed) asked.2 later, pure]

theorem contains_of_plainStyle {id : NodeId} {style : Style}
    (plain : styled.plainStyle id = .ok (some style)) : styled.tree.contains id = true := by
  rw [plainStyle, Cascade.plainStyle] at plain
  cases found : styled.tree.get? id with
  | none => rw [found] at plain; cases plain
  | some node => exact Tree.contains_of_get? found

/-- A style that was asked for by itself is handed out with inheritance. -/
theorem inheritedStyle_after_ownStyle (formed : styled.WellFormed) (uncached : styled.Uncached)
    {id : NodeId} {style : Style} (plain : styled.plainStyle id = .ok (some style)) :
    ((styled.ownStyle id).2.inheritedStyle id).1 = .ok (some style) := by
  have known := contains_of_plainStyle plain
  rcases ownStyle_untrusted formed known (uncached.trustedAt? id) with
    ⟨error, failed, -⟩ | ⟨other, again, answer⟩
  · rw [plain] at failed
    cases failed
  · rw [plain] at again
    cases again
    have trusted : (styled.prepare.keepStyle id style).trustedAt? id = some style := by
      rw [@trustedAt?_keepStyle styled.prepare id known, if_pos rfl]
    have size : (styled.prepare.keepStyle id style).tree.size = styled.tree.size :=
      (sameContent_keepStyle styled.prepare id style).tree.sameLinks.size_eq.symm
    have occupied := Tree.elders_lt_size styled.tree.age known
    obtain ⟨bound, bounded⟩ : ∃ bound, styled.tree.size = bound + 1 :=
      ⟨styled.tree.size - 1, by omega⟩
    rw [answer, inheritedStyle, size, bounded, inheritedStyleWithin_trusted trusted]

/-- A style that was asked for with inheritance is handed out by itself. -/
theorem ownStyle_after_inheritedStyle (formed : styled.WellFormed) (uncached : styled.Uncached)
    {id : NodeId} {style : Style} (fresh : styled.freshStyle id = .ok (some style)) :
    ((styled.inheritedStyle id).2.ownStyle id).1 = .ok (some style) := by
  have answered := answered_inheritedStyle formed uncached.coherent id
  have trusted := answered.trusted (answered.answer_eq.trans fresh)
  rw [ownStyle_trusted trusted]

/-- In a state in which no style has been computed, all answers to all sequences of
queries are those without a cache exactly when the two ways to ask agree. -/
theorem answers_independent_iff {sheet : Sheet} {config : Config} {first : NodeId}
    (run : Run StylesNothing (blank sheet config first) styled) :
    (∀ queries, styled.answers queries = queries.map styled.pureAnswer) ↔
      ∀ id style,
        styled.plainStyle id = .ok (some style) ↔ styled.freshStyle id = .ok (some style) := by
  have formed := run.wellFormed
  have uncached := run.uncached
  constructor
  · intro independent id style
    constructor
    · intro plain
      have second := independent [.own id, .inherited id]
      simp only [answers, ask, pureAnswer, List.map_cons, List.cons.injEq] at second
      rw [← second.2.1]
      exact inheritedStyle_after_ownStyle formed uncached plain
    · intro fresh
      have second := independent [.inherited id, .own id]
      simp only [answers, ask, pureAnswer, List.map_cons, List.cons.injEq] at second
      rw [← second.2.1]
      exact ownStyle_after_inheritedStyle formed uncached fresh
  · intro agree queries
    exact answers_of_stylesAgree formed uncached.coherent agree queries

/-- A button below an `App` with the given declaration, not yet styled. -/
def dressed (property value : String) : StyledTree :=
  (blank (.ofRule "App" property value) {} ⟨1⟩).perform
    (.rebuild (.widget { widgetType := "App" } [.widget { widgetType := "Button" } []]))

theorem dressed_run (property value : String) :
    Run StylesNothing (blank (.ofRule "App" property value) {} ⟨1⟩) (dressed property value) :=
  .next .start trivial

/-- A gap is not inherited, so the button has one style in both ways. -/
theorem gap_answers_independent :
    (dressed "gap" "1").answers [.own ⟨2⟩, .inherited ⟨2⟩, .own ⟨1⟩, .own ⟨2⟩] =
      [.own ⟨2⟩, .inherited ⟨2⟩, .own ⟨1⟩, .own ⟨2⟩].map (dressed "gap" "1").pureAnswer := by
  refine (answers_independent_iff (dressed_run "gap" "1")).mpr ?_ _
  intro id style
  have agree : ∀ id, id ∈ (dressed "gap" "1").tree.nodes.map (·.id) →
      (dressed "gap" "1").plainStyle id = (dressed "gap" "1").freshStyle id := by
    decide +kernel
  by_cases known : (dressed "gap" "1").tree.contains id = true
  · rw [agree id (Tree.contains_iff_mem.mp known)]
  · constructor
    · intro plain
      exact absurd (contains_of_plainStyle plain) known
    · intro fresh
      cases found : (dressed "gap" "1").tree.get? id with
      | some node => exact absurd (Tree.contains_of_get? found) known
      | none =>
          rw [freshStyle, Tree.FormedBy.freshStyle_unknown _ found] at fresh
          cases fresh

/-- A colour is inherited, so a button that was first styled by itself is then handed
out without the colour of its parent. -/
theorem color_answers_dependent :
    Run StylesNothing (blank (.ofRule "App" "color" "red") {} ⟨1⟩) (dressed "color" "red") ∧
      (dressed "color" "red").answers [.own ⟨2⟩, .inherited ⟨2⟩] ≠
        [.own ⟨2⟩, .inherited ⟨2⟩].map (dressed "color" "red").pureAnswer := by
  constructor
  · exact dressed_run "color" "red"
  · decide +kernel

end WidgetStyle.StyledTree
