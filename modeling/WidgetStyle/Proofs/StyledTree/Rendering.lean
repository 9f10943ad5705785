import Mathlib.Data.List.Induction
import WidgetStyle.Proofs.StyledTree.Completeness
import WidgetStyle.Proofs.StyledTree.Correspondence
import WidgetStyle.Proofs.StyledTree.Tracking

/-!
# Rendering one view after another

To render a view is to bring the tree in line with it and then all styles up to
date.  Rendering views one after another should show what rendering the last of them
alone shows.  It does as long as the cache stays coherent, and a build breaks this
just where it leaves a node clean that it overtakes and thereby gives another style
from scratch.
-/

namespace WidgetStyle.StyledTree

variable {sheet : Sheet} {config : Config} {styled built shown next after : StyledTree}
  {view : View} {root id : NodeId} {count : Nat}

/-- The styled tree brought in line with a view and then with all styles up to date,
nothing when one of the two fails. -/
def render (styled : StyledTree) (view : View) : Option StyledTree :=
  match styled.rebuild view with
  | .error _ => none
  | .ok (_, built) =>
      match built.refresh with
      | (.error _, _) => none
      | (.ok _, shown) => some shown

/-- The styled tree with some views rendered one after another. -/
def renderAll (styled : StyledTree) (views : List View) : Option StyledTree :=
  views.foldlM render styled

/-- The cached styles along the tree, parents before their children. -/
def cachedStyles (styled : StyledTree) : List (Option Style) :=
  styled.tree.preorder.map styled.styles.get?

/-- Among the nodes that a build from the view leaves clean, those that it overtakes
keep their styles from scratch. -/
def OvertakesSafely (styled : StyledTree) (view : View) : Prop :=
  ∀ root built, styled.rebuild view = .ok (root, built) → ∀ id, built.tree.IsClean id →
    Tree.Overtaken styled.tree built.tree id → built.freshStyle id = styled.freshStyle id

theorem renderAll_append (styled : StyledTree) (seen : List View) (last : View) :
    styled.renderAll (seen ++ [last]) = (styled.renderAll seen).bind (render · last) := by
  rw [renderAll, List.foldlM_append, renderAll]
  cases seen.foldlM render styled with
  | none => rfl
  | some shown =>
      change (shown.render last >>= pure) = shown.render last
      exact bind_pure _

/-! ## Between two renderings -/

/-- All styles are up to date, for the given sheet. -/
structure Refreshed (sheet : Sheet) (config : Config) (styled : StyledTree) : Prop where
  formed : styled.WellFormed
  plain : styled.tree.Plain
  ownSheet : styled.sheet = sheet
  ownConfig : styled.config = config
  complete : ∀ {id}, styled.tree.contains id = true → (styled.trustedAt? id).isSome = true

theorem refreshed_blank (sheet : Sheet) (config : Config) (first : NodeId) :
    Refreshed sheet config (blank sheet config first) where
  formed := wellFormed_blank sheet config first
  plain := by
    intro id node found
    cases found
  ownSheet := rfl
  ownConfig := rfl
  complete known := by cases known

theorem coherent_blank (sheet : Sheet) (config : Config) (first : NodeId) :
    (blank sheet config first).Coherent :=
  Uncached.coherent fun _ => rfl

/-- In a coherent tree with all styles up to date every node has its style from
scratch. -/
theorem Refreshed.exists_style (refreshed : Refreshed sheet config styled)
    (coherent : styled.Coherent) (known : styled.tree.contains id = true) :
    ∃ style, styled.styles.get? id = some style ∧ styled.freshStyle id = .ok (some style) := by
  obtain ⟨style, trusted⟩ := Option.isSome_iff_exists.mp (refreshed.complete known)
  exact ⟨style, (trustedAt?_eq_some_iff.mp trusted).2, coherent id style trusted⟩

/-! ## Builds -/

/-- What a build leaves clean can be trusted with the style that it had. -/
theorem Refreshed.trustedAt?_rebuild (refreshed : Refreshed sheet config styled)
    (done : styled.rebuild view = .ok (root, built)) (clean : built.tree.IsClean id) :
    ∃ style, built.trustedAt? id = some style ∧ styled.trustedAt? id = some style := by
  have former := (carried_rebuild refreshed.formed.tree done).2 clean
  obtain ⟨style, trusted⟩ := Option.isSome_iff_exists.mp (refreshed.complete former.1.contains)
  have cached := (trustedAt?_eq_some_iff.mp trusted).2
  exact ⟨style, trustedAt?_eq_some_iff.mpr ⟨clean, former.2.trans cached⟩, trusted⟩

/-- A build keeps the cache coherent exactly when it overtakes safely. -/
theorem Refreshed.coherent_rebuild_iff (refreshed : Refreshed sheet config styled)
    (coherent : styled.Coherent) (done : styled.rebuild view = .ok (root, built)) :
    built.Coherent ↔ styled.OvertakesSafely view := by
  constructor
  · intro kept root other again id clean _
    rw [done] at again
    cases again
    obtain ⟨style, trusted, former⟩ := refreshed.trustedAt?_rebuild done clean
    rw [kept id style trusted, coherent id style former]
  · intro safe id style trusted
    have clean := (trustedAt?_eq_some_iff.mp trusted).1
    have same : built.freshStyle id = styled.freshStyle id := by
      by_cases ahead : Tree.Overtaken styled.tree built.tree id
      · exact safe root built done id clean ahead
      · exact freshStyle_eq_of_rebuild refreshed.formed done clean ahead
    obtain ⟨other, again, former⟩ := refreshed.trustedAt?_rebuild done clean
    rw [trusted] at again
    cases again
    rw [same]
    exact coherent id style former

/-! ## Passes -/

theorem coherent_refreshDown_iff (formed : built.WellFormed)
    (done : built.refreshDown = (.ok count, after)) : after.Coherent ↔ built.Coherent := by
  constructor
  · intro coherent id style trusted
    have content := sameContent_refreshDown built
    rw [done] at content
    rw [← content.freshStyle_eq formed]
    exact coherent id style ((passed_refreshDown formed.tree.toFormedBy done).kept trusted)
  · intro coherent
    have kept := coherent_refreshDown formed coherent
    rwa [done] at kept

/-- A pass does not change what the tree depicts. -/
theorem SameContent.depicts {before : StyledTree} (same : SameContent before after)
    (depicts : Depicts before view) : Depicts after view where
  wellFormed := same.tree.wellFormed depicts.wellFormed
  plain := by
    intro id node found
    rw [← same.tree.core?_eq] at found
    exact depicts.plain id node found
  mirrors := by
    obtain ⟨root, rooted, mirrors⟩ := depicts.mirrors
    refine ⟨root, same.tree.root.symm.trans rooted, ?_⟩
    have untouched : Tree.Untouched before.tree after.tree fun _ => True := by
      constructor
      · intro id _
        exact (same.tree.core?_eq id).symm
      · intro id _
        exact (same.tree.sameLinks.children id).symm
      · intro id child _ _
        trivial
    exact mirrors.transport untouched trivial

/-! ## Renderings -/

theorem render_of_rebuild (inheritance : styled.config.inheritance = true)
    (done : styled.rebuild view = .ok (root, built)) :
    styled.render view =
      match built.refreshDown with
      | (.error _, _) => none
      | (.ok _, shown) => some shown := by
  have inherits : built.config.inheritance = true := by
    rw [(alike_rebuild done).1]
    exact inheritance
  rw [render, done]
  simp only [refresh, inherits, if_true]

/-- What a rendering is made of: the build never fails, and the pass over what it
made either succeeds or meets a node without a style from scratch. -/
theorem Refreshed.exists_rebuild_render (refreshed : Refreshed sheet config styled)
    (inheritance : config.inheritance = true) (proper : view.Proper) :
    ∃ root built, styled.rebuild view = .ok (root, built) ∧ Depicts built view ∧
      built.WellFormed ∧ built.sheet = sheet ∧ built.config = config ∧
      ((∃ count after, built.refreshDown = (.ok count, after) ∧ styled.render view = some after) ∨
        (∃ id error, built.freshStyle id = .error error) ∧ styled.render view = none) := by
  obtain ⟨root, built, done, rebuilt⟩ := exists_rebuild refreshed.formed.tree view
  have depicts := rebuilt.depicts refreshed.plain proper
  have formed := wellFormed_rebuild refreshed.formed done
  have alike := alike_rebuild done
  refine ⟨root, built, done, depicts, formed, alike.2.1.trans refreshed.ownSheet,
    alike.1.trans refreshed.ownConfig, ?_⟩
  rw [render_of_rebuild (refreshed.ownConfig ▸ inheritance) done]
  cases passed : built.refreshDown with
  | mk result after =>
      cases result with
      | error error => exact .inr ⟨exists_error_of_refreshDown formed passed, rfl⟩
      | ok count => exact .inl ⟨count, after, rfl, rfl⟩

theorem Refreshed.of_render (refreshed : Refreshed sheet config styled)
    (inheritance : config.inheritance = true) (proper : view.Proper)
    (rendered : styled.render view = some next) :
    Refreshed sheet config next ∧ Depicts next view := by
  obtain ⟨root, built, done, depicts, formed, ownSheet, ownConfig, passed | failed⟩ :=
    refreshed.exists_rebuild_render inheritance proper
  · rcases passed with ⟨count, after, passed, again⟩
    rw [rendered] at again
    cases again
    have content := sameContent_refreshDown built
    rw [passed] at content
    have depicted := content.depicts depicts
    refine ⟨⟨content.wellFormed formed, depicted.plain, content.sheet.trans ownSheet,
      content.config.trans ownConfig, ?_⟩, depicted⟩
    intro id known
    rw [← content.tree.sameLinks.contains_eq] at known
    refine isSome_trustedAt?_refreshDown formed.tree.toFormedBy passed ?_ known
    intro top low settled below
    obtain ⟨style, trusted, -⟩ := refreshed.trustedAt?_rebuild done (settled.isClean below)
    rw [trusted]
    rfl
  · rw [rendered] at failed
    cases failed.2

/-- A rendering keeps the cache coherent exactly when its build overtakes safely. -/
theorem Refreshed.coherent_render_iff (refreshed : Refreshed sheet config styled)
    (inheritance : config.inheritance = true) (coherent : styled.Coherent) (proper : view.Proper)
    (rendered : styled.render view = some next) :
    next.Coherent ↔ styled.OvertakesSafely view := by
  obtain ⟨root, built, done, -, formed, -, -, passed | failed⟩ :=
    refreshed.exists_rebuild_render inheritance proper
  · rcases passed with ⟨count, after, passed, again⟩
    rw [rendered] at again
    cases again
    rw [coherent_refreshDown_iff formed passed]
    exact refreshed.coherent_rebuild_iff coherent done
  · rw [rendered] at failed
    cases failed.2

/-- Nothing is there to be overtaken when a tree is built for the first time. -/
theorem overtakesSafely_blank (sheet : Sheet) (config : Config) (first : NodeId) (view : View) :
    (blank sheet config first).OvertakesSafely view := by
  intro root built done id clean _
  exact absurd clean (not_isClean_buildAnew done id)

/-! ## Two trees of one view -/

theorem exists_of_forall₂ {Related : NodeId → NodeId → Prop} {members others : List NodeId}
    (related : List.Forall₂ Related members others) {member : NodeId} (listed : member ∈ members) :
    ∃ other, other ∈ others ∧ Related member other := by
  induction related with
  | nil => cases listed
  | @cons one another rest more first _ ih =>
      rcases List.mem_cons.mp listed with rfl | later
      · exact ⟨another, List.mem_cons_self, first⟩
      · obtain ⟨other, found, same⟩ := ih later
        exact ⟨other, List.mem_cons_of_mem _ found, same⟩

theorem map_eq_map_iff {Related : NodeId → NodeId → Prop} {members others : List NodeId}
    {left right : NodeId → Option Style} (related : List.Forall₂ Related members others) :
    members.map left = others.map right ↔
      List.Forall₂ (fun one other => Related one other ∧ left one = right other) members others := by
  induction related with
  | nil => simp
  | cons first _ ih => simp [ih, first]

/-- A node in the same place of a coherent tree with all styles up to date has a style
from scratch, and so the node has one. -/
theorem freshStyle_ne_error (depicts : Depicts built view) (others : Depicts shown view)
    (sheets : built.sheet = shown.sheet) (configs : built.config = shown.config)
    (refreshed : Refreshed sheet config shown) (coherent : shown.Coherent) (id : NodeId)
    (error : StyleError) : built.freshStyle id ≠ .error error := by
  intro failed
  have known : built.tree.contains id = true := by
    rw [Tree.contains_iff]
    cases found : built.tree.get? id with
    | none =>
        rw [freshStyle, Tree.FormedBy.freshStyle_unknown _ found] at failed
        cases failed
    | some node => exact ⟨node, rfl⟩
  obtain ⟨other, member, paired⟩ := exists_of_forall₂ (paired_preorder depicts others)
    (depicts.wellFormed.toLinked.mem_preorder_iff.mpr known)
  obtain ⟨style, -, fresh⟩ := refreshed.exists_style coherent
    (others.wellFormed.toLinked.mem_preorder_iff.mp member)
  rw [freshStyle_eq_of_paired depicts others sheets configs paired, fresh] at failed
  cases failed

/-- Of two trees of one view with all styles up to date, one of them coherent, the
other one is coherent exactly when the cached styles are the same. -/
theorem Refreshed.cachedStyles_eq_iff (refreshed : Refreshed sheet config styled)
    (depicts : Depicts styled view) (otherRefreshed : Refreshed sheet config shown)
    (others : Depicts shown view) (coherent : shown.Coherent) :
    styled.cachedStyles = shown.cachedStyles ↔ styled.Coherent := by
  have sheets := refreshed.ownSheet.trans otherRefreshed.ownSheet.symm
  have configs := refreshed.ownConfig.trans otherRefreshed.ownConfig.symm
  have places := paired_preorder depicts others
  rw [cachedStyles, cachedStyles, map_eq_map_iff places]
  constructor
  · intro agree id style trusted
    have parts := trustedAt?_eq_some_iff.mp trusted
    obtain ⟨other, member, paired, same⟩ := exists_of_forall₂ agree
      (depicts.wellFormed.toLinked.mem_preorder_iff.mpr parts.1.contains)
    obtain ⟨found, cached, fresh⟩ := otherRefreshed.exists_style coherent
      (others.wellFormed.toLinked.mem_preorder_iff.mp member)
    rw [parts.2, cached] at same
    rw [freshStyle_eq_of_paired depicts others sheets configs paired, fresh, Option.some.inj same]
  · intro kept
    refine List.Forall₂.imp ?_ places
    intro first second paired
    obtain ⟨one, other, found, otherFound, -⟩ := like_of_paired depicts others paired
    obtain ⟨style, cached, fresh⟩ := refreshed.exists_style kept (Tree.contains_of_get? found)
    obtain ⟨same, otherCached, otherFresh⟩ :=
      otherRefreshed.exists_style coherent (Tree.contains_of_get? otherFound)
    rw [freshStyle_eq_of_paired depicts others sheets configs paired, otherFresh] at fresh
    cases fresh
    exact ⟨paired, cached.trans otherCached.symm⟩

/-! ## One step -/

/-- A view can be rendered when another rendering of it has left all styles up to date
and coherent. -/
theorem Refreshed.exists_render (refreshed : Refreshed sheet config styled)
    (inheritance : config.inheritance = true) (proper : view.Proper)
    (otherRefreshed : Refreshed sheet config shown) (others : Depicts shown view)
    (coherent : shown.Coherent) : ∃ next, styled.render view = some next := by
  obtain ⟨-, built, -, depicts, -, ownSheet, ownConfig, passed | failed⟩ :=
    refreshed.exists_rebuild_render inheritance proper
  · obtain ⟨-, next, -, rendered⟩ := passed
    exact ⟨next, rendered⟩
  · obtain ⟨⟨id, error, stopped⟩, -⟩ := failed
    have sheets := ownSheet.trans otherRefreshed.ownSheet.symm
    have configs := ownConfig.trans otherRefreshed.ownConfig.symm
    exact absurd stopped
      (freshStyle_ne_error depicts others sheets configs otherRefreshed coherent id error)

/-- A view that is rendered alone leaves the cache coherent. -/
theorem coherent_render_blank (inheritance : config.inheritance = true) (proper : view.Proper)
    {first : NodeId} (rendered : (blank sheet config first).render view = some next) :
    next.Coherent :=
  ((refreshed_blank sheet config first).coherent_render_iff inheritance
    (coherent_blank sheet config first) proper rendered).mpr
    (overtakesSafely_blank sheet config first view)

/-- A rendering after others shows what the same rendering alone shows, or fails like
it, exactly when it overtakes safely if it succeeds. -/
theorem Refreshed.cachedStyles_render_iff (refreshed : Refreshed sheet config styled)
    (inheritance : config.inheritance = true) (coherent : styled.Coherent) (proper : view.Proper)
    (first : NodeId) :
    (styled.render view).map cachedStyles =
        ((blank sheet config first).render view).map cachedStyles ↔
      ((styled.render view).isSome = true → styled.OvertakesSafely view) := by
  have empty := refreshed_blank sheet config first
  cases rendered : styled.render view with
  | some next =>
      have ready := refreshed.of_render inheritance proper rendered
      have safe := refreshed.coherent_render_iff inheritance coherent proper rendered
      rw [Option.map_some, Option.isSome_some, ← safe]
      cases alone : (blank sheet config first).render view with
      | some anew =>
          have other := empty.of_render inheritance proper alone
          have kept := coherent_render_blank inheritance proper alone
          rw [Option.map_some, Option.some.injEq,
            ready.1.cachedStyles_eq_iff ready.2 other.1 other.2 kept]
          simp only [forall_const]
      | none =>
          constructor
          · intro same
            cases same
          · intro kept
            obtain ⟨anew, again⟩ :=
              empty.exists_render inheritance proper ready.1 ready.2 (kept rfl)
            rw [alone] at again
            cases again
  | none =>
      cases alone : (blank sheet config first).render view with
      | some anew =>
          have other := empty.of_render inheritance proper alone
          obtain ⟨next, again⟩ := refreshed.exists_render inheritance proper other.1 other.2
            (coherent_render_blank inheritance proper alone)
          rw [rendered] at again
          cases again
      | none => simp

/-! ## Any number of views -/

section Runs

variable {first : NodeId} {seen views : List View}

theorem refreshed_renderAll (inheritance : config.inheritance = true)
    (proper : View.AllProper seen)
    (rendered : (blank sheet config first).renderAll seen = some shown) :
    Refreshed sheet config shown := by
  rw [View.allProper_iff] at proper
  induction seen using List.reverseRecOn generalizing shown with
  | nil =>
      cases rendered
      exact refreshed_blank sheet config first
  | append_singleton before last ih =>
      rw [renderAll_append, Option.bind_eq_some_iff] at rendered
      rcases rendered with ⟨middle, earlier, later⟩
      have refreshed := ih (fun view member => proper view (List.mem_append_left _ member)) earlier
      exact (refreshed.of_render inheritance
        (proper last (List.mem_append_right _ (List.mem_singleton_self last))) later).1

/-- When every rendering keeps the cache coherent, it is coherent after all of them. -/
theorem coherent_renderAll
    (step : ∀ before last, before ++ [last] <+: seen → ∀ middle after,
      (blank sheet config first).renderAll before = some middle → middle.Coherent →
        middle.render last = some after → after.Coherent)
    (rendered : (blank sheet config first).renderAll seen = some shown) : shown.Coherent := by
  induction seen using List.reverseRecOn generalizing shown with
  | nil =>
      cases rendered
      exact coherent_blank sheet config first
  | append_singleton before last ih =>
      rw [renderAll_append, Option.bind_eq_some_iff] at rendered
      rcases rendered with ⟨middle, earlier, later⟩
      have coherent := ih (fun sooner view within =>
        step sooner view (within.trans (List.prefix_append before [last]))) earlier
      exact step before last (List.prefix_refl _) middle shown earlier coherent later

/-- Before a view is rendered all styles are up to date. -/
theorem refreshed_before (inheritance : config.inheritance = true) (proper : View.AllProper views)
    {last : View} (within : seen ++ [last] <+: views)
    (rendered : (blank sheet config first).renderAll seen = some shown) :
    Refreshed sheet config shown ∧ last.Proper := by
  rw [View.allProper_iff] at proper
  have among : ∀ view, view ∈ seen ++ [last] → view.Proper := by
    intro view member
    exact proper view (within.subset member)
  have seenProper : View.AllProper seen := by
    rw [View.allProper_iff]
    intro view member
    exact among view (List.mem_append_left _ member)
  exact ⟨refreshed_renderAll inheritance seenProper rendered,
    among last (List.mem_append_right _ (List.mem_singleton_self last))⟩

/-- When every build overtakes safely that starts from a coherent tree, the tree is
coherent before every view. -/
theorem coherent_before (inheritance : config.inheritance = true) (proper : View.AllProper views)
    (safely : ∀ seen last, seen ++ [last] <+: views → ∀ shown,
      (blank sheet config first).renderAll seen = some shown → shown.Coherent →
        (shown.render last).isSome = true → shown.OvertakesSafely last)
    {last : View} (within : seen ++ [last] <+: views)
    (rendered : (blank sheet config first).renderAll seen = some shown) : shown.Coherent := by
  apply coherent_renderAll ?_ rendered
  intro before view sooner middle after earlier coherent later
  have inside := sooner.trans ((List.prefix_append seen [last]).trans within)
  have ready := refreshed_before inheritance proper inside earlier
  have succeeds : (middle.render view).isSome = true := by
    rw [later]
    rfl
  exact (ready.1.coherent_render_iff inheritance coherent ready.2 later).mpr
    (safely before view inside middle earlier coherent succeeds)

/-- Whatever views are rendered one after another, at each of them the cached styles
along the tree are those of the view rendered alone, and the rendering fails just
where that one fails, exactly when every build that is followed by a pass that
succeeds overtakes safely. -/
theorem cachedStyles_renderAll_iff (inheritance : config.inheritance = true)
    (proper : View.AllProper views) :
    (∀ seen last, seen ++ [last] <+: views → ∀ shown,
      (blank sheet config first).renderAll seen = some shown →
        ∀ other, (shown.render last).map cachedStyles =
          ((blank sheet config other).render last).map cachedStyles) ↔
      ∀ seen last, seen ++ [last] <+: views → ∀ shown,
        (blank sheet config first).renderAll seen = some shown →
          (shown.render last).isSome = true → shown.OvertakesSafely last := by
  constructor
  · intro agree seen last within shown rendered
    have ready := refreshed_before inheritance proper within rendered
    have coherent : shown.Coherent := by
      refine coherent_before inheritance proper ?_ within rendered
      intro before view sooner middle earlier coherent
      have start := refreshed_before inheritance proper sooner earlier
      exact (start.1.cachedStyles_render_iff inheritance coherent start.2 first).mp
        (agree before view sooner middle earlier first)
    exact (ready.1.cachedStyles_render_iff inheritance coherent ready.2 first).mp
      (agree seen last within shown rendered first)
  · intro safely seen last within shown rendered other
    have ready := refreshed_before inheritance proper within rendered
    have coherent : shown.Coherent := by
      refine coherent_before inheritance proper ?_ within rendered
      intro before view sooner middle earlier _
      exact safely before view sooner middle earlier
    exact (ready.1.cachedStyles_render_iff inheritance coherent ready.2 other).mpr
      (safely seen last within shown rendered)

end Runs

/-- An `App` with a row of widgets of the given element ids. -/
def row (names : List String) : View :=
  .widget { widgetType := "App" }
    (names.map fun name => .widget { widgetType := "X", elementId := some name } [])

/-- A row whose first two widgets change places shows what it shows alone when the
sheet does not look at siblings, though the third widget is overtaken and stays
clean. -/
theorem swapped_row_agrees :
    (((blank (.ofRule "X" "gap" "1") {} ⟨1⟩).renderAll
        [row ["a", "b", "c"], row ["b", "a", "c"]]).map cachedStyles).isSome = true ∧
      ((blank (.ofRule "X" "gap" "1") {} ⟨1⟩).renderAll
          [row ["a", "b", "c"], row ["b", "a", "c"]]).map cachedStyles =
        ((blank (.ofRule "X" "gap" "1") {} ⟨1⟩).render (row ["b", "a", "c"])).map cachedStyles := by
  refine ⟨by decide +kernel, ?_⟩
  let start := blank (.ofRule "X" "gap" "1") {} ⟨1⟩
  have proper : View.AllProper [row ["a", "b", "c"], row ["b", "a", "c"]] := by
    simp [View.AllProper, View.Proper, row]
  have kept : ((start.renderAll [row ["a", "b", "c"]]).bind
      fun shown => (shown.rebuild (row ["b", "a", "c"])).toOption.map fun pair =>
        pair.2.tree.nodes.all fun node =>
          decide (pair.2.freshStyle node.id = shown.freshStyle node.id)) = some true := by
    decide +kernel
  have safely : ∀ seen last, seen ++ [last] <+: [row ["a", "b", "c"], row ["b", "a", "c"]] →
      ∀ shown, start.renderAll seen = some shown →
        (shown.render last).isSome = true → shown.OvertakesSafely last := by
    intro seen last within shown rendered _
    cases seen with
    | nil =>
        cases rendered
        exact overtakesSafely_blank _ _ _ last
    | cons view rest =>
        cases rest with
        | nil =>
            obtain ⟨rfl, rfl⟩ : view = row ["a", "b", "c"] ∧ last = row ["b", "a", "c"] := by
              simpa using within
            intro root built done id clean _
            rcases clean with ⟨node, found, -⟩
            rw [rendered, Option.bind_some, done] at kept
            have same := List.all_eq_true.mp (Option.some.inj kept) node (Tree.mem_of_get? found)
            rw [Tree.id_of_get? found] at same
            exact of_decide_eq_true same
        | cons other rest =>
            have short := within.length_le
            simp at short
  obtain ⟨shown, rendered, whole⟩ : ∃ shown, start.renderAll [row ["a", "b", "c"]] = some shown ∧
      start.renderAll [row ["a", "b", "c"], row ["b", "a", "c"]] =
        shown.render (row ["b", "a", "c"]) := by
    have styled : (start.renderAll [row ["a", "b", "c"]]).isSome = true := by decide +kernel
    obtain ⟨shown, rendered⟩ := Option.isSome_iff_exists.mp styled
    refine ⟨shown, rendered, (renderAll_append start [row ["a", "b", "c"]] _).trans ?_⟩
    rw [rendered, Option.bind_some]
  rw [whole]
  exact (cachedStyles_renderAll_iff rfl proper).mpr safely [row ["a", "b", "c"]] _
    (List.prefix_refl _) shown rendered ⟨1⟩

/-- When the sheet does look at siblings, the third widget keeps the style that it
had, though another one comes right before it now. -/
theorem swapped_row_disagrees :
    (((blank (.ofRule "#b + #c" "gap" "1") {} ⟨1⟩).renderAll
        [row ["a", "b", "c"], row ["b", "a", "c"]]).map cachedStyles).isSome = true ∧
      (((blank (.ofRule "#b + #c" "gap" "1") {} ⟨1⟩).render
        (row ["b", "a", "c"])).map cachedStyles).isSome = true ∧
      ((blank (.ofRule "#b + #c" "gap" "1") {} ⟨1⟩).renderAll
          [row ["a", "b", "c"], row ["b", "a", "c"]]).map cachedStyles ≠
        ((blank (.ofRule "#b + #c" "gap" "1") {} ⟨1⟩).render
          (row ["b", "a", "c"])).map cachedStyles := by
  decide +kernel

end WidgetStyle.StyledTree
