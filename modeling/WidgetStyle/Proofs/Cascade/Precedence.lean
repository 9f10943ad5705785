import WidgetStyle.Proofs.Cascade.Application

/-!
# Precedence

What a node gets in a slot is what the greatest contribution to the slot brings.  A
declaration of a matched rule contributes what it writes, once for each selector of
its rule that selects the node; an inline style contributes what is in a field that it
sets.  Contributions are ranked by specificity and then by their place in the rule,
important declarations above the inline style and the inline style above the others.
The three passes of the cascade write them in an order that ends with the greatest.
-/

namespace WidgetStyle

/-! ## Ranks -/

namespace Specificity

variable {left right : Specificity}

/-- The first rank is at most the second, and not the other way round. -/
def Below (left right : Specificity) : Prop :=
  left.atMost right = true ∧ right.atMost left = false

theorem below_of_important (plain : left.important = false) (important : right.important = true) :
    left.Below right := by
  have up : Ord.compare false true = .lt := rfl
  have down : Ord.compare true false = .gt := rfl
  simp [Below, atMost, compare, compareLex, compareOn, plain, important, up, down]

theorem below_of_inline (same : left.important = right.important) (plain : left.isInline = false)
    (inline : right.isInline = true) : left.Below right := by
  have up : Ord.compare false true = .lt := rfl
  have down : Ord.compare true false = .gt := rfl
  simp [Below, atMost, compare, compareLex, compareOn, same, plain, inline, up, down]

theorem atMost_madeImportant (same : left.important = right.important) :
    left.madeImportant.atMost right.madeImportant = left.atMost right := by
  simp [atMost, compare, compareLex, compareOn, madeImportant, same]

end Specificity

/-! ## Contributions -/

/-- A value for a slot with its rank: a specificity, and a place among what has the
same specificity. -/
structure Contribution (slot : Slot) where
  value : slot.Value
  specificity : Specificity
  place : Nat := 0
deriving DecidableEq

namespace Contribution

variable {slot : Slot} {first second third : Contribution slot}

/-- The second contribution ranks at least as high as the first one. -/
structure AtMost (first second : Contribution slot) : Prop where
  specificity : first.specificity.atMost second.specificity = true
  place : second.specificity.atMost first.specificity = true → first.place ≤ second.place

instance (first second : Contribution slot) : Decidable (AtMost first second) :=
  decidable_of_iff
    (first.specificity.atMost second.specificity = true ∧
      (second.specificity.atMost first.specificity = true → first.place ≤ second.place))
    ⟨fun both => ⟨both.1, both.2⟩, fun atMost => ⟨atMost.specificity, atMost.place⟩⟩

theorem AtMost.trans (lower : AtMost first second) (upper : AtMost second third) :
    AtMost first third where
  specificity := Specificity.atMost_trans _ _ _ lower.specificity upper.specificity
  place := by
    intro back
    exact Nat.le_trans (lower.place (Specificity.atMost_trans _ _ _ upper.specificity back))
      (upper.place (Specificity.atMost_trans _ _ _ back lower.specificity))

theorem atMost_of_below (below : first.specificity.Below second.specificity) :
    AtMost first second where
  specificity := below.1
  place back := by
    rw [below.2] at back
    cases back

/-- The contribution is one of the list, and none of the list ranks higher. -/
structure Prevails (among : List (Contribution slot)) (contribution : Contribution slot) :
    Prop where
  mem : contribution ∈ among
  greatest : ∀ other ∈ among, other.AtMost contribution

instance (among : List (Contribution slot)) (contribution : Contribution slot) :
    Decidable (Prevails among contribution) :=
  decidable_of_iff (contribution ∈ among ∧ ∀ other ∈ among, other.AtMost contribution)
    ⟨fun both => ⟨both.1, both.2⟩, fun prevails => ⟨prevails.mem, prevails.greatest⟩⟩

/-! ## Contributions in blocks -/

/-- Nothing in the first block ranks higher than the last of the second one. -/
def Precedes (earlier later : List (Contribution slot)) : Prop :=
  ∀ one ∈ earlier, ∀ last ∈ later.getLast?, one.AtMost last

/-- When blocks precede those that follow and themselves, the last contribution of all
prevails. -/
theorem prevails_getLast? {blocks : List (List (Contribution slot))}
    (within : ∀ block ∈ blocks, Precedes block block) (sorted : blocks.Pairwise Precedes)
    {last : Contribution slot} (ending : blocks.flatten.getLast? = some last) :
    Prevails blocks.flatten last := by
  refine ⟨List.mem_of_getLast? ending, ?_⟩
  induction blocks generalizing last with
  | nil => cases ending
  | cons block rest ih =>
      rw [List.pairwise_cons] at sorted
      rw [List.forall_mem_cons] at within
      rw [List.flatten_cons, List.getLast?_append] at ending
      intro other member
      rw [List.flatten_cons, List.mem_append] at member
      cases after : rest.flatten.getLast? with
      | none =>
          rw [after, Option.none_or] at ending
          rw [List.getLast?_eq_none_iff.mp after] at member
          rcases member with inside | beyond
          · exact within.1 other inside last ending
          · cases beyond
      | some final =>
          rw [after, Option.some_or] at ending
          cases ending
          have greatest := ih within.2 sorted.2 after
          rcases member with inside | beyond
          · -- Any block that is not empty leads from the first block to the end.
            rcases List.mem_flatten.mp (List.mem_of_getLast? after) with ⟨next, listed, among⟩
            obtain ⟨top, isLast⟩ :=
              Option.isSome_iff_exists.mp (List.getLast?_isSome.mpr (List.ne_nil_of_mem among))
            have topMember := List.mem_flatten.mpr ⟨next, listed, List.mem_of_getLast? isLast⟩
            exact (sorted.1 next listed other inside top isLast).trans (greatest top topMember)
          · exact greatest other beyond

end Contribution

open Contribution

/-! ## What contributes -/

/-- The rank of a declaration in a rule that is matched with the given rank. -/
def Declaration.rank (matched : Specificity) (declaration : Declaration) : Specificity :=
  if declaration.important then matched.madeImportant else matched

theorem Declaration.isInline_rank (matched : Specificity) (declaration : Declaration) :
    (declaration.rank matched).isInline = matched.isInline := by
  rw [rank]
  split <;> rfl

theorem Declaration.order_rank (matched : Specificity) (declaration : Declaration) :
    (declaration.rank matched).order = matched.order := by
  rw [rank]
  split <;> rfl

/-- What a declaration of a matched rule contributes to a slot. -/
def Declaration.contribution? (bindings : Variables) (slot : Slot) (matched : Specificity)
    (entry : Declaration × Nat) : Option (Contribution slot) :=
  (entry.1.valueFor? bindings slot).map fun value =>
    { value, specificity := entry.1.rank matched, place := entry.2 }

/-- What the declarations of a matched rule contribute to a slot, in their order. -/
def RuleMatch.contributions (bindings : Variables) (slot : Slot) (found : RuleMatch) :
    List (Contribution slot) :=
  found.rule.declarations.zipIdx.filterMap
    (Declaration.contribution? bindings slot found.specificity)

/-- What an inline style contributes to a slot: the value of the slot, if its whole
field is set. -/
def inlineContributions (slot : Slot) (inlineStyle : Option Style) : List (Contribution slot) :=
  match inlineStyle with
  | some style =>
      if style.isSet slot.field then [{ value := style.read slot, specificity := .ofInline }]
      else []
  | none => []

/-- All that contributes to a slot of a node: every one of the selectors of the sheet that
selects the node brings in its rule, and the inline style comes last. -/
def Sheet.contributions (sheet : Sheet) (selectors : List RuleSelector)
    (surroundings : Surroundings) (node : Node) (slot : Slot) : List (Contribution slot) :=
  (selectors.filter fun entry => entry.selector.selects surroundings node).flatMap
      (fun entry =>
        match sheet.rules[entry.rule]? with
        | some rule =>
            RuleMatch.contributions sheet.bindings slot
              ⟨entry.selector, rule, .ofSelector entry.selector entry.rule⟩
        | none => []) ++
    inlineContributions slot node.inlineStyle

/-! ## The contributions of a match -/

namespace RuleMatch

variable {bindings : Variables} {slot : Slot} {important : Bool} {found : RuleMatch}
  {contribution : Contribution slot}

/-- What the important declarations of a matched rule contribute to a slot, or what the
others do. -/
def contributionsOf (bindings : Variables) (slot : Slot) (important : Bool) (found : RuleMatch) :
    List (Contribution slot) :=
  (found.rule.declarations.zipIdx.filter fun entry => entry.1.important == important).filterMap
    (Declaration.contribution? bindings slot found.specificity)

/-- The contribution is that of the declaration, which stands at its place. -/
structure Offers (bindings : Variables) (found : RuleMatch) (declaration : Declaration)
    (contribution : Contribution slot) : Prop where
  listed : found.rule.declarations[contribution.place]? = some declaration
  value : declaration.valueFor? bindings slot = some contribution.value
  specificity : contribution.specificity = declaration.rank found.specificity

theorem contribution?_eq_some_iff {matched : Specificity} {entry : Declaration × Nat} :
    Declaration.contribution? bindings slot matched entry = some contribution ↔
      entry.2 = contribution.place ∧ entry.1.valueFor? bindings slot = some contribution.value ∧
        contribution.specificity = entry.1.rank matched := by
  rw [Declaration.contribution?, Option.map_eq_some_iff]
  constructor
  · rintro ⟨value, read, rfl⟩
    exact ⟨rfl, read, rfl⟩
  · rcases contribution with ⟨value, specificity, place⟩
    rintro ⟨rfl, read, rfl⟩
    exact ⟨value, read, rfl⟩

theorem mem_contributions_iff :
    contribution ∈ found.contributions bindings slot ↔
      ∃ declaration, found.Offers bindings declaration contribution := by
  simp only [contributions, List.mem_filterMap, List.mem_zipIdx_iff_getElem?,
    contribution?_eq_some_iff]
  constructor
  · rintro ⟨entry, listed, same, value, specificity⟩
    exact ⟨entry.1, same ▸ listed, value, specificity⟩
  · rintro ⟨declaration, listed, value, specificity⟩
    exact ⟨(declaration, contribution.place), listed, rfl, value, specificity⟩

theorem mem_contributionsOf_iff :
    contribution ∈ found.contributionsOf bindings slot important ↔
      ∃ declaration, found.Offers bindings declaration contribution ∧
        declaration.important = important := by
  simp only [contributionsOf, List.mem_filterMap, List.mem_filter, List.mem_zipIdx_iff_getElem?,
    contribution?_eq_some_iff, beq_iff_eq]
  constructor
  · rintro ⟨entry, ⟨listed, flagged⟩, same, value, specificity⟩
    exact ⟨entry.1, ⟨same ▸ listed, value, specificity⟩, flagged⟩
  · rintro ⟨declaration, ⟨listed, value, specificity⟩, flagged⟩
    exact ⟨(declaration, contribution.place), ⟨listed, flagged⟩, rfl, value, specificity⟩

theorem map_value_contributionsOf :
    (found.contributionsOf bindings slot important).map (·.value) =
      (found.rule.declarations.filter fun declaration =>
        declaration.important == important).filterMap (·.valueFor? bindings slot) := by
  have values : ∀ entries : List (Declaration × Nat),
      (entries.filterMap (Declaration.contribution? bindings slot found.specificity)).map
          (·.value) =
        (entries.map (·.1)).filterMap (·.valueFor? bindings slot) := by
    intro entries
    rw [List.map_filterMap, List.filterMap_map]
    apply List.filterMap_congr
    intro entry _
    rw [Declaration.contribution?, Function.comp_apply]
    cases entry.1.valueFor? bindings slot <;> rfl
  rw [contributionsOf, values]
  conv_rhs => rw [← List.zipIdx_map_fst 0 found.rule.declarations]
  rw [List.filter_map]
  rfl

/-- The contributions of one match come in the order of their places. -/
theorem pairwise_contributionsOf :
    (found.contributionsOf bindings slot important).Pairwise fun earlier later =>
      earlier.place ≤ later.place := by
  have ascending : found.rule.declarations.zipIdx.Pairwise fun earlier later =>
      earlier.2 < later.2 := by
    rw [← List.pairwise_map, List.zipIdx_map_snd]
    exact List.pairwise_lt_range'
  rw [contributionsOf, List.pairwise_filterMap]
  refine (ascending.filter _).imp ?_
  intro earlier later before one first other second
  rw [← (contribution?_eq_some_iff.mp first).1, ← (contribution?_eq_some_iff.mp second).1]
  exact Nat.le_of_lt before

/-- The last contribution of a match stands behind all the others. -/
theorem place_le_getLast? {last : Contribution slot}
    (member : contribution ∈ found.contributionsOf bindings slot important)
    (ending : (found.contributionsOf bindings slot important).getLast? = some last) :
    contribution.place ≤ last.place := by
  have ascending := @pairwise_contributionsOf bindings slot important found
  obtain ⟨before, split⟩ := List.getLast?_eq_some_iff.mp ending
  rw [split] at member ascending
  rcases List.mem_append.mp member with sooner | final
  · exact (List.pairwise_append.mp ascending).2.2 _ sooner _ (List.mem_singleton_self last)
  · exact List.mem_singleton.mp final ▸ Nat.le_refl last.place

theorem specificity_of_mem_contributionsOf
    (member : contribution ∈ found.contributionsOf bindings slot important) :
    contribution.specificity =
      if important then found.specificity.madeImportant else found.specificity := by
  rcases mem_contributionsOf_iff.mp member with ⟨declaration, offers, rfl⟩
  exact offers.specificity

end RuleMatch

namespace Cascade

open RuleMatch

variable {sheet : Sheet} {config : Config} {surroundings : Surroundings} {node : Node}
  {slot : Slot} {first second : RuleMatch}

section Matched

variable {matched : List RuleMatch}
  (done : (ofSheet sheet config).matchesOf surroundings node = .ok matched)

include done

/-- What contributes to a slot is a declaration of a match or the inline style. -/
theorem mem_sheetContributions_iff {contribution : Contribution slot} :
    contribution ∈ sheet.contributions sheet.active surroundings node slot ↔
      (∃ found ∈ matched, ∃ declaration, found.Offers sheet.bindings declaration contribution) ∨
      contribution ∈ inlineContributions slot node.inlineStyle := by
  rw [Sheet.contributions, List.mem_append, List.mem_flatMap]
  apply or_congr_left
  simp only [List.mem_filter, mem_matchesOf_iff done, ← mem_contributions_iff]
  constructor
  · rintro ⟨entry, ⟨member, selected⟩, among⟩
    split at among
    · rename_i rule listed
      exact ⟨_, ⟨entry, member, selected, rfl, listed, rfl⟩, among⟩
    · cases among
  · rintro ⟨found, ⟨entry, member, selected, isOf⟩, among⟩
    refine ⟨entry, ⟨member, selected⟩, ?_⟩
    simp only [isOf.rule]
    rwa [← isOf.specificity, ← isOf.selector]

/-- The rank of a selector alone is neither important nor that of an inline style. -/
theorem plain_of_mem_matchesOf {found : RuleMatch} (member : found ∈ matched) :
    found.specificity.important = false ∧ found.specificity.isInline = false := by
  rcases (mem_matchesOf_iff done).mp member with ⟨entry, -, -, isOf⟩
  rw [isOf.specificity]
  exact ⟨rfl, rfl⟩

end Matched

/-! ## The order of the passes -/

/-- What the passes write into a slot: what the declarations of the matches contribute
that are not important, the inline style, and the important declarations. -/
def writes (sheet : Sheet) (matched : List RuleMatch) (node : Node) (slot : Slot) :
    List (List (Contribution slot)) :=
  matched.map (contributionsOf sheet.bindings slot false) ++
    inlineContributions slot node.inlineStyle ::
    matched.map (contributionsOf sheet.bindings slot true)

theorem mem_flatten_writes_iff {matched : List RuleMatch}
    (done : (ofSheet sheet config).matchesOf surroundings node = .ok matched)
    {contribution : Contribution slot} :
    contribution ∈ (writes sheet matched node slot).flatten ↔
      contribution ∈ sheet.contributions sheet.active surroundings node slot := by
  simp only [writes, mem_sheetContributions_iff done, List.flatten_append,
    List.flatten_cons, List.mem_append, ← List.flatMap_def, List.mem_flatMap,
    mem_contributionsOf_iff]
  constructor
  · rintro (⟨found, member, declaration, offers, -⟩ | inline |
      ⟨found, member, declaration, offers, -⟩)
    · exact .inl ⟨found, member, declaration, offers⟩
    · exact .inr inline
    · exact .inl ⟨found, member, declaration, offers⟩
  · rintro (⟨found, member, declaration, offers⟩ | inline)
    · cases important : declaration.important with
      | false => exact .inl ⟨found, member, declaration, offers, important⟩
      | true => exact .inr (.inr ⟨found, member, declaration, offers, important⟩)
    · exact .inr (.inl inline)

theorem filterMap_declarationsOf (bindings : Variables) (important : Bool)
    (matched : List RuleMatch) :
    (declarationsOf important matched).filterMap (·.valueFor? bindings slot) =
      (matched.map (contributionsOf bindings slot important)).flatten.map (·.value) := by
  induction matched with
  | nil => rfl
  | cons found rest ih =>
      rw [declarationsOf, List.flatMap_cons, List.filterMap_append, List.map_cons,
        List.flatten_cons, List.map_append, map_value_contributionsOf, ← ih]
      rfl

theorem read_overlayInline (style : Style) (inlineStyle : Option Style) (slot : Slot) :
    (overlayInline style inlineStyle).read slot =
      (((inlineContributions slot inlineStyle).map (·.value)).getLast?).getD (style.read slot) := by
  cases inlineStyle with
  | none => rfl
  | some other =>
      simp only [overlayInline, inlineContributions, Style.read_overlay]
      split <;> rfl

/-- In each slot the last write counts. -/
theorem read_styleFrom {cascade : Cascade} {matched : List RuleMatch} {base style : Style}
    (done : cascade.matchesOf surroundings node = .ok matched)
    (styled : cascade.styleFrom base surroundings node = .ok style) (slot : Slot) :
    style.read slot =
      (((writes cascade.sheet matched node slot).flatten.map (·.value)).getLast?).getD
        (base.read slot) := by
  rw [styleFrom, done] at styled
  simp only at styled
  split at styled
  · cases styled
  · rename_i normal applied
    rw [read_applyAll styled, read_overlayInline, read_applyAll applied, filterMap_declarationsOf,
      filterMap_declarationsOf, writes, List.flatten_append, List.flatten_cons, List.map_append,
      List.map_append, List.getLast?_append, List.getLast?_append]
    cases ((matched.map
      (contributionsOf cascade.sheet.bindings slot true)).flatten.map (·.value)).getLast? with
    | some value => rfl
    | none =>
        cases ((inlineContributions slot node.inlineStyle).map (·.value)).getLast? <;> rfl

theorem precedes_of_atMost {matched : List RuleMatch}
    (done : (ofSheet sheet config).matchesOf surroundings node = .ok matched)
    (earlier : first ∈ matched) (later : second ∈ matched)
    (ordered : first.specificity.atMost second.specificity = true) (important : Bool) :
    Precedes (first.contributionsOf sheet.bindings slot important)
      (second.contributionsOf sheet.bindings slot important) := by
  have plain : first.specificity.important = second.specificity.important :=
    (plain_of_mem_matchesOf done earlier).1.trans (plain_of_mem_matchesOf done later).1.symm
  intro one member last ending
  have rank := specificity_of_mem_contributionsOf member
  have lastRank := specificity_of_mem_contributionsOf (List.mem_of_getLast? ending)
  constructor
  · rw [rank, lastRank]
    cases important with
    | false => exact ordered
    | true => exact (Specificity.atMost_madeImportant plain).trans ordered
  · intro back
    rw [rank, lastRank] at back
    have reversed : second.specificity.atMost first.specificity = true := by
      cases important with
      | false => exact back
      | true => exact (Specificity.atMost_madeImportant plain.symm).symm.trans back
    -- Two matches of one rank are matches of one rule.
    have same := Specificity.atMost_antisymm ordered reversed
    obtain ⟨place, order, rule⟩ := rule_of_mem_matchesOf done earlier
    obtain ⟨lastPlace, lastOrder, lastRule⟩ := rule_of_mem_matchesOf done later
    change sheet.rules[place]? = _ at rule
    change sheet.rules[lastPlace]? = _ at lastRule
    rw [same, lastOrder, Int.ofNat_inj] at order
    rw [order, rule] at lastRule
    have again : second.contributionsOf sheet.bindings slot important =
        first.contributionsOf sheet.bindings slot important := by
      rw [contributionsOf, contributionsOf, ← same, Option.some.inj lastRule]
    rw [again] at ending
    exact place_le_getLast? member ending

theorem eq_of_mem_inlineContributions {inlineStyle : Option Style}
    {contribution : Contribution slot}
    (member : contribution ∈ inlineContributions slot inlineStyle) :
    ∃ style, inlineStyle = some style ∧
      contribution = { value := style.read slot, specificity := .ofInline } := by
  cases inlineStyle with
  | none => cases member
  | some style =>
      rw [inlineContributions] at member
      split at member
      · exact ⟨style, rfl, List.mem_singleton.mp member⟩
      · cases member

/-- What a pass writes cannot rank higher than what the same pass writes later, and
what is written by an earlier pass ranks below what is written by a later one. -/
theorem pairwise_writes {matched : List RuleMatch}
    (done : (ofSheet sheet config).matchesOf surroundings node = .ok matched) :
    (writes sheet matched node slot).Pairwise Precedes := by
  have pass (important : Bool) :
      matched.Pairwise fun first second =>
        Precedes (first.contributionsOf sheet.bindings slot important)
          (second.contributionsOf sheet.bindings slot important) := by
    refine List.Pairwise.imp_of_mem ?_ (pairwise_matchesOf done)
    intro first second earlier later ordered
    exact precedes_of_atMost done earlier later ordered important
  rw [writes, List.pairwise_append, List.pairwise_cons, List.pairwise_map, List.pairwise_map]
  refine ⟨pass false, ⟨?_, pass true⟩, ?_⟩
  · intro block listed one member last ending
    rcases List.mem_map.mp listed with ⟨found, matched, rfl⟩
    obtain ⟨style, -, rfl⟩ := eq_of_mem_inlineContributions member
    apply atMost_of_below
    rw [specificity_of_mem_contributionsOf (List.mem_of_getLast? ending)]
    exact Specificity.below_of_important rfl rfl
  · intro block listed later follows one member last ending
    rcases List.mem_map.mp listed with ⟨found, matched, rfl⟩
    have plain := plain_of_mem_matchesOf done matched
    have rank := specificity_of_mem_contributionsOf member
    apply atMost_of_below
    rw [rank]
    rcases List.mem_cons.mp follows with rfl | important
    · obtain ⟨style, -, rfl⟩ := eq_of_mem_inlineContributions (List.mem_of_getLast? ending)
      exact Specificity.below_of_inline plain.1 plain.2 rfl
    · rcases List.mem_map.mp important with ⟨other, -, rfl⟩
      rw [specificity_of_mem_contributionsOf (List.mem_of_getLast? ending)]
      exact Specificity.below_of_important plain.1 rfl

theorem precedes_self {matched : List RuleMatch}
    (done : (ofSheet sheet config).matchesOf surroundings node = .ok matched)
    {block : List (Contribution slot)} (listed : block ∈ writes sheet matched node slot) :
    Precedes block block := by
  have same (found : RuleMatch) : found.specificity.atMost found.specificity = true := by
    simpa using Specificity.atMost_total found.specificity found.specificity
  rw [writes, List.mem_append, List.mem_cons, List.mem_map, List.mem_map] at listed
  rcases listed with ⟨found, member, rfl⟩ | rfl | ⟨found, member, rfl⟩
  · exact precedes_of_atMost done member member (same found) false
  · intro one member last ending
    obtain ⟨style, own, rfl⟩ := eq_of_mem_inlineContributions member
    obtain ⟨other, again, rfl⟩ := eq_of_mem_inlineContributions (List.mem_of_getLast? ending)
    rw [own] at again
    cases again
    exact ⟨rfl, fun _ => Nat.le_refl _⟩
  · exact precedes_of_atMost done member member (same found) true

/-! ## The greatest contribution -/

/-- Contributions of the same rank and place are those of one declaration, or of the
inline style. -/
theorem value_eq_of_atMost {matched : List RuleMatch}
    (done : (ofSheet sheet config).matchesOf surroundings node = .ok matched)
    {one other : Contribution slot}
    (member : one ∈ sheet.contributions sheet.active surroundings node slot)
    (otherMember : other ∈ sheet.contributions sheet.active surroundings node slot)
    (up : one.AtMost other) (down : other.AtMost one) : one.value = other.value := by
  have ranks := Specificity.atMost_antisymm up.specificity down.specificity
  have places := Nat.le_antisymm (up.place down.specificity) (down.place up.specificity)
  rw [mem_sheetContributions_iff done] at member otherMember
  rcases member with ⟨found, among, declaration, offers⟩ | inline <;>
    rcases otherMember with ⟨another, otherAmong, otherDeclaration, otherOffers⟩ | otherInline
  · rw [offers.specificity, otherOffers.specificity] at ranks
    have orders := congrArg Specificity.order ranks
    obtain ⟨place, order, rule⟩ := rule_of_mem_matchesOf done among
    obtain ⟨otherPlace, otherOrder, otherRule⟩ := rule_of_mem_matchesOf done otherAmong
    rw [Declaration.order_rank, Declaration.order_rank, order, otherOrder, Int.ofNat_inj]
      at orders
    rw [orders, otherRule] at rule
    have listed := offers.listed
    rw [← Option.some.inj rule, places, otherOffers.listed] at listed
    have value := offers.value
    rw [← Option.some.inj listed, otherOffers.value] at value
    exact (Option.some.inj value).symm
  · obtain ⟨style, -, rfl⟩ := eq_of_mem_inlineContributions otherInline
    have flags := congrArg Specificity.isInline (offers.specificity.symm.trans ranks)
    rw [Declaration.isInline_rank, (plain_of_mem_matchesOf done among).2] at flags
    cases flags
  · obtain ⟨style, -, rfl⟩ := eq_of_mem_inlineContributions inline
    have flags := congrArg Specificity.isInline (otherOffers.specificity.symm.trans ranks.symm)
    rw [Declaration.isInline_rank, (plain_of_mem_matchesOf done otherAmong).2] at flags
    cases flags
  · obtain ⟨style, own, rfl⟩ := eq_of_mem_inlineContributions inline
    obtain ⟨other, again, rfl⟩ := eq_of_mem_inlineContributions otherInline
    rw [own] at again
    cases again
    rfl

/-- A sheet whose two rules meet in the padding of an `App`, one of them through both
selectors of its group. -/
def framed : Sheet where
  rules :=
    [ { selector := "App, .card"
        declarations :=
          [ { property := "padding", value := "1" },
            { property := "padding-top", value := "2", important := true },
            { property := "border", value := "solid red" } ] },
      { selector := "#main", declarations := [{ property := "padding", value := "3" }] } ]

/-- An `App` that all selectors of the sheet select, with an inline style that sets the
padding on the left. -/
def framedNode : Node where
  id := ⟨1⟩
  identity := { widgetType := "App", elementId := some "main", classes := ["card"] }
  inlineStyle := some { padding := { left := 5 } }

/-- Both selectors of the first rule, and the selector of the second. -/
def framedSelectors : List RuleSelector :=
  [⟨.ofCompound { element := some "App" }, 0⟩, ⟨.ofCompound { classes := ["card"] }, 0⟩,
    ⟨.ofCompound { id := some "main" }, 1⟩]

end Cascade

end WidgetStyle
