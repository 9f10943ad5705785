import Mathlib.Data.List.Pairwise
import WidgetStyle.Proofs.Selector.Segments
import WidgetStyle.Report

/-!
# Active rules

Every rule of a sheet is read at its place: it gives its selectors to the cascade, or it drops
out with one report and gives none.  A rule with nothing but blanks and commas for its selector
text does neither, and a validation passes it although the cascade can never apply it.  A rule
that holds a place with too many digits is not accounted for either: the first one of a sheet
fails the reading of all its rules.
-/

namespace WidgetStyle

open WidgetStyle.Text WidgetStyle.Selector

namespace Rule

/-- The selectors that the rule gives at its place. -/
def active (rule : Rule) (place : Nat) : List RuleSelector :=
  match parseGroup rule.selector with
  | .ok group => group.map fun selector => ⟨selector, place⟩
  | .error _ => []

/-- The report of the rule at its place, if it drops out. -/
def dropped (rule : Rule) (place : Nat) : List UnreadableRule :=
  match parseGroup rule.selector with
  | .error (.refused error) => [⟨place, rule.selector, error⟩]
  | _ => []

/-- What fails the reading of the rule without a report, if anything does. -/
def excess? (rule : Rule) : Option TooManyDigits :=
  match parseGroup rule.selector with
  | .error (.excess excess) => some excess
  | _ => none

theorem excess?_eq_some_iff {rule : Rule} {excess : TooManyDigits} :
    rule.excess? = some excess ↔ parseGroup rule.selector = .error (.excess excess) := by
  rw [excess?]
  split
  · rename_i read
    simp [read]
  · rename_i other
    exact iff_of_false nofun (other excess)

theorem rule_of_mem_active {rule : Rule} {place : Nat} {entry : RuleSelector}
    (member : entry ∈ rule.active place) : entry.rule = place := by
  rw [active] at member
  split at member
  · obtain ⟨selector, -, rfl⟩ := List.mem_map.mp member
    rfl
  · cases member

theorem rule_of_mem_dropped {rule : Rule} {place : Nat} {report : UnreadableRule}
    (member : report ∈ rule.dropped place) : report.rule = place := by
  rw [dropped] at member
  split at member
  · rw [List.mem_singleton.mp member]
  · cases member

end Rule

namespace Sheet

variable {sheet : Sheet} {place : Nat} {rule : Rule} {rules : List Rule}

/-! ## Places -/

theorem exists_split (listed : rules[place]? = some rule) :
    ∃ before after, rules = before ++ rule :: after ∧ before.length = place := by
  obtain ⟨bound, rfl⟩ := List.getElem?_eq_some_iff.mp listed
  refine ⟨rules.take place, rules.drop (place + 1), ?_, List.length_take_of_le bound.le⟩
  rw [List.getElem_cons_drop, List.take_append_drop]

/-- What some rules give, each at its place, the first of which is the given one. -/
def gatherFrom {Entry : Type} (entries : Rule → Nat → List Entry) (start : Nat)
    (rules : List Rule) : List Entry :=
  (rules.zipIdx start).flatMap fun placed => entries placed.1 placed.2

section Gathering

variable {Entry : Type} {entries : Rule → Nat → List Entry} {placeOf : Entry → Nat}

theorem gatherFrom_cons (start : Nat) (rule : Rule) (rest : List Rule) :
    gatherFrom entries start (rule :: rest) =
      entries rule start ++ gatherFrom entries (start + 1) rest := by
  rw [gatherFrom, List.zipIdx_cons, List.flatMap_cons, gatherFrom]

theorem gatherFrom_append (start : Nat) (before rest : List Rule) :
    gatherFrom entries start (before ++ rest) =
      gatherFrom entries start before ++ gatherFrom entries (start + before.length) rest := by
  rw [gatherFrom, List.zipIdx_append, List.flatMap_append, gatherFrom, gatherFrom]

variable (placed : ∀ rule place, ∀ entry ∈ entries rule place, placeOf entry = place)

include placed

/-- What is gathered from some rules belongs to their places. -/
theorem place_of_mem_gatherFrom {start : Nat} {entry : Entry}
    (member : entry ∈ gatherFrom entries start rules) :
    start ≤ placeOf entry ∧ placeOf entry < start + rules.length := by
  obtain ⟨⟨rule, place⟩, among, given⟩ := List.mem_flatMap.mp member
  have bounds := List.mem_zipIdx among
  rw [placed rule place entry given]
  exact ⟨bounds.1, bounds.2.1⟩

theorem ascending_gatherFrom (start : Nat) (rules : List Rule) :
    (gatherFrom entries start rules).Pairwise fun entry later =>
      placeOf entry ≤ placeOf later := by
  induction rules generalizing start with
  | nil => exact .nil
  | cons rule rest ih =>
      rw [gatherFrom_cons, List.pairwise_append]
      refine ⟨List.pairwise_of_forall_mem_list ?_, ih (start + 1), ?_⟩
      · intro entry member later among
        rw [placed rule start entry member, placed rule start later among]
      · intro entry member later among
        rw [placed rule start entry member]
        exact Nat.le_of_succ_le (place_of_mem_gatherFrom placed among).1

/-- Of all that is gathered, what belongs to a place is what its rule gives. -/
theorem filter_gatherFrom (listed : rules[place]? = some rule) :
    (gatherFrom entries 0 rules).filter (fun entry => decide (placeOf entry = place)) =
      entries rule place := by
  obtain ⟨before, after, rfl, rfl⟩ := exists_split listed
  rw [gatherFrom_append, gatherFrom_cons, Nat.zero_add, List.filter_append, List.filter_append,
    List.filter_eq_nil_iff.mpr, List.filter_eq_self.mpr, List.filter_eq_nil_iff.mpr,
    List.nil_append, List.append_nil]
  · intro entry member
    have bounds := place_of_mem_gatherFrom placed member
    simpa using (Nat.lt_of_succ_le bounds.1).ne'
  · exact fun entry member => decide_eq_true (placed rule _ entry member)
  · intro entry member
    have bounds := place_of_mem_gatherFrom placed member
    rw [Nat.zero_add] at bounds
    simpa using bounds.2.ne

end Gathering

/-- What fails the reading of the sheet: the first of its rules that holds a place with too
many digits, if there is one. -/
def excess? (sheet : Sheet) : Option TooManyDigits :=
  sheet.rules.findSome? Rule.excess?

/-- The selectors that the rules give, in their order. -/
def active (sheet : Sheet) : List RuleSelector :=
  gatherFrom Rule.active 0 sheet.rules

/-- The reports on the rules that drop out, in their order. -/
def dropped (sheet : Sheet) : List UnreadableRule :=
  gatherFrom Rule.dropped 0 sheet.rules

theorem readRules_eq (place : Nat) (rules : List Rule) :
    readRules place rules =
      match rules.findSome? Rule.excess? with
      | some excess => .error excess
      | none => .ok (gatherFrom Rule.active place rules, gatherFrom Rule.dropped place rules) := by
  induction rules generalizing place with
  | nil => rfl
  | cons rule rest ih =>
      rw [readRules, ih, List.findSome?_cons, gatherFrom_cons, gatherFrom_cons, Rule.excess?,
        Rule.active, Rule.dropped]
      match parseGroup rule.selector with
      | .ok group => cases rest.findSome? Rule.excess? <;> rfl
      | .error (.refused error) => cases rest.findSome? Rule.excess? <;> rfl
      | .error (.excess excess) => rfl

theorem readSelectors_eq (sheet : Sheet) :
    sheet.readSelectors =
      match sheet.excess? with
      | some excess => .error excess
      | none => .ok (sheet.active, sheet.dropped) :=
  readRules_eq 0 sheet.rules

theorem readSelectors_eq_ok_iff {read : List RuleSelector × List UnreadableRule} :
    sheet.readSelectors = .ok read ↔
      sheet.excess? = none ∧ read = (sheet.active, sheet.dropped) := by
  rw [readSelectors_eq]
  cases sheet.excess? <;> simp [eq_comm]

theorem readSelectors_eq_error_iff {excess : TooManyDigits} :
    sheet.readSelectors = .error excess ↔ sheet.excess? = some excess := by
  rw [readSelectors_eq]
  cases sheet.excess? <;> simp

/-! ## Rules -/

/-- The selectors among these that the rule at a place gives. -/
def activeAt (selectors : List RuleSelector) (place : Nat) : List Selector :=
  (selectors.filter fun entry => decide (entry.rule = place)).map (·.selector)

/-- The reports among these on the rule at a place. -/
def droppedAt (reports : List UnreadableRule) (place : Nat) : List UnreadableRule :=
  reports.filter fun report => decide (report.rule = place)

/-- The rule at the place is active and not reported, or reported once and not active. -/
def Accounted (selectors : List RuleSelector) (reports : List UnreadableRule)
    (place : Nat) : Prop :=
  activeAt selectors place ≠ [] ∧ droppedAt reports place = [] ∨
    activeAt selectors place = [] ∧ ∃ report, droppedAt reports place = [report]

theorem activeAt_eq (listed : sheet.rules[place]? = some rule) :
    activeAt sheet.active place = (rule.active place).map (·.selector) :=
  congrArg (List.map _)
    (filter_gatherFrom (fun _ _ _ member => Rule.rule_of_mem_active member) listed)

theorem droppedAt_eq (listed : sheet.rules[place]? = some rule) :
    droppedAt sheet.dropped place = rule.dropped place :=
  filter_gatherFrom (fun _ _ _ member => Rule.rule_of_mem_dropped member) listed

theorem activeAt_of_parseGroup {group : List Selector} (listed : sheet.rules[place]? = some rule)
    (read : parseGroup rule.selector = .ok group) :
    activeAt sheet.active place = group ∧ droppedAt sheet.dropped place = [] := by
  rw [activeAt_eq listed, droppedAt_eq listed, Rule.active, Rule.dropped]
  simp [read, Function.comp_def]

theorem droppedAt_of_parseGroup {error : SelectorError}
    (listed : sheet.rules[place]? = some rule)
    (refused : parseGroup rule.selector = .error (.refused error)) :
    activeAt sheet.active place = [] ∧
      droppedAt sheet.dropped place = [⟨place, rule.selector, error⟩] := by
  rw [activeAt_eq listed, droppedAt_eq listed, Rule.active, Rule.dropped]
  simp [refused]

/-- In a sheet whose reading does not fail, every rule is read or refused. -/
theorem exists_refused_of_parseGroup {failure : SelectorFailure} (readable : sheet.excess? = none)
    (listed : sheet.rules[place]? = some rule)
    (fails : parseGroup rule.selector = .error failure) : ∃ error, failure = .refused error := by
  match failure with
  | .refused error => exact ⟨error, rfl⟩
  | .excess excess =>
      have nothing :=
        List.findSome?_eq_none_iff.mp readable rule (List.mem_of_getElem? listed)
      rw [Rule.excess?_eq_some_iff.mpr fails] at nothing
      cases nothing

theorem accounted_iff (readable : sheet.excess? = none)
    (listed : sheet.rules[place]? = some rule) :
    Accounted sheet.active sheet.dropped place ↔ ¬ Vacant rule.selector.toList := by
  rw [Accounted, ← parseGroup_eq_nil_iff]
  cases read : parseGroup rule.selector with
  | ok group =>
      obtain ⟨active, dropped⟩ := activeAt_of_parseGroup listed read
      simp [active, dropped]
  | error failure =>
      obtain ⟨error, rfl⟩ := exists_refused_of_parseGroup readable listed read
      obtain ⟨active, dropped⟩ := droppedAt_of_parseGroup listed read
      simp [active, dropped]

/-! ## Validation -/

theorem dropped_eq_nil_iff :
    sheet.dropped = [] ↔
      ∀ place rule, sheet.rules[place]? = some rule → droppedAt sheet.dropped place = [] := by
  constructor
  · intro nothing place rule listed
    rw [droppedAt, nothing, List.filter_nil]
  · intro each
    rw [List.eq_nil_iff_forall_not_mem]
    intro report member
    have bound := (place_of_mem_gatherFrom
      (fun _ _ _ member => Rule.rule_of_mem_dropped member) member).2
    rw [Nat.zero_add] at bound
    have nothing := each report.rule _ (List.getElem?_eq_getElem bound)
    have among : report ∈ droppedAt sheet.dropped report.rule :=
      List.mem_filter.mpr ⟨member, decide_eq_true rfl⟩
    rw [nothing] at among
    cases among

theorem exists_validation (readable : sheet.excess? = none) (name : String) :
    ∃ outcome, Report.validation name sheet = .ok outcome ∧
      (outcome.exitCode = 0 ↔ sheet.dropped = []) := by
  rw [Report.validation, readSelectors_eq_ok_iff.mpr ⟨readable, rfl⟩]
  refine ⟨_, rfl, ?_⟩
  cases sheet.dropped with
  | nil =>
      refine iff_of_true ?_ rfl
      simp only [List.map_nil, List.isEmpty_nil, Bool.true_and]
      split <;> rfl
  | cons report others => exact iff_of_false (by simp) (List.cons_ne_nil _ _)

/-- Where the rules are read, selectors are active in the order of their rules, and a rule that
cannot be read as a whole gives none.  A rule is accounted for exactly when its text has more
than blanks and commas, so a sheet passes validation exactly when its rules are active or have
no more than that.  Reading and validation fail exactly on the first rule that comes to a place
with too many digits. -/
theorem readSelectors_accounted_iff (sheet : Sheet) :
    match sheet.readSelectors with
    | .error excess =>
        (∃ before rule after, sheet.rules = before ++ rule :: after ∧
          parseGroup rule.selector = .error (.excess excess) ∧
            ∀ earlier ∈ before, ∀ other,
              parseGroup earlier.selector ≠ .error (.excess other)) ∧
          ∀ name, Report.validation name sheet = .error excess
    | .ok (selectors, reports) =>
        (selectors.Pairwise fun entry later => entry.rule ≤ later.rule) ∧
          (∀ place rule, sheet.rules[place]? = some rule →
            (Accounted selectors reports place ↔ ¬ Vacant rule.selector.toList) ∧
              (∀ group, parseGroup rule.selector = .ok group →
                activeAt selectors place = group) ∧
                ∀ failure, parseGroup rule.selector = .error failure →
                  activeAt selectors place = [] ∧ ∃ error, failure = .refused error ∧
                    droppedAt reports place = [⟨place, rule.selector, error⟩]) ∧
            ∀ name, ∃ outcome, Report.validation name sheet = .ok outcome ∧
              (outcome.exitCode = 0 ↔
                ∀ place rule, sheet.rules[place]? = some rule →
                  activeAt selectors place ≠ [] ∨ Vacant rule.selector.toList) := by
  rw [readSelectors_eq]
  cases readable : sheet.excess? with
  | some excess =>
      obtain ⟨before, rule, after, parts, first, earlier⟩ :=
        List.findSome?_eq_some_iff.mp readable
      refine ⟨⟨before, rule, after, parts, Rule.excess?_eq_some_iff.mp first, ?_⟩, ?_⟩
      · intro rule member other fails
        rw [← Rule.excess?_eq_some_iff, earlier rule member] at fails
        cases fails
      · intro name
        rw [Report.validation, readSelectors_eq_error_iff.mpr readable]
        rfl
  | none =>
      refine ⟨ascending_gatherFrom (fun _ _ _ member => Rule.rule_of_mem_active member) 0 _,
        ?_, ?_⟩
      · intro place rule listed
        refine ⟨accounted_iff readable listed,
          fun _ read => (activeAt_of_parseGroup listed read).1, ?_⟩
        intro failure fails
        obtain ⟨error, rfl⟩ := exists_refused_of_parseGroup readable listed fails
        obtain ⟨active, dropped⟩ := droppedAt_of_parseGroup listed fails
        exact ⟨active, error, rfl, dropped⟩
      · intro name
        obtain ⟨outcome, valid, passes⟩ := exists_validation readable name
        refine ⟨outcome, valid, ?_⟩
        rw [passes, dropped_eq_nil_iff]
        refine forall_congr' fun place => forall_congr' fun rule => forall_congr' fun listed => ?_
        rw [← parseGroup_eq_nil_iff]
        cases read : parseGroup rule.selector with
        | ok group =>
            obtain ⟨active, dropped⟩ := activeAt_of_parseGroup listed read
            cases group <;> simp [active, dropped]
        | error failure =>
            obtain ⟨error, rfl⟩ := exists_refused_of_parseGroup readable listed read
            obtain ⟨active, dropped⟩ := droppedAt_of_parseGroup listed read
            simp [active, dropped]

/-- One rule, with a lone comma for its selector text. -/
def commaSheet : Sheet where
  rules := [⟨",", [⟨"gap", "1", false⟩]⟩]

/-- The rule is neither active nor dropped, and passes validation. -/
theorem commaSheet_unaccounted :
    Sheet.parse ", \x7b gap: 1; \x7d" = .ok commaSheet ∧
      commaSheet.readSelectors = .ok ([], []) ∧ ¬ Accounted [] [] 0 ∧
        ∃ outcome, Report.validation "comma" commaSheet = .ok outcome ∧ outcome.exitCode = 0 := by
  refine ⟨?_, ?_, ?_, _, rfl, ?_⟩
  · decide +kernel
  · decide +kernel
  · simp [Accounted, activeAt, droppedAt]
  · decide +kernel

end Sheet

end WidgetStyle
