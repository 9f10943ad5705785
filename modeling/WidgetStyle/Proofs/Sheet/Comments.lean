import Mathlib.Data.List.Basic
import WidgetStyle.Sheet.Comment

/-!
# Comments and lines

What is left of a source without its comments, told without a reader.  The source is scanned from
left to right; where a comment begins the shortest one is taken, and elsewhere one character is.
Outside of comments every character is left, and of a comment its line breaks are, so whatever is
left has as many line breaks before it as it had in the source.
-/

namespace WidgetStyle.Sheet

variable {text rest inside after comment : List Char} {character : Char}

/-! ## Scanning -/

/-- An opening, any text, and a closing. -/
def IsComment (text : List Char) : Prop :=
  ∃ inside, text = '/' :: '*' :: (inside ++ ['*', '/'])

/-- A character outside of comments, or a whole comment. -/
inductive Piece where
  | plain (character : Char)
  | comment (text : List Char)
deriving DecidableEq, Repr

variable {pieces others : List Piece}

/-- The pieces of a text: no comment begins at a plain character, and a comment is the shortest
one that begins where it does. -/
inductive Scanned : List Piece → List Char → Prop where
  | done : Scanned [] []
  | plain {pieces : List Piece} {character : Char} {rest : List Char} :
      (∀ comment, IsComment comment → ¬ comment <+: character :: rest) →
        Scanned pieces rest → Scanned (.plain character :: pieces) (character :: rest)
  | comment {pieces : List Piece} {comment rest : List Char} :
      IsComment comment →
        (∀ other, IsComment other → other <+: comment ++ rest → comment.length ≤ other.length) →
          Scanned pieces rest → Scanned (.comment comment :: pieces) (comment ++ rest)

theorem IsComment.ne_nil (isComment : IsComment comment) : comment ≠ [] := by
  rcases isComment with ⟨inside, rfl⟩
  exact List.cons_ne_nil _ _

/-- A comment begins where its opening stands, if a closing follows. -/
theorem exists_comment_prefix_iff :
    (∃ comment, IsComment comment ∧ comment <+: text) ↔
      ∃ inside after, text = '/' :: '*' :: (inside ++ '*' :: '/' :: after) := by
  constructor
  · intro begins
    rcases begins with ⟨_, ⟨inside, rfl⟩, after, rfl⟩
    exact ⟨inside, after, by simp⟩
  · intro begins
    rcases begins with ⟨inside, after, rfl⟩
    exact ⟨_, ⟨inside, rfl⟩, after, by simp⟩

/-- A text is scanned in one way. -/
theorem Scanned.unique (scanned : Scanned pieces text) (again : Scanned others text) :
    pieces = others := by
  induction scanned generalizing others with
  | done =>
      generalize nothing : ([] : List Char) = whole at again
      cases again with
      | done => rfl
      | plain => cases nothing
      | comment isComment =>
          exact absurd (List.append_eq_nil_iff.mp nothing.symm).1 isComment.ne_nil
  | @plain pieces character rest free scanned ih =>
      generalize same : character :: rest = whole at again
      cases again with
      | done => cases same
      | plain _ again =>
          cases same
          rw [ih again]
      | comment isComment =>
          rw [same] at free
          exact absurd (List.prefix_append _ _) (free _ isComment)
  | @comment pieces comment rest isComment shortest scanned ih =>
      generalize same : comment ++ rest = whole at again
      cases again with
      | done => exact absurd (List.append_eq_nil_iff.mp same).1 isComment.ne_nil
      | plain free =>
          rw [← same] at free
          exact absurd (List.prefix_append _ _) (free _ isComment)
      | @comment _ other remaining isOther shortestOther again =>
          have least := shortest other isOther (same ▸ List.prefix_append _ _)
          have leastOther := shortestOther comment isComment (same ▸ List.prefix_append _ _)
          obtain ⟨rfl, rfl⟩ := List.append_inj same (Nat.le_antisymm least leastOther)
          rw [ih again]

/-! ## The nearest closing -/

theorem splitAtClosing?_eq_none_iff :
    splitAtClosing? text = none ↔ ∀ inside after, text ≠ inside ++ '*' :: '/' :: after := by
  fun_induction splitAtClosing? text with
  | case1 => simp
  | case2 rest =>
      constructor
      · intro none
        cases none
      · intro absent
        exact absurd rfl (absent [] rest)
  | case3 character rest plain ih =>
      rw [Option.map_eq_none_iff, ih]
      constructor
      · intro absent inside after split
        cases inside with
        | nil =>
            cases split
            exact plain after rfl rfl
        | cons first inside =>
            cases split
            exact absent inside after rfl
      · intro absent inside after split
        exact absent (character :: inside) after (by rw [split, List.cons_append])

theorem splitAtClosing?_nearest (split : splitAtClosing? text = some (inside, after)) :
    text = inside ++ '*' :: '/' :: after ∧
      ∀ other further, text = other ++ '*' :: '/' :: further → inside.length ≤ other.length := by
  fun_induction splitAtClosing? text generalizing inside after with
  | case1 => cases split
  | case2 rest =>
      cases split
      exact ⟨rfl, fun _ _ _ => Nat.zero_le _⟩
  | case3 character rest plain ih =>
      rcases Option.map_eq_some_iff.mp split with ⟨⟨inside, after⟩, found, same⟩
      cases same
      obtain ⟨rfl, nearest⟩ := ih found
      refine ⟨rfl, ?_⟩
      intro other further split
      cases other with
      | nil =>
          injection split with star slash
          exact absurd slash (plain _ star)
      | cons first other =>
          injection split with _ later
          exact Nat.succ_le_succ (nearest other further later)

/-! ## What is left -/

/-- The characters of a piece, each with whether it is left. -/
def Piece.marks : Piece → List (Char × Bool)
  | .plain character => [(character, true)]
  | .comment text => text.map fun character => (character, character == '\n')

/-- The characters of some pieces, each with whether it is left. -/
def marksOf (pieces : List Piece) : List (Char × Bool) :=
  pieces.flatMap Piece.marks

/-- All characters. -/
def sourceOf (marks : List (Char × Bool)) : List Char :=
  marks.map Prod.fst

/-- The characters that are left. -/
def keptOf (marks : List (Char × Bool)) : List Char :=
  (marks.filter Prod.snd).map Prod.fst

@[simp] theorem sourceOf_append (marks more : List (Char × Bool)) :
    sourceOf (marks ++ more) = sourceOf marks ++ sourceOf more :=
  List.map_append

@[simp] theorem keptOf_append (marks more : List (Char × Bool)) :
    keptOf (marks ++ more) = keptOf marks ++ keptOf more := by
  rw [keptOf, List.filter_append, List.map_append]
  rfl

@[simp] theorem marksOf_cons (piece : Piece) (pieces : List Piece) :
    marksOf (piece :: pieces) = piece.marks ++ marksOf pieces :=
  List.flatMap_cons

@[simp] theorem sourceOf_comment (text : List Char) : sourceOf (Piece.comment text).marks = text := by
  simp [sourceOf, Piece.marks, Function.comp_def]

@[simp] theorem keptOf_comment (text : List Char) :
    keptOf (Piece.comment text).marks = text.filter (· == '\n') := by
  simp [keptOf, Piece.marks, List.filter_map, Function.comp_def]

theorem Scanned.sourceOf_eq (scanned : Scanned pieces text) : sourceOf (marksOf pieces) = text := by
  induction scanned with
  | done => rfl
  | plain free scanned ih =>
      rw [marksOf_cons, sourceOf_append, ih]
      rfl
  | comment isComment shortest scanned ih =>
      rw [marksOf_cons, sourceOf_append, ih, sourceOf_comment]

/-- Every text can be scanned, and what is left of it is what the stripping of comments
returns. -/
theorem exists_scanned (text : List Char) :
    ∃ pieces, Scanned pieces text ∧ stripComments text = keptOf (marksOf pieces) := by
  fun_induction stripComments text with
  | case1 => exact ⟨[], .done, rfl⟩
  | case2 rest inside after closed ih =>
      rcases ih with ⟨pieces, scanned, left⟩
      obtain ⟨rfl, nearest⟩ := splitAtClosing?_nearest closed
      have whole : '/' :: '*' :: (inside ++ '*' :: '/' :: after) =
          '/' :: '*' :: (inside ++ ['*', '/']) ++ after := by simp
      refine ⟨.comment ('/' :: '*' :: (inside ++ ['*', '/'])) :: pieces, ?_, ?_⟩
      · rw [whole]
        refine .comment ⟨inside, rfl⟩ ?_ scanned
        rintro _ ⟨other, rfl⟩ ⟨further, same⟩
        have split : inside ++ '*' :: '/' :: after = other ++ '*' :: '/' :: further := by
          simpa using same.symm
        simpa using nearest other further split
      · rw [marksOf_cons, keptOf_append, keptOf_comment, left]
        simp
  | case3 rest unclosed ih =>
      rcases ih with ⟨pieces, scanned, left⟩
      refine ⟨.plain '/' :: pieces, .plain ?_ scanned, ?_⟩
      · intro comment isComment begins
        rcases exists_comment_prefix_iff.mp ⟨comment, isComment, begins⟩ with ⟨inside, after, same⟩
        injection same with _ same
        injection same with _ same
        exact splitAtClosing?_eq_none_iff.mp unclosed inside after same
      · rw [marksOf_cons, keptOf_append, left]
        rfl
  | case4 character rest plain ih =>
      rcases ih with ⟨pieces, scanned, left⟩
      refine ⟨.plain character :: pieces, .plain ?_ scanned, ?_⟩
      · intro comment isComment begins
        rcases exists_comment_prefix_iff.mp ⟨comment, isComment, begins⟩ with ⟨inside, after, same⟩
        injection same with slash same
        exact plain _ slash same
      · rw [marksOf_cons, keptOf_append, left]
        rfl

/-- A character that is left stands somewhere in the source. -/
theorem exists_mark_of_keptOf {marks : List (Char × Bool)} {read : List Char}
    (kept : keptOf marks = read ++ character :: rest) :
    ∃ before behind, marks = before ++ (character, true) :: behind ∧ keptOf before = read ∧
      keptOf behind = rest := by
  rcases List.map_eq_append_iff.mp kept with ⟨_, _, parts, rfl, tail⟩
  rcases List.filter_eq_append_iff.mp parts with ⟨early, late, rfl, rfl, filtered⟩
  rcases List.map_eq_cons_iff.mp tail with ⟨⟨_, left⟩, _, rfl, rfl, rfl⟩
  rcases List.filter_eq_cons_iff.mp filtered with ⟨dropped, behind, rfl, gone, rfl, rfl⟩
  have nothing : dropped.filter Prod.snd = [] :=
    List.filter_eq_nil_iff.mpr fun mark member => gone mark member
  refine ⟨early ++ dropped, behind, (List.append_assoc _ _ _).symm, ?_, rfl⟩
  rw [keptOf, List.filter_append, nothing, List.append_nil]

/-! ## Lines -/

/-- Of the pieces of a text, every line break is left. -/
theorem marked_of_newline {mark : Char × Bool} (member : mark ∈ marksOf pieces)
    (newline : mark.1 = '\n') : mark.2 = true := by
  rcases List.mem_flatMap.mp member with ⟨piece, -, marked⟩
  cases piece with
  | plain character =>
      rw [List.mem_singleton.mp marked]
  | comment text =>
      rcases List.mem_map.mp marked with ⟨character, -, rfl⟩
      simpa using newline

theorem count_newline_keptOf {marks : List (Char × Bool)}
    (marked : ∀ mark ∈ marks, mark.1 = '\n' → mark.2 = true) :
    (keptOf marks).count '\n' = (sourceOf marks).count '\n' := by
  induction marks with
  | nil => rfl
  | cons mark marks ih =>
      obtain ⟨here, later⟩ := List.forall_mem_cons.mp marked
      obtain ⟨character, left⟩ := mark
      have source : sourceOf ((character, left) :: marks) = character :: sourceOf marks := rfl
      cases left with
      | true =>
          have kept : keptOf ((character, true) :: marks) = character :: keptOf marks := rfl
          rw [source, kept, List.count_cons, List.count_cons, ih later]
      | false =>
          have kept : keptOf ((character, false) :: marks) = keptOf marks := rfl
          have other : character ≠ '\n' := fun newline => Bool.false_ne_true (here newline)
          rw [source, kept, List.count_cons_of_ne other, ih later]

/-- Before every character of a text there are as many line breaks in the text as in what is left
of it. -/
theorem count_newline_before {before : List (Char × Bool)} (start : before <+: marksOf pieces) :
    (keptOf before).count '\n' = (sourceOf before).count '\n' :=
  count_newline_keptOf fun _ member => marked_of_newline (start.subset member)

theorem newline_of_mem_comment (member : (character, true) ∈ (Piece.comment text).marks) :
    character = '\n' := by
  rcases List.mem_map.mp member with ⟨inside, -, same⟩
  simp only [Prod.mk.injEq, beq_iff_eq] at same
  exact same.1 ▸ same.2

/-- What is left and breaks no line stands outside of the comments. -/
theorem exists_plain_of_marks {before behind : List (Char × Bool)}
    (split : marksOf pieces = before ++ (character, true) :: behind) (other : character ≠ '\n') :
    ∃ earlier later, pieces = earlier ++ .plain character :: later ∧ before = marksOf earlier ∧
      behind = marksOf later := by
  induction pieces generalizing before with
  | nil => exact absurd split.symm (List.append_ne_nil_of_right_ne_nil _ (List.cons_ne_nil _ _))
  | cons piece pieces ih =>
      rw [marksOf_cons] at split
      -- The character stands behind the first piece, unless that is the character itself.
      rcases List.append_eq_append_iff.mp split with ⟨middle, rfl, behind⟩ | ⟨middle, first, behind⟩
      · rcases ih behind with ⟨earlier, later, rfl, rfl, rfl⟩
        exact ⟨piece :: earlier, later, rfl, (marksOf_cons _ _).symm, rfl⟩
      · cases middle with
        | nil =>
            rcases @ih [] behind.symm with ⟨earlier, later, rfl, nothing, rfl⟩
            rw [List.append_nil] at first
            refine ⟨piece :: earlier, later, rfl, ?_, rfl⟩
            rw [marksOf_cons, ← nothing, List.append_nil, first]
        | cons mark middle =>
            rw [List.cons_append, List.cons_eq_cons] at behind
            obtain ⟨rfl, rfl⟩ := behind
            cases piece with
            | plain only =>
                rcases List.append_eq_singleton_iff.mp first.symm with ⟨rfl, same⟩ | ⟨-, nothing⟩
                · cases same
                  exact ⟨[], pieces, rfl, rfl, rfl⟩
                · cases nothing
            | comment text =>
                have member : (character, true) ∈ (Piece.comment text).marks := by
                  rw [first]
                  exact List.mem_append_right _ List.mem_cons_self
                exact absurd (newline_of_mem_comment member) other

end WidgetStyle.Sheet
