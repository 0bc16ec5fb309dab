import LocalizationScan.Reference.Dotted

namespace LocalizationScan

/-!
# Dotted references and their texts

Cutting a chain loses nothing, and a chain is cut where its last segments begin.
So cutting a chain and putting its parts together are inverse to each other.
-/

namespace Text

theorem splitLast?_of_not_mem
    {separator : Char}
    {text : Text}
    (absent : separator ∉ text) :
    splitLast? separator text = none := by
  induction text with
  | nil =>
      rfl
  | cons char rest inductionHypothesis =>
      simp only [List.mem_cons, not_or] at absent
      simp [splitLast?, inductionHypothesis absent.2, Ne.symm absent.1]

theorem splitLast?_append
    {separator : Char}
    (before : Text)
    {after : Text}
    (absent : separator ∉ after) :
    splitLast? separator (before ++ separator :: after) = some (before, after) := by
  induction before with
  | nil =>
      simp [splitLast?, splitLast?_of_not_mem absent]
  | cons char rest inductionHypothesis =>
      simp [splitLast?, inductionHypothesis]

theorem not_mem_of_splitLast?_eq_none
    {separator : Char}
    {text : Text}
    (whole : splitLast? separator text = none) :
    separator ∉ text := by
  induction text with
  | nil =>
      exact List.not_mem_nil
  | cons char rest inductionHypothesis =>
      unfold splitLast? at whole
      split at whole
      · cases whole
      · next wholeRest =>
          split at whole
          · cases whole
          · next differs =>
              rw [List.mem_cons, not_or]
              exact ⟨Ne.symm differs, inductionHypothesis wholeRest⟩

/-- No separator stands behind the last one. -/
theorem not_mem_of_splitLast?
    {separator : Char}
    {text before after : Text}
    (cut : splitLast? separator text = some (before, after)) :
    separator ∉ after := by
  induction text generalizing before with
  | nil =>
      cases cut
  | cons char rest inductionHypothesis =>
      unfold splitLast? at cut
      split at cut
      · next cutRest =>
          cases cut
          exact inductionHypothesis cutRest
      · next wholeRest =>
          split at cut
          · cases cut
            exact not_mem_of_splitLast?_eq_none wholeRest
          · cases cut

theorem splitOn_append (separator : Char) (before after : Text) :
    splitOn separator (before ++ separator :: after) =
      splitOn separator before ++ splitOn separator after := by
  induction before with
  | nil =>
      simp [splitOn]
  | cons char rest inductionHypothesis =>
      simp only [List.cons_append, splitOn]
      split
      · rw [inductionHypothesis, List.cons_append]
      · rw [inductionHypothesis]
        cases cut : splitOn separator rest with
        | nil =>
            exact absurd cut (splitOn_ne_nil separator rest)
        | cons piece pieces =>
            rfl

/-- A text is cut at every separator. -/
theorem length_splitOn (separator : Char) (text : Text) :
    (splitOn separator text).length = text.count separator + 1 := by
  induction text with
  | nil => rfl
  | cons char rest inductionHypothesis =>
      unfold splitOn
      split
      · next same => simp [same, inductionHypothesis]
      · next differs =>
          rw [List.count_cons_of_ne differs, ← inductionHypothesis]
          cases cut : splitOn separator rest with
          | nil => exact absurd cut (splitOn_ne_nil separator rest)
          | cons => rfl

/-- The pieces that a text is cut into do not have the separator. -/
theorem not_mem_of_mem_splitOn
    {separator : Char}
    {text piece : Text}
    (member : piece ∈ splitOn separator text) :
    separator ∉ piece := by
  induction text generalizing piece with
  | nil =>
      rw [List.mem_singleton.mp member]
      exact List.not_mem_nil
  | cons char rest inductionHypothesis =>
      unfold splitOn at member
      split at member
      · rcases List.mem_cons.mp member with rfl | later
        · exact List.not_mem_nil
        · exact inductionHypothesis later
      · next differs =>
          split at member
          · rw [List.mem_singleton.mp member]
            exact fun isHere => differs (List.mem_singleton.mp isHere).symm
          · next first others cut =>
              rcases List.mem_cons.mp member with rfl | later
              · rw [List.mem_cons, not_or]
                exact ⟨Ne.symm differs, inductionHypothesis (cut ▸ List.mem_cons_self)⟩
              · exact inductionHypothesis (cut ▸ List.mem_cons_of_mem _ later)

/-- Pieces without the separator are those that their join is cut into. -/
theorem splitOn_joinWith
    {separator : Char}
    {pieces : List Text}
    (nonempty : pieces ≠ [])
    (absent : ∀ piece ∈ pieces, separator ∉ piece) :
    splitOn separator (joinWith [separator] pieces) = pieces := by
  induction pieces with
  | nil =>
      exact absurd rfl nonempty
  | cons piece pieces inductionHypothesis =>
      obtain ⟨absentHere, absentLater⟩ := List.forall_mem_cons.mp absent
      cases pieces with
      | nil =>
          exact splitOn_of_not_mem absentHere
      | cons next pieces =>
          have joined :
              joinWith [separator] (piece :: next :: pieces) =
                piece ++ separator :: joinWith [separator] (next :: pieces) := by
            simp [joinWith]
          rw [joined, splitOn_append, splitOn_of_not_mem absentHere,
            inductionHypothesis (by simp) absentLater]
          rfl

/-- The last of some pieces is what stands behind the last separator. -/
theorem splitLast?_joinWith
    {separator : Char}
    {pieces : List Text}
    {last : Text}
    (nonempty : pieces ≠ [])
    (absent : separator ∉ last) :
    splitLast? separator (joinWith [separator] (pieces ++ [last])) =
      some (joinWith [separator] pieces, last) := by
  rw [joinWith_append [separator] nonempty (by simp), List.append_assoc]
  exact splitLast?_append _ absent

theorem forall_mem_joinWith
    {separator : Text}
    {property : Char → Prop}
    {pieces : List Text}
    (separators : ∀ char ∈ separator, property char)
    (members : ∀ piece ∈ pieces, ∀ char ∈ piece, property char) :
    ∀ char ∈ joinWith separator pieces, property char := by
  induction pieces with
  | nil =>
      intro char member
      cases member
  | cons piece pieces inductionHypothesis =>
      obtain ⟨here, later⟩ := List.forall_mem_cons.mp members
      cases pieces with
      | nil =>
          exact here
      | cons next pieces =>
          intro char member
          simp only [joinWith, List.mem_append, or_assoc] at member
          rcases member with inPiece | inSeparator | inRest
          · exact here char inPiece
          · exact separators char inSeparator
          · exact inductionHypothesis later char inRest

end Text

theorem exists_last_two
    {names : List Text}
    (long : 2 ≤ names.length) :
    ∃ before second last, names = before ++ [second, last] := by
  rcases List.eq_nil_or_concat names with rfl | ⟨others, last, rfl⟩
  · cases long
  · rcases List.eq_nil_or_concat others with rfl | ⟨before, second, rfl⟩
    · simp at long
    · exact ⟨before, second, last, by simp⟩

namespace DottedReference

/-- The parts of a chain make up its text. -/
theorem toText_of_ofText?
    {text : Text}
    {dotted : DottedReference}
    (cut : ofText? text = some dotted) :
    dotted.toText = text := by
  unfold ofText? at cut
  split at cut
  · cases cut
  · split at cut
    · cases cut
    · rename_i rest key lastCut
      have whole := Text.eq_append_of_splitLast? lastCut
      split at cut
      · rename_i qualifier className classCut
        cases cut
        rw [whole, Text.eq_append_of_splitLast? classCut]
        simp [toText]
      · cases cut
        rw [whole]
        rfl

theorem ofText?_of_not_mem
    {text : Text}
    (absent : '.' ∉ text) :
    ofText? text = none := by
  unfold ofText?
  rw [Text.splitLast?_of_not_mem absent]
  split <;> rfl

/-- A chain is cut in front of its last two segments. -/
theorem ofText?_joinWith
    {before : List Text}
    {className key : Text}
    (proper : ∀ piece ∈ before ++ [className, key], piece ≠ [] ∧ '.' ∉ piece) :
    ofText? (Text.joinWith ['.'] (before ++ [className, key])) =
      some ⟨if before = [] then none else some (Text.joinWith ['.'] before), className, key⟩ := by
  have absent : ∀ piece ∈ before ++ [className, key], '.' ∉ piece := fun piece member =>
    (proper piece member).2
  have keyAbsent : '.' ∉ key := absent key (by simp)
  have classAbsent : '.' ∉ className := absent className (by simp)
  have noneEmpty : (before ++ [className, key]).any List.isEmpty = false := by
    rw [List.any_eq_false]
    intro piece member
    simpa using (proper piece member).1
  have lastCut :
      Text.splitLast? '.' (Text.joinWith ['.'] (before ++ [className, key])) =
        some (Text.joinWith ['.'] (before ++ [className]), key) := by
    have assoc : before ++ [className, key] = (before ++ [className]) ++ [key] := by simp
    rw [assoc]
    exact Text.splitLast?_joinWith (by simp) keyAbsent
  unfold ofText?
  rw [Text.splitOn_joinWith (by simp) absent, noneEmpty, lastCut]
  by_cases alone : before = []
  · subst alone
    simp [Text.joinWith, Text.splitLast?_of_not_mem classAbsent]
  · simp [Text.splitLast?_joinWith alone classAbsent, alone]

section Pieces

variable {text : Text} {dotted : DottedReference}

/-- A text of whose pieces none is empty is cut in front of the last two. -/
theorem ofText?_of_splitOn
    {before : List Text}
    {className key : Text}
    (pieces : Text.splitOn '.' text = before ++ [className, key])
    (nonempty : ∀ piece ∈ Text.splitOn '.' text, piece ≠ []) :
    ofText? text =
      some ⟨if before = [] then none else some (Text.joinWith ['.'] before), className, key⟩ := by
  have proper : ∀ piece ∈ before ++ [className, key], piece ≠ [] ∧ '.' ∉ piece := by
    rw [← pieces]
    intro piece member
    exact ⟨nonempty piece member, Text.not_mem_of_mem_splitOn member⟩
  rw [← Text.joinWith_splitOn '.' text, pieces]
  exact ofText?_joinWith proper

/-- A chain has two pieces at least, and none of its pieces is empty. -/
theorem pieces_of_ofText?
    (cut : ofText? text = some dotted) :
    2 ≤ (Text.splitOn '.' text).length ∧ ∀ piece ∈ Text.splitOn '.' text, piece ≠ [] := by
  constructor
  · have isDotted : '.' ∈ text := by
      refine Decidable.byContradiction fun absent => ?_
      cases (ofText?_of_not_mem absent).symm.trans cut
    have counted := List.count_pos_iff.mpr isDotted
    rw [Text.length_splitOn]
    omega
  · unfold ofText? at cut
    split at cut
    · cases cut
    · rename_i noneEmpty
      rintro piece member rfl
      exact noneEmpty (List.any_eq_true.mpr ⟨[], member, rfl⟩)

theorem isSome_ofText?_iff :
    (ofText? text).isSome = true ↔
      2 ≤ (Text.splitOn '.' text).length ∧ ∀ piece ∈ Text.splitOn '.' text, piece ≠ [] := by
  constructor
  · intro isChain
    obtain ⟨dotted, cut⟩ := Option.isSome_iff_exists.mp isChain
    exact pieces_of_ofText? cut
  · rintro ⟨long, nonempty⟩
    obtain ⟨before, className, key, pieces⟩ := exists_last_two long
    rw [ofText?_of_splitOn pieces nonempty]
    rfl

/-- The parts of a chain are its last two pieces and the join of those before them. -/
theorem exists_pieces_of_ofText?
    (cut : ofText? text = some dotted) :
    ∃ before className key,
      Text.splitOn '.' text = before ++ [className, key] ∧
        dotted =
          ⟨if before = [] then none else some (Text.joinWith ['.'] before), className, key⟩ := by
  obtain ⟨long, nonempty⟩ := pieces_of_ofText? cut
  obtain ⟨before, className, key, pieces⟩ := exists_last_two long
  have parts := ofText?_of_splitOn pieces nonempty
  exact ⟨before, className, key, pieces, Option.some.inj (cut.symm.trans parts)⟩

/-- There is no qualifier when the class is the first piece. -/
theorem qualifier?_eq_none_iff
    (cut : ofText? text = some dotted) :
    dotted.qualifier? = none ↔ (Text.splitOn '.' text).length = 2 := by
  obtain ⟨before, className, key, pieces, rfl⟩ := exists_pieces_of_ofText? cut
  rw [pieces]
  by_cases alone : before = [] <;> simp [alone]

end Pieces

/-- Whether a text can stand between two dots of a chain. -/
def IsPiece (text : Text) : Prop :=
  text ≠ [] ∧ '.' ∉ text

/-- A reference whose class and key are pieces of a chain, and whose qualifier, if it has one,
is a join of pieces. -/
structure IsProper (dotted : DottedReference) : Prop where
  qualifier :
    ∀ qualifier, dotted.qualifier? = some qualifier →
      ∃ pieces, pieces ≠ [] ∧ (∀ piece ∈ pieces, IsPiece piece) ∧
        qualifier = Text.joinWith ['.'] pieces
  className : IsPiece dotted.className
  key : IsPiece dotted.key

section RoundTrip

variable {text : Text} {dotted : DottedReference}

theorem isProper_of_ofText?
    (cut : ofText? text = some dotted) :
    dotted.IsProper := by
  obtain ⟨-, nonempty⟩ := pieces_of_ofText? cut
  obtain ⟨before, className, key, pieces, rfl⟩ := exists_pieces_of_ofText? cut
  have isPiece : ∀ piece ∈ before ++ [className, key], IsPiece piece := by
    rw [← pieces]
    intro piece member
    exact ⟨nonempty piece member, Text.not_mem_of_mem_splitOn member⟩
  refine ⟨fun qualifier same => ?_, isPiece className (by simp), isPiece key (by simp)⟩
  by_cases alone : before = []
  · simp [alone] at same
  · simp only [alone, if_false, Option.some.injEq] at same
    exact ⟨before, alone, fun piece member => isPiece piece (List.mem_append_left _ member),
      same.symm⟩

/-- The parts of a proper reference are found again in its text. -/
theorem ofText?_toText
    (proper : dotted.IsProper) :
    ofText? dotted.toText = some dotted := by
  obtain ⟨qualifier?, className, key⟩ := dotted
  obtain ⟨isJoin, classPiece, keyPiece⟩ := proper
  have lastPieces : ∀ piece ∈ [className, key], IsPiece piece :=
    List.forall_mem_cons.mpr ⟨classPiece, List.forall_mem_singleton.mpr keyPiece⟩
  have lastTwo : Text.joinWith ['.'] [className, key] = className ++ '.' :: key := by
    simp [Text.joinWith]
  cases qualifier? with
  | none =>
      have cut := @ofText?_joinWith [] className key lastPieces
      rwa [List.nil_append, lastTwo] at cut
  | some qualifier =>
      obtain ⟨pieces, nonempty, isPiece, rfl⟩ := isJoin qualifier rfl
      have cut :=
        @ofText?_joinWith pieces className key (List.forall_mem_append.mpr ⟨isPiece, lastPieces⟩)
      rw [Text.joinWith_append ['.'] nonempty (by simp), lastTwo, if_neg nonempty] at cut
      rw [← cut]
      simp [toText]

/-- Cutting a text into the parts of a reference and putting the parts together are inverse to
each other, on the texts of two pieces or more and on the references that are proper. -/
theorem ofText?_inverse_toText (text : Text) (dotted : DottedReference) :
    ((ofText? text).isSome = true ↔
        2 ≤ (Text.splitOn '.' text).length ∧ ∀ piece ∈ Text.splitOn '.' text, piece ≠ []) ∧
      (ofText? text = some dotted →
        dotted.toText = text ∧ dotted.IsProper ∧
          (dotted.qualifier? = none ↔ (Text.splitOn '.' text).length = 2)) ∧
      (dotted.IsProper → ofText? dotted.toText = some dotted) := by
  refine ⟨isSome_ofText?_iff, fun cut => ?_, ofText?_toText⟩
  exact ⟨toText_of_ofText? cut, isProper_of_ofText? cut, qualifier?_eq_none_iff cut⟩

/-- A reference behind a namespace of two names. -/
theorem ofText?_inverse_toText_qualified :
    let text := "My.App.Texts.Greeting".toList
    let dotted : DottedReference :=
      ⟨some "My.App".toList, "Texts".toList, "Greeting".toList⟩
    ofText? text = some dotted ∧ dotted.toText = text ∧ dotted.IsProper ∧
      ofText? dotted.toText = some dotted := by
  intro text dotted
  have cut : ofText? text = some dotted := by
    decide
  obtain ⟨-, parts, whole⟩ := ofText?_inverse_toText text dotted
  obtain ⟨written, proper, -⟩ := parts cut
  exact ⟨cut, written, proper, whole proper⟩

end RoundTrip

end DottedReference

end LocalizationScan
