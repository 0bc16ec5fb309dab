import Mathlib.Data.List.Basic
import Mathlib.Data.List.TakeWhile
import LocalizationScan.Lexical.VisualBasic

namespace LocalizationScan.VisualBasic

/-!
# Line continuations

The grammar of a line continuation, that its recogniser finds nothing else, and
how far a text can get in a continuation before more text decides.
-/

/-- A continuation from the first blank before its underscore to the last blank of the
indentation on the next line. -/
inductive IsContinuation : Text → Prop where
  | intro
      {blanks trailing lineBreak indentation : Text}
      (separated : blanks ≠ [])
      (blanksBlank : ∀ char ∈ blanks, isLineBlank char = true)
      (trailingBlank : ∀ char ∈ trailing, isLineBlank char = true)
      (breaksLine : lineBreak = ['\n'] ∨ lineBreak = ['\r', '\n'])
      (indentationBlank : ∀ char ∈ indentation, isLineBlank char = true) :
      IsContinuation (blanks ++ '_' :: trailing ++ lineBreak ++ indentation)

theorem IsContinuation.ne_nil {text : Text} (continued : IsContinuation text) :
    text ≠ [] := by
  cases continued
  simp

/-- A blank inside a line is one of two characters. -/
theorem eq_of_isLineBlank
    {char : Char}
    (isBlank : isLineBlank char = true) :
    char = ' ' ∨ char = '\t' := by
  simpa [isLineBlank] using isBlank

private theorem isLineBlank_of_mem_takeWhile
    (text : Text)
    {char : Char}
    (member : char ∈ text.takeWhile isLineBlank) :
    isLineBlank char = true :=
  List.all_eq_true.mp (List.all_takeWhile) char member

/-- A text is blank, or it has a first character that is not. -/
theorem exists_first_of_isLineBlank (rest : Text) :
    (∀ char ∈ rest, isLineBlank char = true) ∨
      ∃ blanks first others,
        rest = blanks ++ first :: others ∧ (∀ char ∈ blanks, isLineBlank char = true) ∧
          isLineBlank first = false := by
  cases behind : rest.dropWhile isLineBlank with
  | nil =>
      exact .inl (List.dropWhile_eq_nil_iff.mp behind)
  | cons first others =>
      refine .inr ⟨rest.takeWhile isLineBlank, first, others, ?_,
        fun _ => isLineBlank_of_mem_takeWhile rest, ?_⟩
      · rw [← behind, List.takeWhile_append_dropWhile]
      · have stopped := List.head_dropWhile_not isLineBlank (l := rest) (by simp [behind])
        simpa [behind] using stopped

section Blanks

variable {blanks others : Text} {first : Char}

theorem takeWhile_isLineBlank
    (blank : ∀ char ∈ blanks, isLineBlank char = true)
    (stops : isLineBlank first = false) :
    (blanks ++ first :: others).takeWhile isLineBlank = blanks := by
  rw [List.takeWhile_append_of_pos blank]
  simp [stops]

theorem dropWhile_isLineBlank
    (blank : ∀ char ∈ blanks, isLineBlank char = true)
    (stops : isLineBlank first = false) :
    (blanks ++ first :: others).dropWhile isLineBlank = first :: others := by
  rw [List.dropWhile_append_of_pos blank]
  simp [stops]

end Blanks

/-- The parts that the recogniser cuts off make up a continuation. -/
private theorem exists_isContinuation_of_parts
    {text rest next : Text}
    (lineBreak : Text)
    (separated : text.takeWhile isLineBlank ≠ [])
    (underscore : text.dropWhile isLineBlank = '_' :: rest)
    (lineEnd : rest.dropWhile isLineBlank = lineBreak ++ next)
    (breaksLine : lineBreak = ['\n'] ∨ lineBreak = ['\r', '\n']) :
    ∃ piece later,
      text = piece ++ later ∧ IsContinuation piece ∧ later.takeWhile isLineBlank = [] ∧
        piece.length =
          (text.takeWhile isLineBlank).length + 1 +
              (rest.takeWhile isLineBlank).length +
            lineBreak.length + (next.takeWhile isLineBlank).length := by
  have split := List.takeWhile_append_dropWhile (p := isLineBlank) (l := text)
  have restSplit := List.takeWhile_append_dropWhile (p := isLineBlank) (l := rest)
  have nextSplit := List.takeWhile_append_dropWhile (p := isLineBlank) (l := next)
  have stops : (next.dropWhile isLineBlank).takeWhile isLineBlank = [] := by
    cases behind : next.dropWhile isLineBlank with
    | nil =>
        rfl
    | cons first others =>
        have stopped := List.head_dropWhile_not isLineBlank (l := next) (by simp [behind])
        simp only [behind, List.head_cons] at stopped
        simp [stopped]
  refine ⟨_, next.dropWhile isLineBlank, ?_,
    .intro separated
      (fun _ => isLineBlank_of_mem_takeWhile text)
      (fun _ => isLineBlank_of_mem_takeWhile rest)
      breaksLine
      (fun _ => isLineBlank_of_mem_takeWhile next), stops, ?_⟩
  · simp only [List.append_assoc, List.cons_append, nextSplit]
    rw [← lineEnd, restSplit, ← underscore, split]
  · simp only [List.length_append, List.length_cons]
    omega

/-- What the recogniser finds at the start of a text is a continuation, with all of the
indentation behind it. -/
theorem exists_isContinuation_of_continuationLength?
    {text : Text}
    {length : Nat}
    (continued : continuationLength? text = some length) :
    ∃ piece later,
      text = piece ++ later ∧ IsContinuation piece ∧ later.takeWhile isLineBlank = [] ∧
        piece.length = length := by
  unfold continuationLength? at continued
  dsimp only at continued
  split at continued
  · rename_i first more rest blanksShape underscore
    have separated : text.takeWhile isLineBlank ≠ [] := by
      simp [blanksShape]
    split at continued
    · rename_i next lineEnd
      cases continued
      exact exists_isContinuation_of_parts ['\r', '\n'] separated underscore
        lineEnd (.inr rfl)
    · rename_i next lineEnd
      cases continued
      exact exists_isContinuation_of_parts ['\n'] separated underscore
        lineEnd (.inl rfl)
    · cases continued
  · cases continued

section Pieces

variable {piece later : Text}

theorem isContinuation_of_continuationLength?
    (continues : continuationLength? (piece ++ later) = some piece.length) :
    IsContinuation piece ∧ later.takeWhile isLineBlank = [] := by
  obtain ⟨front, behind, shape, continued, stops, length⟩ :=
    exists_isContinuation_of_continuationLength? continues
  obtain ⟨rfl, rfl⟩ := List.append_inj shape length.symm
  exact ⟨continued, stops⟩

theorem IsContinuation.exists_eq_underscore
    (continued : IsContinuation piece)
    (later : Text) :
    ∃ blanks rest,
      piece ++ later = blanks ++ '_' :: rest ∧ blanks ≠ [] ∧
        ∀ char ∈ blanks, isLineBlank char = true := by
  cases continued with
  | @intro blanks trailing lineBreak indentation separated blanksBlank =>
      exact ⟨blanks, trailing ++ lineBreak ++ indentation ++ later, by simp, separated,
        blanksBlank⟩

/-- The last character of a continuation is part of no identifier. -/
theorem IsContinuation.exists_getLast?
    (continued : IsContinuation piece) :
    ∃ char, piece.getLast? = some char ∧ Text.isIdentifierChar char = false := by
  cases continued with
  | @intro _ _ lineBreak indentation _ _ _ breaksLine indentationBlank =>
      rcases List.eq_nil_or_concat' indentation with rfl | ⟨indentation, last, rfl⟩
      · refine ⟨'\n', ?_, by decide⟩
        rcases breaksLine with rfl | rfl <;> simp [List.getLast?_cons]
      · refine ⟨last, by rw [← List.append_assoc, List.getLast?_concat], ?_⟩
        rcases eq_of_isLineBlank (indentationBlank last (by simp)) with rfl | rfl <;> decide

end Pieces

/-- Length of the blanks, the line break and the indentation that a text begins with. -/
def lineEndLength? (text : Text) : Option Nat :=
  let trailing := (text.takeWhile isLineBlank).length
  match text.dropWhile isLineBlank with
  | '\r' :: '\n' :: next => some (trailing + 2 + (next.takeWhile isLineBlank).length)
  | '\n' :: next => some (trailing + 1 + (next.takeWhile isLineBlank).length)
  | _ => none

section LineEnd

variable {blanks trailing : Text} {first : Char}

/-- Behind blanks and an underscore the end of the line decides. -/
theorem continuationLength?_underscore
    (separated : blanks ≠ [])
    (blank : ∀ char ∈ blanks, isLineBlank char = true)
    (rest : Text) :
    continuationLength? (blanks ++ '_' :: rest) =
      (lineEndLength? rest).map (blanks.length + 1 + ·) := by
  unfold continuationLength? lineEndLength?
  rw [takeWhile_isLineBlank blank (by decide), dropWhile_isLineBlank blank (by decide)]
  cases blanks with
  | nil =>
      exact absurd rfl separated
  | cons first others =>
      dsimp only
      split
      · rename_i same underscore
        cases same
        cases underscore
        split <;> simp [*, Nat.add_assoc]
      · rename_i other
        exact (other _ _ _ rfl rfl).elim

/-- Blanks that no underscore follows continue no line. -/
theorem continuationLength?_eq_none
    (blank : ∀ char ∈ blanks, isLineBlank char = true)
    (stops : isLineBlank first = false)
    (continuesNot : blanks = [] ∨ first ≠ '_')
    (rest : Text) :
    continuationLength? (blanks ++ first :: rest) = none := by
  unfold continuationLength?
  rw [takeWhile_isLineBlank blank stops, dropWhile_isLineBlank blank stops]
  rcases continuesNot with rfl | other
  · rfl
  · cases blanks with
    | nil => rfl
    | cons char others => simp [other]

theorem continuationLength?_of_isLineBlank
    (blank : ∀ char ∈ blanks, isLineBlank char = true) :
    continuationLength? blanks = none := by
  unfold continuationLength?
  rw [List.dropWhile_eq_nil_iff.mpr blank]
  simp

/-- No line goes on where no blank stands. -/
theorem continuationLength?_of_head?
    {rest : Text}
    (stops : ∀ char ∈ rest.head?, isLineBlank char = false) :
    continuationLength? rest = none := by
  cases rest with
  | nil =>
      rfl
  | cons first others =>
      have noBlank : ∀ char ∈ ([] : Text), isLineBlank char = true := List.forall_mem_nil _
      exact continuationLength?_eq_none noBlank (stops first rfl) (.inl rfl) others

theorem lineEndLength?_of_isLineBlank
    (blank : ∀ char ∈ trailing, isLineBlank char = true) :
    lineEndLength? trailing = none := by
  unfold lineEndLength?
  rw [List.dropWhile_eq_nil_iff.mpr blank]

theorem lineEndLength?_eq_none
    {next : Text}
    (blank : ∀ char ∈ trailing, isLineBlank char = true)
    (stops : isLineBlank first = false)
    (noFeed : first ≠ '\n')
    (noBreak : first = '\r' → next.head? ≠ some '\n') :
    lineEndLength? (trailing ++ first :: next) = none := by
  unfold lineEndLength?
  rw [dropWhile_isLineBlank blank stops]
  by_cases isReturn : first = '\r'
  · cases next with
    | nil => simp [noFeed]
    | cons second next =>
        have other : second ≠ '\n' := by simpa using noBreak isReturn
        simp [noFeed, other]
  · simp [noFeed, isReturn]

/-- Behind its break the indentation of the next line counts. -/
theorem lineEndLength?_break
    {lineBreak : Text}
    (blank : ∀ char ∈ trailing, isLineBlank char = true)
    (breaksLine : lineBreak = ['\n'] ∨ lineBreak = ['\r', '\n'])
    (next : Text) :
    lineEndLength? (trailing ++ (lineBreak ++ next)) =
      some (trailing.length + lineBreak.length + (next.takeWhile isLineBlank).length) := by
  unfold lineEndLength?
  rcases breaksLine with rfl | rfl
  all_goals
    rw [List.cons_append, takeWhile_isLineBlank blank (by decide),
      dropWhile_isLineBlank blank (by decide)]
    rfl

end LineEnd

section Grammar

variable {text piece : Text} {length : Nat}

/-- A text that starts with a continuation is recognised, with the blanks behind it. -/
theorem IsContinuation.continuationLength?_append
    (continued : IsContinuation piece)
    (later : Text) :
    continuationLength? (piece ++ later) =
      some (piece.length + (later.takeWhile isLineBlank).length) := by
  cases continued with
  | @intro blanks trailing lineBreak indentation separated blanksBlank trailingBlank breaksLine
      indentationBlank =>
      have shape :
          blanks ++ '_' :: trailing ++ lineBreak ++ indentation ++ later =
            blanks ++ '_' :: (trailing ++ (lineBreak ++ (indentation ++ later))) := by
        simp
      have ends := lineEndLength?_break trailingBlank breaksLine (indentation ++ later)
      rw [shape, continuationLength?_underscore separated blanksBlank, ends,
        List.takeWhile_append_of_pos indentationBlank]
      simp only [Option.map_some, List.length_append, List.length_cons, Option.some.injEq]
      omega

/-- Behind the line feed of a continuation there is only indentation. -/
theorem IsContinuation.exists_eq_append
    (continued : IsContinuation piece) :
    ∃ front indentation,
      piece = front ++ indentation ∧ IsContinuation front ∧ front.getLast? = some '\n' ∧
        ∀ char ∈ indentation, isLineBlank char = true := by
  cases continued with
  | @intro blanks trailing lineBreak indentation separated blanksBlank trailingBlank breaksLine
      indentationBlank =>
      have unindented :=
        IsContinuation.intro separated blanksBlank trailingBlank breaksLine (List.forall_mem_nil _)
      rw [List.append_nil] at unindented
      refine ⟨_, indentation, rfl, unindented, ?_, indentationBlank⟩
      rcases breaksLine with rfl | rfl <;> simp [List.getLast?_cons]

/-- A line goes on exactly where a continuation stands, and all blanks behind its line feed are
taken along. -/
theorem continuationLength?_eq_some_iff :
    continuationLength? text = some length ↔
      ∃ piece later,
        text = piece ++ later ∧ IsContinuation piece ∧ piece.getLast? = some '\n' ∧
          length = piece.length + (later.takeWhile isLineBlank).length := by
  constructor
  · intro continues
    obtain ⟨piece, later, rfl, continued, stops, rfl⟩ :=
      exists_isContinuation_of_continuationLength? continues
    obtain ⟨front, indentation, rfl, unindented, feed, blank⟩ := continued.exists_eq_append
    refine ⟨front, indentation ++ later, List.append_assoc .., unindented, feed, ?_⟩
    rw [List.takeWhile_append_of_pos blank, stops, List.append_nil, List.length_append]
  · rintro ⟨piece, later, rfl, continued, -, rfl⟩
    exact continued.continuationLength?_append later

theorem continuationLength?_eq_none_iff :
    continuationLength? text = none ↔
      ∀ piece later, text = piece ++ later → ¬IsContinuation piece := by
  constructor
  · rintro nothing piece later rfl continued
    cases nothing.symm.trans (continued.continuationLength?_append later)
  · intro nothing
    rw [Option.eq_none_iff_forall_ne_some]
    intro length continues
    obtain ⟨piece, later, shape, continued, -⟩ := continuationLength?_eq_some_iff.mp continues
    exact nothing piece later shape continued

/-- A continuation starts with a blank. -/
theorem exists_blank_of_continuationLength?
    (continues : continuationLength? text = some length) :
    ∃ blank others, text = blank :: others ∧ isLineBlank blank = true := by
  obtain ⟨piece, later, rfl, continued, -⟩ := continuationLength?_eq_some_iff.mp continues
  obtain ⟨blanks, behind, shape, separated, blank⟩ := continued.exists_eq_underscore later
  obtain ⟨char, others, rfl⟩ := List.exists_cons_of_ne_nil separated
  exact ⟨char, others ++ '_' :: behind, shape, blank char List.mem_cons_self⟩

/-- More blanks in front of a continuation belong to it. -/
theorem IsContinuation.blanks_append
    {rest : Text}
    (blank : ∀ char ∈ rest, isLineBlank char = true)
    (continued : IsContinuation piece) :
    IsContinuation (rest ++ piece) := by
  cases continued with
  | @intro blanks trailing lineBreak indentation separated blanksBlank trailingBlank breaksLine
      indentationBlank =>
      have longer :=
        IsContinuation.intro (List.append_ne_nil_of_right_ne_nil rest separated)
          (List.forall_mem_append.mpr ⟨blank, blanksBlank⟩) trailingBlank breaksLine
          indentationBlank
      simpa using longer

/-- A blank, an underscore and a line feed at least make up a continuation. -/
theorem IsContinuation.three_le_length
    (continued : IsContinuation piece) :
    3 ≤ piece.length := by
  cases continued with
  | intro separated _ _ breaksLine _ =>
      have positive := List.length_pos_iff.mpr separated
      rcases breaksLine with rfl | rfl <;>
        simp only [List.length_append, List.length_cons, List.length_nil] <;> omega

end Grammar

/-- A text with no line break behind the blanks that it begins with. -/
inductive StaysInLine : Text → Prop where
  | intro
      {blanks rest : Text}
      (blank : ∀ char ∈ blanks, isLineBlank char = true)
      (stops : ∀ char ∈ rest.head?, isLineBlank char = false ∧ char ≠ '\r' ∧ char ≠ '\n') :
      StaysInLine (blanks ++ rest)

/-- How far a text gets in the line continuation that it begins. -/
inductive ContinuationStart : Text → Prop where
  /-- There are only blanks. -/
  | blank
      {blanks : Text}
      (blank : ∀ char ∈ blanks, isLineBlank char = true) :
      ContinuationStart blanks
  /-- The line is not broken yet; its break may have begun. -/
  | unbroken
      {blanks trailing lineEnd : Text}
      (separated : blanks ≠ [])
      (blank : ∀ char ∈ blanks, isLineBlank char = true)
      (trailingBlank : ∀ char ∈ trailing, isLineBlank char = true)
      (breaksOff : lineEnd = [] ∨ lineEnd = ['\r']) :
      ContinuationStart (blanks ++ '_' :: (trailing ++ lineEnd))
  /-- The line is broken, so all that counts is the indentation of the next one. -/
  | broken
      {front next : Text}
      (decided :
        ∀ later,
          continuationLength? (front ++ next ++ later) =
            some (front.length + ((next ++ later).takeWhile isLineBlank).length)) :
      ContinuationStart (front ++ next)
  /-- No line goes on, whatever follows. -/
  | other
      {rest : Text}
      (decided : ∀ later, continuationLength? (rest ++ later) = none) :
      ContinuationStart rest

/-- Behind blanks and an underscore the end of the line decides how far a text gets. -/
theorem continuationStart_underscore
    {blanks : Text}
    (separated : blanks ≠ [])
    (blank : ∀ char ∈ blanks, isLineBlank char = true)
    (rest : Text) :
    ContinuationStart (blanks ++ '_' :: rest) := by
  have broken
      {trailing lineBreak : Text}
      (trailingBlank : ∀ char ∈ trailing, isLineBlank char = true)
      (breaksLine : lineBreak = ['\n'] ∨ lineBreak = ['\r', '\n'])
      (next : Text) :
      ContinuationStart (blanks ++ '_' :: (trailing ++ (lineBreak ++ next))) := by
    have shape :
        blanks ++ '_' :: (trailing ++ (lineBreak ++ next)) =
          blanks ++ '_' :: (trailing ++ lineBreak) ++ next := by
      simp
    rw [shape]
    refine .broken fun later => ?_
    have ends := lineEndLength?_break trailingBlank breaksLine (next ++ later)
    rw [← shape, List.append_assoc, List.cons_append, List.append_assoc, List.append_assoc,
      continuationLength?_underscore separated blank, ends]
    simp only [Option.map_some, List.length_append, List.length_cons, Option.some.injEq]
    omega
  have other
      {trailing next : Text}
      {first : Char}
      (trailingBlank : ∀ char ∈ trailing, isLineBlank char = true)
      (stops : isLineBlank first = false)
      (noFeed : first ≠ '\n')
      (noBreak : first = '\r' → next ≠ [] ∧ next.head? ≠ some '\n') :
      ContinuationStart (blanks ++ '_' :: (trailing ++ first :: next)) := by
    refine .other fun later => ?_
    have goesOn : first = '\r' → (next ++ later).head? ≠ some '\n' := by
      intro isReturn
      obtain ⟨nonempty, noFeed⟩ := noBreak isReturn
      rwa [List.head?_append_of_ne_nil _ nonempty]
    have ends := lineEndLength?_eq_none trailingBlank stops noFeed goesOn
    rw [List.append_assoc, List.cons_append, List.append_assoc, List.cons_append,
      continuationLength?_underscore separated blank, ends]
    rfl
  rcases exists_first_of_isLineBlank rest with
      allBlank | ⟨trailing, first, next, rfl, trailingBlank, stops⟩
  · rw [← List.append_nil rest]
    exact .unbroken separated blank allBlank (.inl rfl)
  · by_cases isFeed : first = '\n'
    · subst isFeed
      exact broken trailingBlank (.inl rfl) next
    · by_cases isReturn : first = '\r'
      · subst isReturn
        rcases next with _ | ⟨second, next⟩
        · exact .unbroken separated blank trailingBlank (.inr rfl)
        · by_cases isFeed : second = '\n'
          · subst isFeed
            exact broken trailingBlank (.inr rfl) next
          · exact other trailingBlank stops (by decide) fun _ => by simp [isFeed]
      · exact other trailingBlank stops isFeed fun same => absurd same isReturn

theorem continuationStart (rest : Text) : ContinuationStart rest := by
  rcases exists_first_of_isLineBlank rest with
      allBlank | ⟨blanks, first, others, rfl, blank, stops⟩
  · exact .blank allBlank
  · by_cases continuesNot : blanks = [] ∨ first ≠ '_'
    · refine .other fun later => ?_
      rw [List.append_assoc]
      exact continuationLength?_eq_none blank stops continuesNot (others ++ later)
    · obtain ⟨separated, rfl⟩ : blanks ≠ [] ∧ first = '_' := by
        simpa using continuesNot
      exact continuationStart_underscore separated blank others

/-- A line that is not broken yet does not go on when its text does. -/
theorem continuationLength?_unbroken
    {blanks trailing lineEnd later : Text}
    (separated : blanks ≠ [])
    (blank : ∀ char ∈ blanks, isLineBlank char = true)
    (trailingBlank : ∀ char ∈ trailing, isLineBlank char = true)
    (breaksOff : lineEnd = [] ∨ lineEnd = ['\r'])
    (inLine : StaysInLine later) :
    continuationLength? (blanks ++ '_' :: (trailing ++ lineEnd) ++ later) = none := by
  obtain @⟨leading, rest, leadingBlank, stops⟩ := inLine
  have noEnd : lineEndLength? (trailing ++ (lineEnd ++ (leading ++ rest))) = none := by
    rcases breaksOff with rfl | rfl
    · have bothBlank := List.forall_mem_append.mpr ⟨trailingBlank, leadingBlank⟩
      rw [List.nil_append, ← List.append_assoc]
      cases rest with
      | nil =>
          rw [List.append_nil]
          exact lineEndLength?_of_isLineBlank bothBlank
      | cons first others =>
          obtain ⟨nonBlank, noReturn, noFeed⟩ := stops first rfl
          exact lineEndLength?_eq_none bothBlank nonBlank noFeed fun same => absurd same noReturn
    · refine lineEndLength?_eq_none trailingBlank (by decide) (by decide) fun _ feeds => ?_
      cases leading with
      | nil =>
          exact (stops '\n' feeds).2.2 rfl
      | cons first leading =>
          cases feeds
          exact absurd (leadingBlank '\n' List.mem_cons_self) (by decide)
  rw [List.append_assoc, List.cons_append, List.append_assoc,
    continuationLength?_underscore separated blank, noEnd]
  rfl

end LocalizationScan.VisualBasic
