import LocalizationScan.Proofs.Reference.Dotted
import LocalizationScan.Text.Search

namespace LocalizationScan.Text

/-!
# Reading at the starts of lines

A recogniser is tried at the starts of lines, and a match hides the line starts
inside it.  A recogniser that stays in the line where it begins reads a text
line by line, and so does one that runs on over blank lines only: what it reads
behind a blank line is what it reads at the start of the next line.
-/

variable {α ι : Type} {recognise : Text → Option (α × Text)} {line rest : Text}

/-- Whether a text can follow a line: it is empty, or a line feed comes first. -/
def EndsLine (text : Text) : Prop :=
  ∀ char ∈ text.head?, char = '\n'

theorem endsLine_nil : EndsLine [] :=
  nofun

theorem endsLine_feed (rest : Text) : EndsLine ('\n' :: rest) := by
  rintro char ⟨⟩
  rfl

/-- What a recogniser makes of a line, whatever lines follow. -/
inductive ReadsLine (recognise : Text → Option (α × Text)) (line : Text) : Option α → Prop where
  | nothing
      (fails : ∀ later, EndsLine later → recognise (line ++ later) = none) :
      ReadsLine recognise line none
  | value
      {value : α}
      (after : Text)
      (reads : ∀ later, EndsLine later → recognise (line ++ later) = some (value, after ++ later)) :
      ReadsLine recognise line (some value)
  /-- The recogniser runs on into the next line. -/
  | passed
      (fails : recognise line = none)
      (passes : ∀ rest, recognise (line ++ '\n' :: rest) = recognise rest) :
      ReadsLine recognise line none

/-- What a recogniser takes off a text is not empty. -/
def Shortens (recognise : Text → Option (α × Text)) : Prop :=
  ∀ text value rest, recognise text = some (value, rest) → rest.length < text.length

theorem Shortens.eq_none
    (shortens : Shortens recognise) :
    recognise [] = none := by
  cases found : recognise [] with
  | none => rfl
  | some read => exact absurd (shortens [] read.1 read.2 found) (Nat.not_lt_zero _)

section LineStarts

theorem lineStarts_line
    (inLine : '\n' ∉ line) :
    lineStarts false line = [] := by
  induction line with
  | nil => rfl
  | cons char line inductionHypothesis =>
      obtain ⟨differs, inRest⟩ := not_or.mp (mt List.mem_cons.mpr inLine)
      rw [lineStarts, beq_false_of_ne (Ne.symm differs)]
      exact inductionHypothesis inRest

/-- Behind a line feed a line starts. -/
theorem lineStarts_feed
    (inLine : '\n' ∉ line)
    (rest : Text) :
    lineStarts false (line ++ '\n' :: rest) = lineStarts true rest := by
  induction line with
  | nil => rfl
  | cons char line inductionHypothesis =>
      obtain ⟨differs, inRest⟩ := not_or.mp (mt List.mem_cons.mpr inLine)
      rw [List.cons_append, lineStarts, beq_false_of_ne (Ne.symm differs)]
      exact inductionHypothesis inRest

theorem lineStarts_true (text : Text) :
    lineStarts true text = text :: lineStarts false text := by
  cases text <;> simp [lineStarts]

theorem length_le_of_mem_lineStarts
    {atStart : Bool}
    {text start : Text}
    (member : start ∈ lineStarts atStart text) :
    start.length ≤ text.length := by
  induction text generalizing atStart with
  | nil =>
      cases atStart
      · cases member
      · simp_all [lineStarts]
  | cons char text inductionHypothesis =>
      rcases List.mem_append.mp member with isWhole | isLater
      · cases atStart
        · cases isWhole
        · exact (List.mem_singleton.mp isWhole ▸ Nat.le_refl _)
      · exact Nat.le_succ_of_le (inductionHypothesis isLater)

/-- A limit that no start reaches beyond makes no difference. -/
theorem readStarts_eq_of_le
    {starts : List Text}
    {limit other : Nat}
    (within : ∀ start ∈ starts, start.length ≤ limit)
    (withinOther : ∀ start ∈ starts, start.length ≤ other) :
    readStarts recognise limit starts = readStarts recognise other starts := by
  induction starts with
  | nil => rfl
  | cons start starts inductionHypothesis =>
      obtain ⟨here, later⟩ := List.forall_mem_cons.mp within
      obtain ⟨hereOther, laterOther⟩ := List.forall_mem_cons.mp withinOther
      rw [readStarts, readStarts, if_neg (Nat.not_lt.mpr here), if_neg (Nat.not_lt.mpr hereOther)]
      cases recognise start with
      | none => exact inductionHypothesis later laterOther
      | some => rfl

/-- The starts of a text are read alike under any limit that leaves room for the text. -/
theorem readStarts_eq_readLines
    {limit : Nat}
    (within : rest.length ≤ limit) :
    readStarts recognise limit (lineStarts true rest) = readLines recognise rest :=
  readStarts_eq_of_le
    (fun _ member => Nat.le_trans (length_le_of_mem_lineStarts member) within)
    fun _ member => length_le_of_mem_lineStarts member

end LineStarts

/-- A single line is read once. -/
theorem readLines_line
    (inLine : '\n' ∉ line) :
    readLines recognise line = ((recognise line).map Prod.fst).toList := by
  rw [readLines, lineStarts_true, lineStarts_line inLine, readStarts, if_neg (Nat.lt_irrefl _)]
  cases recognise line <;> rfl

theorem readLines_feed
    (inLine : '\n' ∉ line)
    (rest : Text) :
    readLines recognise (line ++ '\n' :: rest) =
      match recognise (line ++ '\n' :: rest) with
      | some (value, after) => value :: readStarts recognise after.length (lineStarts true rest)
      | none => readLines recognise rest := by
  rw [readLines, lineStarts_true, lineStarts_feed inLine, readStarts, if_neg (Nat.lt_irrefl _)]
  cases recognise (line ++ '\n' :: rest) with
  | none => exact readStarts_eq_readLines (by simp; omega)
  | some => rfl

/-- A line that is passed over changes nothing: a match that begins there hides the same
starts as one that begins with the next line. -/
theorem readLines_passed
    (shortens : Shortens recognise)
    (inLine : '\n' ∉ line)
    (passes : recognise (line ++ '\n' :: rest) = recognise rest) :
    readLines recognise (line ++ '\n' :: rest) = readLines recognise rest := by
  rw [readLines_feed inLine, passes]
  cases found : recognise rest with
  | none => rfl
  | some read =>
      have shorter := shortens rest read.1 read.2 found
      rw [readLines, lineStarts_true]
      simp [readStarts, shorter, found]

/-- A text is read line by line. -/
theorem readLines_joinWith
    (shortens : Shortens recognise)
    {print : ι → Text}
    {value? : ι → Option α}
    {lines : List ι}
    (inLine : ∀ line ∈ lines, '\n' ∉ print line)
    (reads : ∀ line ∈ lines, ReadsLine recognise (print line) (value? line)) :
    readLines recognise (joinWith ['\n'] (lines.map print)) = lines.filterMap value? := by
  induction lines with
  | nil =>
      exact (readLines_line List.not_mem_nil).trans (by rw [shortens.eq_none]; rfl)
  | cons line lines inductionHypothesis =>
      obtain ⟨inThis, inLater⟩ := List.forall_mem_cons.mp inLine
      obtain ⟨readsThis, readsLater⟩ := List.forall_mem_cons.mp reads
      specialize inductionHypothesis inLater readsLater
      generalize isValue : value? line = value at readsThis
      rw [List.filterMap_cons, isValue]
      cases lines with
      | nil =>
          refine (readLines_line inThis).trans ?_
          cases readsThis with
          | nothing fails =>
              rw [← List.append_nil (print line), fails [] endsLine_nil]
              rfl
          | value after reads =>
              rw [← List.append_nil (print line), reads [] endsLine_nil]
              rfl
          | passed fails _ =>
              rw [fails]
              rfl
      | cons next lines =>
          have joined :
              joinWith ['\n'] ((line :: next :: lines).map print) =
                print line ++ '\n' :: joinWith ['\n'] ((next :: lines).map print) := by
            simp [joinWith]
          rw [joined]
          cases readsThis with
          | nothing fails =>
              rw [readLines_feed inThis, fails _ (endsLine_feed _)]
              exact inductionHypothesis
          | value after reads =>
              rw [readLines_feed inThis, reads _ (endsLine_feed _)]
              refine congrArg _ (Eq.trans (readStarts_eq_readLines ?_) inductionHypothesis)
              simp
              omega
          | passed _ passes =>
              exact (readLines_passed shortens inThis (passes _)).trans inductionHypothesis

end LocalizationScan.Text
