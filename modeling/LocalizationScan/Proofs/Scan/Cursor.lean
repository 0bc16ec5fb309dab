import LocalizationScan.Lexical.Event

namespace LocalizationScan

/-!
# Cursors between two parts of a block

A scan of a block always stands between a part that is done and a part that is
left.  The cursor there is determined by the anchor and the two parts, so facts
about a run can be stated about texts instead of about cursors.
-/

namespace Text

variable {whole done piece later : Text}

/-- Behind a piece less is left. -/
theorem length_lt_of_eq_append
    (shape : whole = piece ++ later)
    (nonempty : piece ≠ []) :
    later.length < whole.length := by
  rw [shape, List.length_append]
  exact Nat.lt_add_of_pos_left (List.length_pos_iff.mpr nonempty)

/-- With a piece more is done. -/
theorem length_lt_append
    (done : Text)
    (nonempty : piece ≠ []) :
    done.length < (done ++ piece).length := by
  rw [List.length_append]
  exact Nat.lt_add_of_pos_right (List.length_pos_iff.mpr nonempty)

end Text

namespace Cursor

/-- The cursor behind the part of a block that is done. -/
def between (anchor : Position) (done rest : Text) : Cursor where
  before := done.getLast?
  rest := rest
  position := anchor.advanceOver done

theorem skip_between_take
    (anchor : Position)
    (done rest : Text)
    (count : Nat) :
    (between anchor done rest).skip count =
      between anchor (done ++ rest.take count) (rest.drop count) := by
  simp [between, skip, Position.advanceOver_append, List.getLast?_append]

/-- Skipping the start of what is left adds it to what is done. -/
theorem skip_between
    (anchor : Position)
    (done piece later : Text) :
    (between anchor done (piece ++ later)).skip piece.length =
      between anchor (done ++ piece) later := by
  rw [skip_between_take, List.take_left, List.drop_left]

end Cursor

/-- The text of a token up to a position behind it. -/
theorem OpenToken.textTo_advanceOver
    (anchor : Position)
    (done text later : Text)
    (openingLength : Nat) :
    textTo ⟨anchor.advanceOver done, text ++ later, openingLength⟩
        (anchor.advanceOver (done ++ text)) =
      text := by
  have length :
      (anchor.advanceOver (done ++ text)).offset - (anchor.advanceOver done).offset =
        text.length := by
    simp only [Position.offset_advanceOver, List.length_append]
    omega
  rw [textTo, length, List.take_left]

/-- A string token that ends behind its opening, its body and its closing delimiter. -/
theorem Control.closeToken_advanceOver
    (anchor : Position)
    (mode : Mode)
    (holes : List Hole)
    (kind : StringKind)
    (emit : Bool)
    (done opening body closing later : Text) :
    closeToken ⟨mode, holes⟩ kind
        ⟨anchor.advanceOver done, opening ++ body ++ closing ++ later, opening.length⟩
        closing.length emit (anchor.advanceOver (done ++ (opening ++ body ++ closing))) =
      ⟨kind, opening ++ body ++ closing, body,
        ⟨anchor.advanceOver done, anchor.advanceOver (done ++ (opening ++ body ++ closing))⟩,
        emit && holes.isEmpty⟩ := by
  simp only [closeToken, OpenToken.textTo_advanceOver, StringToken.mk.injEq, true_and, and_true]
  have length : (opening ++ body ++ closing).length - closing.length =
      (opening ++ body).length := by
    simp only [List.length_append]
    omega
  rw [length, List.take_left, List.drop_left]

namespace Position

theorem line_le_advanceOver (position : Position) (text : Text) :
    position.line ≤ (position.advanceOver text).line := by
  induction text generalizing position with
  | nil =>
      exact Nat.le_refl _
  | cons char rest inductionHypothesis =>
      have step : position.line ≤ (position.advance char).line := by
        unfold advance
        split <;> simp
      exact Nat.le_trans step (inductionHypothesis _)

/-- Behind a position with a column there is always a column. -/
theorem one_le_column_advanceOver
    {position : Position}
    (text : Text)
    (column : 1 ≤ position.column) :
    1 ≤ (position.advanceOver text).column := by
  induction text generalizing position with
  | nil =>
      exact column
  | cons char rest inductionHypothesis =>
      apply inductionHypothesis
      unfold advance
      split
      · exact Nat.le_refl 1
      · exact Nat.le_succ_of_le column

theorem asAnchor_of_one_le
    {position : Position}
    (line : 1 ≤ position.line)
    (column : 1 ≤ position.column) :
    position.asAnchor = .ok position := by
  simp [asAnchor, Nat.ne_of_gt line, Nat.ne_of_gt column]

/-- Every position of a file can be the start of a scanned block. -/
theorem asAnchor_advanceOver_start (text : Text) :
    (start.advanceOver text).asAnchor =
      .ok (start.advanceOver text) :=
  asAnchor_of_one_le
    (line_le_advanceOver start text)
    (one_le_column_advanceOver text (Nat.le_refl 1))

/-- A position that can be the start of a block has a line and a column, and so have the
positions behind it. -/
theorem asAnchor_advanceOver
    {position anchor : Position}
    (valid : position.asAnchor = .ok anchor)
    (text : Text) :
    anchor = position ∧
      (position.advanceOver text).asAnchor = .ok (position.advanceOver text) := by
  unfold asAnchor at valid
  split at valid
  · cases valid
  · rename_i line
    split at valid
    · cases valid
    · rename_i column
      cases valid
      refine ⟨rfl, asAnchor_of_one_le ?_ ?_⟩
      · exact Nat.le_trans (Nat.pos_of_ne_zero line) (line_le_advanceOver position text)
      · exact one_le_column_advanceOver text (Nat.pos_of_ne_zero column)

end Position

end LocalizationScan
