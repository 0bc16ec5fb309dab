import LocalizationScan.Proofs.Scan.Move

namespace LocalizationScan

/-!
# Spans and what they cover

The tokens that a scan has opened, the one that is open and the waiting ones
alike, keep the place at which they began.  A token that is closed therefore
spans exactly its own text.
-/

/-- Whether a span in a text that starts at the anchor covers a slice of it. -/
def Span.Covers (anchor : Position) (content : Text) (span : Span) (slice : Text) : Prop :=
  ∃ before after,
    content = before ++ slice ++ after ∧
      span = ⟨anchor.advanceOver before, anchor.advanceOver (before ++ slice)⟩

/-- Whether a span has the positions around a number of characters from an offset on. -/
def Span.IsIn (content : Text) (span : Span) (offset length : Nat) : Prop :=
  offset + length ≤ content.length ∧
    span.start = Position.start.advanceOver (content.take offset) ∧
    span.stop = Position.start.advanceOver (content.take (offset + length))

namespace Span

variable {anchor : Position} {content slice : Text} {span : Span}

/-- What a span covers in a part of a text, it covers in the text. -/
theorem Covers.within
    {block : Text}
    (front back : Text)
    (covers : span.Covers (anchor.advanceOver front) block slice) :
    span.Covers anchor (front ++ block ++ back) slice := by
  obtain ⟨before, after, rfl, rfl⟩ := covers
  exact ⟨front ++ before, after ++ back, by simp, by simp [Position.advanceOver_append]⟩

theorem Covers.length_eq
    (covers : span.Covers anchor content slice) :
    span.length = slice.length := by
  obtain ⟨before, after, _, rfl⟩ := covers
  simp only [length, Position.offset_advanceOver, List.length_append]
  omega

/-- What a span covers in a file stands at its offset. -/
theorem Covers.take_drop
    (covers : span.Covers .start content slice) :
    (content.drop span.start.offset).take span.length = slice := by
  have lengths := covers.length_eq
  obtain ⟨before, after, rfl, rfl⟩ := covers
  rw [lengths]
  simp [Position.offset_advanceOver, Position.start]

/-- A span that covers a slice of a file has the positions around it. -/
theorem Covers.isIn
    (covers : span.Covers .start content slice) :
    span.IsIn content span.start.offset span.length := by
  have lengths := covers.length_eq
  obtain ⟨before, after, rfl, rfl⟩ := covers
  have offset : (Position.start.advanceOver before).offset = before.length := by
    simp [Position.offset_advanceOver, Position.start]
  have whole :
      (before ++ slice ++ after).take (before.length + slice.length) = before ++ slice := by
    rw [← List.length_append, List.take_left]
  have front : (before ++ slice ++ after).take before.length = before := by
    rw [List.append_assoc, List.take_left]
  simp only [IsIn, lengths, offset, whole, front, and_self, and_true]
  simp only [List.length_append]
  omega

end Span

/-- An open token that has begun where it says, with at least one character. -/
def OpenToken.IsPlaced (anchor : Position) (done rest : Text) (token : OpenToken) : Prop :=
  ∃ before opened,
    done = before ++ opened ∧ opened ≠ [] ∧ token.start = anchor.advanceOver before ∧
      token.text = opened ++ rest

/-- A control whose string tokens, the open and the waiting ones, are placed. -/
structure Control.IsPlaced
    (anchor : Position)
    (done rest : Text)
    (control : Control) :
    Prop where
  current :
    ∀ kind token, control.mode = .inString kind token → token.IsPlaced anchor done rest
  waiting : ∀ hole ∈ control.holes, hole.token.IsPlaced anchor done rest

section Runs

variable {dialect : Dialect} {anchor : Position} {control next : Control}
  {done piece later rest : Text} {events : List Event}

theorem OpenToken.IsPlaced.advance
    {token : OpenToken}
    (placed : token.IsPlaced anchor done (piece ++ later)) :
    token.IsPlaced anchor (done ++ piece) later := by
  obtain ⟨before, opened, rfl, nonempty, start, text⟩ := placed
  exact ⟨before, opened ++ piece, by simp, by simp [nonempty], start, by simp [text]⟩

/-- The text of a placed token up to the end of a piece is what is done of it and the piece. -/
theorem OpenToken.IsPlaced.exists_textTo
    {token : OpenToken}
    (placed : token.IsPlaced anchor done (piece ++ later)) :
    ∃ before opened,
      done = before ++ opened ∧ opened ≠ [] ∧ token.start = anchor.advanceOver before ∧
        token.textTo (anchor.advanceOver (done ++ piece)) = opened ++ piece := by
  obtain ⟨before, opened, rfl, nonempty, start, text⟩ := placed
  refine ⟨before, opened, rfl, nonempty, start, ?_⟩
  obtain ⟨_, _, length⟩ := token
  dsimp only at start text
  subst start text
  rw [List.append_assoc, ← List.append_assoc opened]
  exact textTo_advanceOver anchor before (opened ++ piece) later length

/-- What was placed stays placed by a move, and so is a string that is opened. -/
theorem Control.IsPlaced.move
    (placed : control.IsPlaced anchor done (piece ++ later))
    (nonempty : piece ≠ [])
    (move :
      Move dialect done.getLast? (anchor.advanceOver done) piece later control events next) :
    next.IsPlaced anchor (done ++ piece) later := by
  have waiting : ∀ hole ∈ control.holes, hole.token.IsPlaced anchor (done ++ piece) later :=
    fun hole member => (placed.waiting hole member).advance
  cases move with
  | code | lineComment | continuation | openComment | closeString | abandon | commentText
  | closeComment =>
      exact ⟨fun _ _ mode => (nomatch mode), waiting⟩
  | openString =>
      refine ⟨fun kind token mode => ?_, waiting⟩
      cases mode
      exact ⟨done, piece, rfl, nonempty, rfl, rfl⟩
  | openBrace | closeBrace =>
      refine ⟨fun _ _ mode => (nomatch mode), ?_⟩
      obtain ⟨waitingHere, waitingOuter⟩ := List.forall_mem_cons.mp waiting
      exact List.forall_mem_cons.mpr ⟨waitingHere, waitingOuter⟩
  | closeHole =>
      obtain ⟨waitingHere, waitingOuter⟩ := List.forall_mem_cons.mp waiting
      refine ⟨fun kind token mode => ?_, waitingOuter⟩
      cases mode
      exact waitingHere
  | stringText =>
      refine ⟨fun kind token mode => ?_, waiting⟩
      cases mode
      exact (placed.current _ _ rfl).advance
  | openHole =>
      exact ⟨fun _ _ mode => (nomatch mode),
        List.forall_mem_cons.mpr ⟨(placed.current _ _ rfl).advance, waiting⟩⟩

/-- A string that a move closes is spanned from its first to its last character. -/
theorem Control.IsPlaced.covers_closed
    (placed : control.IsPlaced anchor done (piece ++ later))
    (nonempty : piece ≠ [])
    (move :
      Move dialect done.getLast? (anchor.advanceOver done) piece later control events next)
    {token : StringToken}
    (closed : .stringClosed token ∈ events) :
    token.span.Covers anchor (done ++ (piece ++ later)) token.text ∧ 2 ≤ token.text.length := by
  cases move with
  | closeString =>
      cases List.mem_singleton.mp closed
      obtain ⟨before, opened, shape, openedNonempty, start, text⟩ :=
        (placed.current _ _ rfl).exists_textTo
      -- The opening and the closing delimiter have a character each at least.
      have openedLength := List.length_pos_iff.mpr openedNonempty
      have pieceLength := List.length_pos_iff.mpr nonempty
      rw [← Position.advanceOver_append]
      simp only [closeToken, text, start]
      refine ⟨⟨before, later, by simp [shape], by simp [shape]⟩, ?_⟩
      rw [List.length_append]
      omega
  | _ =>
      simp at closed

/-- The strings that a run closes are spanned from their first to their last characters. -/
theorem Run.covers_closed
    (run : Run dialect anchor control done rest events)
    (placed : control.IsPlaced anchor done rest)
    {token : StringToken}
    (closed : .stringClosed token ∈ events) :
    token.span.Covers anchor (done ++ rest) token.text ∧ 2 ≤ token.text.length := by
  -- That open tokens are placed is the invariant of the run.
  induction run with
  | finished =>
      cases closed
  | move nonempty here behind inductionHypothesis =>
      rcases List.mem_append.mp closed with closedHere | closedLater
      · exact placed.covers_closed nonempty here closedHere
      · rw [← List.append_assoc]
        exact inductionHypothesis (placed.move nonempty here) closedLater

end Runs

end LocalizationScan
