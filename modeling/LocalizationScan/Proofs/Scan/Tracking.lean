import LocalizationScan.Proofs.Scan.Coverage
import LocalizationScan.Proofs.Scan.Extension
import LocalizationScan.Proofs.Scan.Strings

namespace LocalizationScan

/-!
# Tracked scans

On its way through a block a scan leaves behind the pieces that its transitions
have covered.  What is open at a scan has begun in these pieces, where its token
says, and its opening delimiter is done.
-/

/-- The text that the transition at a scan covers. -/
def Scan.piece (dialect : Dialect) (scan : Scan) : Text :=
  scan.cursor.rest.take ((scan.transition dialect).covered scan.cursor.rest)

/-- The events of the step at a scan; at the end of the block there is none. -/
def Scan.yielded (dialect : Dialect) (scan : Scan) : List Event :=
  match scan.cursor.rest with
  | [] => []
  | char :: _ => (scan.step dialect char).1

/-- The scan behind the step at a scan; at the end of the block there is none. -/
def Scan.next? (dialect : Dialect) (scan : Scan) : Option Scan :=
  match scan.cursor.rest with
  | [] => none
  | char :: _ => some (scan.step dialect char).2

/-- The open token and those of the waiting strings, innermost first. -/
def Control.tokens (control : Control) : List OpenToken :=
  control.mode.token?.toList ++ control.holes.map Hole.token

/-- A control whose tokens have begun where they say, with their opening delimiters done. -/
structure Control.HasBegun
    (anchor : Position)
    (done rest : Text)
    (control : Control) :
    Prop where
  placed : ∀ token ∈ control.tokens, token.IsPlaced anchor done rest
  opened :
    ∀ token ∈ control.tokens,
      token.start.offset + token.openingLength ≤ anchor.offset + done.length

section Tokens

variable {dialect : Dialect} {anchor : Position} {control next : Control}
  {done piece later rest : Text} {token : OpenToken} {events : List Event}

theorem Control.initial_hasBegun (anchor : Position) (done rest : Text) :
    initial.HasBegun anchor done rest :=
  ⟨fun _ member => (nomatch member), fun _ member => (nomatch member)⟩

/-- A move leaves the tokens as they are, opens one inside of them, or closes the innermost. -/
theorem Move.tokens_cases
    {before : Option Char}
    {position : Position}
    (move : Move dialect before position piece later control events next) :
    next.tokens = control.tokens ∨
      next.tokens = ⟨position, piece ++ later, piece.length⟩ :: control.tokens ∨
      ∃ closed, control.tokens = closed :: next.tokens := by
  cases move with
  | code | lineComment | continuation | openBrace | closeBrace | closeHole | stringText
  | openHole | commentText =>
      exact .inl rfl
  | openString | openComment =>
      exact .inr (.inl rfl)
  | closeString | abandon | closeComment =>
      exact .inr (.inr ⟨_, rfl⟩)

theorem Control.HasBegun.move
    (begun : control.HasBegun anchor done (piece ++ later))
    (nonempty : piece ≠ [])
    (move :
      Move dialect done.getLast? (anchor.advanceOver done) piece later control events next) :
    next.HasBegun anchor (done ++ piece) later := by
  have placed : ∀ token ∈ control.tokens, token.IsPlaced anchor (done ++ piece) later :=
    fun token member => (begun.placed token member).advance
  have opened :
      ∀ token ∈ control.tokens,
        token.start.offset + token.openingLength ≤ anchor.offset + (done ++ piece).length := by
    intro token member
    refine Nat.le_trans (begun.opened token member) (Nat.add_le_add_left ?_ _)
    exact Nat.le_of_lt (Text.length_lt_append done nonempty)
  rcases move.tokens_cases with same | opens | ⟨closed, shape⟩
  · rw [← same] at placed opened
    exact ⟨placed, opened⟩
  · constructor
    · rw [opens]
      exact List.forall_mem_cons.mpr ⟨⟨done, piece, rfl, nonempty, rfl, rfl⟩, placed⟩
    · rw [opens]
      refine List.forall_mem_cons.mpr ⟨?_, opened⟩
      simp [Nat.add_assoc]
  · rw [shape] at placed opened
    exact ⟨(List.forall_mem_cons.mp placed).2, (List.forall_mem_cons.mp opened).2⟩

end Tokens

/-- A scan of a block behind the given earlier scans of the block. -/
structure Scan.IsTracked
    (dialect : Dialect)
    (anchor : Position)
    (block : Text)
    (earlier : List Scan)
    (scan : Scan) :
    Prop where
  partition : earlier.flatMap (piece dialect) ++ scan.cursor.rest = block
  cursor : scan.cursor = .between anchor (earlier.flatMap (piece dialect)) scan.cursor.rest
  begun :
    scan.control.HasBegun anchor (earlier.flatMap (piece dialect)) scan.cursor.rest
  fitsDialect : scan.control.FitsDialect dialect

namespace Scan

variable {dialect : Dialect} {anchor : Position} {block : Text} {earlier : List Scan}
  {scan : Scan}

theorem isTracked_ofBlock
    (dialect : Dialect)
    (anchor : Position)
    (block : Text) :
    (ofBlock anchor block).IsTracked dialect anchor block [] where
  partition := rfl
  cursor := rfl
  begun := Control.initial_hasBegun anchor [] block
  fitsDialect := Control.initial_fitsDialect dialect

/-- A step takes its piece off the start of what is left. -/
theorem piece_append_rest
    {next : Scan}
    (goesOn : scan.next? dialect = some next) :
    scan.piece dialect ++ next.cursor.rest = scan.cursor.rest := by
  unfold next? at goesOn
  split at goesOn
  · cases goesOn
  · cases goesOn
    exact List.take_append_drop _ _

/-- The step at a scan is a move over its piece. -/
theorem exists_move
    {done : Text}
    {next : Scan}
    (cursor : scan.cursor = .between anchor done scan.cursor.rest)
    (goesOn : scan.next? dialect = some next) :
    ∃ later control,
      scan.cursor.rest = scan.piece dialect ++ later ∧
        scan.piece dialect ≠ [] ∧
        Move dialect done.getLast? (anchor.advanceOver done) (scan.piece dialect) later
          scan.control (scan.yielded dialect) control ∧
        next = ⟨control, .between anchor (done ++ scan.piece dialect) later⟩ := by
  obtain ⟨control, here⟩ := scan
  dsimp only at cursor
  generalize here.rest = rest at cursor
  subst cursor
  cases rest with
  | nil =>
      cases goesOn
  | cons char tail =>
      obtain ⟨piece, later, events, controlNext, shape, nonempty, move, stepped⟩ :=
        advances dialect anchor control done char tail
      have whole := piece_append_rest goesOn
      cases (congrArg (fun result => some (Prod.snd result)) stepped).symm.trans goesOn
      -- The cursor is behind the piece of the move, so the transition covers that piece.
      obtain rfl := List.append_cancel_right (whole.trans shape)
      obtain rfl := congrArg Prod.fst stepped
      exact ⟨later, controlNext, shape, nonempty, move, rfl⟩

/-- What holds at a scan holds behind its step. -/
theorem IsTracked.step
    {next : Scan}
    (tracked : scan.IsTracked dialect anchor block earlier)
    (goesOn : scan.next? dialect = some next) :
    next.IsTracked dialect anchor block (earlier ++ [scan]) := by
  obtain ⟨later, control, split, nonempty, move, rfl⟩ := exists_move tracked.cursor goesOn
  have passed :
      (earlier ++ [scan]).flatMap (piece dialect) =
        earlier.flatMap (piece dialect) ++ scan.piece dialect := by
    simp
  constructor
  · rw [passed, List.append_assoc]
    exact (congrArg _ split.symm).trans tracked.partition
  · rw [passed]
    rfl
  · have begun := tracked.begun
    rw [split] at begun
    rw [passed]
    exact begun.move nonempty move
  · exact tracked.fitsDialect.move move

theorem IsTracked.offset_eq
    (tracked : scan.IsTracked dialect anchor block earlier) :
    scan.offset = anchor.offset + (earlier.flatMap (piece dialect)).length := by
  rw [offset, tracked.cursor, Cursor.between, Position.offset_advanceOver]

/-- What is done at a tracked scan is the part of the block before its offset. -/
theorem IsTracked.done_eq
    {front rest : Text}
    (tracked : scan.IsTracked dialect anchor block earlier)
    (content : block = front ++ rest)
    (offset : scan.offset = anchor.offset + front.length) :
    earlier.flatMap (piece dialect) = front := by
  have length : (earlier.flatMap (piece dialect)).length = front.length :=
    Nat.add_left_cancel (tracked.offset_eq.symm.trans offset)
  exact (List.append_inj (tracked.partition.trans content) length).1

theorem fits_transition (dialect : Dialect) (scan : Scan) :
    (scan.transition dialect).Fits scan.control.lexicalState :=
  dialect.fits_classify _ _ _

theorem visited_eq (dialect : Dialect) (scan : Scan) :
    scan.visited dialect = scan :: (scan.next? dialect).elim [] (visited dialect) := by
  conv => lhs; rw [visited]
  unfold next?
  split <;> simp [*]

theorem events_eq (dialect : Dialect) (scan : Scan) :
    scan.events dialect =
      scan.yielded dialect ++ (scan.next? dialect).elim [] (events dialect) := by
  conv => lhs; rw [events]
  unfold yielded next?
  split <;> simp [*]

/-- A scan that passes through others steps to the one that passes through these alone. -/
theorem exists_next?_of_visited
    {start first : Scan}
    {others : List Scan}
    (passed : start.visited dialect = first :: others)
    (nonempty : others ≠ []) :
    start = first ∧
      ∃ next, start.next? dialect = some next ∧ next.visited dialect = others := by
  rw [visited_eq] at passed
  obtain ⟨rfl, behind⟩ := List.cons.inj passed
  cases goesOn : start.next? dialect with
  | none =>
      rw [goesOn] at behind
      exact absurd behind.symm nonempty
  | some next =>
      rw [goesOn] at behind
      exact ⟨rfl, next, rfl, behind⟩

/-- A tracked scan passes through tracked scans. -/
theorem IsTracked.of_visited
    {start : Scan}
    {front later : List Scan}
    (tracked : start.IsTracked dialect anchor block earlier)
    (passed : start.visited dialect = front ++ scan :: later) :
    scan.IsTracked dialect anchor block (earlier ++ front) := by
  induction front generalizing start earlier with
  | nil =>
      rw [visited_eq] at passed
      obtain ⟨rfl, -⟩ := List.cons.inj passed
      rwa [List.append_nil]
  | cons first front inductionHypothesis =>
      obtain ⟨rfl, next, goesOn, behind⟩ := exists_next?_of_visited passed (by simp)
      rw [List.append_cons]
      exact inductionHypothesis (tracked.step goesOn) behind

/-- A scan on the way passes through the scans behind it. -/
theorem visited_eq_of_visited
    {start : Scan}
    {front later : List Scan}
    (passed : start.visited dialect = front ++ scan :: later) :
    scan.visited dialect = scan :: later := by
  induction front generalizing start with
  | nil =>
      have same := passed
      rw [visited_eq] at same
      obtain ⟨rfl, -⟩ := List.cons.inj same
      exact passed
  | cons first front inductionHypothesis =>
      obtain ⟨-, next, -, behind⟩ := exists_next?_of_visited passed (by simp)
      exact inductionHypothesis behind

end Scan

end LocalizationScan
