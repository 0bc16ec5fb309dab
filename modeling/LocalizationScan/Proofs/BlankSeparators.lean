import LocalizationScan.Proofs.Reference.Unplaced
import LocalizationScan.Proofs.Scan.Comments
import LocalizationScan.Proofs.Scan.Tracking

namespace LocalizationScan

/-!
# Comments and continuations as blanks

To references a block comment of C# and a line continuation of Visual Basic are
blanks.  A scan reads the text in front of such a piece as it reads it in front
of a blank, it takes the piece where it would take the blank, and behind both
it goes on in the same way.
-/

/-- Whether the scan of a block meets a transition behind a number of characters. -/
def Dialect.Meets
    (dialect : Dialect)
    (anchor : Position)
    (block : Text)
    (index : Nat)
    (transition : Transition) :
    Prop :=
  ∃ scan ∈ dialect.visited anchor block,
    scan.offset = anchor.offset + index ∧ scan.transition dialect = transition

/-- A piece that a scan takes in code as it takes a blank, with the transition that begins
the piece and the text behind it. -/
structure Dialect.TakesAsBlank
    (dialect : Dialect)
    (anchor : Position)
    (piece later : Text)
    (transition : Transition) :
    Prop where
  readsAlike : dialect.ReadsAlike (piece ++ later) (' ' :: later)
  startsInLine : ∃ char tail, piece = char :: tail ∧ char ≠ '\n'
  endsApart : ∃ char, piece.getLast? = some char ∧ Text.isIdentifierChar char = false
  inCode : ∀ state, transition.Fits state → state.isCode = true
  /-- A blank in front of the same text begins nothing. -/
  blank :
    ∀ state before,
      state.isCode = true → dialect.classify state before (' ' :: later) = .stay
  /-- The piece separates what stands around it, and code goes on behind it. -/
  separates :
    ∀ holes done,
      ∃ produced,
        marksOf produced = [.separator .blank] ∧
          Scan.events dialect ⟨⟨.resting, holes⟩, .between anchor done (piece ++ later)⟩ =
            produced ++
              Scan.events dialect ⟨⟨.resting, holes⟩, .between anchor (done ++ piece) later⟩

section Blocks

variable {dialect : Dialect} {anchor : Position} {piece later front : Text}
  {transition : Transition}

/-- The scan that meets a transition has the text behind it left. -/
theorem Dialect.Meets.exists_scan
    (meets : dialect.Meets anchor (front ++ later) front.length transition) :
    ∃ scan ∈ dialect.visited anchor (front ++ later),
      scan.cursor.rest = later ∧ scan.transition dialect = transition := by
  obtain ⟨scan, member, offset, begins⟩ := meets
  obtain ⟨earlier, others, passed⟩ := List.append_of_mem member
  have tracked := (Scan.isTracked_ofBlock dialect anchor (front ++ later)).of_visited passed
  have done := tracked.done_eq rfl offset
  have content := tracked.partition
  rw [done] at content
  exact ⟨scan, member, List.append_cancel_left content, begins⟩

namespace Dialect.TakesAsBlank

/-- Scans read alike behind the piece and behind a blank, as no identifier ends there. -/
theorem alike_behind
    {control other : Control}
    (takes : dialect.TakesAsBlank anchor piece later transition)
    (same : control.outline = other.outline)
    (done : Text) :
    Scan.Alike dialect ⟨control, .between anchor (done ++ piece) later⟩
      ⟨other, .between anchor (done ++ [' ']) later⟩ := by
  refine ⟨same, rfl, ?_⟩
  obtain ⟨last, ends, noIdentifier⟩ := takes.endsApart
  have before : (done ++ piece).getLast? = some last := by
    rw [List.getLast?_append, ends, Option.some_or]
  have blankEnds : Text.isIdentifierChar ' ' = false := by decide
  simp only [Scan.transition, Cursor.between, before, List.getLast?_concat,
    classify_of_noIdentifier noIdentifier, classify_of_noIdentifier blankEnds,
    Control.lexicalState_of_outline_eq same]

/-- In code a scan yields the same marks in front of the piece as in front of a blank. -/
theorem marks_eq
    {control other : Control}
    (takes : dialect.TakesAsBlank anchor piece later transition)
    (same : control.outline = other.outline)
    (inCode : control.lexicalState.isCode = true)
    (done : Text) :
    Scan.marks dialect ⟨control, .between anchor done (piece ++ later)⟩ =
      Scan.marks dialect ⟨other, .between anchor done (' ' :: later)⟩ := by
  have inCodeOther := inCode
  rw [Control.lexicalState_of_outline_eq same] at inCodeOther
  have resting := Control.mode_of_isCode inCode
  have restingOther := Control.mode_of_isCode inCodeOther
  obtain ⟨produced, separator, yields⟩ := takes.separates control.holes done
  rw [← resting] at yields
  have yieldsOther :=
    @Scan.events_eq_react anchor other done later ' ' dialect [' '] .stay later rfl
      (takes.blank other.lexicalState done.getLast? inCodeOther)
      (Transition.covered_of_length (by simp) rfl)
  simp only [Control.react, if_pos restingOther] at yieldsOther
  have marks := (takes.alike_behind same done).marks_eq
  unfold Scan.marks at marks ⊢
  rw [yields, ← @List.singleton_append _ ' ' later, yieldsOther, marksOf_append, marksOf_append,
    separator, marks]
  rfl

/-- A block has the same references with the piece as with a blank, up to their places. -/
theorem references_eq
    (takes : dialect.TakesAsBlank anchor piece later transition)
    (meets : dialect.Meets anchor (front ++ (piece ++ later)) front.length transition)
    (context : ResolveContext)
    (flags : ItemFlags) :
    (findReferences dialect context flags anchor (front ++ (piece ++ later))).map
        (List.map Reference.unplaced) =
      (findReferences dialect context flags anchor (front ++ ' ' :: later)).map
        (List.map Reference.unplaced) := by
  obtain ⟨char, tail, rfl, inLine⟩ := takes.startsInLine
  have passes := meets.exists_scan
  refine findReferences_unplaced ?_ context flags
  refine Scan.marks_eq_of_readsAlike takes.readsAlike inLine ?_ front [] .initial .initial rfl
    passes
  intro done control other same begins
  have fits : transition.Fits control.lexicalState := by
    rw [← begins]
    exact Scan.fits_transition dialect _
  exact takes.marks_eq same (takes.inCode _ fits) done

end Dialect.TakesAsBlank

end Blocks

/-- A block comment is taken as a blank. -/
theorem CSharp.IsBlockComment.takesAsBlank
    {comment : Text}
    (isComment : IsBlockComment comment)
    (marker : Text)
    (anchor : Position)
    (later : Text) :
    (Dialect.csharp marker).TakesAsBlank anchor comment later (.openComment 2) where
  readsAlike := by
    cases isComment
    exact Dialect.readsAlike_comment marker _ later
  startsInLine := by
    cases isComment
    exact ⟨'/', _, rfl, by decide⟩
  endsApart := by
    cases isComment
    exact ⟨'/', by simp [List.getLast?_cons], by decide⟩
  inCode := fun _ fits => fits
  blank := fun _ _ inCode => classify_of_isBlank inCode rfl later
  separates := by
    intro holes done
    exact ⟨[.commentOpened, .commentClosed comment], rfl, Scan.events_blockComment isComment⟩

/-- A line continuation is taken as a blank, unless what follows the blank is an underscore or
the end of the line. -/
theorem VisualBasic.takesAsBlank_continuation
    {piece later : Text}
    (continues : continuationLength? (piece ++ later) = some piece.length)
    (goesOn : ∀ char ∈ later.head?, char ∉ ['_', '\r', '\n'])
    (anchor : Position) :
    Dialect.visualBasic.TakesAsBlank anchor piece later (.continuation piece.length) := by
  obtain ⟨continued, stops⟩ := isContinuation_of_continuationLength? continues
  obtain ⟨first, others, shape, isBlank⟩ := exists_blank_of_continuationLength? continues
  obtain ⟨char, tail, rfl⟩ := List.exists_cons_of_ne_nil continued.ne_nil
  obtain ⟨rfl, rfl⟩ := List.cons.inj shape
  refine ⟨Dialect.readsAlike_continuation continues ?_, ⟨char, tail, rfl, ?_⟩,
    continued.exists_getLast?, fun _ fits => fits, ?_, ?_⟩
  · intro first head
    have other := goesOn first head
    simp_all
  · rintro rfl
    cases isBlank
  · intro state before inCode
    refine classify_blank inCode before stops fun first head => ?_
    rintro rfl
    exact goesOn '_' head List.mem_cons_self
  · intro holes done
    have met :
        Dialect.visualBasic.classify (Control.lexicalState ⟨.resting, holes⟩) done.getLast?
            (char :: tail ++ later) =
          .continuation (char :: tail).length := by
      have begins := classifyCode_of_isLineBlank done.getLast? (tail ++ later) isBlank
      rw [← List.cons_append, continues] at begins
      cases holes <;> exact begins
    exact ⟨[.continuation], rfl,
      Scan.events_eq_react .visualBasic (char :: tail) rfl met
        (Transition.covered_of_length (List.cons_ne_nil _ _) rfl)⟩

/-- A block comment is one blank to references: a block with the comment and the block with a
blank in its place have the same references, up to their places, or fail alike.  The comment
is one that the scan meets, so it stands in the code of the block or of a hole. -/
theorem findReferences_blockComment
    {marker front body later : Text}
    {anchor : Position}
    (isBody : CSharp.IsCommentBody body)
    (opens :
      (Dialect.csharp marker).Meets anchor (front ++ ('/' :: '*' :: body ++ ['*', '/'] ++ later))
        front.length (.openComment 2))
    (context : ResolveContext)
    (flags : ItemFlags) :
    (findReferences (.csharp marker) context flags anchor
          (front ++ ('/' :: '*' :: body ++ ['*', '/'] ++ later))).map
        (List.map Reference.unplaced) =
      (findReferences (.csharp marker) context flags anchor (front ++ ' ' :: later)).map
        (List.map Reference.unplaced) :=
  ((CSharp.IsBlockComment.intro isBody).takesAsBlank marker anchor later).references_eq opens
    context flags

/-- A slash behind the opening of a comment does not end it, and the comment before a dot
separates as little as a blank. -/
theorem findReferences_blockComment_slash :
    let dialect : Dialect := .csharp defaultMarker
    let entry : Entry := ⟨['K'], ['V'], ⟨[], ['R'], none, []⟩⟩
    let context : ResolveContext := ⟨.ofList [entry], ⟨[], []⟩, none⟩
    let reference : Reference :=
      ⟨"R.K".toList, "R.K".toList, ['K'], ['V'], entry.origin, ⟨.start, .start⟩, .none⟩
    let block := "R/*/*/.K".toList
    CSharp.IsCommentBody ['/'] ∧
      dialect.Meets .start block 1 (.openComment 2) ∧
      (findReferences dialect context .none .start block).map (List.map Reference.unplaced) =
        .ok [reference] := by
  intro dialect entry context reference block
  have isBody : CSharp.IsCommentBody ['/'] := fun holdsEnd => by
    have short := holdsEnd.length_le
    contradiction
  have opens : dialect.Meets .start block 1 (.openComment 2) := by
    have second :
        (dialect.visited .start block)[1]? =
          some ⟨.initial, ⟨some 'R', "/*/*/.K".toList, ⟨1, 2, 1⟩⟩⟩ := by
      simp only [dialect, block]
      cbv
    exact ⟨_, List.mem_of_getElem? second, rfl, rfl⟩
  refine ⟨isBody, opens, ?_⟩
  refine (@findReferences_blockComment defaultMarker ['R'] ['/'] ".K".toList .start isBody opens
    context .none).trans ?_
  simp only [context, entry, reference]
  cbv

/-- A line continuation is one blank to references when the next line begins with neither an
underscore nor a line break; in front of these the blank could be part of a continuation. -/
theorem findReferences_continuation
    {front piece later : Text}
    {anchor : Position}
    (continues :
      Dialect.visualBasic.Meets anchor (front ++ (piece ++ later)) front.length
        (.continuation piece.length))
    (goesOn : ∀ char ∈ later.head?, char ∉ ['_', '\r', '\n'])
    (context : ResolveContext)
    (flags : ItemFlags) :
    (findReferences .visualBasic context flags anchor (front ++ (piece ++ later))).map
        (List.map Reference.unplaced) =
      (findReferences .visualBasic context flags anchor (front ++ ' ' :: later)).map
        (List.map Reference.unplaced) := by
  obtain ⟨scan, -, left, met⟩ := continues.exists_scan
  have found := VisualBasic.continuationLength?_of_classify met
  rw [left] at found
  exact (VisualBasic.takesAsBlank_continuation found goesOn anchor).references_eq continues
    context flags

/-- A name goes on behind the indentation of the next line. -/
theorem findReferences_continuation_indented :
    let entry : Entry := ⟨['K'], ['V'], ⟨[], ['R'], none, []⟩⟩
    let context : ResolveContext := ⟨.ofList [entry], ⟨[], []⟩, none⟩
    let reference : Reference :=
      ⟨"R.K".toList, "R.K".toList, ['K'], ['V'], entry.origin, ⟨.start, .start⟩, .none⟩
    let block := "R _\n  .K".toList
    Dialect.visualBasic.Meets .start block 1 (.continuation 5) ∧
      (∀ char ∈ ".K".toList.head?, char ∉ ['_', '\r', '\n']) ∧
      (findReferences .visualBasic context .none .start block).map
          (List.map Reference.unplaced) =
        .ok [reference] := by
  intro entry context reference block
  have continues : Dialect.visualBasic.Meets .start block 1 (.continuation 5) := by
    have second :
        (Dialect.visualBasic.visited .start block)[1]? =
          some ⟨.initial, ⟨some 'R', " _\n  .K".toList, ⟨1, 2, 1⟩⟩⟩ := by
      simp only [block]
      cbv
    exact ⟨_, List.mem_of_getElem? second, rfl, rfl⟩
  have goesOn : ∀ char ∈ ".K".toList.head?, char ∉ ['_', '\r', '\n'] := by
    intro char head
    cases head
    decide
  refine ⟨continues, goesOn, ?_⟩
  refine (@findReferences_continuation ['R'] " _\n  ".toList ".K".toList .start continues goesOn
    context .none).trans ?_
  simp only [context, entry, reference]
  cbv

end LocalizationScan
