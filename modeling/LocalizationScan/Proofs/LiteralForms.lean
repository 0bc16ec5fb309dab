import Mathlib
import LocalizationScan.Proofs.CSharp.Escapes
import LocalizationScan.Proofs.Lexical.StringForms
import LocalizationScan.Proofs.Results
import LocalizationScan.Proofs.Scan.Invariant

namespace LocalizationScan

/-!
# Forms of literals

Whatever text a scan meets, a literal that it finds is put together by the rules
of its language: an opening, a body of whole units, and a quote that the text
behind leaves alone.  The body of an open string is such a body at every moment
of the scan, and decoding takes it apart as the scan has put it together.
-/

/-- Whether decoding takes a body apart at its units: every backslash from which it takes an
escape is the one with which an escaped unit begins. -/
def CSharp.DecodesUnits (units : List BodyUnit) : Prop :=
  (escapePieces (printBody units)).flatMap unescape = unescape (printBody units) ∧
    ∀ front piece behind,
      escapePieces (printBody units) = front ++ ('\\' :: piece) :: behind →
        ∃ earlier char later,
          units = earlier ++ .escaped char :: later ∧ printBody earlier = front.flatten ∧
            piece.head? = some char

/-- How a literal is put together in front of the text that follows it. -/
inductive Literal.IsWritten (literal : Literal) : Dialect → (later : Text) → Prop where
  | line
      {marker later : Text}
      {units : List CSharp.BodyUnit}
      (fits : ∀ unit ∈ units, unit.Fits '"')
      (text : literal.text = '"' :: CSharp.printBody units ++ ['"'])
      (verbatim : literal.verbatim = false)
      (value :
        literal.value = (Dialect.csharp marker).decode .regular (CSharp.printBody units))
      (decodes : CSharp.DecodesUnits units) :
      IsWritten literal (.csharp marker) later
  | verbatim
      {marker later content : Text}
      (text : literal.text = '@' :: '"' :: CSharp.doubleQuotes content ++ ['"'])
      (verbatim : literal.verbatim = true)
      (value :
        literal.value =
          (Dialect.csharp marker).decode .verbatim (CSharp.doubleQuotes content))
      (alone : later.head? ≠ some '"') :
      IsWritten literal (.csharp marker) later
  | visualBasic
      {later content : Text}
      (text : literal.text = '"' :: CSharp.doubleQuotes content ++ ['"'])
      (verbatim : literal.verbatim = false)
      (value :
        literal.value = Dialect.visualBasic.decode .regular (CSharp.doubleQuotes content))
      (alone : later.head? ≠ some '"')
      (noSuffix :
        ∀ letter rest, later = letter :: rest → letter = 'c' ∨ letter = 'C' →
          rest.head?.any Text.isIdentifierChar = true) :
      IsWritten literal .visualBasic later

/-- Whether a string token stands in a block and has the form of its kind. -/
def StringToken.IsFormed
    (dialect : Dialect)
    (anchor : Position)
    (block : Text)
    (token : StringToken) :
    Prop :=
  ∃ before opening later,
    block = before ++ token.text ++ later ∧
      token.span = ⟨anchor.advanceOver before, anchor.advanceOver (before ++ token.text)⟩ ∧
      token.text = opening ++ token.body ++ ['"'] ∧
      dialect.Forms token.kind opening token.body ∧
      dialect.EndsBefore token.kind later

/-- Whether an open string that may be reported has begun with its opening and has whole
units behind it, as long as the text goes on. -/
structure Control.ReadsUnits
    (dialect : Dialect)
    (anchor : Position)
    (control : Control)
    (done rest : Text) :
    Prop where
  fitsDialect : control.FitsDialect dialect
  current :
    ∀ kind token, control.mode = .inString kind token → dialect.Reports kind → rest ≠ [] →
      ∃ before opening body,
        done = before ++ (opening ++ body) ∧
          token =
            ⟨anchor.advanceOver before, opening ++ body ++ rest, opening.length⟩ ∧
          dialect.Forms kind opening body

section Invariant

variable {dialect : Dialect} {anchor : Position} {block done piece later : Text}
  {control next : Control} {events : List Event}

/-- No string with holes may be reported, so none that goes on behind a hole is. -/
theorem Control.FitsDialect.not_reports_of_hole
    {hole : Hole}
    (fits : control.FitsDialect dialect)
    (waits : hole ∈ control.holes) :
    ¬ dialect.Reports hole.kind := by
  intro reports
  obtain ⟨interpolated, marker, rfl⟩ := fits.waiting hole waits
  rcases reports with same | same
  all_goals
    rw [same] at interpolated
    cases interpolated

theorem Control.ReadsUnits.move
    (reads : control.ReadsUnits dialect anchor done (piece ++ later))
    (nonempty : piece ≠ [])
    (covers :
      (dialect.classify control.lexicalState done.getLast? (piece ++ later)).covered
          (piece ++ later) =
        piece.length)
    (move :
      Move dialect done.getLast? (anchor.advanceOver done) piece later control events next) :
    next.ReadsUnits dialect anchor (done ++ piece) later := by
  refine ⟨reads.fitsDialect.move move, ?_⟩
  intro kind token mode reports goesOn
  cases move with
  | openString classified =>
      cases mode
      exact ⟨done, piece, [], by simp, by simp,
        Dialect.forms_of_openString classified reports⟩
  | stringText classified =>
      cases mode
      obtain ⟨before, opening, body, rfl, rfl, forms⟩ :=
        reads.current kind token rfl reports (by simp [nonempty])
      exact ⟨before, opening, body ++ piece, by simp, by simp,
        forms.grow classified covers nonempty goesOn⟩
  | closeHole =>
      cases mode
      exact absurd reports (reads.fitsDialect.not_reports_of_hole List.mem_cons_self)
  | _ =>
      cases mode

/-- A string that a move closes and that is reported has the form of its kind. -/
theorem Control.ReadsUnits.isFormed_closed
    (reads : control.ReadsUnits dialect anchor done (piece ++ later))
    (nonempty : piece ≠ [])
    (move :
      Move dialect done.getLast? (anchor.advanceOver done) piece later control events next)
    {token : StringToken}
    (closed : .stringClosed token ∈ events)
    (reported : token.emit = true) :
    token.IsFormed dialect anchor (done ++ (piece ++ later)) := by
  cases move with
  | @closeString kind opened emit _ _ holes classified =>
      cases List.mem_singleton.mp closed
      obtain ⟨rfl, -⟩ := Bool.and_eq_true_iff.mp reported
      obtain ⟨before, opening, body, rfl, rfl, forms⟩ :=
        reads.current kind opened rfl (Dialect.reports_of_closeString classified)
          (by simp [nonempty])
      obtain ⟨rfl, ends⟩ := forms.close classified nonempty
      have token :=
        Control.closeToken_advanceOver anchor
          (.inString kind
            ⟨anchor.advanceOver before, opening ++ body ++ (['"'] ++ later), opening.length⟩)
          holes kind true before opening body ['"'] later
      have shape : opening ++ body ++ ['"'] ++ later = opening ++ body ++ (['"'] ++ later) :=
        List.append_assoc ..
      rw [shape] at token
      rw [← Position.advanceOver_append, List.append_assoc before (opening ++ body) ['"'], token]
      exact ⟨before, opening, later, by simp, rfl, rfl, forms, ends⟩
  | _ =>
      simp at closed

theorem Scan.keeps_readsUnits
    (dialect : Dialect)
    (anchor : Position)
    (block : Text) :
    Scan.Keeps dialect anchor
      (fun control done rest =>
        done ++ rest = block ∧ control.ReadsUnits dialect anchor done rest)
      (fun event =>
        ∀ token, event = .stringClosed token → token.emit = true →
          token.IsFormed dialect anchor block) := by
  rintro control done piece later events next nonempty covers move ⟨rfl, reads⟩
  refine ⟨⟨List.append_assoc .., reads.move nonempty covers move⟩, ?_⟩
  rintro _ member token rfl reported
  exact reads.isFormed_closed nonempty move member reported

end Invariant

/-- The literal of a token that is formed is written as its language asks. -/
theorem StringToken.IsFormed.isWritten
    {dialect : Dialect}
    {anchor : Position}
    {block : Text}
    {token : StringToken}
    (formed : token.IsFormed dialect anchor block)
    (flags : ItemFlags)
    (marked : Bool) :
    ∃ before later,
      block = before ++ token.text ++ later ∧
        token.span = ⟨anchor.advanceOver before, anchor.advanceOver (before ++ token.text)⟩ ∧
        (Literal.ofToken dialect flags marked token).IsWritten dialect later := by
  obtain ⟨before, opening, later, shape, span, text, forms, ends⟩ := formed
  refine ⟨before, later, shape, span, ?_⟩
  obtain ⟨kind, _, body, _, _⟩ := token
  cases forms with
  | line fits =>
      exact .line fits text rfl rfl
        ⟨CSharp.flatMap_unescape_escapePieces _, fun _ _ _ =>
          CSharp.exists_escaped_of_escapePieces fits⟩
  | verbatim =>
      exact .verbatim text rfl rfl ends
  | doubled =>
      exact .visualBasic text rfl rfl ends.1 ends.2

/-- Every literal of any text is put together as its language asks, in front of what follows
it there, and its value is what decoding takes apart the same way. -/
theorem findLiterals_written
    (dialect : Dialect)
    (flags : ItemFlags)
    (anchor : Position)
    (block : Text)
    (items : List Literal)
    (found : findLiterals dialect flags anchor block = .ok items) :
    ∀ literal ∈ items,
      ∃ before later,
        block = before ++ literal.text ++ later ∧
          literal.span =
            ⟨anchor.advanceOver before, anchor.advanceOver (before ++ literal.text)⟩ ∧
          literal.IsWritten dialect later := by
  intro literal member
  obtain ⟨start, valid, rfl⟩ := Except.exists_of_map_eq_ok found
  obtain ⟨rfl, -⟩ := Position.asAnchor_advanceOver valid []
  obtain ⟨token, marked, closed, reported, rfl⟩ := exists_closed_of_mem_literalsOfEvents member
  have reads : Control.initial.ReadsUnits dialect start [] block :=
    ⟨Control.initial_fitsDialect dialect, fun _ _ mode => (nomatch mode)⟩
  have formed :=
    Scan.forall_mem_events (Scan.keeps_readsUnits dialect start block) .initial [] block
      ⟨rfl, reads⟩ _ closed token rfl reported
  exact formed.isWritten flags marked

/-- A string that is cut by its line, one whose escapes end in the middle of digits and right
before its quote, a quote between apostrophes, and a verbatim string of doubled quotes. -/
theorem findLiterals_written_malformed :
    ∃ items,
      findLiterals (.csharp defaultMarker) .none .start
          "\"open\\\n\"\\x00411\\\"\\q\\\\\"'@\"'@\"\"\"\"\"\"".toList =
        .ok items ∧
      items.map Literal.text =
        ["\"\\x00411\\\"\\q\\\\\"".toList, "@\"\"\"\"\"\"".toList] ∧
      ∀ literal ∈ items,
        ∃ before later,
          "\"open\\\n\"\\x00411\\\"\\q\\\\\"'@\"'@\"\"\"\"\"\"".toList =
              before ++ literal.text ++ later ∧
            literal.IsWritten (.csharp defaultMarker) later := by
  have scanned :
      findLiterals (.csharp defaultMarker) .none .start
          "\"open\\\n\"\\x00411\\\"\\q\\\\\"'@\"'@\"\"\"\"\"\"".toList =
        .ok
          [⟨"\"\\x00411\\\"\\q\\\\\"".toList, "A1\"\\q\\".toList,
              ⟨⟨2, 1, 7⟩, ⟨2, 16, 22⟩⟩, false, .none⟩,
            ⟨"@\"\"\"\"\"\"".toList, "\"\"".toList, ⟨⟨2, 20, 26⟩, ⟨2, 27, 33⟩⟩, true,
              .none⟩] := by
    cbv
  refine ⟨_, scanned, rfl, fun literal member => ?_⟩
  obtain ⟨before, later, shape, -, isWritten⟩ :=
    findLiterals_written (.csharp defaultMarker) .none .start _ _ scanned literal member
  exact ⟨before, later, shape, isWritten⟩

end LocalizationScan
