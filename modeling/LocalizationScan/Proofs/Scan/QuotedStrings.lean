import LocalizationScan.Proofs.CSharp.TokenTree
import LocalizationScan.Proofs.Scan.Move

namespace LocalizationScan

/-!
# Quoted strings in a scan

A scan passes over the body of a string without an event, unit by unit or quote
by quote.  A string in code yields its opening and its whole token, and code
goes on behind it.
-/

/-- Whether the strings of a kind hold a quote only where it is written twice. -/
structure Dialect.DoublesQuotes (dialect : Dialect) (kind : StringKind) : Prop where
  doubled :
    ∀ before later,
      dialect.classify (.string kind) before ('"' :: '"' :: later) = .escape 2
  other :
    ∀ before char later, char ≠ '"' →
      dialect.classify (.string kind) before (char :: later) = .stay

theorem Dialect.DoublesQuotes.of_classifyVerbatim
    {kind : StringKind}
    {emit : Bool}
    (marker : Text)
    (verbatim : ∀ text, CSharp.classifyString kind text = CSharp.classifyVerbatim emit text) :
    DoublesQuotes (.csharp marker) kind where
  doubled := fun _ _ => verbatim _
  other := fun _ char later noQuote =>
    (verbatim _).trans (by simp [CSharp.classifyVerbatim, noQuote])

theorem Dialect.doublesQuotes_visualBasic :
    DoublesQuotes .visualBasic .regular where
  doubled := fun _ _ => rfl
  other := fun _ char later noQuote => by
    simp [classify, VisualBasic.classify, VisualBasic.classifyString, noQuote]

namespace Scan

variable {dialect : Dialect} {anchor : Position} {holes : List Hole} {kind : StringKind}
  {token : OpenToken} {done later : Text} {char quote : Char} {emit : Bool}

theorem events_stringStay
    (stays : dialect.classify (.string kind) done.getLast? (char :: later) = .stay) :
    events dialect ⟨⟨.inString kind token, holes⟩, .between anchor done (char :: later)⟩ =
      events dialect
        ⟨⟨.inString kind token, holes⟩, .between anchor (done ++ [char]) later⟩ :=
  @events_eq_react anchor ⟨.inString kind token, holes⟩ done later char dialect [char] .stay
    later rfl stays (Transition.covered_of_length (by simp) rfl)

theorem events_escape
    {second : Char}
    (escapes :
      dialect.classify (.string kind) done.getLast? (char :: second :: later) = .escape 2) :
    events dialect
        ⟨⟨.inString kind token, holes⟩, .between anchor done (char :: second :: later)⟩ =
      events dialect
        ⟨⟨.inString kind token, holes⟩, .between anchor (done ++ [char, second]) later⟩ :=
  @events_eq_react anchor ⟨.inString kind token, holes⟩ done later char dialect
    [char, second] (.escape 2) (second :: later) rfl escapes
    (Transition.covered_of_length (by simp) rfl)

/-- A scan passes over a text whose quotes are doubled. -/
theorem events_doubleQuotes
    (doubles : dialect.DoublesQuotes kind)
    (text : Text) :
    events dialect
        ⟨⟨.inString kind token, holes⟩,
          .between anchor done (CSharp.doubleQuotes text ++ later)⟩ =
      events dialect
        ⟨⟨.inString kind token, holes⟩,
          .between anchor (done ++ CSharp.doubleQuotes text) later⟩ := by
  induction text generalizing done with
  | nil =>
      simp [CSharp.doubleQuotes]
  | cons char rest inductionHypothesis =>
      simp only [CSharp.doubleQuotes, List.flatMap_cons, List.append_assoc]
      by_cases isQuote : char = '"'
      · subst isQuote
        refine (events_escape (doubles.doubled _ _)).trans (inductionHypothesis.trans ?_)
        simp [CSharp.doubleQuotes]
      · simp only [isQuote, ↓reduceIte]
        refine (events_stringStay (doubles.other _ _ _ isQuote)).trans ?_
        refine inductionHypothesis.trans ?_
        simp [CSharp.doubleQuotes]

theorem events_unit
    {marker : Text}
    {unit : CSharp.BodyUnit}
    (fits : unit.Fits quote)
    (line :
      CSharp.classifyString kind (unit.print ++ later) =
        CSharp.classifyLineString quote emit (unit.print ++ later)) :
    events (.csharp marker)
        ⟨⟨.inString kind token, holes⟩, .between anchor done (unit.print ++ later)⟩ =
      events (.csharp marker)
        ⟨⟨.inString kind token, holes⟩, .between anchor (done ++ unit.print) later⟩ := by
  cases unit with
  | plain char =>
      obtain ⟨noQuote, noBackslash, noReturn, noFeed⟩ := fits
      refine events_stringStay (line.trans ?_)
      simp [CSharp.BodyUnit.print, CSharp.classifyLineString, noQuote, noBackslash]
  | escaped char =>
      obtain ⟨noReturn, noFeed⟩ := fits
      refine events_escape (line.trans ?_)
      simp [CSharp.BodyUnit.print, CSharp.classifyLineString, noReturn, noFeed]

/-- A scan passes over the units in the body of a string that ends at its line. -/
theorem events_body
    {marker : Text}
    {body : List CSharp.BodyUnit}
    (fits : ∀ unit ∈ body, unit.Fits quote)
    (line :
      ∀ text, CSharp.classifyString kind text = CSharp.classifyLineString quote emit text) :
    events (.csharp marker)
        ⟨⟨.inString kind token, holes⟩,
          .between anchor done (CSharp.printBody body ++ later)⟩ =
      events (.csharp marker)
        ⟨⟨.inString kind token, holes⟩,
          .between anchor (done ++ CSharp.printBody body) later⟩ := by
  induction body generalizing done with
  | nil =>
      simp [CSharp.printBody]
  | cons unit rest inductionHypothesis =>
      obtain ⟨here, fitsBehind⟩ := List.forall_mem_cons.mp fits
      simp only [CSharp.printBody, List.flatMap_cons, List.append_assoc]
      rw [events_unit here (line _)]
      refine (inductionHypothesis fitsBehind).trans ?_
      simp only [CSharp.printBody, List.append_assoc]

/-- A string in code yields its opening and its token, and code goes on behind it. -/
theorem events_string
    {first : Char}
    {others body : Text}
    (opens :
      dialect.classify (Control.lexicalState ⟨.resting, holes⟩) done.getLast?
          (first :: others ++ (body ++ quote :: later)) =
        .openString kind (first :: others).length)
    (passes :
      ∀ token,
        events dialect
            ⟨⟨.inString kind token, holes⟩,
              .between anchor (done ++ first :: others) (body ++ quote :: later)⟩ =
          events dialect
            ⟨⟨.inString kind token, holes⟩,
              .between anchor (done ++ first :: others ++ body) (quote :: later)⟩)
    (closes :
      ∀ before,
        dialect.classify (.string kind) before (quote :: later) = .closeString 1 emit) :
    events dialect
        ⟨⟨.resting, holes⟩,
          .between anchor done (first :: others ++ body ++ [quote] ++ later)⟩ =
      .stringOpened kind (anchor.advanceOver done) ::
        .stringClosed
          ⟨kind, first :: others ++ body ++ [quote], body,
            ⟨anchor.advanceOver done,
              anchor.advanceOver (done ++ (first :: others ++ body ++ [quote]))⟩,
            emit && holes.isEmpty⟩ ::
        events dialect
          ⟨⟨.resting, holes⟩,
            .between anchor (done ++ (first :: others ++ body ++ [quote])) later⟩ := by
  obtain ⟨token, isToken⟩ :
      ∃ token : OpenToken,
        token =
          ⟨anchor.advanceOver done, first :: others ++ body ++ [quote] ++ later,
            (first :: others).length⟩ :=
    ⟨_, rfl⟩
  have opened :=
    @events_eq_react anchor ⟨.resting, holes⟩ done (body ++ quote :: later) first dialect
      (first :: others) _ _ rfl opens (Transition.covered_of_length (by simp) rfl)
  have ended :=
    @events_eq_react anchor ⟨.inString kind token, holes⟩ (done ++ first :: others ++ body)
      later quote dialect [quote] _ later rfl (closes _)
      (Transition.covered_of_length (by simp) rfl)
  have closed :=
    Control.closeToken_advanceOver anchor (.inString kind token) holes kind emit done
      (first :: others) body [quote] later
  have shape :
      first :: others ++ body ++ [quote] ++ later =
        first :: others ++ (body ++ quote :: later) := by
    simp
  rw [← isToken] at closed
  rw [shape] at isToken ⊢
  subst isToken
  refine opened.trans (congrArg (Event.stringOpened kind (anchor.advanceOver done) :: ·) ?_)
  refine (passes _).trans (ended.trans ?_)
  simp only [List.append_assoc, List.length_singleton] at closed ⊢
  simp only [Control.react, Cursor.between, closed]
  rfl

end Scan

end LocalizationScan
