import LocalizationScan.Proofs.CSharp.TokenTree
import LocalizationScan.Proofs.Literal.Emitted
import LocalizationScan.Proofs.Scan.Comments
import LocalizationScan.Proofs.Scan.QuotedStrings

namespace LocalizationScan.CSharp

/-!
# Literals behind a token

What a scan of C# still finds behind each kind of token.  A token passes when
the scan behind it finds what the scan in front of it does; only the end of a
string may add a literal.
-/

/-- The literals that a scan of C# finds from somewhere in a block on, without marks. -/
def literalsFrom
    (marker : Text)
    (flags : ItemFlags)
    (anchor : Position)
    (control : Control)
    (done rest : Text) :
    List Literal :=
  (emittedTokens
    (Scan.events (.csharp marker) ⟨control, .between anchor done rest⟩)).map
      (Literal.ofToken (.csharp marker) flags false)

section Steps

variable {marker : Text} {flags : ItemFlags} {anchor : Position} {control : Control}
  {holes : List Hole} {kind : StringKind} {token : OpenToken} {done piece later : Text}
  {char : Char}

/-- Where a scan yields the same events, it finds the same. -/
theorem literalsFrom_of_events_eq
    {control next : Control}
    {done doneNext rest restNext : Text}
    (same :
      Scan.events (.csharp marker) ⟨control, .between anchor done rest⟩ =
        Scan.events (.csharp marker) ⟨next, .between anchor doneNext restNext⟩) :
    literalsFrom marker flags anchor control done rest =
      literalsFrom marker flags anchor next doneNext restNext := by
  rw [literalsFrom, same]
  rfl

theorem literalsFrom_nil :
    literalsFrom marker flags anchor control done [] = [] := by
  rw [literalsFrom, Scan.events_between_nil]
  rfl

/-- What a scan finds is what the reaction to its transition completes and what is found
behind it. -/
theorem literalsFrom_eq_react
    (control : Control)
    (transition : Transition)
    (others : Text)
    (classified :
      classify control.lexicalState (char :: others ++ later) = transition)
    (covers :
      transition.covered (char :: others ++ later) = (char :: others).length) :
    literalsFrom marker flags anchor control done (char :: others ++ later) =
      let reaction :=
        control.react transition
          (.between anchor done (char :: others ++ later))
          (.between anchor (done ++ char :: others) later)
          (.code char (anchor.advanceOver done) later.head?)
      (emittedTokens reaction.1).map (Literal.ofToken (.csharp marker) flags false) ++
        literalsFrom marker flags anchor reaction.2 (done ++ char :: others) later := by
  simp only [literalsFrom]
  rw [Scan.events_eq_react (.csharp marker) (char :: others) rfl classified covers,
    emittedTokens_append, List.map_append]

theorem literalsFrom_code
    (classified :
      classify (Control.lexicalState ⟨.resting, holes⟩) (char :: later) = .stay) :
    literalsFrom marker flags anchor ⟨.resting, holes⟩ done (char :: later) =
      literalsFrom marker flags anchor ⟨.resting, holes⟩ (done ++ [char]) later :=
  literalsFrom_eq_react _ .stay [] classified
    (Transition.covered_of_length (by simp) rfl)

/-- An opening brace in a hole is counted. -/
theorem literalsFrom_openBrace
    {hole : Hole}
    {outer : List Hole} :
    literalsFrom marker flags anchor ⟨.resting, hole :: outer⟩ done ('\x7b' :: later) =
      literalsFrom marker flags anchor
        ⟨.resting, { hole with depth := hole.depth + 1 } :: outer⟩
        (done ++ ['\x7b']) later :=
  literalsFrom_eq_react _ (.brace true) [] rfl
    (Transition.covered_of_length (by simp) rfl)

/-- A closing brace in a hole takes one opening brace back. -/
theorem literalsFrom_closeBrace
    {hole : Hole}
    {outer : List Hole}
    (matched : hole.depth ≠ 0) :
    literalsFrom marker flags anchor ⟨.resting, hole :: outer⟩ done ('\x7d' :: later) =
      literalsFrom marker flags anchor
        ⟨.resting, { hole with depth := hole.depth - 1 } :: outer⟩
        (done ++ ['\x7d']) later := by
  refine (literalsFrom_eq_react _ (.brace false) [] rfl
    (Transition.covered_of_length (by simp) rfl)).trans ?_
  simp only [Control.react, Control.brace, matched, ↓reduceIte]
  rfl

/-- The brace that ends a hole goes back to the string around it. -/
theorem literalsFrom_closeHole
    {hole : Hole}
    {outer : List Hole}
    (unmatched : hole.depth = 0) :
    literalsFrom marker flags anchor ⟨.resting, hole :: outer⟩ done ('\x7d' :: later) =
      literalsFrom marker flags anchor ⟨.inString hole.kind hole.token, outer⟩
        (done ++ ['\x7d']) later := by
  refine (literalsFrom_eq_react _ (.brace false) [] rfl
    (Transition.covered_of_length (by simp) rfl)).trans ?_
  simp only [Control.react, Control.brace, unmatched, ↓reduceIte]
  rfl

theorem literalsFrom_lineComment
    {body : Text}
    (inLine : '\n' ∉ body)
    (lineEnd : later = [] ∨ later.head? = some '\n') :
    literalsFrom marker flags anchor ⟨.resting, holes⟩ done ('/' :: '/' :: body ++ later) =
      literalsFrom marker flags anchor ⟨.resting, holes⟩ (done ++ '/' :: '/' :: body)
        later := by
  have classified :
      classify (Control.lexicalState ⟨.resting, holes⟩) ('/' :: ('/' :: body) ++ later) =
        .lineComment := by
    cases holes <;> rfl
  exact literalsFrom_eq_react _ .lineComment ('/' :: body) classified
    (Transition.covered_lineComment (by simp) (by simpa using inLine) lineEnd)

theorem literalsFrom_stringStay
    (classified : classifyString kind (char :: later) = .stay) :
    literalsFrom marker flags anchor ⟨.inString kind token, holes⟩ done (char :: later) =
      literalsFrom marker flags anchor ⟨.inString kind token, holes⟩ (done ++ [char])
        later :=
  literalsFrom_of_events_eq (Scan.events_stringStay classified)

theorem literalsFrom_escape
    {second : Char}
    (classified : classifyString kind (char :: second :: later) = .escape 2) :
    literalsFrom marker flags anchor ⟨.inString kind token, holes⟩ done
        (char :: second :: later) =
      literalsFrom marker flags anchor ⟨.inString kind token, holes⟩
        (done ++ [char, second]) later :=
  literalsFrom_of_events_eq (Scan.events_escape classified)

/-- The opening brace of a hole suspends its string. -/
theorem literalsFrom_openHole
    (classified : classifyString kind ('\x7b' :: later) = .openHole) :
    literalsFrom marker flags anchor ⟨.inString kind token, holes⟩ done ('\x7b' :: later) =
      literalsFrom marker flags anchor ⟨.resting, ⟨kind, token, 0⟩ :: holes⟩
        (done ++ ['\x7b']) later :=
  literalsFrom_eq_react ⟨.inString kind token, holes⟩ .openHole [] classified
    (Transition.covered_of_length (by simp) rfl)

theorem literalsFrom_blockComment
    {body : Text}
    (isBody : IsCommentBody body) :
    literalsFrom marker flags anchor ⟨.resting, holes⟩ done
        ('/' :: '*' :: body ++ ['*', '/'] ++ later) =
      literalsFrom marker flags anchor ⟨.resting, holes⟩
        (done ++ ('/' :: '*' :: body ++ ['*', '/'])) later := by
  rw [literalsFrom, Scan.events_blockComment (.intro isBody)]
  rfl

theorem literalsFrom_openString
    {others : Text}
    (opens :
      classify (Control.lexicalState ⟨.resting, holes⟩) (char :: others ++ later) =
        .openString kind (char :: others).length) :
    literalsFrom marker flags anchor ⟨.resting, holes⟩ done (char :: others ++ later) =
      literalsFrom marker flags anchor
        ⟨.inString kind
          ⟨anchor.advanceOver done, char :: others ++ later, (char :: others).length⟩, holes⟩
        (done ++ char :: others) later :=
  literalsFrom_eq_react _ _ others opens (Transition.covered_of_length (by simp) rfl)

/-- The end of a string, which is found when it is reported. -/
theorem literalsFrom_closeString
    {opening body : Text}
    {quote : Char}
    {emit : Bool}
    (closes : classifyString kind (quote :: later) = .closeString 1 emit) :
    literalsFrom marker flags anchor
        ⟨.inString kind
          ⟨anchor.advanceOver done, opening ++ body ++ [quote] ++ later, opening.length⟩, holes⟩
        (done ++ opening ++ body) (quote :: later) =
      (if emit && holes.isEmpty then
          [printedLiteral { flags with markedUnlocalizable := false } kind opening body quote
            (anchor.advanceOver done)]
        else []) ++
        literalsFrom marker flags anchor ⟨.resting, holes⟩
          (done ++ (opening ++ body ++ [quote])) later := by
  have closed :=
    Control.closeToken_advanceOver anchor
      (.inString kind
        ⟨anchor.advanceOver done, opening ++ body ++ [quote] ++ later, opening.length⟩)
      holes kind emit done opening body [quote] later
  refine (literalsFrom_eq_react
    ⟨.inString kind
      ⟨anchor.advanceOver done, opening ++ body ++ [quote] ++ later, opening.length⟩, holes⟩
    (.closeString 1 emit) [] closes (Transition.covered_of_length (by simp) rfl)).trans ?_
  simp only [List.append_assoc, List.length_singleton] at closed ⊢
  simp only [Control.react, Cursor.between, closed]
  cases emit && holes.isEmpty
  · rfl
  · simp [emittedTokens, Event.emitted?, Literal.ofToken, printedLiteral,
      Position.advanceOver_append, Dialect.decode, Control.rest]

/-- A string passes in one piece and is found when it is reported, which it never is in a
hole. -/
theorem literalsFrom_string
    (kind : StringKind)
    (emit : Bool)
    {first quote : Char}
    {others body : Text}
    (opens :
      classify (Control.lexicalState ⟨.resting, holes⟩)
          (first :: others ++ (body ++ quote :: later)) =
        .openString kind (first :: others).length)
    (passes :
      ∀ token,
        literalsFrom marker flags anchor ⟨.inString kind token, holes⟩
            (done ++ first :: others) (body ++ quote :: later) =
          literalsFrom marker flags anchor ⟨.inString kind token, holes⟩
            (done ++ first :: others ++ body) (quote :: later))
    (closes : classifyString kind (quote :: later) = .closeString 1 emit) :
    literalsFrom marker flags anchor ⟨.resting, holes⟩ done
        (first :: others ++ body ++ [quote] ++ later) =
      (if emit && holes.isEmpty then
          [printedLiteral { flags with markedUnlocalizable := false } kind
            (first :: others) body quote (anchor.advanceOver done)]
        else []) ++
        literalsFrom marker flags anchor ⟨.resting, holes⟩
          (done ++ (first :: others ++ body ++ [quote])) later := by
  have shape :
      first :: others ++ body ++ [quote] ++ later =
        first :: others ++ (body ++ quote :: later) := by
    simp
  rw [shape, literalsFrom_openString opens, passes, ← shape, literalsFrom_closeString closes]

end Steps

section Bodies

variable {marker : Text} {flags : ItemFlags} {anchor : Position}
  {holes : List Hole} {kind : StringKind} {token : OpenToken} {done later : Text}

theorem literalsFrom_unit
    {unit : BodyUnit}
    {quote : Char}
    {emit : Bool}
    (fits : unit.Fits quote)
    (line :
      classifyString kind (unit.print ++ later) =
        classifyLineString quote emit (unit.print ++ later)) :
    literalsFrom marker flags anchor ⟨.inString kind token, holes⟩ done
        (unit.print ++ later) =
      literalsFrom marker flags anchor ⟨.inString kind token, holes⟩ (done ++ unit.print)
        later :=
  literalsFrom_of_events_eq (Scan.events_unit fits line)

theorem literalsFrom_body
    {body : List BodyUnit}
    {quote : Char}
    {emit : Bool}
    (fits : ∀ unit ∈ body, unit.Fits quote)
    (line : ∀ text, classifyString kind text = classifyLineString quote emit text) :
    literalsFrom marker flags anchor ⟨.inString kind token, holes⟩ done
        (printBody body ++ later) =
      literalsFrom marker flags anchor ⟨.inString kind token, holes⟩
        (done ++ printBody body) later :=
  literalsFrom_of_events_eq (Scan.events_body fits line)

theorem literalsFrom_verbatimChar
    {char : Char}
    {emit : Bool}
    (noQuote : char ≠ '"')
    (verbatim :
      classifyString kind (char :: later) = classifyVerbatim emit (char :: later)) :
    literalsFrom marker flags anchor ⟨.inString kind token, holes⟩ done (char :: later) =
      literalsFrom marker flags anchor ⟨.inString kind token, holes⟩ (done ++ [char])
        later := by
  refine literalsFrom_stringStay (verbatim.trans ?_)
  simp [classifyVerbatim, noQuote]

theorem literalsFrom_doubleQuotes
    {text : Text}
    {emit : Bool}
    (verbatim : ∀ text, classifyString kind text = classifyVerbatim emit text) :
    literalsFrom marker flags anchor ⟨.inString kind token, holes⟩ done
        (doubleQuotes text ++ later) =
      literalsFrom marker flags anchor ⟨.inString kind token, holes⟩
        (done ++ doubleQuotes text) later :=
  literalsFrom_of_events_eq
    (Scan.events_doubleQuotes (.of_classifyVerbatim marker verbatim) text)

end Bodies

end LocalizationScan.CSharp
