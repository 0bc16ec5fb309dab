import LocalizationScan.Proofs.Lexical.StringForms
import LocalizationScan.Proofs.Literal.LineFeeds
import LocalizationScan.Proofs.Scan.QuotedStrings

namespace LocalizationScan

/-!
# Quoted texts

Any text can be written as one string, with its quotes doubled: as a verbatim
string in C# and as a string in Visual Basic.  On a line of its own behind code
it is found as one literal whose value is the text, whatever the code has ended
with.
-/

/-- A text as a string in which its quotes are doubled. -/
def Dialect.quoted (dialect : Dialect) (value : Text) : Text :=
  match dialect with
  | .csharp _ => '@' :: '"' :: CSharp.doubleQuotes value ++ ['"']
  | .visualBasic => '"' :: CSharp.doubleQuotes value ++ ['"']

/-- The kind of string in which quotes are doubled. -/
def Dialect.quotedKind : Dialect → StringKind
  | .csharp _ => .verbatim
  | .visualBasic => .regular

section Strings

variable {dialect : Dialect} {later : Text}

/-- Decoding takes one of each two quotes away. -/
theorem Dialect.decode_doubleQuotes (dialect : Dialect) (value : Text) :
    dialect.decode dialect.quotedKind (CSharp.doubleQuotes value) = value := by
  cases dialect <;> exact CSharp.halveQuotes_doubleQuotes value

theorem Dialect.doublesQuotes (dialect : Dialect) :
    dialect.DoublesQuotes dialect.quotedKind := by
  cases dialect with
  | csharp marker => exact .of_classifyVerbatim marker fun _ => rfl
  | visualBasic => exact doublesQuotes_visualBasic

/-- In front of a text that leaves it alone a quote ends the string. -/
theorem Dialect.classify_quote
    (ends : dialect.EndsBefore dialect.quotedKind later)
    (before : Option Char) :
    dialect.classify (.string dialect.quotedKind) before ('"' :: later) = .closeString 1 true := by
  cases dialect with
  | csharp marker =>
      cases later with
      | nil => rfl
      | cons first others =>
          have noQuote : first ≠ '"' := by simpa [EndsBefore, quotedKind] using ends
          simp [classify, CSharp.classify, CSharp.classifyString, CSharp.classifyVerbatim,
            quotedKind, noQuote]
  | visualBasic =>
      cases later with
      | nil => rfl
      | cons first others =>
          obtain ⟨noQuote, noSuffix⟩ := ends
          have noQuote : first ≠ '"' := by simpa using noQuote
          have noChar : VisualBasic.isCharSuffix (first :: others) = false := by
            by_cases isLetter : first = 'c' ∨ first = 'C'
            · have identifier := noSuffix first others rfl isLetter
              simp [VisualBasic.isCharSuffix, identifier]
            · rw [not_or] at isLetter
              simp [VisualBasic.isCharSuffix, isLetter]
          simp [classify, VisualBasic.classify, VisualBasic.classifyString, noQuote, noChar]

/-- A quoted text in code yields one string token, and code goes on behind it. -/
theorem Scan.events_quoted
    (ends : dialect.EndsBefore dialect.quotedKind later)
    (anchor : Position)
    (done value : Text) :
    events dialect ⟨.initial, .between anchor done (dialect.quoted value ++ later)⟩ =
      .stringOpened dialect.quotedKind (anchor.advanceOver done) ::
        .stringClosed
          ⟨dialect.quotedKind, dialect.quoted value, CSharp.doubleQuotes value,
            ⟨anchor.advanceOver done, anchor.advanceOver (done ++ dialect.quoted value)⟩, true⟩ ::
        events dialect ⟨.initial, .between anchor (done ++ dialect.quoted value) later⟩ := by
  have closes := Dialect.classify_quote ends
  have doubles := dialect.doublesQuotes
  cases dialect with
  | csharp marker =>
      exact @events_string _ anchor [] .verbatim done later '"' true '@' ['"']
        (CSharp.doubleQuotes value) rfl (fun _ => events_doubleQuotes doubles value) closes
  | visualBasic =>
      exact @events_string _ anchor [] .regular done later '"' true '"' []
        (CSharp.doubleQuotes value) rfl (fun _ => events_doubleQuotes doubles value) closes

/-- The literal of a quoted text at the start of a block has the text as its value. -/
theorem Dialect.exists_literalsOfEvents_quoted
    (ends : dialect.EndsBefore dialect.quotedKind later)
    (flags : ItemFlags)
    (state : MarkerState)
    (start : Position)
    (value : Text) :
    ∃ others,
      literalsOfEvents dialect flags state
          (dialect.events start (dialect.quoted value ++ later)) =
        ⟨dialect.quoted value, value, ⟨start, start.advanceOver (dialect.quoted value)⟩,
            dialect.quotedKind == .verbatim,
            { flags with markedUnlocalizable := state.pending }⟩ ::
          others := by
  have found :=
    congrArg (literalsOfEvents dialect flags state) (Scan.events_quoted ends start [] value)
  have decoded := dialect.decode_doubleQuotes value
  simp only [literalsOfEvents, Event.literal?, MarkerState.next, Literal.ofToken, decoded,
    ↓reduceIte, Option.toList_none, Option.toList_some, List.nil_append, List.singleton_append]
    at found
  exact ⟨_, found⟩

end Strings

/-- A text in quotes on a line behind code is one literal, behind those of the code, with the
text as its value. -/
theorem findLiterals_quoted
    (dialect : Dialect)
    (flags : ItemFlags)
    (anchor : Position)
    (block value later : Text)
    (inCode : dialect.finalState? anchor block = some .code)
    (ends : dialect.EndsBefore dialect.quotedKind later)
    (validLine : 1 ≤ anchor.line)
    (validColumn : 1 ≤ anchor.column) :
    let start := anchor.advanceOver (block ++ ['\n'])
    ∃ items marked others,
      findLiterals dialect flags anchor block = .ok items ∧
        start.offset = anchor.offset + block.length + 1 ∧
        findLiterals dialect flags anchor (block ++ '\n' :: (dialect.quoted value ++ later)) =
          .ok
            (items ++
              ⟨dialect.quoted value, value, ⟨start, start.advanceOver (dialect.quoted value)⟩,
                dialect.quotedKind == .verbatim,
                { flags with markedUnlocalizable := marked }⟩ :: others) := by
  intro start
  have unindented :
      dialect = .visualBasic →
        (dialect.quoted value ++ later).takeWhile VisualBasic.isLineBlank = [] := by
    rintro rfl
    rfl
  have goesOn :=
    Dialect.goesOn_feed (Scan.finalControl?_of_finalState? inCode) .code unindented
  obtain ⟨between, found, -⟩ := goesOn.exists_literalsOfEvents_eq dialect flags .initial
  obtain ⟨others, quoted⟩ :=
    Dialect.exists_literalsOfEvents_quoted ends flags between start value
  have valid := Position.asAnchor_of_one_le validLine validColumn
  refine ⟨dialect.literals flags anchor block, between.pending, others, ?_, ?_, ?_⟩
  · rw [findLiterals, valid]
    rfl
  · simp [start, Nat.add_assoc]
  · rw [quoted] at found
    rw [findLiterals, valid]
    exact congrArg Except.ok found

/-- A continuation that the line feed completes, and a text that begins and ends with quotes in
front of a name; and the same text in C# behind a marker comment. -/
theorem findLiterals_quoted_continued :
    let continued := "\"l\" _".toList
    let comment := "/*VL_NO_LOC*/".toList
    let value := "\"\n\"\"".toList
    let later := "cx".toList
    (∃ marked others,
        findLiterals .visualBasic .none .start
            (continued ++ '\n' :: (Dialect.visualBasic.quoted value ++ later)) =
          .ok
            (⟨"\"l\"".toList, ['l'], ⟨⟨1, 1, 0⟩, ⟨1, 4, 3⟩⟩, false, .none⟩ ::
              ⟨Dialect.visualBasic.quoted value, value, ⟨⟨2, 1, 6⟩, ⟨3, 6, 15⟩⟩, false,
                ⟨false, marked, false⟩⟩ :: others)) ∧
      ∃ marked others,
        findLiterals (.csharp defaultMarker) .none .start
            (comment ++ '\n' :: ((Dialect.csharp defaultMarker).quoted value ++ later)) =
          .ok
            (⟨(Dialect.csharp defaultMarker).quoted value, value, ⟨⟨2, 1, 14⟩, ⟨3, 6, 24⟩⟩, true,
              ⟨false, marked, false⟩⟩ :: others) := by
  intro continued comment value later
  have endsVisualBasic :
      Dialect.visualBasic.EndsBefore Dialect.visualBasic.quotedKind later := by
    refine ⟨by decide, ?_⟩
    intro letter rest shape _
    cases (List.cons.inj shape).2
    decide
  have endsCSharp :
      (Dialect.csharp defaultMarker).EndsBefore (Dialect.csharp defaultMarker).quotedKind
        later :=
    fun same => nomatch same
  constructor
  · have inCode : Dialect.visualBasic.finalState? .start continued = some .code := by
      simp only [continued]
      cbv
    have found :
        findLiterals .visualBasic .none .start continued =
          .ok [⟨"\"l\"".toList, ['l'], ⟨⟨1, 1, 0⟩, ⟨1, 4, 3⟩⟩, false, .none⟩] := by
      simp only [continued]
      cbv
    obtain ⟨items, marked, others, foundBlock, -, foundWhole⟩ :=
      findLiterals_quoted .visualBasic .none .start continued value later inCode
        endsVisualBasic (by decide) (by decide)
    cases foundBlock.symm.trans found
    exact ⟨marked, others, foundWhole⟩
  · have inCode : (Dialect.csharp defaultMarker).finalState? .start comment = some .code := by
      simp only [comment]
      cbv
    have found : findLiterals (.csharp defaultMarker) .none .start comment = .ok [] := by
      simp only [comment]
      cbv
    obtain ⟨items, marked, others, foundBlock, -, foundWhole⟩ :=
      findLiterals_quoted (.csharp defaultMarker) .none .start comment value later inCode
        endsCSharp (by decide) (by decide)
    cases foundBlock.symm.trans found
    exact ⟨marked, others, foundWhole⟩

end LocalizationScan
