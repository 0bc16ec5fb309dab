import Mathlib
import LocalizationScan.Config.Basic
import LocalizationScan.Proofs.CSharp.Escapes
import LocalizationScan.Proofs.Literal.Marks
import LocalizationScan.Proofs.Results
import LocalizationScan.Proofs.Scan.Comments
import LocalizationScan.Proofs.Scan.QuotedStrings

namespace LocalizationScan

/-!
# Markers of valid configurations

The marker of a valid configuration begins and ends like a block comment.  When
it is one block comment, it marks the literal behind it.  A marker with an end
of a comment in its body is valid, too, but a scan meets no such comment, and
so it marks nothing.
-/

/-- Every character takes a byte at least. -/
theorem Text.length_le_byteLength (text : Text) :
    text.length ≤ Text.byteLength text := by
  induction text with
  | nil =>
      exact Nat.le_refl 0
  | cons char rest inductionHypothesis =>
      have positive := char.utf8Size_pos
      rw [Text.byteLength] at inductionHypothesis ⊢
      rw [List.foldr_cons, List.length_cons]
      omega

namespace Config

/-- What passes as a marker is what stands between the delimiters of a comment, with them. -/
theorem isBlockComment_iff (text : Text) :
    isBlockComment text = true ↔ ∃ body, text = '/' :: '*' :: body ++ ['*', '/'] := by
  constructor
  · intro delimited
    simp only [isBlockComment, Bool.and_eq_true, decide_eq_true_eq] at delimited
    obtain ⟨⟨opens, ends⟩, long⟩ := delimited
    obtain ⟨rest, opened⟩ := Option.isSome_iff_exists.mp opens
    rw [Text.withoutEnding?, Option.isSome_map] at ends
    obtain ⟨front, ended⟩ := Option.isSome_iff_exists.mp ends
    have shape := Text.eq_append_of_after? opened
    have shapeEnd : text = front.reverse ++ ['*', '/'] := by
      simpa using congrArg List.reverse (Text.eq_append_of_after? ended)
    subst shape
    -- The delimiters share no character, as the text has four bytes at least.
    match frontShape : front.reverse with
    | [] =>
        rw [frontShape] at shapeEnd
        cases shapeEnd
    | [first] =>
        rw [frontShape] at shapeEnd
        cases shapeEnd
        exact absurd long (by decide)
    | first :: second :: body =>
        rw [frontShape] at shapeEnd
        cases shapeEnd
        exact ⟨body, rfl⟩
  · rintro ⟨body, rfl⟩
    have long : 4 ≤ Text.byteLength ('/' :: '*' :: (body ++ ['*', '/'])) := by
      refine Nat.le_trans ?_ (Text.length_le_byteLength _)
      simp
    simp [isBlockComment, Text.after?, Text.withoutEnding?, long]

/-- A valid configuration has a marker between the delimiters of a comment. -/
theorem exists_body_of_validate
    {config : Config}
    (valid : config.validate = .ok ()) :
    ∃ body, config.noLocalizeComment = '/' :: '*' :: body ++ ['*', '/'] := by
  obtain ⟨_, -, valid⟩ := Except.exists_of_bind_eq_ok valid
  obtain ⟨_, -, valid⟩ := Except.exists_of_bind_eq_ok valid
  obtain ⟨_, -, valid⟩ := Except.exists_of_bind_eq_ok valid
  split at valid
  · rename_i isComment
    exact (isBlockComment_iff _).mp isComment
  · cases valid

end Config

namespace Scan

variable {marker done later : Text} {anchor : Position} {holes : List Hole}

/-- White space in code yields its characters. -/
theorem exists_events_blanks
    {blanks : Text}
    (areBlank : ∀ char ∈ blanks, Text.isBlank char = true) :
    ∃ produced,
      (∀ event ∈ produced,
          ∃ char position next, event = .code char position next ∧ Text.isBlank char = true) ∧
        events (.csharp marker) ⟨⟨.resting, holes⟩, .between anchor done (blanks ++ later)⟩ =
          produced ++
            events (.csharp marker)
              ⟨⟨.resting, holes⟩, .between anchor (done ++ blanks) later⟩ := by
  induction blanks generalizing done with
  | nil =>
      exact ⟨[], by simp, by simp⟩
  | cons char rest inductionHypothesis =>
      obtain ⟨isBlank, areBlankLater⟩ := List.forall_mem_cons.mp areBlank
      obtain ⟨produced, codes, scanned⟩ := @inductionHypothesis (done ++ [char]) areBlankLater
      refine ⟨.code char (anchor.advanceOver done) (rest ++ later).head? :: produced, ?_, ?_⟩
      · exact List.forall_mem_cons.mpr ⟨⟨_, _, _, rfl, isBlank⟩, codes⟩
      · have stays :
            CSharp.classify (Control.lexicalState ⟨.resting, holes⟩) ([char] ++ (rest ++ later)) =
              .stay :=
          CSharp.classify_of_isBlank (by cases holes <;> rfl) isBlank (rest ++ later)
        refine (events_eq_react (.csharp marker) [char] rfl stays
          (Transition.covered_of_length (by simp) rfl)).trans ?_
        simpa [Control.react] using scanned

/-- A string of plain text at the end of a block yields its opening and its token. -/
theorem events_plainString
    {body : Text}
    (plain : ∀ char ∈ body, char ∉ ['"', '\\', '\r', '\n']) :
    events (.csharp marker) ⟨.initial, .between anchor done ('"' :: body ++ ['"'])⟩ =
      [.stringOpened .regular (anchor.advanceOver done),
        .stringClosed
          ⟨.regular, '"' :: body ++ ['"'], body,
            ⟨anchor.advanceOver done, anchor.advanceOver (done ++ ('"' :: body ++ ['"']))⟩,
            true⟩] := by
  have fits : ∀ unit ∈ body.map CSharp.BodyUnit.plain, unit.Fits '"' := by
    intro unit member
    obtain ⟨char, memberChar, rfl⟩ := List.mem_map.mp member
    simpa [CSharp.BodyUnit.Fits] using plain char memberChar
  have printed : CSharp.printBody (body.map CSharp.BodyUnit.plain) = body := by
    rw [CSharp.printBody, List.flatMap_map]
    exact List.flatMap_singleton' body
  have scanned :=
    @events_string (.csharp marker) anchor [] .regular done [] '"' true '"' [] body rfl
      (fun _ => printed ▸ events_body fits fun _ => rfl) (fun _ => rfl)
  rw [List.append_nil, events_between_nil] at scanned
  exact scanned

end Scan

/-- A text without a backslash holds no escape. -/
theorem CSharp.unescape_of_not_mem
    {text : Text}
    (noEscape : '\\' ∉ text) :
    unescape text = text := by
  induction text with
  | nil =>
      exact unescape_nil
  | cons char rest inductionHypothesis =>
      rw [List.mem_cons, not_or] at noEscape
      rw [unescape_plain (Ne.symm noEscape.1), inductionHypothesis noEscape.2]

section Literals

variable {marker blanks body block : Text} {anchor : Position} {flags : ItemFlags}

/-- A marker that is one block comment marks a plain literal behind it. -/
theorem CSharp.literals_behindMarker
    (isComment : IsBlockComment marker)
    (areBlank : ∀ char ∈ blanks, Text.isBlank char = true)
    (plain : ∀ char ∈ body, char ∉ ['"', '\\', '\r', '\n']) :
    let token := '"' :: body ++ ['"']
    (Dialect.csharp marker).literals flags anchor (marker ++ blanks ++ token) =
      [{ text := token
         value := body
         span :=
           ⟨anchor.advanceOver (marker ++ blanks),
             anchor.advanceOver (marker ++ blanks ++ token)⟩
         verbatim := false
         flags := { flags with markedUnlocalizable := true } }] := by
  intro token
  have noEscape : '\\' ∉ body := fun member => plain _ member (by decide)
  have comment :=
    @Scan.events_blockComment marker (blanks ++ token) [] anchor [] marker isComment
  obtain ⟨produced, codes, white⟩ :=
    @Scan.exists_events_blanks marker marker token anchor [] blanks areBlank
  have string := @Scan.events_plainString marker (marker ++ blanks) anchor body plain
  have scanned :
      (Dialect.csharp marker).events anchor (marker ++ blanks ++ token) =
        .commentOpened :: .commentClosed marker :: (produced ++
          Scan.events (.csharp marker) ⟨.initial, .between anchor (marker ++ blanks) token⟩) := by
    rw [List.append_assoc]
    exact comment.trans
      (congrArg (fun behind => .commentOpened :: .commentClosed marker :: behind) white)
  simp only [Dialect.literals, scanned, token, string, literalsOfEvents,
    literalsOfEvents_blanks codes]
  simp [Event.literal?, MarkerState.next, Dialect.marker?, Literal.ofToken, Dialect.decode,
    CSharp.decode, CSharp.unescape_of_not_mem noEscape]

/-- A marker that is no block comment marks nothing. -/
theorem CSharp.unmarked_of_not_isBlockComment
    (noComment : ¬IsBlockComment marker)
    {literal : Literal}
    (member : literal ∈ (Dialect.csharp marker).literals flags anchor block) :
    literal.flags.markedUnlocalizable = false := by
  refine unmarked_of_mem_literalsOfEvents ?_ member
  rintro _ ⟨⟩ closed
  have beforeEnd : Control.initial.IsBeforeCommentEnd anchor [] block :=
    fun _ mode => (nomatch mode)
  exact noComment
    (((Dialect.csharp marker).run_events anchor block).isBlockComment_closed beforeEnd closed)

end Literals

/-- The marker of a valid configuration is delimited like a comment.  When it is one block
comment, it marks a plain literal that only white space separates from it; when a comment
ends in its body, nothing is marked at all. -/
theorem findLiterals_behindMarker
    {config : Config}
    (valid : config.validate = .ok ())
    {anchor : Position}
    (placed : anchor.asAnchor = .ok anchor)
    (flags : ItemFlags) :
    let marker := config.noLocalizeComment
    ∃ comment,
      marker = '/' :: '*' :: comment ++ ['*', '/'] ∧
        (CSharp.IsCommentBody comment →
          ∀ blanks body : Text,
            (∀ char ∈ blanks, Text.isBlank char = true) →
              (∀ char ∈ body, char ∉ ['"', '\\', '\r', '\n']) →
                let token := '"' :: body ++ ['"']
                findLiterals (.csharp marker) flags anchor (marker ++ blanks ++ token) =
                  .ok
                    [{ text := token
                       value := body
                       span :=
                         ⟨anchor.advanceOver (marker ++ blanks),
                           anchor.advanceOver (marker ++ blanks ++ token)⟩
                       verbatim := false
                       flags := { flags with markedUnlocalizable := true } }]) ∧
        (¬CSharp.IsCommentBody comment →
          ∀ block,
            ∃ items,
              findLiterals (.csharp marker) flags anchor block = .ok items ∧
                ∀ literal ∈ items, literal.flags.markedUnlocalizable = false) := by
  intro marker
  obtain ⟨comment, shape⟩ := Config.exists_body_of_validate valid
  refine ⟨comment, shape, ?_, ?_⟩
  · intro isBody blanks body areBlank plain token
    have isComment : CSharp.IsBlockComment marker := by
      rw [show marker = _ from shape, CSharp.isBlockComment_iff]
      exact isBody
    rw [findLiterals, placed]
    exact congrArg Except.ok (CSharp.literals_behindMarker isComment areBlank plain)
  · intro noBody block
    have noComment : ¬CSharp.IsBlockComment marker := by
      rw [show marker = _ from shape, CSharp.isBlockComment_iff]
      exact noBody
    refine ⟨_, by rw [findLiterals, placed]; rfl, ?_⟩
    intro literal member
    exact CSharp.unmarked_of_not_isBlockComment noComment member

/-- The marker of the default configuration marks the string behind it. -/
theorem findLiterals_behindMarker_default :
    Config.default.validate = .ok () ∧
      ∃ item,
        findLiterals (.csharp defaultMarker) .none .start
            (defaultMarker ++ " ".toList ++ ('"' :: "x".toList ++ ['"'])) =
          .ok [item] ∧
        item.value = "x".toList ∧ item.flags.markedUnlocalizable = true := by
  have valid : Config.default.validate = .ok () := by cbv
  obtain ⟨comment, shape, marks, -⟩ :=
    findLiterals_behindMarker valid (rfl : Position.start.asAnchor = .ok .start) .none
  have noEnd : '*' ∉ "VL_NO_LOC".toList := by decide
  have whole : defaultMarker = '/' :: '*' :: "VL_NO_LOC".toList ++ ['*', '/'] := by decide
  have isBody : CSharp.IsCommentBody comment := by
    refine CSharp.isBlockComment_iff.mp (shape ▸ ?_)
    rw [Config.default, whole]
    exact .intro fun holdsEnd => noEnd (holdsEnd.subset List.mem_cons_self)
  exact ⟨valid, _, marks isBody " ".toList "x".toList (by simp; decide) (by simp), rfl, rfl⟩

/-- A comment that ends in the body of a valid marker leaves the string behind it unmarked. -/
theorem findLiterals_behindMarker_innerEnd :
    let config := { Config.default with noLocalizeComment := "/*a*/b*/".toList }
    config.validate = .ok () ∧
      findLiterals (.csharp config.noLocalizeComment) .none .start
          (config.noLocalizeComment ++ " \"x\"".toList) =
        .ok
          [{ text := "\"x\"".toList
             value := "x".toList
             span := ⟨⟨1, 10, 9⟩, ⟨1, 13, 12⟩⟩
             verbatim := false
             flags := ItemFlags.none }] := by
  intro config
  simp only [config]
  constructor <;> cbv

end LocalizationScan
