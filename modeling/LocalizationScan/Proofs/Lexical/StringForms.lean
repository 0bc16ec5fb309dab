import LocalizationScan.Proofs.CSharp.TokenTree
import LocalizationScan.Proofs.Scan.Strings

namespace LocalizationScan

/-!
# Forms of reported strings

A string that can be reported has one of three forms, which fix its opening and
the units of its body.  The transitions of a dialect keep to the forms: what
opens such a string is its opening, what goes on with it adds whole units to the
body, and what ends it is a quote that the text behind leaves alone.
-/

/-- The opening and the bodies of the strings of a kind that is reported. -/
inductive Dialect.Forms : Dialect → StringKind → (opening body : Text) → Prop where
  | line
      {marker : Text}
      {units : List CSharp.BodyUnit}
      (fits : ∀ unit ∈ units, unit.Fits '"') :
      Forms (.csharp marker) .regular ['"'] (CSharp.printBody units)
  | verbatim
      {marker content : Text} :
      Forms (.csharp marker) .verbatim ['@', '"'] (CSharp.doubleQuotes content)
  | doubled
      {content : Text} :
      Forms .visualBasic .regular ['"'] (CSharp.doubleQuotes content)

/-- Whether a string of a kind is over at a quote in front of a text: where quotes are
doubled no quote follows, and in Visual Basic no suffix of a character literal. -/
def Dialect.EndsBefore (dialect : Dialect) (kind : StringKind) (later : Text) : Prop :=
  match dialect, kind with
  | .csharp _, .verbatim => later.head? ≠ some '"'
  | .csharp _, _ => True
  | .visualBasic, _ =>
      later.head? ≠ some '"' ∧
        ∀ letter rest, later = letter :: rest → letter = 'c' ∨ letter = 'C' →
          rest.head?.any Text.isIdentifierChar = true

/-- The kinds of strings that a dialect may report. -/
def Dialect.Reports : Dialect → StringKind → Prop
  | .csharp _, kind => kind = .regular ∨ kind = .verbatim
  | .visualBasic, _ => True

section Pieces

variable {piece later : Text}

theorem Transition.exists_of_covered_stay
    (covers : stay.covered (piece ++ later) = piece.length)
    (nonempty : piece ≠ []) :
    ∃ char, piece = [char] := by
  have positive := List.length_pos_iff.mpr nonempty
  rw [covered, List.length_append] at covers
  exact List.length_eq_one_iff.mp (by omega)

/-- An escape covers two characters, unless the text ends there. -/
theorem Transition.exists_of_covered_escape
    (covers : (escape 2).covered (piece ++ later) = piece.length)
    (goesOn : later ≠ []) :
    ∃ first second, piece = [first, second] := by
  have positive := List.length_pos_iff.mpr goesOn
  rw [covered, List.length_append] at covers
  exact List.length_eq_two.mp (by omega)

end Pieces

namespace CSharp

section Bodies

theorem printBody_concat (units : List BodyUnit) (unit : BodyUnit) :
    printBody (units ++ [unit]) = printBody units ++ unit.print := by
  simp [printBody]

theorem doubleQuotes_concat_quote (content : Text) :
    doubleQuotes (content ++ ['"']) = doubleQuotes content ++ ['"', '"'] := by
  simp [doubleQuotes]

theorem doubleQuotes_concat
    {char : Char}
    (noQuote : char ≠ '"')
    (content : Text) :
    doubleQuotes (content ++ [char]) = doubleQuotes content ++ [char] := by
  simp [doubleQuotes, noQuote]

end Bodies

section Transitions

variable {quote char second : Char} {emit reported : Bool} {later : Text} {length : Nat}

theorem fits_plain_of_stay
    (stays : classifyLineString quote emit (char :: later) = .stay) :
    (BodyUnit.plain char).Fits quote := by
  revert stays
  generalize text : char :: later = rest
  fun_cases classifyLineString quote emit rest with
  | case1 =>
      cases text
  | case8 _ _ _ _ noBackslash noReturn noFeed noQuote =>
      cases text
      exact fun _ => ⟨noQuote, noBackslash, noReturn, noFeed⟩
  | _ =>
      intro stays
      cases stays

theorem fits_escaped_of_escape
    (escapes : classifyLineString quote emit (char :: second :: later) = .escape length) :
    char = '\\' ∧ (BodyUnit.escaped second).Fits quote := by
  revert escapes
  generalize text : char :: second :: later = rest
  fun_cases classifyLineString quote emit rest with
  | case4 behind noReturn noFeed =>
      cases text
      intro _
      exact ⟨rfl, fun same => noReturn _ (by rw [same]), fun same => noFeed _ (by rw [same])⟩
  | _ =>
      intro escapes
      cases escapes

theorem eq_quote_of_closeString
    (closes : classifyLineString quote emit (char :: later) = .closeString length reported) :
    char = quote ∧ length = 1 := by
  revert closes
  generalize text : char :: later = rest
  fun_cases classifyLineString quote emit rest with
  | case7 =>
      cases text
      intro closes
      cases closes
      exact ⟨rfl, rfl⟩
  | _ =>
      intro closes
      cases closes

theorem ne_quote_of_stay
    (stays : classifyVerbatim emit (char :: later) = .stay) :
    char ≠ '"' := by
  revert stays
  generalize text : char :: later = rest
  fun_cases classifyVerbatim emit rest with
  | case3 _ _ noQuote =>
      cases text
      rintro - rfl
      exact noQuote later rfl
  | _ =>
      intro stays
      cases stays

theorem eq_quotes_of_escape
    (escapes : classifyVerbatim emit (char :: second :: later) = .escape length) :
    char = '"' ∧ second = '"' := by
  revert escapes
  generalize text : char :: second :: later = rest
  fun_cases classifyVerbatim emit rest with
  | case1 =>
      cases text
      exact fun _ => ⟨rfl, rfl⟩
  | _ =>
      intro escapes
      cases escapes

theorem endsBefore_of_closeString
    (closes : classifyVerbatim emit (char :: later) = .closeString length reported) :
    char = '"' ∧ length = 1 ∧ later.head? ≠ some '"' := by
  revert closes
  generalize text : char :: later = rest
  fun_cases classifyVerbatim emit rest with
  | case2 behind alone =>
      cases text
      intro closes
      cases closes
      refine ⟨rfl, rfl, fun follows => ?_⟩
      obtain ⟨others, rfl⟩ := List.head?_eq_some_iff.mp follows
      exact alone others rfl
  | _ =>
      intro closes
      cases closes

/-- The openings of regular and verbatim strings. -/
theorem opening_of_openString
    {kind : StringKind}
    {rest : Text}
    (opens : classifyCode rest = .openString kind length)
    (reports : kind = .regular ∨ kind = .verbatim) :
    kind = .regular ∧ rest.take length = ['"'] ∨
      kind = .verbatim ∧ rest.take length = ['@', '"'] := by
  revert opens
  fun_cases classifyCode rest with
  | case3 =>
      intro opens
      cases opens
      exact .inl ⟨rfl, rfl⟩
  | case5 =>
      intro opens
      cases opens
      exact .inr ⟨rfl, rfl⟩
  | case4 | case6 | case7 | case8 =>
      intro opens
      cases opens
      rcases reports with same | same <;> cases same
  | _ =>
      intro opens
      cases opens

/-- A hole adds braces to what code begins. -/
theorem classifyCode_of_classifyHole
    {kind : StringKind}
    {rest : Text}
    (opens : classifyHole rest = .openString kind length) :
    classifyCode rest = .openString kind length := by
  revert opens
  fun_cases classifyHole rest with
  | case3 =>
      exact id
  | _ =>
      intro opens
      cases opens

end Transitions

end CSharp

namespace VisualBasic

variable {char second : Char} {later : Text} {length : Nat}

theorem ne_quote_of_stay
    (stays : classifyString (char :: later) = .stay) :
    char ≠ '"' := by
  revert stays
  generalize text : char :: later = rest
  fun_cases classifyString rest with
  | case4 _ _ noQuote =>
      cases text
      rintro - rfl
      exact noQuote later rfl
  | _ =>
      intro stays
      cases stays

theorem eq_quotes_of_escape
    (escapes : classifyString (char :: second :: later) = .escape length) :
    char = '"' ∧ second = '"' := by
  revert escapes
  generalize text : char :: second :: later = rest
  fun_cases classifyString rest with
  | case1 =>
      cases text
      exact fun _ => ⟨rfl, rfl⟩
  | _ =>
      intro escapes
      cases escapes

theorem endsBefore_of_closeString
    {kind : StringKind}
    (closes : classifyString (char :: later) = .closeString length true) :
    char = '"' ∧ length = 1 ∧ Dialect.visualBasic.EndsBefore kind later := by
  revert closes
  generalize text : char :: later = rest
  fun_cases classifyString rest with
  | case3 behind alone noSuffix =>
      cases text
      intro closes
      cases closes
      refine ⟨rfl, rfl, fun follows => ?_, ?_⟩
      · obtain ⟨others, rfl⟩ := List.head?_eq_some_iff.mp follows
        exact alone others rfl
      · rintro letter others rfl isLetter
        rw [← Bool.not_eq_false]
        intro noIdentifier
        exact noSuffix (by simpa [isCharSuffix, noIdentifier] using isLetter)
  | _ =>
      intro closes
      cases closes

end VisualBasic

namespace Dialect

variable {dialect : Dialect} {kind : StringKind} {before : Option Char}
  {opening body piece later : Text}

/-- What opens a string that may be reported is the opening of its form. -/
theorem forms_of_openString
    {holes : List Hole}
    (opens :
      dialect.classify (Control.lexicalState ⟨.resting, holes⟩) before (piece ++ later) =
        .openString kind piece.length)
    (reports : dialect.Reports kind) :
    dialect.Forms kind piece [] := by
  cases dialect with
  | csharp marker =>
      have inCode : CSharp.classifyCode (piece ++ later) = .openString kind piece.length := by
        cases holes with
        | nil => exact opens
        | cons hole outer => exact CSharp.classifyCode_of_classifyHole opens
      have taken := CSharp.opening_of_openString inCode reports
      rw [List.take_left] at taken
      rcases taken with ⟨rfl, rfl⟩ | ⟨rfl, rfl⟩
      · exact @Forms.line marker [] (List.forall_mem_nil _)
      · exact @Forms.verbatim marker []
  | visualBasic =>
      have taken := VisualBasic.opening_of_openString opens
      rw [List.take_left] at taken
      obtain ⟨rfl, rfl⟩ := taken
      exact @Forms.doubled []

/-- What goes on with a string adds units to its body. -/
theorem Forms.grow
    (forms : dialect.Forms kind opening body)
    (classified :
      dialect.classify (.string kind) before (piece ++ later) = .stay ∨
        dialect.classify (.string kind) before (piece ++ later) = .escape 2)
    (covers :
      (dialect.classify (.string kind) before (piece ++ later)).covered (piece ++ later) =
        piece.length)
    (nonempty : piece ≠ [])
    (goesOn : later ≠ []) :
    dialect.Forms kind opening (body ++ piece) := by
  rcases classified with stays | escapes
  · rw [stays] at covers
    obtain ⟨char, rfl⟩ := Transition.exists_of_covered_stay covers nonempty
    cases forms with
    | @line _ units fits =>
        have fitsHere := CSharp.fits_plain_of_stay stays
        have longer := CSharp.printBody_concat units (.plain char)
        exact longer ▸ .line (List.forall_mem_append.mpr
          ⟨fits, List.forall_mem_singleton.mpr fitsHere⟩)
    | @verbatim _ content =>
        rw [← CSharp.doubleQuotes_concat (CSharp.ne_quote_of_stay stays)]
        exact .verbatim
    | @doubled content =>
        rw [← CSharp.doubleQuotes_concat (VisualBasic.ne_quote_of_stay stays)]
        exact .doubled
  · rw [escapes] at covers
    obtain ⟨first, second, rfl⟩ := Transition.exists_of_covered_escape covers goesOn
    cases forms with
    | @line _ units fits =>
        obtain ⟨rfl, fitsHere⟩ := CSharp.fits_escaped_of_escape escapes
        have longer := CSharp.printBody_concat units (.escaped second)
        exact longer ▸ .line (List.forall_mem_append.mpr
          ⟨fits, List.forall_mem_singleton.mpr fitsHere⟩)
    | @verbatim _ content =>
        obtain ⟨rfl, rfl⟩ := CSharp.eq_quotes_of_escape escapes
        rw [← CSharp.doubleQuotes_concat_quote]
        exact .verbatim
    | @doubled content =>
        obtain ⟨rfl, rfl⟩ := VisualBasic.eq_quotes_of_escape escapes
        rw [← CSharp.doubleQuotes_concat_quote]
        exact .doubled

/-- What ends a string that is reported is a quote. -/
theorem Forms.close
    (forms : dialect.Forms kind opening body)
    (closes :
      dialect.classify (.string kind) before (piece ++ later) =
        .closeString piece.length true)
    (nonempty : piece ≠ []) :
    piece = ['"'] ∧ dialect.EndsBefore kind later := by
  obtain ⟨char, others, rfl⟩ := List.exists_cons_of_ne_nil nonempty
  have single (length : (char :: others).length = 1) : others = [] := by
    simpa using length
  cases forms with
  | line =>
      obtain ⟨rfl, length⟩ := CSharp.eq_quote_of_closeString closes
      cases single length
      exact ⟨rfl, trivial⟩
  | verbatim =>
      obtain ⟨rfl, length, ends⟩ := CSharp.endsBefore_of_closeString closes
      cases single length
      exact ⟨rfl, ends⟩
  | doubled =>
      obtain ⟨rfl, length, ends⟩ := VisualBasic.endsBefore_of_closeString closes
      cases single length
      exact ⟨rfl, ends⟩

/-- Strings of other kinds than those that may be reported are not. -/
theorem reports_of_closeString
    {rest : Text}
    {length : Nat}
    (closes : dialect.classify (.string kind) before rest = .closeString length true) :
    dialect.Reports kind := by
  cases dialect with
  | visualBasic =>
      trivial
  | csharp marker =>
      have plain := CSharp.isInterpolated_of_closeString closes
      cases kind with
      | regular => exact .inl rfl
      | verbatim => exact .inr rfl
      | char => cases CSharp.eq_of_classifyLineString_closeString closes
      | interpolated | interpolatedVerbatim => cases plain

end Dialect

end LocalizationScan
