import LocalizationScan.Proofs.PrintedScopes
import LocalizationScan.Proofs.Scope.Operations
import LocalizationScan.Proofs.Text.Words

namespace LocalizationScan

/-!
# The case of keywords

The scope of a Visual Basic file does not depend on the case of the letters that
its declarations begin with: the keywords `Imports` and `Namespace` are found in
any spelling, line by line.  The word `Global` that leads out of the root namespace
is found in one spelling only; in another one it is the name of a namespace that
lies in the root namespace.
-/

namespace Text

variable {char other letter : Char}

/-- Lowering the case makes letters of letters and leaves everything else alone. -/
theorem toLower_eq_iff
    (noLetter : other.isAlpha = false) :
    char.toLower = other ↔ char = other := by
  by_cases isUpper : char.isUpper = true
  · have isLetter : char.toLower.isAlpha = true := by
      have bounds : 65 ≤ char.toNat ∧ char.toNat ≤ 90 := by
        simpa [Char.isUpper, UInt32.le_iff_toNat_le] using isUpper
      have all : ∀ index < 26, (Char.ofNat (65 + index)).toLower.isAlpha = true := by decide
      have here := all (char.toNat - 65) (by omega)
      rwa [Nat.add_sub_cancel' bounds.1, Char.ofNat_toNat] at here
    constructor
    · rintro rfl
      cases noLetter.symm.trans isLetter
    · rintro rfl
      simp [Char.isAlpha, isUpper] at noLetter
  · rw [Char.toLower_eq_of_not_isUpper isUpper]

theorem beq_congr_of_toLower
    (same : char.toLower = other.toLower)
    (sign : Char)
    (noLetter : sign.isAlpha = false) :
    (char == sign) = (other == sign) := by
  rw [Bool.eq_iff_iff, beq_iff_eq, beq_iff_eq, ← toLower_eq_iff noLetter, same,
    toLower_eq_iff noLetter]

theorem foldsTo_congr
    (same : char.toLower = other.toLower) :
    foldsTo letter char = foldsTo letter other := by
  rw [foldsTo, foldsTo, same, beq_congr_of_toLower same 'ſ' (by decide),
    beq_congr_of_toLower same '\u212a' (by decide)]

end Text

namespace VisualBasic

variable {line other later rest : Text}

/-- Whether two lines differ at most in the case of ASCII letters of their first word, which
is where declarations have their keyword. -/
inductive RecasesFirstWord : Text → Text → Prop where
  | same (line : Text) : RecasesFirstWord line line
  | recased
      {indent word other rest : Text}
      (indentBlank : ∀ char ∈ indent, isLineBlank char = true)
      (inWord : ∀ char ∈ word, isLineBlank char = false)
      (sameLetters : Text.equalIgnoringCase word other = true) :
      RecasesFirstWord (indent ++ (word ++ rest)) (indent ++ (other ++ rest))

theorem isLineBlank_congr
    {char other : Char}
    (same : char.toLower = other.toLower) :
    isLineBlank char = isLineBlank other := by
  rw [isLineBlank, isLineBlank, Text.beq_congr_of_toLower same ' ' (by decide),
    Text.beq_congr_of_toLower same '\t' (by decide)]

/-- Behind a keyword comes a blank, so the word where it is looked for is taken as a whole or
not at all, in any case of its letters. -/
theorem afterFolded?_recased
    {keyword word other : Text}
    (inWord : ∀ char ∈ word, isLineBlank char = false)
    (sameLetters : word.map Char.toLower = other.map Char.toLower) :
    (Text.afterFolded? keyword (word ++ rest)).bind (Text.afterSome? isLineBlank) =
      (Text.afterFolded? keyword (other ++ rest)).bind (Text.afterSome? isLineBlank) := by
  induction word generalizing keyword other with
  | nil =>
      obtain rfl := List.map_eq_nil_iff.mp sameLetters.symm
      rfl
  | cons char word inductionHypothesis =>
      cases other with
      | nil => cases sameLetters
      | cons recased other =>
          obtain ⟨sameHere, sameLater⟩ := List.cons.inj sameLetters
          obtain ⟨noBlank, inRest⟩ := List.forall_mem_cons.mp inWord
          cases keyword with
          | nil =>
              simp [Text.afterFolded?, Text.afterSome?, noBlank, ← isLineBlank_congr sameHere]
          | cons letter keyword =>
              rw [List.cons_append, List.cons_append, Text.afterFolded?, Text.afterFolded?,
                Text.foldsTo_congr sameHere]
              split
              · exact inductionHypothesis inRest sameLater
              · rfl

/-- A keyword is found in a line in whatever case its first word is. -/
theorem RecasesFirstWord.afterKeyword?_eq
    (recases : RecasesFirstWord line other)
    (keyword : Text) :
    afterKeyword? keyword line = afterKeyword? keyword other := by
  cases recases with
  | same => rfl
  | @recased indent word recased rest indentBlank inWord sameLetters =>
      have sameLetters : word.map Char.toLower = recased.map Char.toLower :=
        beq_iff_eq.mp sameLetters
      cases word with
      | nil =>
          obtain rfl := List.map_eq_nil_iff.mp sameLetters.symm
          rfl
      | cons char word =>
          cases recased with
          | nil => cases sameLetters
          | cons changed recased =>
              have noBlank := inWord char List.mem_cons_self
              have noBlankChanged := isLineBlank_congr (List.cons.inj sameLetters).1 ▸ noBlank
              rw [afterKeyword?, afterKeyword?,
                Text.dropWhile_run indentBlank (by rintro _ ⟨⟩; exact noBlank),
                Text.dropWhile_run indentBlank (by rintro _ ⟨⟩; exact noBlankChanged)]
              exact afterFolded?_recased inWord sameLetters

/-! ## Declarations line by line -/

/-- What follows a keyword as far as it passes a test, which is how both declarations are read. -/
def behindKeyword? (keyword : Text) (test : Char → Bool) (text : Text) : Option (Text × Text) :=
  (afterKeyword? keyword text).bind (Text.takeSome? test)

section Lines

variable {keyword : Text} {test : Char → Bool}

theorem afterKeyword?_line
    (inLine : '\n' ∉ keyword)
    (endsLine : Text.EndsLine later) :
    afterKeyword? keyword (line ++ later) = (afterKeyword? keyword line).map (· ++ later) := by
  rw [afterKeyword?, afterKeyword?, Text.dropWhile_line (by decide) endsLine,
    Text.afterFolded?_line inLine endsLine]
  cases Text.afterFolded? keyword (line.dropWhile isLineBlank) with
  | none => rfl
  | some rest => exact Text.afterSome?_line (by decide) endsLine

theorem behindKeyword?_line
    (inLine : '\n' ∉ keyword)
    (fails : test '\n' = false)
    (endsLine : Text.EndsLine later) :
    behindKeyword? keyword test (line ++ later) =
      (behindKeyword? keyword test line).map fun (value, rest) => (value, rest ++ later) := by
  rw [behindKeyword?, behindKeyword?, afterKeyword?_line inLine endsLine]
  cases afterKeyword? keyword line with
  | none => rfl
  | some rest => exact Text.takeSome?_line fails endsLine

theorem length_afterKeyword?_le
    {text : Text}
    (found : afterKeyword? keyword text = some rest) :
    rest.length ≤ text.length := by
  obtain ⟨behind, isBehind, spaced⟩ := Option.bind_eq_some_iff.mp found
  calc
    rest.length
    _ ≤ behind.length := (Text.length_afterSome?_lt spaced).le
    _ ≤ (text.dropWhile isLineBlank).length := Text.length_afterFolded?_le isBehind
    _ ≤ text.length := (List.dropWhile_suffix isLineBlank).length_le

theorem shortens_behindKeyword? (keyword : Text) (test : Char → Bool) :
    Text.Shortens (behindKeyword? keyword test) := by
  intro text value rest found
  obtain ⟨behind, isBehind, taken⟩ := Option.bind_eq_some_iff.mp found
  exact (Text.length_takeSome?_lt taken).trans_le (length_afterKeyword?_le isBehind)

/-- Declarations are read off the lines of a text one by one. -/
theorem readLines_behindKeyword?
    (inLine : '\n' ∉ keyword)
    (fails : test '\n' = false)
    (content : Text) :
    Text.readLines (behindKeyword? keyword test) content =
      (Text.splitOn '\n' content).filterMap fun line =>
        (behindKeyword? keyword test line).map Prod.fst := by
  have inThis : ∀ line ∈ Text.splitOn '\n' content, '\n' ∉ id line := fun _ member =>
    Text.not_mem_of_mem_splitOn member
  have lines :=
    Text.readLines_joinWith (shortens_behindKeyword? keyword test) inThis fun line _ =>
      Text.readsLine_of_append fun _ => behindKeyword?_line inLine fails
  rwa [List.map_id, Text.joinWith_splitOn] at lines

/-- The same declarations are read off lines whose first words are in another case. -/
theorem readLines_recased
    (inLine : '\n' ∉ keyword)
    (fails : test '\n' = false)
    {content recased : Text}
    (recases :
      List.Forall₂ RecasesFirstWord (Text.splitOn '\n' content) (Text.splitOn '\n' recased)) :
    Text.readLines (behindKeyword? keyword test) recased =
      Text.readLines (behindKeyword? keyword test) content := by
  rw [readLines_behindKeyword? inLine fails, readLines_behindKeyword? inLine fails]
  generalize Text.splitOn '\n' content = lines at recases ⊢
  generalize Text.splitOn '\n' recased = recasedLines at recases ⊢
  induction recases with
  | nil => rfl
  | cons here _ inductionHypothesis =>
      rw [List.filterMap_cons, List.filterMap_cons, inductionHypothesis, behindKeyword?,
        behindKeyword?, here.afterKeyword?_eq]

end Lines

/-- A word is the one that leads out of the root namespace in one spelling only. -/
theorem absoluteName_of_equalIgnoringCase
    {root word name : Text}
    (sameLetters : Text.equalIgnoringCase word "Global".toList = true) :
    absoluteName root (word ++ '.' :: name) =
      if word = "Global".toList then name else qualify root (word ++ '.' :: name) := by
  have sameLength : word.length = "Global".toList.length := by
    simpa using congrArg List.length (beq_iff_eq.mp sameLetters)
  unfold absoluteName
  split
  · next absolute found =>
      have whole : word ++ '.' :: name = "Global".toList ++ '.' :: absolute := by
        rw [Text.eq_append_of_after? found]
        rfl
      obtain ⟨rfl, sameRest⟩ := List.append_inj whole sameLength
      rw [if_pos rfl, (List.cons.inj sameRest).2]
  · next missing =>
      rw [if_neg]
      rintro rfl
      exact absurd (Text.after?_append "Global.".toList name) (missing ▸ nofun)

/-- A declared namespace comes into scope with those around it. -/
theorem mem_scopeOf_of_declared
    {content root declared outer : Text}
    (isDeclared : declared ∈ Text.readLines namespaceName? content)
    (nonempty : outer ≠ [])
    (around : Scope.IsDottedPrefix outer (absoluteName (Text.trim root) declared)) :
    outer ∈ (scopeOf content root).namespaces := by
  rw [scopeOf, Scope.addEnclosing, Scope.mem_foldl_addNamespace_iff,
    ← List.foldl_map (f := absoluteName (Text.trim root)), Scope.foldl_addEnclosing,
    Scope.mem_foldl_addNamespace_iff]
  refine .inl (.inr ⟨nonempty, List.mem_flatMap.mpr ⟨_, List.mem_map_of_mem isDeclared, ?_⟩⟩)
  exact Scope.mem_enclosing_iff_isDottedPrefix.mpr around

/-- The case in which the first words of the lines are written does not matter to the scope.
That of `Global` does: in its own spelling it leads out of the root namespace, and in every
other one it names a namespace there. -/
theorem scope_recased
    {content recased : Text}
    (recases :
      List.Forall₂ RecasesFirstWord (Text.splitOn '\n' content) (Text.splitOn '\n' recased))
    (root : Text) :
    Scope.ofCode .visualBasic recased root = Scope.ofCode .visualBasic content root ∧
      ∀ line ∈ Text.splitOn '\n' content,
        ∀ word name,
          Text.equalIgnoringCase word "Global".toList = true →
            (namespaceName? line).map Prod.fst = some (word ++ '.' :: name) →
              ∀ outer ≠ [],
                Scope.IsDottedPrefix outer
                    (if word = "Global".toList then name
                      else qualify (Text.trim root) (word ++ '.' :: name)) →
                  outer ∈ (Scope.ofCode .visualBasic content root).namespaces := by
  refine ⟨?_, fun line member word name sameLetters declares outer nonempty around => ?_⟩
  · have sameImports :
        Text.readLines importsClauses? recased = Text.readLines importsClauses? content :=
      readLines_recased (by decide) (by decide) recases
    have sameNamespaces :
        Text.readLines namespaceName? recased = Text.readLines namespaceName? content :=
      readLines_recased (by decide) (by decide) recases
    simp only [Scope.ofCode, scopeOf, sameImports, sameNamespaces]
  · have isDeclared : word ++ '.' :: name ∈ Text.readLines namespaceName? content := by
      have lines : Text.readLines namespaceName? content = _ :=
        readLines_behindKeyword? (by decide) (by decide) content
      rw [lines]
      exact List.mem_filterMap.mpr ⟨line, member, declares⟩
    exact mem_scopeOf_of_declared isDeclared nonempty
      (absoluteName_of_equalIgnoringCase sameLetters ▸ around)

/-- The keywords of two lines in another case; `GLOBAL` stays in the root namespace. -/
theorem scope_recased_keywords :
    let scope := Scope.ofCode .visualBasic "Imports A\n Namespace GLOBAL.B".toList "M".toList
    Scope.ofCode .visualBasic "IMPORTS A\n namespace GLOBAL.B".toList "M".toList = scope ∧
      "M.GLOBAL.B".toList ∈ scope.namespaces := by
  have lines :
      Text.splitOn '\n' "Imports A\n Namespace GLOBAL.B".toList =
        [[] ++ ("Imports".toList ++ " A".toList),
          [' '] ++ ("Namespace".toList ++ " GLOBAL.B".toList)] := by
    decide +kernel
  have recasedLines :
      Text.splitOn '\n' "IMPORTS A\n namespace GLOBAL.B".toList =
        [[] ++ ("IMPORTS".toList ++ " A".toList),
          [' '] ++ ("namespace".toList ++ " GLOBAL.B".toList)] := by
    decide +kernel
  have recases :
      List.Forall₂ RecasesFirstWord
        (Text.splitOn '\n' "Imports A\n Namespace GLOBAL.B".toList)
        (Text.splitOn '\n' "IMPORTS A\n namespace GLOBAL.B".toList) := by
    rw [lines, recasedLines]
    refine .cons (.recased ?_ ?_ rfl) (.cons (.recased ?_ ?_ rfl) .nil) <;> simp [isLineBlank]
  obtain ⟨same, nested⟩ := scope_recased recases "M".toList
  refine ⟨same, nested " Namespace GLOBAL.B".toList ?_ "GLOBAL".toList "B".toList ?_ ?_ _ ?_ ?_⟩
  · decide +kernel
  · decide +kernel
  · decide +kernel
  · decide
  · exact .inl (by decide +kernel)

/-- Two spellings of `Global` before one name give two scopes. -/
theorem scope_recased_global :
    (Scope.ofCode .visualBasic "Namespace Global.Other.Place".toList "MyApp".toList).namespaces =
        ["Other.Place".toList, "Other".toList, "MyApp".toList] ∧
      (Scope.ofCode .visualBasic "Namespace global.Other.Place".toList "MyApp".toList).namespaces =
        ["MyApp.global.Other.Place".toList, "MyApp.global.Other".toList, "MyApp.global".toList,
          "MyApp".toList] := by
  decide +kernel

end VisualBasic

end LocalizationScan
