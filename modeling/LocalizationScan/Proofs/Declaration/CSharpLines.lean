import Mathlib.Data.List.Infix
import LocalizationScan.Declaration
import LocalizationScan.Proofs.Text.Words

namespace LocalizationScan

/-!
# Written declarations

A line of C# code declares something when its first word is `using`, `global` or
`namespace`.  Each of the three recognisers of declarations takes the lines that
are meant for it off any text that begins with them, up to what follows the
declaration on its line, and takes nothing off any other line that has a word.
-/

namespace CSharp

/-! ## Lines -/

/-- White space inside a line. -/
structure Blanks where
  text : Text
  blank : ∀ char ∈ text, Text.isBlank char = true
  inLine : '\n' ∉ text

/-- White space that separates two words of a line. -/
structure Gap extends Blanks where
  nonempty : text ≠ []

/-- An identifier of word characters. -/
structure Identifier where
  text : Text
  proper : Text.isIdentifierSegment text = true
  inWord : ∀ char ∈ text, Text.isWordChar char = true

/-- Identifiers joined by dots. -/
structure DottedName where
  identifiers : List Identifier
  nonempty : identifiers ≠ []

/-- What follows a declaration on its line. -/
structure Remainder where
  text : Text
  inLine : '\n' ∉ text

/-- The name that a `using` declaration is about, up to the end of its line. -/
structure Target where
  /-- Whether `global::` stands before the name. -/
  qualified : Bool
  name : DottedName
  /-- What separates the name from the semicolon. -/
  space : Blanks
  remainder : Remainder

/-- The beginning of a `using` declaration. -/
structure UsingWord where
  indent : Blanks
  /-- What follows the word `global`, if that word comes first. -/
  afterGlobal? : Option Gap
  gap : Gap

/-- The words that a `using` declaration begins with. -/
def usingWords : List Text :=
  ["using".toList, "global".toList]

/-- The words that declarations begin with. -/
def keywords : List Text :=
  "namespace".toList :: usingWords

/-- A line of code. -/
inductive Line where
  | imported (word : UsingWord) (target : Target)
  | aliased
      (word : UsingWord)
      (shortName : Identifier)
      (beforeSign afterSign : Blanks)
      (target : Target)
  /-- A namespace declaration; what follows the name cannot be read as a part of it. -/
  | entered
      (indent : Blanks)
      (gap : Gap)
      (name : DottedName)
      (remainder : Remainder)
      (stops : ∀ char ∈ remainder.text.head?, isPathChar char = false)
  /-- A line that declares nothing. -/
  | other
      (text : Text)
      (inLine : '\n' ∉ text)
      (isOther : Text.firstWord text ∉ keywords)

namespace DottedName

/-- The text of a name. -/
def text (name : DottedName) : Text :=
  Text.joinWith ['.'] (name.identifiers.map Identifier.text)

/-- A namespace and the namespaces around it, from the inside out. -/
def enclosing (name : DottedName) : List Text :=
  name.identifiers.inits.tail.reverse.map fun outer =>
    Text.joinWith ['.'] (outer.map Identifier.text)

end DottedName

/-- The text of a target. -/
def Target.print (target : Target) : Text :=
  (if target.qualified then "global::".toList else []) ++
    (target.name.text ++ (target.space.text ++ ';' :: target.remainder.text))

/-- The text of the beginning of a declaration. -/
def UsingWord.print (word : UsingWord) : Text :=
  word.indent.text ++
    (word.afterGlobal?.elim [] (fun gap => "global".toList ++ gap.text) ++
      ("using".toList ++ word.gap.text))

namespace Line

/-- The text of a line. -/
def print : Line → Text
  | .imported word target => word.print ++ target.print
  | .aliased word shortName beforeSign afterSign target =>
      word.print ++
        (shortName.text ++ (beforeSign.text ++ '=' :: (afterSign.text ++ target.print)))
  | .entered indent gap name remainder _ =>
      indent.text ++ ("namespace".toList ++ (gap.text ++ (name.text ++ remainder.text)))
  | .other text _ _ => text

/-- The namespace that a line imports. -/
def imported? : Line → Option Text
  | .imported _ target => some target.name.text
  | _ => none

/-- The alias and the target that a line declares. -/
def aliased? : Line → Option (Text × Text)
  | .aliased _ shortName _ _ target => some (shortName.text, target.name.text)
  | _ => none

/-- The namespace that a line declares. -/
def entered? : Line → Option DottedName
  | .entered _ _ name _ _ => some name
  | _ => none

end Line

variable {later text rest : Text}

section Characters

variable {char : Char}

theorem isBlank_eq_false_of_isPathChar
    (inPath : isPathChar char = true) :
    Text.isBlank char = false := by
  rw [← Bool.not_eq_true]
  intro blank
  rcases Bool.or_eq_true_iff.mp inPath with inWord | isDot
  · cases (Text.isWordChar_eq_false_of_isBlank blank).symm.trans inWord
  · rw [beq_iff_eq.mp isDot] at blank
    cases blank

theorem isPathChar_eq_false_of_isBlank
    (blank : Text.isBlank char = true) :
    isPathChar char = false := by
  rw [← Bool.not_eq_true]
  intro inPath
  cases blank.symm.trans (isBlank_eq_false_of_isPathChar inPath)

end Characters

namespace Identifier

variable (identifier : Identifier)

theorem ne_nil : identifier.text ≠ [] :=
  Text.ne_nil_of_isIdentifierSegment identifier.proper

theorem dot_not_mem : '.' ∉ identifier.text :=
  Text.dot_not_mem_of_isIdentifierSegment identifier.proper

theorem isPathChar_of_mem : ∀ char ∈ identifier.text, isPathChar char = true :=
  fun char member => Bool.or_eq_true_iff.mpr (.inl (identifier.inWord char member))

end Identifier

namespace DottedName

variable (name : DottedName)

theorem isPathChar_of_mem : ∀ char ∈ name.text, isPathChar char = true := by
  apply Text.forall_mem_joinWith
  · exact Text.forall_mem_of_all (by decide)
  · intro piece member
    obtain ⟨identifier, -, rfl⟩ := List.mem_map.mp member
    exact identifier.isPathChar_of_mem

/-- A name begins with its first identifier, and a dot follows if there are more. -/
theorem exists_first :
    ∃ (first : Identifier) (more : Text), name.text = first.text ++ more ∧
      ∀ char ∈ more.head?, char = '.' := by
  obtain ⟨identifiers, nonempty⟩ := name
  match identifiers with
  | [] => exact absurd rfl nonempty
  | [first] => exact ⟨first, [], by simp [text, Text.joinWith], nofun⟩
  | first :: next :: others =>
      refine ⟨first, '.' :: Text.joinWith ['.'] ((next :: others).map Identifier.text), ?_, ?_⟩
      · simp [text, Text.joinWith]
      · rintro char ⟨⟩
        rfl

theorem ne_nil : name.text ≠ [] := by
  obtain ⟨first, more, shape, -⟩ := name.exists_first
  rw [shape]
  exact List.append_ne_nil_of_left_ne_nil first.ne_nil more

end DottedName

/-! ## The parts of a line -/

/-- A text that begins with a character of a name begins with no white space. -/
theorem isBlank_head?_eq_false
    {run : Text}
    (nonempty : run ≠ [])
    (inPath : ∀ char ∈ run, isPathChar char = true) :
    ∀ char ∈ (run ++ rest).head?, Text.isBlank char = false := by
  cases run with
  | nil => exact absurd rfl nonempty
  | cons first run =>
      rintro char ⟨⟩
      exact isBlank_eq_false_of_isPathChar (inPath first List.mem_cons_self)

theorem Identifier.isBlank_head?
    (identifier : Identifier) :
    ∀ char ∈ (identifier.text ++ rest).head?, Text.isBlank char = false :=
  isBlank_head?_eq_false identifier.ne_nil identifier.isPathChar_of_mem

/-- In front of a sign there is white space or nothing. -/
theorem head?_blanks
    (blanks : Blanks)
    (sign : Char)
    (rest : Text) :
    ∀ char ∈ (blanks.text ++ sign :: rest).head?, Text.isBlank char = true ∨ char = sign := by
  obtain ⟨text, blank, -⟩ := blanks
  cases text with
  | nil =>
      rintro char ⟨⟩
      exact .inr rfl
  | cons first text =>
      rintro char ⟨⟩
      exact .inl (blank first List.mem_cons_self)

theorem isPathChar_head?_eq_false
    (blanks : Blanks)
    {sign : Char}
    (notInPath : isPathChar sign = false)
    (rest : Text) :
    ∀ char ∈ (blanks.text ++ sign :: rest).head?, isPathChar char = false := by
  intro char begins
  rcases head?_blanks blanks sign rest char begins with blank | rfl
  · exact isPathChar_eq_false_of_isBlank blank
  · exact notInPath

/-- Behind white space comes the sign that follows it. -/
theorem after?_trimLeft
    (blanks : Blanks)
    (sign : Char)
    (notBlank : Text.isBlank sign = false)
    (expected : Char) :
    Text.after? [expected] (Text.trimLeft (blanks.text ++ sign :: rest)) =
      if expected = sign then some rest else none := by
  rw [Text.trimLeft_append blanks.blank (by rintro char ⟨⟩; exact notBlank)]
  rfl

theorem Gap.isBlank_head?
    {gap : Gap} :
    ∀ char ∈ (gap.text ++ rest).head?, Text.isBlank char = true := by
  obtain ⟨⟨text, blank, -⟩, nonempty⟩ := gap
  cases text with
  | nil => exact absurd rfl nonempty
  | cons first text =>
      rintro char ⟨⟩
      exact blank first List.mem_cons_self

namespace UsingWord

variable (word : UsingWord)

theorem afterUsing?_print
    (begins : ∀ char ∈ text.head?, Text.isBlank char = false) :
    afterUsing? (word.print ++ text) = some text := by
  obtain ⟨indent, afterGlobal?, gap⟩ := word
  have skipped :
      skipGlobal (Text.trimLeft (print ⟨indent, afterGlobal?, gap⟩ ++ text)) =
        "using".toList ++ (gap.text ++ text) := by
    cases afterGlobal? with
    | none =>
        simp only [print, Option.elim_none, List.nil_append, List.append_assoc]
        rw [Text.trimLeft_append indent.blank (by rintro char ⟨⟩; decide)]
        rfl
    | some afterGlobal =>
        simp only [print, Option.elim_some, List.append_assoc]
        rw [Text.trimLeft_append indent.blank (by rintro char ⟨⟩; decide), skipGlobal,
          Text.after?_append, Option.bind_some,
          Text.afterSome?_append afterGlobal.nonempty afterGlobal.blank
            (by rintro char ⟨⟩; decide)]
        rfl
  rw [afterUsing?, skipped, Text.after?_append]
  exact Text.afterSome?_append gap.nonempty gap.blank begins

/-- A `using` declaration begins with one of two words. -/
theorem firstWord_print :
    Text.firstWord (word.print ++ text) ∈ usingWords := by
  obtain ⟨indent, afterGlobal?, gap⟩ := word
  cases afterGlobal? with
  | none =>
      simp only [print, Option.elim_none, List.nil_append, List.append_assoc]
      rw [Text.firstWord_append indent.blank (by decide) (Text.forall_mem_of_all (by decide))
        Gap.isBlank_head?]
      decide
  | some afterGlobal =>
      simp only [print, Option.elim_some, List.append_assoc]
      rw [Text.firstWord_append indent.blank (by decide) (Text.forall_mem_of_all (by decide))
        Gap.isBlank_head?]
      decide

end UsingWord

namespace Target

variable (target : Target)

/-- A name in front of white space and a sign is not read as `global::`. -/
theorem after?_global
    {run : Text}
    (inPath : ∀ char ∈ run, isPathChar char = true)
    (blanks : Blanks)
    {sign : Char}
    (noColon : sign ≠ ':')
    (notInPath : isPathChar sign = false) :
    Text.after? "global::".toList (run ++ (blanks.text ++ sign :: rest)) = none := by
  rw [Option.eq_none_iff_forall_ne_some]
  intro behind found
  have same : run ++ (blanks.text ++ sign :: rest) = "global".toList ++ ':' :: ':' :: behind := by
    rw [Text.eq_append_of_after? found]
    rfl
  have wholeRun := Text.takeWhile_run inPath (isPathChar_head?_eq_false blanks notInPath rest)
  have wholeWord :
      ("global".toList ++ ':' :: ':' :: behind).takeWhile isPathChar = "global".toList :=
    Text.takeWhile_run (Text.forall_mem_of_all (by decide)) (by rintro char ⟨⟩; decide)
  obtain rfl : run = "global".toList := by rw [← wholeRun, same, wholeWord]
  have colons := List.append_cancel_left same
  rcases head?_blanks blanks sign rest ':' (by rw [colons]; rfl) with blank | isSign
  · cases blank
  · exact noColon isSign.symm

theorem print_append :
    target.print ++ later =
      (if target.qualified then "global::".toList else []) ++
        (target.name.text ++ (target.space.text ++ ';' :: (target.remainder.text ++ later))) := by
  simp only [print, List.append_assoc, List.cons_append]

theorem closedName?_print :
    closedName? (target.print ++ later) =
      some (target.name.text, target.remainder.text ++ later) := by
  have stops :
      ∀ char ∈ (target.space.text ++ ';' :: (target.remainder.text ++ later)).head?,
        isPathChar char = false :=
    isPathChar_head?_eq_false target.space (by decide) _
  have unqualified :
      (Text.after? "global::".toList (target.print ++ later)).getD (target.print ++ later) =
        target.name.text ++ (target.space.text ++ ';' :: (target.remainder.text ++ later)) := by
    rw [print_append]
    cases target.qualified with
    | true => rfl
    | false =>
        rw [if_neg Bool.false_ne_true, List.nil_append,
          after?_global target.name.isPathChar_of_mem target.space (by decide) (by decide)]
        rfl
  rw [closedName?, unqualified,
    Text.takeSome?_append target.name.ne_nil target.name.isPathChar_of_mem stops]
  refine (congrArg (Option.bind · _) (after?_trimLeft target.space _ (by decide) ';')).trans ?_
  rfl

theorem isBlank_head?_print :
    ∀ char ∈ (target.print ++ later).head?, Text.isBlank char = false := by
  rw [print_append]
  cases target.qualified with
  | true =>
      rintro char ⟨⟩
      decide
  | false =>
      rw [if_neg Bool.false_ne_true, List.nil_append]
      exact isBlank_head?_eq_false target.name.ne_nil target.name.isPathChar_of_mem

end Target

/-! ## Recognised lines -/

section FirstWord

variable {value : Text}

/-- A text in which a recogniser finds `using` begins with that word or with `global`. -/
theorem firstWord_of_afterUsing?
    (found : afterUsing? text = some rest) :
    Text.firstWord text ∈ usingWords := by
  obtain ⟨behind, isBehind, spaced⟩ := Option.bind_eq_some_iff.mp found
  unfold skipGlobal at isBehind
  cases skipped :
      (Text.after? "global".toList (Text.trimLeft text)).bind (Text.afterSome? Text.isBlank) with
  | none =>
      rw [skipped, Option.getD_none] at isBehind
      have isUsing := Option.bind_eq_some_iff.mpr ⟨behind, isBehind, spaced⟩
      rw [Text.firstWord,
        Text.takeWhile_of_keyword "using".toList (Text.forall_mem_of_all (by decide)) isUsing]
      exact List.mem_cons_self
  | some =>
      rw [Text.firstWord, Text.takeWhile_of_keyword _ (Text.forall_mem_of_all (by decide)) skipped]
      exact List.mem_cons_of_mem _ List.mem_cons_self

theorem afterUsing?_congr
    {other : Text}
    (same : Text.trimLeft text = Text.trimLeft other) :
    afterUsing? text = afterUsing? other := by
  rw [afterUsing?, afterUsing?, same]

theorem afterUsing?_eq_none
    (notUsing : Text.firstWord text ∉ usingWords) :
    afterUsing? text = none :=
  Option.eq_none_iff_forall_ne_some.mpr fun _ found => notUsing (firstWord_of_afterUsing? found)

theorem namespaceName?_eq_none
    (notNamespace : Text.firstWord text ≠ "namespace".toList) :
    namespaceName? text = none := by
  rw [Option.eq_none_iff_forall_ne_some]
  intro read found
  obtain ⟨behind, isBehind, found⟩ := Option.bind_eq_some_iff.mp found
  obtain ⟨_, spaced, -⟩ := Option.bind_eq_some_iff.mp found
  exact notNamespace (Text.takeWhile_of_keyword _ (Text.forall_mem_of_all (by decide))
    (Option.bind_eq_some_iff.mpr ⟨behind, isBehind, spaced⟩))

end FirstWord

/-- A line whose first word begins no declaration is passed over by a recogniser that looks
for a first word; if the line is blank, what follows it is read. -/
theorem readsLine_other
    {α : Type}
    {recognise : Text → Option (α × Text)}
    (trims :
      ∀ text other, Text.trimLeft text = Text.trimLeft other → recognise text = recognise other)
    (fails : ∀ text, Text.firstWord text ∉ keywords → recognise text = none)
    (isOther : Text.firstWord text ∉ keywords) :
    Text.ReadsLine recognise text none := by
  by_cases isBlankLine : Text.trimLeft text = []
  · exact .passed (fails text isOther) fun rest =>
      trims _ _ (Text.trimLeft_blankLine isBlankLine rest)
  · refine .nothing fun later endsLine => fails _ ?_
    rwa [Text.firstWord_line isBlankLine endsLine]

namespace Line

theorem usingTarget?_other
    (isOther : Text.firstWord text ∉ keywords) :
    usingTarget? text = none := by
  rw [usingTarget?, afterUsing?_eq_none (not_or.mp (mt List.mem_cons.mpr isOther)).2]
  rfl

theorem usingAlias?_other
    (isOther : Text.firstWord text ∉ keywords) :
    usingAlias? text = none := by
  rw [usingAlias?, afterUsing?_eq_none (not_or.mp (mt List.mem_cons.mpr isOther)).2]
  rfl

/-- A namespace declaration is no `using` declaration. -/
theorem afterUsing?_entered (indent : Blanks) (gap : Gap) :
    afterUsing? (indent.text ++ ("namespace".toList ++ (gap.text ++ rest))) = none := by
  apply afterUsing?_eq_none
  rw [Text.firstWord_append indent.blank (by decide) (Text.forall_mem_of_all (by decide))
    Gap.isBlank_head?]
  decide

/-- An alias is no name that a semicolon follows. -/
theorem closedName?_aliased (shortName : Identifier) (beforeSign : Blanks) :
    closedName? (shortName.text ++ (beforeSign.text ++ '=' :: rest)) = none := by
  rw [closedName?,
    Target.after?_global shortName.isPathChar_of_mem beforeSign (by decide) (by decide),
    Option.getD_none,
    Text.takeSome?_append shortName.ne_nil shortName.isPathChar_of_mem
      (isPathChar_head?_eq_false beforeSign (by decide) rest)]
  exact congrArg (Option.bind · _) (after?_trimLeft beforeSign _ (by decide) ';')

/-- Imported namespaces are read off the lines that import them. -/
theorem readsLine_usingTarget? (line : Line) :
    Text.ReadsLine usingTarget? line.print line.imported? := by
  cases line with
  | imported word target =>
      refine .value target.remainder.text fun later _ => ?_
      rw [print, List.append_assoc, usingTarget?,
        word.afterUsing?_print target.isBlank_head?_print]
      exact target.closedName?_print
  | aliased word shortName beforeSign afterSign target =>
      refine .nothing fun later _ => ?_
      simp only [print, List.append_assoc, List.cons_append]
      rw [usingTarget?, word.afterUsing?_print shortName.isBlank_head?]
      exact closedName?_aliased shortName beforeSign
  | entered indent gap name remainder stops =>
      refine .nothing fun later _ => ?_
      simp only [print, List.append_assoc]
      rw [usingTarget?, afterUsing?_entered]
      rfl
  | other text inLine isOther =>
      refine readsLine_other (fun text other same => ?_) (fun _ => usingTarget?_other) isOther
      rw [usingTarget?, usingTarget?, afterUsing?_congr same]

/-- An alias ends where its sign is looked for. -/
theorem usingAlias?_eq
    {behind shortName : Text}
    (found : afterUsing? text = some behind)
    (taken : Text.takeSome? Text.isWordChar behind = some (shortName, rest)) :
    usingAlias? text =
      (Text.after? ['='] (Text.trimLeft rest)).bind fun rest =>
        (closedName? (Text.trimLeft rest)).bind fun (target, rest) =>
          some ((shortName, target), rest) := by
  rw [usingAlias?, found]
  exact congrArg (Option.bind · _) taken

theorem isWordChar_eq_false_of_isPathChar
    {char : Char}
    (notInPath : isPathChar char = false) :
    Text.isWordChar char = false :=
  (Bool.or_eq_false_iff.mp notInPath).1

/-- A name that a semicolon follows is no alias. -/
theorem usingAlias?_imported (word : UsingWord) (target : Target) :
    usingAlias? (word.print ++ (target.print ++ later)) = none := by
  have found : afterUsing? (word.print ++ (target.print ++ later)) = some (target.print ++ later) :=
    word.afterUsing?_print target.isBlank_head?_print
  revert found
  rw [target.print_append]
  cases target.qualified with
  | true =>
      intro found
      have taken (rest : Text) :
          Text.takeSome? Text.isWordChar ("global".toList ++ ':' :: ':' :: rest) =
            some ("global".toList, ':' :: ':' :: rest) :=
        Text.takeSome?_append (by decide) (Text.forall_mem_of_all (by decide))
          (by rintro char ⟨⟩; decide)
      exact usingAlias?_eq found (taken _)
  | false =>
      obtain ⟨first, more, shape, continues⟩ := target.name.exists_first
      rw [if_neg Bool.false_ne_true, List.nil_append, shape, List.append_assoc]
      intro found
      have stops :
          ∀ char ∈ (more ++ (target.space.text ++ ';' :: (target.remainder.text ++ later))).head?,
            Text.isWordChar char = false := by
        intro char begins
        cases more with
        | nil =>
            exact isWordChar_eq_false_of_isPathChar
              (isPathChar_head?_eq_false target.space (by decide) _ char begins)
        | cons =>
            rw [continues char begins]
            decide
      rw [usingAlias?_eq found (Text.takeSome?_append first.ne_nil first.inWord stops)]
      cases more with
      | nil => exact congrArg (Option.bind · _) (after?_trimLeft target.space _ (by decide) '=')
      | cons char more =>
          obtain rfl := continues char rfl
          rfl

/-- Aliases are read off the lines that declare them. -/
theorem readsLine_usingAlias? (line : Line) :
    Text.ReadsLine usingAlias? line.print line.aliased? := by
  cases line with
  | imported word target =>
      refine .nothing fun later _ => ?_
      rw [print, List.append_assoc]
      exact usingAlias?_imported word target
  | aliased word shortName beforeSign afterSign target =>
      refine .value target.remainder.text fun later _ => ?_
      simp only [print, List.append_assoc, List.cons_append]
      rw [usingAlias?_eq (word.afterUsing?_print shortName.isBlank_head?)
        (Text.takeSome?_append shortName.ne_nil shortName.inWord fun char begins =>
          isWordChar_eq_false_of_isPathChar
            (isPathChar_head?_eq_false beforeSign (by decide) _ char begins))]
      rw [after?_trimLeft beforeSign '=' (by decide), if_pos rfl, Option.bind_some,
        Text.trimLeft_append afterSign.blank target.isBlank_head?_print, target.closedName?_print]
      rfl
  | entered indent gap name remainder stops =>
      refine .nothing fun later _ => ?_
      simp only [print, List.append_assoc]
      rw [usingAlias?, afterUsing?_entered]
      rfl
  | other text inLine isOther =>
      refine readsLine_other (fun text other same => ?_) (fun _ => usingAlias?_other) isOther
      rw [usingAlias?, usingAlias?, afterUsing?_congr same]

/-- Declared namespaces are read off the lines that declare them. -/
theorem readsLine_namespaceName? (line : Line) :
    Text.ReadsLine namespaceName? line.print (line.entered?.map DottedName.text) := by
  cases line with
  | imported word target =>
      refine .nothing fun later _ => namespaceName?_eq_none ?_
      rw [print, List.append_assoc]
      exact ne_of_mem_of_not_mem word.firstWord_print (by decide)
  | aliased word shortName beforeSign afterSign target =>
      refine .nothing fun later _ => namespaceName?_eq_none ?_
      rw [print, List.append_assoc]
      exact ne_of_mem_of_not_mem word.firstWord_print (by decide)
  | entered indent gap name remainder stops =>
      refine .value remainder.text fun later endsLine => ?_
      have stopsLater : ∀ char ∈ (remainder.text ++ later).head?, isPathChar char = false := by
        intro char begins
        cases isEmpty : remainder.text with
        | nil =>
            rw [isEmpty] at begins
            rw [endsLine char begins]
            decide
        | cons first rest =>
            refine stops char ?_
            rw [isEmpty] at begins ⊢
            exact begins
      simp only [print, List.append_assoc]
      rw [namespaceName?, Text.trimLeft_append indent.blank (by rintro char ⟨⟩; decide),
        Text.after?_append]
      refine (congrArg (Option.bind · _) (Text.afterSome?_append gap.nonempty gap.blank
        (isBlank_head?_eq_false name.ne_nil name.isPathChar_of_mem))).trans ?_
      exact Text.takeSome?_append name.ne_nil name.isPathChar_of_mem stopsLater
  | other text inLine isOther =>
      refine readsLine_other (fun text other same => ?_) (fun text isOther => ?_) isOther
      · rw [namespaceName?, namespaceName?, same]
      · exact namespaceName?_eq_none fun isNamespace =>
          isOther (isNamespace ▸ List.mem_cons_self)

end Line

/-! ## What recognisers take -/

theorem length_skipGlobal_le (text : Text) :
    (skipGlobal text).length ≤ text.length := by
  unfold skipGlobal
  cases found : (Text.after? "global".toList text).bind (Text.afterSome? Text.isBlank) with
  | none => exact Nat.le_refl _
  | some rest =>
      obtain ⟨behind, isBehind, spaced⟩ := Option.bind_eq_some_iff.mp found
      exact (Text.length_afterSome?_lt spaced).le.trans (Text.length_after?_le isBehind)

theorem length_afterUsing?_lt
    (found : afterUsing? text = some rest) :
    rest.length < text.length := by
  obtain ⟨behind, isBehind, spaced⟩ := Option.bind_eq_some_iff.mp found
  calc
    rest.length
    _ < behind.length := Text.length_afterSome?_lt spaced
    _ ≤ (skipGlobal (Text.trimLeft text)).length := Text.length_after?_le isBehind
    _ ≤ (Text.trimLeft text).length := length_skipGlobal_le _
    _ ≤ text.length := Text.length_trimLeft_le text

theorem length_closedName?_lt
    {name : Text}
    (found : closedName? text = some (name, rest)) :
    rest.length < text.length := by
  obtain ⟨⟨run, behind⟩, taken, found⟩ := Option.bind_eq_some_iff.mp found
  obtain ⟨closed, isClosed, found⟩ := Option.bind_eq_some_iff.mp found
  cases found
  have unqualified : ((Text.after? "global::".toList text).getD text).length ≤ text.length := by
    cases skipped : Text.after? "global::".toList text with
    | none => exact Nat.le_refl _
    | some => exact Text.length_after?_le skipped
  calc
    rest.length
    _ ≤ (Text.trimLeft behind).length := Text.length_after?_le isClosed
    _ ≤ behind.length := Text.length_trimLeft_le behind
    _ < ((Text.after? "global::".toList text).getD text).length := Text.length_takeSome?_lt taken
    _ ≤ text.length := unqualified

theorem shortens_usingTarget? : Text.Shortens usingTarget? := by
  intro text name rest found
  obtain ⟨behind, isBehind, closed⟩ := Option.bind_eq_some_iff.mp found
  exact (length_closedName?_lt closed).trans (length_afterUsing?_lt isBehind)

theorem shortens_usingAlias? : Text.Shortens usingAlias? := by
  intro text declared rest found
  obtain ⟨behind, isBehind, found⟩ := Option.bind_eq_some_iff.mp found
  obtain ⟨⟨shortName, afterName⟩, taken, found⟩ := Option.bind_eq_some_iff.mp found
  obtain ⟨afterSign, isSign, found⟩ := Option.bind_eq_some_iff.mp found
  obtain ⟨⟨target, closed⟩, isClosed, found⟩ := Option.bind_eq_some_iff.mp found
  cases found
  calc
    rest.length
    _ < (Text.trimLeft afterSign).length := length_closedName?_lt isClosed
    _ ≤ afterSign.length := Text.length_trimLeft_le afterSign
    _ ≤ (Text.trimLeft afterName).length := Text.length_after?_le isSign
    _ ≤ afterName.length := Text.length_trimLeft_le afterName
    _ < behind.length := Text.length_takeSome?_lt taken
    _ < text.length := length_afterUsing?_lt isBehind

theorem shortens_namespaceName? : Text.Shortens namespaceName? := by
  intro text name rest found
  obtain ⟨behind, isBehind, found⟩ := Option.bind_eq_some_iff.mp found
  obtain ⟨afterGap, spaced, taken⟩ := Option.bind_eq_some_iff.mp found
  calc
    rest.length
    _ < afterGap.length := Text.length_takeSome?_lt taken
    _ < behind.length := Text.length_afterSome?_lt spaced
    _ ≤ (Text.trimLeft text).length := Text.length_after?_le isBehind
    _ ≤ text.length := Text.length_trimLeft_le text

/-! ## Lines have no line feeds -/

theorem feed_not_mem
    {run : Text}
    (inPath : ∀ char ∈ run, isPathChar char = true) :
    '\n' ∉ run := by
  intro member
  have isBlankFeed : Text.isBlank '\n' = true := by decide
  cases isBlankFeed.symm.trans (isBlank_eq_false_of_isPathChar (inPath '\n' member))

theorem Target.feed_not_mem (target : Target) : '\n' ∉ target.print := by
  have inName := CSharp.feed_not_mem target.name.isPathChar_of_mem
  have noFeed : '\n' ∉ (if target.qualified then "global::".toList else []) := by
    cases target.qualified <;> decide
  simp only [print, List.mem_append, List.mem_cons, noFeed, inName, target.space.inLine,
    target.remainder.inLine, or_false, false_or]
  decide

theorem UsingWord.feed_not_mem (word : UsingWord) : '\n' ∉ word.print := by
  obtain ⟨indent, afterGlobal?, gap⟩ := word
  have noFeed : '\n' ∉ "using".toList := by decide
  cases afterGlobal? with
  | none =>
      simp only [print, Option.elim_none, List.nil_append, List.mem_append, indent.inLine, noFeed,
        gap.inLine, or_self, not_false_eq_true]
  | some afterGlobal =>
      have noFeedGlobal : '\n' ∉ "global".toList := by decide
      simp only [print, Option.elim_some, List.mem_append, indent.inLine, noFeed, noFeedGlobal,
        gap.inLine, afterGlobal.inLine, or_self, not_false_eq_true]

theorem Line.feed_not_mem (line : Line) : '\n' ∉ line.print := by
  cases line with
  | imported word target =>
      exact List.not_mem_append word.feed_not_mem target.feed_not_mem
  | aliased word shortName beforeSign afterSign target =>
      have inName := CSharp.feed_not_mem shortName.isPathChar_of_mem
      have isNoSign : '\n' ≠ '=' := by decide
      simp only [print, List.mem_append, List.mem_cons, word.feed_not_mem, inName,
        beforeSign.inLine, afterSign.inLine, target.feed_not_mem, isNoSign, or_self,
        not_false_eq_true]
  | entered indent gap name remainder stops =>
      have inName := CSharp.feed_not_mem name.isPathChar_of_mem
      have noFeed : '\n' ∉ "namespace".toList := by decide
      simp only [print, List.mem_append, indent.inLine, noFeed, gap.inLine, inName,
        remainder.inLine, or_self, not_false_eq_true]
  | other text inLine isOther => exact inLine

/-- The text of a file with these lines. -/
def printLines (lines : List Line) : Text :=
  Text.joinWith ['\n'] (lines.map Line.print)

/-- The lines of a file are read one by one. -/
theorem readLines_printLines
    {α : Type}
    {recognise : Text → Option (α × Text)}
    {value? : Line → Option α}
    (shortens : Text.Shortens recognise)
    (reads : ∀ line, Text.ReadsLine recognise line.print (value? line))
    (lines : List Line) :
    Text.readLines recognise (printLines lines) = lines.filterMap value? :=
  Text.readLines_joinWith shortens (fun line _ => line.feed_not_mem) fun line _ => reads line

end CSharp

end LocalizationScan
