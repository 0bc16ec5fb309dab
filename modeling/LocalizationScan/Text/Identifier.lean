import LocalizationScan.Text.Blank
import LocalizationScan.Text.IdentifierRanges
import LocalizationScan.Text.Word

namespace LocalizationScan.Text

/-!
# Identifiers

An identifier character is the underscore or a character with the Unicode
property `XID_Continue`.  The property agrees with that of word characters but
for two tables.  A dotted identifier is a chain of non-empty segments of
identifier characters; arbitrary text is turned into an identifier character
by character.
-/

/-- Whether a character can stand in an identifier. -/
def isIdentifierChar (char : Char) : Bool :=
  char.isAlphanum || char == '_' ||
    (inRanges char.toNat wordRanges && !inRanges char.toNat wordOnlyRanges) ||
    inRanges char.toNat identifierOnlyRanges

/-- Whether a text is a non-empty run of identifier characters. -/
def isIdentifierSegment (text : Text) : Bool :=
  !text.isEmpty && text.all isIdentifierChar

/-- Whether a text is a chain of identifier segments joined by single dots. -/
def isDottedIdentifier (text : Text) : Bool :=
  (splitOn '.' text).all isIdentifierSegment

/-- An identifier for arbitrary text: other characters become underscores, and a
leading ASCII digit gets an underscore before it. -/
def toIdentifier (text : Text) : Text :=
  let name := text.map fun char => if isIdentifierChar char then char else '_'
  match name with
  | [] => []
  | first :: rest => if first.isDigit then '_' :: first :: rest else first :: rest

/-- A dot cannot stand in an identifier. -/
theorem isIdentifierChar_dot : isIdentifierChar '.' = false := by
  decide

/-- An underscore can stand in an identifier. -/
theorem isIdentifierChar_underscore : isIdentifierChar '_' = true := by
  decide

/-- White space cannot stand in an identifier. -/
theorem isBlank_eq_false_of_isIdentifierChar
    {char : Char}
    (isIdentifier : isIdentifierChar char = true) :
    isBlank char = false := by
  have noIdentifier : ∀ code ∈ blankCodes, isIdentifierChar (Char.ofNat code) = false := by
    decide +kernel
  rw [← Bool.not_eq_true]
  intro blank
  obtain ⟨code, member, rfl⟩ := exists_code_of_isBlank blank
  cases (noIdentifier code member).symm.trans isIdentifier

/-- Every character of an identifier made from a text can stand in an identifier. -/
theorem isIdentifierChar_of_mem_toIdentifier
    {text : Text}
    {char : Char}
    (member : char ∈ toIdentifier text) :
    isIdentifierChar char = true := by
  have fromName :
      ∀ other ∈ text.map fun char => if isIdentifierChar char then char else '_',
        isIdentifierChar other = true := by
    intro other otherMember
    obtain ⟨source, _, rfl⟩ := List.mem_map.mp otherMember
    by_cases identifier : isIdentifierChar source = true
    · simp [identifier]
    · simp [identifier, isIdentifierChar_underscore]
  unfold toIdentifier at member
  simp only at member
  split at member
  · simp at member
  · rename_i first rest name
    rw [name] at fromName
    split at member
    · rcases List.mem_cons.mp member with rfl | inName
      · exact isIdentifierChar_underscore
      · exact fromName char inName
    · exact fromName char member

theorem isIdentifierSegment_iff {text : Text} :
    isIdentifierSegment text = true ↔
      text ≠ [] ∧ ∀ char ∈ text, isIdentifierChar char = true := by
  simp [isIdentifierSegment]

theorem ne_nil_of_isIdentifierSegment
    {name : Text}
    (proper : isIdentifierSegment name = true) :
    name ≠ [] :=
  (isIdentifierSegment_iff.mp proper).1

theorem isIdentifierChar_of_mem_segment
    {name : Text}
    (proper : isIdentifierSegment name = true)
    {char : Char}
    (member : char ∈ name) :
    isIdentifierChar char = true :=
  (isIdentifierSegment_iff.mp proper).2 char member

theorem dot_not_mem_of_isIdentifierSegment
    {name : Text}
    (proper : isIdentifierSegment name = true) :
    '.' ∉ name := by
  intro member
  have isIdentifier := isIdentifierChar_of_mem_segment proper member
  simp [isIdentifierChar_dot] at isIdentifier

theorem toIdentifier_ne_nil
    {text : Text}
    (nonempty : text ≠ []) :
    toIdentifier text ≠ [] := by
  unfold toIdentifier
  dsimp only
  split
  · next name => exact absurd (List.map_eq_nil_iff.mp name) nonempty
  · split <;> exact List.cons_ne_nil _ _

/-- An identifier made from a text does not begin with an ASCII digit. -/
theorem isDigit_head?_toIdentifier
    {text : Text}
    {first : Char}
    (begins : first ∈ (toIdentifier text).head?) :
    first.isDigit = false := by
  unfold toIdentifier at begins
  dsimp only at begins
  split at begins
  · cases begins
  · split at begins
    · cases begins
      decide
    · next noDigit =>
        cases begins
        exact eq_false_of_ne_true noDigit

/-- A text that is not empty is made into an identifier segment. -/
theorem isIdentifierSegment_toIdentifier
    {text : Text}
    (nonempty : text ≠ []) :
    isIdentifierSegment (toIdentifier text) = true :=
  isIdentifierSegment_iff.mpr
    ⟨toIdentifier_ne_nil nonempty, fun _ member => isIdentifierChar_of_mem_toIdentifier member⟩

end LocalizationScan.Text
