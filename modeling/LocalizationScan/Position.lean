import LocalizationScan.Text.Basic

namespace LocalizationScan

/-!
# Positions and spans

A position is where a character sits in a file: line and column counted from
one, offset counted from zero, all in characters.  Positions move one character
at a time.  A span runs from the position of its first character to the
position right after its last one.
-/

/-- Where a character sits in a file. -/
structure Position where
  /-- Line, counted from one. -/
  line : Nat
  /-- Column, counted from one. -/
  column : Nat
  /-- Number of characters before this one. -/
  offset : Nat
  deriving Repr, DecidableEq

namespace Position

/-- Where the first character of a file sits. -/
def start : Position := ⟨1, 1, 0⟩

/-- Position of the character after the given one: a line feed begins a new line. -/
def advance (position : Position) (char : Char) : Position :=
  if char = '\n' then
    ⟨position.line + 1, 1, position.offset + 1⟩
  else
    ⟨position.line, position.column + 1, position.offset + 1⟩

/-- Position after all characters of a text. -/
def advanceOver (position : Position) (text : Text) : Position :=
  text.foldl advance position

/-- The usual `line:column` form. -/
def display (position : Position) : Text :=
  Text.ofNat position.line ++ ':' :: Text.ofNat position.column

@[simp]
theorem offset_advance (position : Position) (char : Char) :
    (position.advance char).offset = position.offset + 1 := by
  unfold advance
  split <;> rfl

@[simp]
theorem advanceOver_nil (position : Position) :
    position.advanceOver [] = position := rfl

@[simp]
theorem advanceOver_cons (position : Position) (char : Char) (text : Text) :
    position.advanceOver (char :: text) = (position.advance char).advanceOver text := rfl

theorem advanceOver_append (position : Position) (first second : Text) :
    position.advanceOver (first ++ second) =
      (position.advanceOver first).advanceOver second := by
  simp [advanceOver]

@[simp]
theorem offset_advanceOver (position : Position) (text : Text) :
    (position.advanceOver text).offset = position.offset + text.length := by
  induction text generalizing position with
  | nil => rfl
  | cons char rest inductionHypothesis =>
      simp [inductionHypothesis]
      omega

end Position

/-- Why a block cannot be scanned from a given position. -/
inductive AnchorError where
  | lineBelowOne
  | columnBelowOne
  deriving Repr, DecidableEq

/-- The wording of a refused anchor. -/
def AnchorError.message : AnchorError → Text
  | .lineBelowOne => "invalid argument: anchor line must be 1 or greater".toList
  | .columnBelowOne => "invalid argument: anchor column must be 1 or greater".toList

/-- A position that can be the start of a scanned block; the line is looked at first. -/
def Position.asAnchor (position : Position) : Except AnchorError Position :=
  if position.line = 0 then .error .lineBelowOne
  else if position.column = 0 then .error .columnBelowOne
  else .ok position

/-- A stretch of text from its first character up to but not including its end. -/
structure Span where
  start : Position
  stop : Position
  deriving Repr, DecidableEq

namespace Span

/-- Number of characters covered. -/
def length (span : Span) : Nat :=
  span.stop.offset - span.start.offset

/-- Whether no character is covered. -/
def isEmpty (span : Span) : Bool :=
  span.length == 0

/-- A span laid over a text covers as many characters as the text has. -/
theorem length_advanceOver (position : Position) (text : Text) :
    length ⟨position, position.advanceOver text⟩ = text.length := by
  simp [length]

end Span

end LocalizationScan
