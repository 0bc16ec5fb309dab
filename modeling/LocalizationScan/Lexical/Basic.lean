import LocalizationScan.Text.Basic

namespace LocalizationScan

/-!
# Lexical states and transitions

A scan of code is always in one of a few lexical states.  A dialect looks at
the rest of the text, with one character of context behind it, and says which
transition the first character of that rest begins.
-/

/-- The flavour of a string token. -/
inductive StringKind where
  /-- A quoted string with the usual escapes of its language. -/
  | regular
  /-- A quoted string in which only a doubled quote is an escape. -/
  | verbatim
  /-- A regular string with holes of code. -/
  | interpolated
  /-- A verbatim string with holes of code. -/
  | interpolatedVerbatim
  /-- A character between apostrophes. -/
  | char
  deriving Repr, DecidableEq

/-- Whether strings of this kind have holes. -/
def StringKind.isInterpolated : StringKind → Bool
  | .interpolated | .interpolatedVerbatim => true
  | .regular | .verbatim | .char => false

/-- The state of a scan before a character. -/
inductive LexicalState where
  | code
  | string (kind : StringKind)
  /-- Inside a block comment. -/
  | comment
  /-- Code inside a hole of an interpolated string. -/
  | hole
  deriving Repr, DecidableEq

/-- Whether characters in this state are code. -/
def LexicalState.isCode : LexicalState → Bool
  | .code | .hole => true
  | .string _ | .comment => false

/-- What the first character of the rest of a text begins.  Lengths count
characters from that one on. -/
inductive Transition where
  /-- An ordinary character of the current state. -/
  | stay
  /-- The opening of a string token. -/
  | openString (kind : StringKind) (length : Nat)
  /-- An escape inside a string. -/
  | escape (length : Nat)
  /-- The end of a string; `emit` tells whether it is reported as a literal. -/
  | closeString (length : Nat) (emit : Bool)
  /-- The string cannot go on; the character is code. -/
  | abandon
  | openComment (length : Nat)
  | closeComment (length : Nat)
  /-- The rest of the line is a comment. -/
  | lineComment
  /-- A line continuation, which separates words as a blank does. -/
  | continuation (length : Nat)
  /-- The opening brace of a hole. -/
  | openHole
  /-- A brace inside a hole. -/
  | brace (opening : Bool)
  deriving Repr, DecidableEq

end LocalizationScan
