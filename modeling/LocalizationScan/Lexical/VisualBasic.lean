import LocalizationScan.Lexical.Basic
import LocalizationScan.Text.Identifier

namespace LocalizationScan.VisualBasic

/-!
# Lexical rules of Visual Basic

A doubled quote is the only escape of a string, and strings may run over line
breaks.  Comments run from an apostrophe, or from the word `REM`, to the end of
the line.  A blank, an underscore and a line break continue a line.
-/

/-- Whether a character separates words inside a line. -/
def isLineBlank (char : Char) : Bool :=
  char == ' ' || char == '\t'

/-- Length of the line continuation that a text begins with: blanks, an underscore,
blanks, a line break, and the blanks of the next line. -/
def continuationLength? (text : Text) : Option Nat :=
  let blanks := text.takeWhile isLineBlank
  match blanks, text.dropWhile isLineBlank with
  | _ :: _, '_' :: rest =>
      let trailing := rest.takeWhile isLineBlank
      match rest.dropWhile isLineBlank with
      | '\r' :: '\n' :: next =>
          some (blanks.length + 1 + trailing.length + 2 + (next.takeWhile isLineBlank).length)
      | '\n' :: next =>
          some (blanks.length + 1 + trailing.length + 1 + (next.takeWhile isLineBlank).length)
      | _ => none
  | _, _ => none

/-- Whether a text starts with the comment word `REM`, given the character before it. -/
def isRemark (before : Option Char) (text : Text) : Bool :=
  Text.startsIgnoringCase ['r', 'e', 'm'] text &&
    !before.any Text.isIdentifierChar &&
    (text[3]?).all Text.isBlank

/-- The transition that code begins. -/
def classifyCode (before : Option Char) (rest : Text) : Transition :=
  match rest with
  | [] => .stay
  | '"' :: _ => .openString .regular 1
  | '\'' :: _ => .lineComment
  | char :: _ =>
      if isLineBlank char then
        match continuationLength? rest with
        | some length => .continuation length
        | none => .stay
      else if isRemark before rest then .lineComment
      else .stay

/-- Whether a quote is followed by the suffix of a character literal. -/
def isCharSuffix : Text → Bool
  | char :: rest =>
      (char == 'c' || char == 'C') && !rest.head?.any Text.isIdentifierChar
  | [] => false

/-- The transition inside a string. -/
def classifyString : Text → Transition
  | '"' :: '"' :: _ => .escape 2
  | '"' :: rest => if isCharSuffix rest then .closeString 2 false else .closeString 1 true
  | _ => .stay

/-- The transition that the rest of a text begins in a given state, given the
character before it. -/
def classify (state : LexicalState) (before : Option Char) (rest : Text) : Transition :=
  match state with
  | .code | .hole => classifyCode before rest
  | .string _ => classifyString rest
  | .comment => .stay

/-- The value of a string token with the given body. -/
def decode (body : Text) : Text :=
  Text.halveQuotes body

end LocalizationScan.VisualBasic
