import LocalizationScan.Text.Blank
import LocalizationScan.Text.Word

namespace LocalizationScan.Text

/-!
# Recognising words in text

Small recognisers that take a word, a run of characters or white space off the
start of a text and give back the rest.  Keywords that ignore case follow the
simple case folding of Unicode, in which the long s and the Kelvin sign count
as letters of the ASCII alphabet.
-/

/-- Whether a character is the given lower case ASCII letter when case is folded. -/
def foldsTo (letter char : Char) : Bool :=
  char.toLower == letter ||
    (letter == 's' && char == 'ſ') || (letter == 'k' && char == '\u212a')

/-- What follows a word of lower case letters, when the text starts with it in any case. -/
def afterFolded? : Text → Text → Option Text
  | [], text => some text
  | _ :: _, [] => none
  | letter :: word, char :: text =>
      if foldsTo letter char then afterFolded? word text else none

/-- What follows a non-empty run of characters that satisfy a test. -/
def afterSome? (test : Char → Bool) (text : Text) : Option Text :=
  match text with
  | char :: rest => if test char then some (rest.dropWhile test) else none
  | [] => none

/-- A non-empty run of characters that satisfy a test, and what follows it. -/
def takeSome? (test : Char → Bool) (text : Text) : Option (Text × Text) :=
  match text.takeWhile test with
  | [] => none
  | run => some (run, text.dropWhile test)

/-- Whether a word character follows. -/
def wordFollows (text : Text) : Bool :=
  text.head?.any isWordChar

/-- The rest after the first match of a recogniser at the start of a word, together with
what the recogniser read; `inWord` says whether a word character comes right before. -/
def findAtWordStart? {α : Type} (recognise : Text → Option α) : Bool → Text → Option α
  | _, [] => none
  | inWord, char :: rest =>
      let found := if inWord then none else recognise (char :: rest)
      match found with
      | some value => some value
      | none => findAtWordStart? recognise (isWordChar char) rest

/-- The rests of a text that start at the beginning of a line; `atStart` says whether the
text itself does. -/
def lineStarts : Bool → Text → List Text
  | atStart, [] => if atStart then [[]] else []
  | atStart, char :: rest =>
      (if atStart then [char :: rest] else []) ++ lineStarts (char == '\n') rest

/-- What a recogniser reads at the starts of lines, from the first line on.  A match that
runs over line breaks hides the line starts inside it: the rest must be no longer than the
limit, which is the length of what follows the match before. -/
def readStarts {α : Type} (recognise : Text → Option (α × Text)) : Nat → List Text → List α
  | _, [] => []
  | limit, start :: starts =>
      if limit < start.length then
        readStarts recognise limit starts
      else
        match recognise start with
        | some (value, rest) => value :: readStarts recognise rest.length starts
        | none => readStarts recognise limit starts

/-- What a recogniser reads at the starts of the lines of a text. -/
def readLines {α : Type} (recognise : Text → Option (α × Text)) (text : Text) : List α :=
  readStarts recognise text.length (lineStarts true text)

end LocalizationScan.Text
