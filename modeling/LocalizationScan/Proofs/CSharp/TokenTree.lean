import LocalizationScan.Literal
import LocalizationScan.Proofs.Lexical.Transition

namespace LocalizationScan.CSharp

/-!
# Token trees of C#

Code as a grammar sees it: a sequence of characters, comments and strings, in
which the holes of an interpolated string hold code again.  A tree is printed
as the code that it stands for.  The literals of a tree are its regular and
verbatim strings outside of holes, each at its place in the printed code.
-/

/-- One unit in the body of a string that ends at its line. -/
inductive BodyUnit where
  | plain (char : Char)
  /-- A backslash and the character that it escapes. -/
  | escaped (char : Char)
  deriving Repr, DecidableEq

namespace BodyUnit

def print : BodyUnit → Text
  | .plain char => [char]
  | .escaped char => ['\\', char]

/-- Whether a unit can stand between the given quotes. -/
def Fits (quote : Char) : BodyUnit → Prop
  | .plain char => char ≠ quote ∧ char ≠ '\\' ∧ char ≠ '\r' ∧ char ≠ '\n'
  | .escaped char => char ≠ '\r' ∧ char ≠ '\n'

/-- Whether a unit leaves the braces to the holes of an interpolated string. -/
def LeavesBraces : BodyUnit → Prop
  | .plain char | .escaped char => char ≠ '\x7b' ∧ char ≠ '\x7d'

end BodyUnit

def printBody (body : List BodyUnit) : Text :=
  body.flatMap BodyUnit.print

/-- A text with every quote written twice. -/
def doubleQuotes (text : Text) : Text :=
  text.flatMap fun char => if char = '"' then ['"', '"'] else [char]

/-- Reading two quotes as one gives the text back. -/
theorem halveQuotes_doubleQuotes (text : Text) :
    Text.halveQuotes (doubleQuotes text) = text := by
  induction text with
  | nil =>
      rfl
  | cons char rest inductionHypothesis =>
      unfold doubleQuotes at inductionHypothesis ⊢
      by_cases isQuote : char = '"'
      · subst isQuote
        exact congrArg ('"' :: ·) inductionHypothesis
      · simp only [List.flatMap_cons, isQuote, ↓reduceIte, List.singleton_append]
        rw [Text.halveQuotes, inductionHypothesis]
        exact fun _ same _ => isQuote same

/-- How an interpolated string opens. -/
inductive Interpolation where
  /-- With a dollar sign; the text has the escapes of regular strings. -/
  | line
  /-- With a dollar sign and an at sign; only the doubled quote is an escape. -/
  | dollarAt
  /-- With an at sign and a dollar sign; only the doubled quote is an escape. -/
  | atDollar
  deriving Repr, DecidableEq

namespace Interpolation

def opening : Interpolation → Text
  | .line => ['$', '"']
  | .dollarAt => ['$', '@', '"']
  | .atDollar => ['@', '$', '"']

def kind : Interpolation → StringKind
  | .line => .interpolated
  | .dollarAt | .atDollar => .interpolatedVerbatim

def isVerbatim : Interpolation → Bool
  | .line => false
  | .dollarAt | .atDollar => true

end Interpolation

mutual

inductive TokenTree where
  | done
  /-- A character that begins no other token. -/
  | plain (char : Char) (rest : TokenTree)
  /-- A line comment with the text behind its slashes. -/
  | lineComment (body : Text) (rest : TokenTree)
  /-- A block comment with the text between its delimiters. -/
  | blockComment (body : Text) (rest : TokenTree)
  | regular (body : List BodyUnit) (rest : TokenTree)
  | charLiteral (body : List BodyUnit) (rest : TokenTree)
  /-- A verbatim string with its text, in which quotes are not yet doubled. -/
  | verbatim (text : Text) (rest : TokenTree)
  | interpolated (form : Interpolation) (parts : StringParts) (rest : TokenTree)

inductive StringParts where
  | done
  | unit (unit : BodyUnit) (rest : StringParts)
  /-- A quote, which is written twice. -/
  | quote (rest : StringParts)
  /-- An opening or a closing brace, which is written twice. -/
  | brace (opening : Bool) (rest : StringParts)
  | hole (code : TokenTree) (rest : StringParts)

end

def braceChar (opening : Bool) : Char :=
  if opening then '\x7b' else '\x7d'

mutual

def TokenTree.print : TokenTree → Text
  | .done => []
  | .plain char rest => char :: rest.print
  | .lineComment body rest => '/' :: '/' :: body ++ rest.print
  | .blockComment body rest => '/' :: '*' :: body ++ ['*', '/'] ++ rest.print
  | .regular body rest => '"' :: printBody body ++ ['"'] ++ rest.print
  | .charLiteral body rest => '\'' :: printBody body ++ ['\''] ++ rest.print
  | .verbatim text rest => '@' :: '"' :: doubleQuotes text ++ ['"'] ++ rest.print
  | .interpolated form parts rest =>
      form.opening ++ parts.print ++ ['"'] ++ rest.print

def StringParts.print : StringParts → Text
  | .done => []
  | .unit unit rest => unit.print ++ rest.print
  | .quote rest => '"' :: '"' :: rest.print
  | .brace opening rest => braceChar opening :: braceChar opening :: rest.print
  | .hole code rest => '\x7b' :: code.print ++ ['\x7d'] ++ rest.print

end

/-- Where a sequence of tokens stands. -/
inductive Place where
  | block
  /-- In the code of a hole, behind so many unmatched opening braces. -/
  | hole (depth : Nat)
  deriving Repr, DecidableEq

/-- The place behind a character; a brace that would end the hole has none. -/
def Place.after? (place : Place) (char : Char) : Option Place :=
  match place with
  | .block => some .block
  | .hole depth =>
      if char = '\x7b' then some (.hole (depth + 1))
      else if char = '\x7d' then
        if depth = 0 then none else some (.hole (depth - 1))
      else some (.hole depth)

/-- Characters that begin no comment and no string. -/
def IsOrdinary (char : Char) : Prop :=
  char ≠ '"' ∧ char ≠ '\'' ∧ char ≠ '/' ∧ char ≠ '@' ∧ char ≠ '$'

/-- Whether a tree goes on with a given character. -/
def TokenTree.StartsWith (char : Char) (tree : TokenTree) : Prop :=
  tree.print.head? = some char

mutual

/-- The grammar of token trees.  A line comment runs to a line feed or to the end of the
block, and the braces in a hole are balanced. -/
def TokenTree.WellFormed : Place → TokenTree → Prop
  | place, .done => place = .block ∨ place = .hole 0
  | place, .plain char rest =>
      IsOrdinary char ∧ ∃ next, place.after? char = some next ∧ rest.WellFormed next
  | place, .lineComment body rest =>
      '\n' ∉ body ∧ (rest.StartsWith '\n' ∨ place = .block ∧ rest.print = []) ∧
        rest.WellFormed place
  | place, .blockComment body rest => IsCommentBody body ∧ rest.WellFormed place
  | place, .regular body rest => (∀ unit ∈ body, unit.Fits '"') ∧ rest.WellFormed place
  | place, .charLiteral body rest => (∀ unit ∈ body, unit.Fits '\'') ∧ rest.WellFormed place
  | place, .verbatim _ rest => rest.WellFormed place
  | place, .interpolated form parts rest =>
      parts.WellFormed form ∧ rest.WellFormed place

/-- The grammar of the parts of an interpolated string. -/
def StringParts.WellFormed (form : Interpolation) : StringParts → Prop
  | .done => True
  | .unit unit rest =>
      unit.LeavesBraces ∧
        (if form.isVerbatim then ∃ char, unit = .plain char ∧ char ≠ '"'
          else unit.Fits '"') ∧
        rest.WellFormed form
  | .quote rest => form.isVerbatim = true ∧ rest.WellFormed form
  | .brace _ rest => rest.WellFormed form
  | .hole code rest => code.WellFormed (.hole 0) ∧ rest.WellFormed form

end

mutual

/-- No two neighbours run together in print: the closing quote of a verbatim string is not
followed by a quote, and the opening brace of a hole is not followed by a brace. -/
def TokenTree.Separated : TokenTree → Prop
  | .done => True
  | .plain _ rest | .lineComment _ rest | .blockComment _ rest
  | .regular _ rest | .charLiteral _ rest => rest.Separated
  | .verbatim _ rest => ¬rest.StartsWith '"' ∧ rest.Separated
  | .interpolated form parts rest =>
      (form.isVerbatim = true → ¬rest.StartsWith '"') ∧ parts.Separated ∧ rest.Separated

/-- No two neighbours run together in the holes of a string. -/
def StringParts.Separated : StringParts → Prop
  | .done => True
  | .unit _ rest | .quote rest | .brace _ rest => rest.Separated
  | .hole code rest => ¬code.StartsWith '\x7b' ∧ code.Separated ∧ rest.Separated

end

/-- The literal of a string token of the given kind that is printed at a position. -/
def printedLiteral
    (flags : ItemFlags)
    (kind : StringKind)
    (opening body : Text)
    (quote : Char)
    (position : Position) :
    Literal where
  text := opening ++ body ++ [quote]
  value := decode kind body
  span := ⟨position, position.advanceOver (opening ++ body ++ [quote])⟩
  verbatim := kind == .verbatim
  flags := flags

/-- The regular and verbatim strings of a tree outside of holes, when the tree is printed at
a position. -/
def TokenTree.literals (flags : ItemFlags) (position : Position) : TokenTree → List Literal
  | .done => []
  | .plain char rest => rest.literals flags (position.advance char)
  | .lineComment body rest =>
      rest.literals flags (position.advanceOver ('/' :: '/' :: body))
  | .blockComment body rest =>
      rest.literals flags (position.advanceOver ('/' :: '*' :: body ++ ['*', '/']))
  | .regular body rest =>
      printedLiteral flags .regular ['"'] (printBody body) '"' position ::
        rest.literals flags (position.advanceOver ('"' :: printBody body ++ ['"']))
  | .charLiteral body rest =>
      rest.literals flags (position.advanceOver ('\'' :: printBody body ++ ['\'']))
  | .verbatim text rest =>
      printedLiteral flags .verbatim ['@', '"'] (doubleQuotes text) '"' position ::
        rest.literals flags (position.advanceOver ('@' :: '"' :: doubleQuotes text ++ ['"']))
  | .interpolated form parts rest =>
      rest.literals flags (position.advanceOver (form.opening ++ parts.print ++ ['"']))

end LocalizationScan.CSharp
