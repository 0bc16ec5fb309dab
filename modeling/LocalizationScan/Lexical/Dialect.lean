import LocalizationScan.Language
import LocalizationScan.Lexical.CSharp
import LocalizationScan.Lexical.VisualBasic

namespace LocalizationScan

/-!
# Dialects

A dialect holds the lexical rules of one language.  That of C# carries the block
comment that marks the literal after it as not localizable; Visual Basic has no
block comments and so no marker.
-/

/-- The lexical rules of one language. -/
inductive Dialect where
  /-- C#, with its no-localize comment. -/
  | csharp (marker : Text)
  | visualBasic
  deriving Repr, DecidableEq

/-- The no-localize comment of C# when none is configured. -/
def defaultMarker : Text := "/*VL_NO_LOC*/".toList

namespace Dialect

/-- The transition that the rest of a text begins in a given state, given the
character before it. -/
def classify
    (dialect : Dialect)
    (state : LexicalState)
    (before : Option Char)
    (rest : Text) :
    Transition :=
  match dialect with
  | .csharp _ => CSharp.classify state rest
  | .visualBasic => VisualBasic.classify state before rest

/-- The value of a string token with the given body. -/
def decode (dialect : Dialect) (kind : StringKind) (body : Text) : Text :=
  match dialect with
  | .csharp _ => CSharp.decode kind body
  | .visualBasic => VisualBasic.decode body

/-- The block comment that marks the next literal as not localizable. -/
def marker? : Dialect → Option Text
  | .csharp marker => some marker
  | .visualBasic => none

end Dialect

/-- The dialect of a language; a marker has a meaning only where there are block comments. -/
def Language.dialect (marker : Text) : Language → Dialect
  | .csharp => .csharp marker
  | .visualBasic => .visualBasic

end LocalizationScan
