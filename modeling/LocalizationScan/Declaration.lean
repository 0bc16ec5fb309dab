import LocalizationScan.Language
import LocalizationScan.Lexical.VisualBasic
import LocalizationScan.Scope
import LocalizationScan.Text.Search

namespace LocalizationScan

/-!
# Declarations that bring names into scope

The scope of a file is read off the declarations at the starts of its lines:
`using` and `namespace` in C#, `Imports` and `Namespace` in Visual Basic.  The
rest of the code is not looked at.
-/

/-- Whether a character can stand in the dotted name of a declaration. -/
def isPathChar (char : Char) : Bool :=
  Text.isWordChar char || char == '.'

namespace CSharp

/-- A text without the word `global` and white space at its start. -/
def skipGlobal (text : Text) : Text :=
  ((Text.after? "global".toList text).bind (Text.afterSome? Text.isBlank)).getD text

/-- A dotted name with an optional `global::` before it, closed by a semicolon. -/
def closedName? (text : Text) : Option (Text × Text) := do
  let (name, rest) ←
    Text.takeSome? isPathChar ((Text.after? "global::".toList text).getD text)
  let rest ← Text.after? [';'] (Text.trimLeft rest)
  return (name, rest)

/-- What follows the word `using` of a declaration. -/
def afterUsing? (text : Text) : Option Text := do
  let rest ← Text.after? "using".toList (skipGlobal (Text.trimLeft text))
  Text.afterSome? Text.isBlank rest

/-- The namespace of a `using` declaration. -/
def usingTarget? (text : Text) : Option (Text × Text) := do
  closedName? (← afterUsing? text)

/-- The alias and the target of a `using` declaration. -/
def usingAlias? (text : Text) : Option ((Text × Text) × Text) := do
  let (shortName, rest) ← Text.takeSome? Text.isWordChar (← afterUsing? text)
  let rest ← Text.after? ['='] (Text.trimLeft rest)
  let (target, rest) ← closedName? (Text.trimLeft rest)
  return ((shortName, target), rest)

/-- The name of a `namespace` declaration. -/
def namespaceName? (text : Text) : Option (Text × Text) := do
  let rest ← Text.after? "namespace".toList (Text.trimLeft text)
  Text.takeSome? isPathChar (← Text.afterSome? Text.isBlank rest)

/-- The scope that the declarations of a file make. -/
def scopeOf (content : Text) : Scope :=
  let aliased := (Text.readLines usingAlias? content).foldl
    (fun scope (shortName, target) => scope.addAlias shortName target) .empty
  let imported := (Text.readLines usingTarget? content).foldl Scope.addNamespace aliased
  (Text.readLines namespaceName? content).foldl Scope.addEnclosing imported

end CSharp

namespace VisualBasic

/-- What follows a keyword and blanks at the start of a line, in any case of letters. -/
def afterKeyword? (keyword text : Text) : Option Text := do
  let rest ← Text.afterFolded? keyword (text.dropWhile isLineBlank)
  Text.afterSome? isLineBlank rest

/-- The clauses of an `Imports` declaration, up to a comment or the end of the line. -/
def importsClauses? (text : Text) : Option (Text × Text) := do
  let rest ← afterKeyword? "imports".toList text
  Text.takeSome? (fun char => char ≠ '\'' && char ≠ '\r' && char ≠ '\n') rest

/-- The name of a `Namespace` declaration. -/
def namespaceName? (text : Text) : Option (Text × Text) := do
  Text.takeSome? isPathChar (← afterKeyword? "namespace".toList text)

/-- Take up one clause of an `Imports` declaration; what names no namespace is skipped. -/
def addClause (scope : Scope) (clause : Text) : Scope :=
  match Text.splitFirst? '=' clause with
  | some (shortName, target) =>
      if Text.isDottedIdentifier (Text.trim target) then
        scope.addAlias (Text.trim shortName) (Text.trim target)
      else
        scope
  | none => if Text.isDottedIdentifier clause then scope.addNamespace clause else scope

/-- Take up an `Imports` declaration. -/
def addImports (scope : Scope) (clauses : Text) : Scope :=
  ((Text.splitOn ',' clauses).map Text.trim).foldl addClause scope

/-- The full name of a declared namespace: it lies in the root namespace of the project,
unless it starts with `Global.`. -/
def absoluteName (root declared : Text) : Text :=
  match Text.after? "Global.".toList declared with
  | some absolute => absolute
  | none => qualify root declared

/-- The scope that the declarations of a file make in a project with a root namespace. -/
def scopeOf (content rootNamespace : Text) : Scope :=
  let root := Text.trim rootNamespace
  let imported := (Text.readLines importsClauses? content).foldl addImports .empty
  let entered := (Text.readLines namespaceName? content).foldl
    (fun scope declared => scope.addEnclosing (absoluteName root declared)) imported
  entered.addEnclosing root

end VisualBasic

/-- The scope that the declarations of a code file make. -/
def Scope.ofCode (language : Language) (content rootNamespace : Text) : Scope :=
  match language with
  | .csharp => CSharp.scopeOf content
  | .visualBasic => VisualBasic.scopeOf content rootNamespace

end LocalizationScan
