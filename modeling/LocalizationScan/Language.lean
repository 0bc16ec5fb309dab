import LocalizationScan.Path
import LocalizationScan.Text.Blank

namespace LocalizationScan

/-!
# Languages

The languages whose code is scanned, and how a file name or a page directive
tells them apart.
-/

/-- A language whose code is scanned. -/
inductive Language where
  | csharp
  | visualBasic
  deriving Repr, DecidableEq

namespace Language

/-- The language of a code file, by its extension. -/
def ofPath? (path : Text) : Option Language :=
  if Path.hasExtension "cs".toList path then some .csharp
  else if Path.hasExtension "vb".toList path then some .visualBasic
  else none

/-- The language that a page directive names. -/
def ofName? (name : Text) : Option Language :=
  let word := (Text.trim name).map Char.toLower
  if word ∈ ["c#".toList, "cs".toList, "csharp".toList] then some .csharp
  else if word ∈ ["vb".toList, "vbs".toList, "visualbasic".toList, "vbscript".toList] then
    some .visualBasic
  else none

end Language

/-- Whether a path names a page of markup with embedded code. -/
def isMarkupPath (path : Text) : Bool :=
  ["aspx".toList, "ascx".toList, "master".toList].any fun extension =>
    Path.hasExtension extension path

end LocalizationScan
