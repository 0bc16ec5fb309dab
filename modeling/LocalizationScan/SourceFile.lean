import LocalizationScan.Markup.Page
import LocalizationScan.Reference.Chain

namespace LocalizationScan

/-!
# Source files

A code file is one region of code that starts where the file starts; a page of
markup has a region for every code block, at its place in the page.  Positions
of what is found are therefore positions in the file.
-/

/-- What kind of source a file is. -/
inductive SourceKind where
  | code (language : Language)
  | markup (page : Markup.Page)
  deriving Repr, DecidableEq

/-- A block of code and where it starts in its file. -/
structure CodeRegion where
  language : Language
  code : Text
  anchor : Position
  deriving Repr, DecidableEq

/-- A file whose code can be scanned. -/
structure SourceFile where
  path : Text
  content : Text
  /-- The file was written by a tool. -/
  generated : Bool
  kind : SourceKind
  deriving Repr, DecidableEq

namespace SourceFile

/-- The kind of source at a path, if there is code in such files. -/
def kindOf? (path content : Text) : Option SourceKind :=
  match Language.ofPath? path with
  | some language => some (.code language)
  | none => if isMarkupPath path then some (.markup (.ofText content)) else none

/-- The source file at a path, if there is code in such files. -/
def ofContent? (path content : Text) (generated : Bool) : Option SourceFile :=
  (kindOf? path content).map fun kind => ⟨path, content, generated, kind⟩

/-- The language of the code. -/
def language (source : SourceFile) : Language :=
  match source.kind with
  | .code language => language
  | .markup page => page.language

/-- Whether the file is a page of markup. -/
def isMarkup (source : SourceFile) : Bool :=
  match source.kind with
  | .code _ => false
  | .markup _ => true

/-- The regions of code, in document order. -/
def regions (source : SourceFile) : List CodeRegion :=
  match source.kind with
  | .code language => [⟨language, source.content, .start⟩]
  | .markup page =>
      page.blocks.map fun block => ⟨page.language, block.code, block.anchor⟩

/-- The namespaces and aliases that the code can use. -/
def scope (source : SourceFile) (rootNamespace : Text) : Scope :=
  match source.kind with
  | .code language => .ofCode language source.content rootNamespace
  | .markup page =>
      (page.imports.foldl Scope.addNamespace .empty).addEnclosing rootNamespace

/-- The flags of everything that is found in the file. -/
def flags (source : SourceFile) : ItemFlags :=
  { ItemFlags.none with fromGeneratedSource := source.generated }

/-- The string literals of all regions, in document order. -/
def literals (source : SourceFile) (marker : Text) : Except AnchorError (List Literal) := do
  let found ← source.regions.mapM fun region =>
    findLiterals (region.language.dialect marker) source.flags region.anchor region.code
  return found.flatten

/-- The resource references of all regions, in document order. -/
def references
    (source : SourceFile)
    (trie : Trie)
    (rootNamespace : Text)
    (preferred? : Option Origin) :
    Except ScanError (List Reference) := do
  let context : ResolveContext := ⟨trie, source.scope rootNamespace, preferred?⟩
  let found ← source.regions.mapM fun region =>
    findReferences (region.language.dialect defaultMarker) context source.flags
      region.anchor region.code
  return found.flatten

/-- The text of a line, counted from one, without its line break; empty beyond the file. -/
def line (source : SourceFile) (number : Nat) : Text :=
  match number with
  | 0 => []
  | index + 1 => ((Text.lines source.content)[index]?).getD []

end SourceFile

end LocalizationScan
