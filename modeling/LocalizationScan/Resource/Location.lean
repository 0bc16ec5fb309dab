import LocalizationScan.Path
import LocalizationScan.Resource.Basic

namespace LocalizationScan

/-!
# Where resource files lie

Namespace, class and culture of a resource file follow from its path: the
directories below the source root make the namespace, the file name makes the
class, and a culture tag before the extension makes the culture.
-/

/-- Whether a character is a lower case ASCII letter. -/
def isLowerLetter (char : Char) : Bool :=
  'a' ≤ char && char ≤ 'z'

/-- Whether a text is a subtag of a culture tag: two to eight ASCII letters or digits. -/
def isCultureSubtag (text : Text) : Bool :=
  2 ≤ text.length && text.length ≤ 8 && text.all Char.isAlphanum

/-- Whether a text is a culture tag: two or three lower case letters, and subtags behind
hyphens. -/
def isCultureTag (text : Text) : Bool :=
  match Text.splitOn '-' text with
  | [] => false
  | language :: subtags =>
      2 ≤ language.length && language.length ≤ 3 && language.all isLowerLetter &&
        subtags.all isCultureSubtag

/-- The class name and the culture in the stem of a file name. -/
def cutCulture (stem : Text) : Text × Option Text :=
  match Text.splitLast? '.' stem with
  | some (first :: rest, culture) =>
      if isCultureTag culture then (first :: rest, some culture) else (stem, none)
  | _ => (stem, none)

/-- The namespace segment that a component of a path stands for. -/
def Path.Component.segment? : Path.Component → Option Text
  | .name text => some (Text.toIdentifier text)
  | .root | .current | .parent => none

/-- The namespace segments of the directories between a source root and a file. -/
def directorySegments (path sourceRoot : Text) : List Text :=
  match Path.below? (Path.components sourceRoot) (Path.components path).dropLast with
  | some components => components.filterMap Path.Component.segment?
  | none => []

/-- The container that a resource file holds, if the path has a file name. -/
def Origin.ofPath? (path sourceRoot rootNamespace : Text) : Option Origin :=
  (Path.stem? path).map fun stem =>
    let (className, culture?) := cutCulture stem
    let rootSegments := (Text.splitOn '.' rootNamespace).filter fun segment => !segment.isEmpty
    ⟨Text.joinWith ['.'] (rootSegments ++ directorySegments path sourceRoot),
      Text.toIdentifier className, culture?, path⟩

end LocalizationScan
