import LocalizationScan.Text.Identifier

namespace LocalizationScan

/-!
# Resources

A resource container holds keyed texts.  Code refers to them through a class
generated for the container: the class has a property for every key.
Containers of the same class differ in their culture.
-/

/-- A name inside a namespace; the global namespace is empty and leaves no dot. -/
def qualify (scope name : Text) : Text :=
  if scope.isEmpty then name else scope ++ '.' :: name

/-- A resource container. -/
structure Origin where
  /-- Namespace of the generated class. -/
  scope : Text
  /-- Name of the generated class. -/
  className : Text
  /-- Culture of the texts; none for the culture-neutral container. -/
  culture? : Option Text
  /-- Path of the container file. -/
  path : Text
  deriving Repr, DecidableEq

namespace Origin

/-- Full name of the generated class. -/
def qualifiedClass (origin : Origin) : Text :=
  qualify origin.scope origin.className

/-- Whether the container holds the texts of one culture. -/
def isCultureSpecific (origin : Origin) : Bool :=
  origin.culture?.isSome

/-- The class name, followed by the culture in brackets if there is one. -/
def display (origin : Origin) : Text :=
  match origin.culture? with
  | some culture => origin.qualifiedClass ++ " [".toList ++ culture ++ "]".toList
  | none => origin.qualifiedClass

end Origin

/-- One keyed text of a container. -/
structure Entry where
  key : Text
  value : Text
  origin : Origin
  deriving Repr, DecidableEq

namespace Entry

/-- Name of the generated property. -/
def propertyName (entry : Entry) : Text :=
  Text.toIdentifier entry.key

/-- The property as seen from the namespace of its class. -/
def classPath (entry : Entry) : Text :=
  entry.origin.className ++ '.' :: entry.propertyName

/-- The property as seen from the global namespace. -/
def fullPath (entry : Entry) : Text :=
  entry.origin.qualifiedClass ++ '.' :: entry.propertyName

/-- The paths under which code can name the entry: the short one, and the full one when
the class lies in a namespace. -/
def paths (entry : Entry) : List Text :=
  if entry.origin.scope.isEmpty then [entry.classPath]
  else [entry.classPath, entry.fullPath]

end Entry

end LocalizationScan
