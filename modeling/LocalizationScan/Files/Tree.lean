import LocalizationScan.Path

namespace LocalizationScan

/-!
# File trees

The files that a scan sees: directories and files by their names from the root
down, without links.  A path is followed name by name from the current
directory; every name but the last has to be that of a directory.
-/

/-- The names from the root down to a file or directory. -/
abbrev Location := List Text

/-- What lies at a location. -/
inductive Node where
  | directory
  /-- A file, with its content if that is a text. -/
  | file (content? : Option Text)
  deriving Repr, DecidableEq

/-- Why a path leads to no text. -/
inductive FileError where
  | notFound
  | notDirectory
  | isDirectory
  | notText
  deriving Repr, DecidableEq

/-- The wording of an error. -/
def FileError.message : FileError → Text
  | .notFound => "No such file or directory (os error 2)".toList
  | .notDirectory => "Not a directory (os error 20)".toList
  | .isDirectory => "Is a directory (os error 21)".toList
  | .notText => "stream did not contain valid UTF-8".toList

/-- Directories and files, and the directory in which paths start. -/
structure FileTree where
  nodes : List (Location × Node)
  current : Location
  deriving Repr, DecidableEq

namespace FileTree

/-- What lies at a location; the root is always a directory. -/
def node? (tree : FileTree) (location : Location) : Option Node :=
  if location.isEmpty then some .directory else tree.nodes.lookup location

/-- Put a file or directory into the tree, in place of what is there. -/
def set (tree : FileTree) (location : Location) (node : Node) : FileTree :=
  { tree with
    nodes := (location, node) :: tree.nodes.filter fun (other, _) => other ≠ location }

/-- Put a file or directory below a location, together with the directories on the way. -/
def insertBelow (tree : FileTree) (above : Location) (node : Node) : Location → FileTree
  | [] => tree
  | [name] => tree.set (above ++ [name]) node
  | name :: next :: names =>
      let location := above ++ [name]
      let tree := if (tree.node? location).isSome then tree else tree.set location .directory
      tree.insertBelow location node (next :: names)

/-- Put a file or directory into the tree, together with the directories above it. -/
def insert (tree : FileTree) (location : Location) (node : Node) : FileTree :=
  tree.insertBelow [] node location

/-- Go from a directory to the file or directory of a name. -/
def enter (tree : FileTree) (location : Location) (name : Text) : Except FileError Location :=
  match tree.node? location with
  | some .directory =>
      if name.isEmpty ∨ name = ['.'] then .ok location
      else if name = ['.', '.'] then .ok location.dropLast
      else if (tree.node? (location ++ [name])).isSome then .ok (location ++ [name])
      else .error .notFound
  | _ => .error .notDirectory

/-- The location that a path leads to, when something lies there. -/
def locate (tree : FileTree) (path : Text) : Except FileError Location :=
  if path.isEmpty then .error .notFound
  else
    (Text.splitOn '/' path).foldlM tree.enter
      (if Path.isAbsolute path then [] else tree.current)

/-- What lies at a path. -/
def nodeAt? (tree : FileTree) (path : Text) : Option Node :=
  match tree.locate path with
  | .ok location => tree.node? location
  | .error _ => none

/-- Whether something lies at a path. -/
def has (tree : FileTree) (path : Text) : Bool :=
  (tree.nodeAt? path).isSome

/-- Whether a directory lies at a path. -/
def isDirectory (tree : FileTree) (path : Text) : Bool :=
  tree.nodeAt? path == some .directory

/-- The text of the file at a path. -/
def read (tree : FileTree) (path : Text) : Except FileError Text := do
  match tree.node? (← tree.locate path) with
  | some (.file (some content)) => return content
  | some (.file none) => throw .notText
  | some .directory => throw .isDirectory
  | none => throw .notFound

/-- Write a text to a file of the current directory. -/
def write (tree : FileTree) (name content : Text) : FileTree :=
  tree.set (tree.current ++ [name]) (.file (some content))

/-- The names below a location, when another one lies there. -/
def namesBelow? : Location → Location → Option (List Text)
  | [], name :: names => some (name :: names)
  | [], [] => none
  | _ :: _, [] => none
  | name :: above, other :: location =>
      if name = other then namesBelow? above location else none

/-- Everything below a location, with the names that lead there from it. -/
def below (tree : FileTree) (location : Location) : List (List Text × Node) :=
  tree.nodes.filterMap fun (other, node) =>
    (namesBelow? location other).map fun names => (names, node)

end FileTree

end LocalizationScan
