import LocalizationScan.Files.Tree
import LocalizationScan.Glob.Pattern

namespace LocalizationScan.Glob

/-!
# Directories that match a pattern

A pattern of directories is followed component by component.  A component
without wildcards names the next directory, one with wildcards picks among the
children, and `**` stands for any number of directories, at least one.  Paths
that start in the current directory are spelled without a leading `./`.
-/

/-- The text of a pattern without wildcards. -/
def literalText? : Pattern → Option Text
  | [] => some []
  | .char char :: parts => (literalText? parts).map (char :: ·)
  | _ :: _ => none

/-- Whether a path is a spelling of the current directory. -/
def isCurrent (path : Text) : Bool :=
  Path.components path == [.current]

/-- The path of a child of a directory. -/
def childPath (directory name : Text) : Text :=
  if isCurrent directory then name else Path.join directory name

/-- The path that names lead to from a directory. -/
def pathBelow (directory : Text) : List Text → Text
  | [] => directory
  | name :: names => names.foldl Path.join (childPath directory name)

/-- Everything below a directory: the name of each file or directory and its path. -/
def namedBelow (tree : FileTree) (directory : Text) : List (Text × Text) :=
  match tree.locate directory with
  | .ok location =>
      (tree.below location).filterMap fun (names, _) =>
        names.getLast?.map fun name => (name, pathBelow directory names)
  | .error _ => []

/-- The children of a directory: the name and the path of each. -/
def children (tree : FileTree) (directory : Text) : List (Text × Text) :=
  match tree.locate directory with
  | .ok location =>
      (tree.below location).filterMap fun (names, _) =>
        match names with
        | [name] => some (name, childPath directory name)
        | _ => none
  | .error _ => []

/-- Whether a path can be gone to: `.` and `..` need a directory to start from, and a name
has to be there. -/
def canFollow (tree : FileTree) (directory name path : Text) : Bool :=
  if name = ['.'] ∨ name = ['.', '.'] then tree.isDirectory directory else tree.has path

/-- The entries `.` and `..` of a directory, as far as a pattern that starts with a dot
matches them. -/
def specialChildren (pattern : Pattern) (directory : Text) : List Text :=
  match pattern with
  | .char '.' :: _ =>
      ([['.'], ['.', '.']].filter pattern.isMatch).map (Path.join directory)
  | _ => []

/-- The paths to which the patterns of the components lead from a path; `descending` says
that any number of directories may come first. -/
def follow (tree : FileTree) : Bool → List Pattern → Text → List Text
  | _, [], path => [path]
  | true, pattern :: patterns, path =>
      if pattern = [.anyDirectories] then
        follow tree true patterns path
      else
        ((namedBelow tree path).filter fun (name, _) => pattern.isMatch name).flatMap
          fun (_, path) => follow tree false patterns path
  | false, pattern :: patterns, path =>
      match literalText? pattern with
      | some name =>
          let next := childPath path name
          if canFollow tree path name next then follow tree false patterns next else []
      | none =>
          if !tree.isDirectory path then
            []
          else if pattern = [.anyDirectories] then
            if patterns.all (· == [.anyDirectories]) then (namedBelow tree path).map Prod.snd
            else follow tree true patterns path
          else
            (((children tree path).filter fun (name, _) => pattern.isMatch name).map Prod.snd ++
              specialChildren pattern path).flatMap fun path => follow tree false patterns path

/-- The components of a pattern of directories; a separator at the end belongs to the last. -/
def components (text : Text) : List Text :=
  let pieces := Text.splitOn '/' text
  if pieces.getLast? = some [] then pieces.dropLast else pieces

/-- The directories that a pattern matches. -/
def directories (tree : FileTree) (text : Text) : Except PatternError (List Text) := do
  let _ ← Pattern.ofText text
  let (start, rest) := match text with
    | '/' :: rest => (['/'], rest)
    | text => (['.'], text)
  let patterns ← (components rest).mapM Pattern.ofText
  return (follow tree false patterns start).filter tree.isDirectory

end LocalizationScan.Glob
