import LocalizationScan.Glob.Directories
import LocalizationScan.Language

namespace LocalizationScan

/-!
# Finding the files of a project

All files below the included directories are looked at, apart from the ignored
ones, and sorted into sources and resource containers by their extension.  A
path keeps the spelling of the directory that it was found from.
-/

/-- What the files of a project are used for. -/
inductive FileKind where
  | source
  | resource
  deriving Repr, DecidableEq

/-- What the file at a path is used for, if anything. -/
def FileKind.ofPath? (path : Text) : Option FileKind :=
  if (Language.ofPath? path).isSome || isMarkupPath path then some .source
  else if Path.hasExtension "resx".toList path then some .resource
  else none

/-- Something that is passed over while files are looked for. -/
inductive DiscoveryWarning where
  | badIgnore (pattern : Text) (error : Glob.PatternError)
  | badInclude (pattern : Text) (error : Glob.PatternError)
  | missingInclude (path : Text)
  | inaccessible (path : Text) (error : FileError)
  deriving Repr, DecidableEq

/-- The wording of a warning. -/
def DiscoveryWarning.message : DiscoveryWarning → Text
  | .badIgnore pattern error =>
      "Invalid ignore pattern '".toList ++ pattern ++ "': ".toList ++ error.message
  | .badInclude pattern error =>
      "Invalid glob pattern '".toList ++ pattern ++ "': ".toList ++ error.message
  | .missingInclude path => "Include path does not exist: ".toList ++ path
  | .inaccessible path error =>
      "Cannot access path: IO error for operation on ".toList ++ path ++ ": ".toList ++
        error.message

/-- The files that are left out. -/
structure Exclusions where
  /-- Files and directories that are left out with all below them. -/
  paths : List Text
  patterns : List Glob.Pattern
  deriving Repr, DecidableEq

/-- Whether the file at a path is left out. -/
def Exclusions.exclude (exclusions : Exclusions) (path : Text) : Bool :=
  exclusions.paths.any (Path.startsWith path) || exclusions.patterns.any (·.isMatch path)

/-- The exclusions that ignored paths and patterns make below a base directory. -/
def Exclusions.ofIgnores (base : Text) (ignores : List Text) :
    Exclusions × List DiscoveryWarning :=
  let (wildcards, paths) := ignores.partition Glob.isWildcard
  let read := wildcards.map fun pattern => (pattern, Glob.Pattern.ofText pattern)
  (⟨paths.map (Path.join base), read.filterMap fun (_, pattern) => pattern.toOption⟩,
    read.filterMap fun (text, pattern) =>
      match pattern with
      | .ok _ => none
      | .error error => some (.badIgnore text error))

/-- The directories that an included path or pattern stands for. -/
def includedBy (tree : FileTree) (base included : Text) : List Text × List DiscoveryWarning :=
  let path := Path.join base included
  if Glob.isWildcard included then
    match Glob.directories tree path with
    | .ok directories => (directories, [])
    | .error error => ([], [.badInclude included error])
  else if tree.has path then
    ([path], [])
  else
    ([], [.missingInclude path])

/-- The directories that are looked through; without includes it is the base directory. -/
def searched (tree : FileTree) (base : Text) (includes : List Text) :
    List Text × List DiscoveryWarning :=
  if includes.isEmpty then
    ([base], [])
  else
    let found := includes.map (includedBy tree base)
    (found.flatMap Prod.fst, found.flatMap Prod.snd)

/-- The directories below which everything lies that discovery looks at: the directories of
the includes, of a pattern its components in front of the first wildcard. -/
def lookedAt (base : Text) (includes : List Text) : List Text :=
  if includes.isEmpty then
    [base]
  else
    includes.map fun included =>
      let path := Path.join base included
      if Glob.isWildcard included then
        Text.joinWith ['/']
          ((Text.splitOn '/' path).takeWhile fun name =>
            !(Glob.isWildcard name || name.contains '[')) ++ ['/']
      else path

/-- The paths of all files below a directory; a file stands for itself. -/
def filesBelow (tree : FileTree) (directory : Text) : Except FileError (List Text) := do
  let location ← tree.locate directory
  match tree.node? location with
  | some .directory =>
      return (tree.below location).filterMap fun (names, node) =>
        match node with
        | .file _ => some (names.foldl Path.join directory)
        | .directory => none
  | some (.file _) => return [directory]
  | none => throw .notFound

/-- The files of a project, each path once and in ascending order. -/
structure Discovery where
  sources : List Text
  resources : List Text
  /-- Number of directories that could not be looked through. -/
  skipped : Nat
  warnings : List DiscoveryWarning
  deriving Repr, DecidableEq

/-- The files below a base directory, given the included and the ignored paths. -/
def discover (tree : FileTree) (base : Text) (includes ignores : List Text) : Discovery :=
  let (exclusions, ignoreWarnings) := Exclusions.ofIgnores base ignores
  let (directories, includeWarnings) := searched tree base includes
  let looked := directories.map fun directory => (directory, filesBelow tree directory)
  let failures := looked.filterMap fun (directory, files) =>
    match files with
    | .ok _ => none
    | .error error => some (DiscoveryWarning.inaccessible directory error)
  let files := looked.flatMap fun (_, files) => files.toOption.getD []
  let kept := files.filter fun path => !exclusions.exclude path
  let ofKind (kind : FileKind) : List Text :=
    Text.sortDistinct (kept.filter fun path => FileKind.ofPath? path == some kind)
  { sources := ofKind .source
    resources := ofKind .resource
    skipped := failures.length
    warnings := ignoreWarnings ++ includeWarnings ++ failures }

end LocalizationScan
