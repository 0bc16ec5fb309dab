import LocalizationScan.Config.Location
import LocalizationScan.Files.Discovery
import LocalizationScan.Finding.Basic
import LocalizationScan.Resource.Container
import LocalizationScan.Resource.Location

namespace LocalizationScan

/-!
# Projects

A project is a configuration together with the files that it selects.  Scans
read the sources, and for references also the resource containers, and turn
what they find into findings.  Files that cannot be read become findings too.
-/

/-- What the command line says about a project. -/
structure ProjectOptions where
  /-- The directory that the project is looked for in; the current one if none is given. -/
  sourceRoot? : Option Text
  /-- A root namespace that takes precedence over the configured one. -/
  rootNamespace? : Option Text
  verbose : Bool
  deriving Repr, DecidableEq

/-- Why a project cannot be scanned. -/
inductive ProjectError where
  | rootNotDirectory (path : Text)
  | config (error : ConfigFileError)
  | badResourcePattern (pattern : Text) (error : Glob.PatternError)
  | unknownResource (path : Text)
  deriving Repr, DecidableEq

/-- The wording of an error. -/
def ProjectError.message : ProjectError → Text
  | .rootNotDirectory path => "Source root is not a directory: ".toList ++ Text.quoted path
  | .config error => error.message
  | .badResourcePattern pattern _ => "Invalid resource pattern: \"".toList ++ pattern ++ ['"']
  | .unknownResource path => "No loaded resource file matches ".toList ++ Text.quoted path

/-- The wording of what lies behind an error, if that is not all in its message. -/
def ProjectError.cause? : ProjectError → Option Text
  | .rootNotDirectory _ | .unknownResource _ | .config (.invalid (.badMarker _)) => none
  | .config (.unreadable _ error) => some error.message
  | .config (.malformed _ failure) => some failure.message
  | .config (.invalid (.badPattern _ _ error)) | .badResourcePattern _ error =>
      some error.message

/-- What is said on the side while a project is scanned. -/
inductive Notice where
  /-- No configuration file was found. -/
  | defaultConfig
  | warning (message : Text)
  deriving Repr, DecidableEq

/-- A configuration and the files that it selects. -/
structure Project where
  config : Config
  /-- The directory below which the files lie. -/
  root : Text
  sources : List Text
  resources : List Text
  verbose : Bool
  /-- What was said while the project was opened. -/
  notices : List Notice
  deriving Repr, DecidableEq

namespace Project

/-- The directory that the configured source root stands for, seen from the start directory. -/
def rootDirectory (start configured : Text) : Text :=
  if [[], ['.'], ['.', '/']].contains configured then start else Path.join start configured

/-- The directory in which a project is looked for. -/
def startDirectory (options : ProjectOptions) : Text :=
  options.sourceRoot?.getD ['.']

/-- What is said about the files of a project. -/
def discoveryNotices (verbose : Bool) (files : Discovery) : List Notice :=
  (if verbose then files.warnings.map fun warning => .warning warning.message else []) ++
  if files.skipped = 0 then []
  else
    [.warning (Text.ofNat files.skipped ++ " path(s) skipped due to access errors".toList ++
      if verbose then [] else " (use -v for details)".toList)]

/-- The project that options select. -/
def ofOptions (tree : FileTree) (options : ProjectOptions) : Except ProjectError Project := do
  let start := startDirectory options
  if !tree.isDirectory start then
    throw (.rootNotDirectory start)
  let loaded ← (Config.load tree start).mapError .config
  let config : Config :=
    { loaded.config with
      rootNamespace := options.rootNamespace?.getD loaded.config.rootNamespace }
  config.validate.mapError fun error => .config (.invalid error)
  let root := rootDirectory start config.sourceRoot
  let files := discover tree root config.includes config.ignores
  return {
    config := config
    root := root
    sources := files.sources
    resources := files.resources
    verbose := options.verbose
    notices :=
      (if options.verbose && !loaded.fromFile then [Notice.defaultConfig] else []) ++
        discoveryNotices options.verbose files }

end Project

/-! ## Sources -/

/-- The sources of a project, as far as they can be read. -/
structure Sources where
  files : List SourceFile
  unreadable : List (Text × FileError)
  deriving Repr, DecidableEq

namespace Sources

/-- The findings about sources that cannot be read. -/
def errors (sources : Sources) : List Finding :=
  sources.unreadable.map fun (path, error) =>
    .fileError path ("Failed to read file: ".toList ++ error.message)

/-- What is said about sources that cannot be read. -/
def notices (sources : Sources) : List Notice :=
  sources.unreadable.map fun (path, error) =>
    .warning (path ++ " - ".toList ++ error.message)

end Sources

namespace Project

/-- The sources that are read: generated ones are passed over where the configuration says
so. -/
def readPaths (project : Project) : List Text :=
  project.sources.filter fun path =>
    !(project.config.ignoreGeneratedFiles && project.config.isGenerated path)

/-- Read the sources. -/
def readSources (project : Project) (tree : FileTree) : Sources :=
  let read := project.readPaths.map fun path => (path, tree.read path)
  { files := read.filterMap fun (path, content) =>
      content.toOption.bind fun content =>
        SourceFile.ofContent? path content (project.config.isGenerated path)
    unreadable := read.filterMap fun (path, content) =>
      match content with
      | .ok _ => none
      | .error error => some (path, error) }

end Project

/-- The findings of a scan that gives items, or of a scan that fails. -/
def SourceFile.findings
    {ε α : Type}
    (source : SourceFile)
    (message : ε → Text)
    (finding : α → Finding)
    (scan : Except ε (List α)) :
    List Finding :=
  match scan with
  | .ok items => items.map finding
  | .error error => [.fileError source.path (message error)]

namespace Config

/-- Whether a literal is reported; one that is to stay as it is only on request. -/
def reports (config : Config) (includeUnlocalizable : Bool) (literal : Literal) : Bool :=
  (includeUnlocalizable || !literal.flags.isUnlocalizable) &&
    !config.ignoreTexts.contains literal.value

/-- The literals of sources that should move to a resource container. -/
def literalFindings (config : Config) (files : List SourceFile) (includeUnlocalizable : Bool) :
    List Finding :=
  files.flatMap fun source =>
    source.findings AnchorError.message
      (fun literal => .literal (source.context literal.span.start) literal)
      ((source.literals config.noLocalizeComment).map
        (List.filter (config.reports includeUnlocalizable)))

end Config

/-! ## Resources -/

/-- The entries of the resource containers of a project, as far as they can be read. -/
structure Resources where
  entries : List Entry
  trie : Trie
  unreadable : List (Text × ResourceError)

namespace Resources

/-- Read the containers at some paths. -/
def load (tree : FileTree) (paths : List Text) (root rootNamespace : Text) : Resources :=
  let read := paths.map fun path => (path, entriesAt path)
  let entries := read.flatMap fun (_, entries) => entries.toOption.getD []
  { entries := entries
    trie := Trie.ofList entries
    unreadable := read.filterMap fun (path, entries) =>
      match entries with
      | .ok _ => none
      | .error error => some (path, error) }
where
  /-- The entries of one container; a path without a file name has none. -/
  entriesAt (path : Text) : Except ResourceError (List Entry) := do
    let content ← (tree.read path).mapError fun error => .unreadable path error.message
    match Origin.ofPath? path root rootNamespace with
    | some origin => origin.entries content
    | none => return []

/-- The findings about containers that cannot be read. -/
def errors (resources : Resources) : List Finding :=
  resources.unreadable.map fun (path, error) => .fileError path error.message

/-- The first container whose path ends with the components of a path. -/
def originFor? (resources : Resources) (path : Text) : Option Origin :=
  (resources.entries.map Entry.origin).find? fun origin => Path.endsWith origin.path path

/-- Number of containers that have entries. -/
def fileCount (resources : Resources) : Nat :=
  (Text.sortDistinct (resources.entries.map fun entry => entry.origin.path)).length

end Resources

namespace Project

/-- The resource containers that a selection of patterns leaves; no pattern selects all. -/
def selectedResources (project : Project) (selection : List Glob.Pattern) : List Text :=
  project.resources.filter fun path =>
    selection.isEmpty || selection.any (·.isMatch path)

/-- Read the selected resource containers. -/
def loadResources (project : Project) (tree : FileTree) (selection : List Glob.Pattern) :
    Resources :=
  .load tree (project.selectedResources selection) project.root project.config.rootNamespace

end Project

/-- The patterns that texts write. -/
def readSelection (texts : List Text) : Except ProjectError (List Glob.Pattern) :=
  texts.mapM fun text => (Glob.Pattern.ofText text).mapError (.badResourcePattern text)

namespace Resources

/-- The container that a path prefers, if a path is given. -/
def preferredOrigin (resources : Resources) (path? : Option Text) :
    Except ProjectError (Option Origin) :=
  match path? with
  | none => .ok none
  | some path =>
      match resources.originFor? path with
      | some origin => .ok (some origin)
      | none => .error (.unknownResource path)

/-- The references to the entries in some sources. -/
def referenceFindings
    (resources : Resources)
    (config : Config)
    (files : List SourceFile)
    (preferred? : Option Origin) :
    List Finding :=
  files.flatMap fun source =>
    source.findings ScanError.message
      (fun reference => .reference (source.context reference.span.start) reference)
      (source.references resources.trie config.rootNamespace preferred?)

end Resources

end LocalizationScan
