import LocalizationScan.Glob.Pattern
import LocalizationScan.Json.Value
import LocalizationScan.Lexical.Dialect

namespace LocalizationScan

/-!
# Configuration

The settings of a project: where its sources lie, which files are left out,
and which texts are not reported.  A configuration is valid when all its
patterns are and when its no-localize comment is a block comment.
-/

/-- The settings of a project. -/
structure Config where
  /-- Paths and patterns of files that are left out. -/
  ignores : List Text
  /-- Paths and patterns of the directories that are scanned; none stands for the root. -/
  includes : List Text
  /-- The root directory, seen from the directory that the search started in. -/
  sourceRoot : Text
  /-- The namespace that encloses the namespaces of all resources. -/
  rootNamespace : Text
  noLocalizeComment : Text
  generatedFilePatterns : List Text
  ignoreGeneratedFiles : Bool
  /-- Values of literals that are not reported. -/
  ignoreTexts : List Text
  deriving Repr, DecidableEq

/-- The name of a setting. -/
inductive Setting where
  | ignores
  | includes
  | sourceRoot
  | rootNamespace
  | noLocalizeComment
  | generatedFilePatterns
  | ignoreGeneratedFiles
  | ignoreTexts
  deriving Repr, DecidableEq

namespace Setting

/-- All settings, in the order in which they are written. -/
def all : List Setting :=
  [.ignores, .includes, .sourceRoot, .rootNamespace, .noLocalizeComment,
    .generatedFilePatterns, .ignoreGeneratedFiles, .ignoreTexts]

/-- The name as it is written. -/
def name : Setting → Text
  | .ignores => "ignores".toList
  | .includes => "includes".toList
  | .sourceRoot => "sourceRoot".toList
  | .rootNamespace => "rootNamespace".toList
  | .noLocalizeComment => "noLocalizeComment".toList
  | .generatedFilePatterns => "generatedFilePatterns".toList
  | .ignoreGeneratedFiles => "ignoreGeneratedFiles".toList
  | .ignoreTexts => "ignoreTexts".toList

/-- The setting of a name, if there is one. -/
def ofName? (name : Text) : Option Setting :=
  all.find? fun setting => setting.name = name

end Setting

/-- What is wrong with a configuration. -/
inductive ConfigError where
  /-- A pattern in the list of a setting. -/
  | badPattern (setting : Setting) (pattern : Text) (error : Glob.PatternError)
  /-- The no-localize comment is no block comment. -/
  | badMarker (comment : Text)
  deriving Repr, DecidableEq

/-- The wording of an error. -/
def ConfigError.message : ConfigError → Text
  | .badPattern setting pattern _ =>
      "Invalid glob pattern in '".toList ++ setting.name ++ "': \"".toList ++ pattern ++ ['"']
  | .badMarker comment =>
      "'noLocalizeComment' must be a block comment such as \"".toList ++ defaultMarker ++
        "\", got \"".toList ++ comment ++ ['"']

namespace Config

/-- Name of the configuration file of a project. -/
def fileName : Text := ".locscanrc.json".toList

/-- The settings where nothing is configured. -/
def default : Config where
  ignores := ["**/bin/**".toList, "**/obj/**".toList]
  includes := []
  sourceRoot := "./".toList
  rootNamespace := []
  noLocalizeComment := defaultMarker
  generatedFilePatterns := ["**/*.Designer.cs".toList, "**/*.designer.vb".toList]
  ignoreGeneratedFiles := false
  ignoreTexts := []

/-- The value of a setting. -/
def value (config : Config) : Setting → Json.Value
  | .ignores => .strings config.ignores
  | .includes => .strings config.includes
  | .sourceRoot => .string config.sourceRoot
  | .rootNamespace => .string config.rootNamespace
  | .noLocalizeComment => .string config.noLocalizeComment
  | .generatedFilePatterns => .strings config.generatedFilePatterns
  | .ignoreGeneratedFiles => .boolean config.ignoreGeneratedFiles
  | .ignoreTexts => .strings config.ignoreTexts

/-- The settings as a JSON object. -/
def toJson (config : Config) : Json.Value :=
  .object (Setting.all.map fun setting => (setting.name, config.value setting))

/-- Text of the file that a new project starts with. -/
def defaultText : Text := default.toJson.toText

/-- Check the patterns of a list, from the first on. -/
def validatePatterns (setting : Setting) (patterns : List Text) : Except ConfigError Unit :=
  patterns.forM fun pattern =>
    match Glob.Pattern.ofText pattern with
    | .ok _ => .ok ()
    | .error error => .error (.badPattern setting pattern error)

/-- Whether a text is a block comment: its two delimiters do not overlap. -/
def isBlockComment (text : Text) : Bool :=
  (Text.after? ['/', '*'] text).isSome && (Text.withoutEnding? ['*', '/'] text).isSome &&
    4 ≤ Text.byteLength text

/-- Check the settings, in a fixed order. -/
def validate (config : Config) : Except ConfigError Unit := do
  validatePatterns .ignores config.ignores
  validatePatterns .includes (config.includes.filter Glob.isWildcard)
  validatePatterns .generatedFilePatterns config.generatedFilePatterns
  if isBlockComment config.noLocalizeComment then
    .ok ()
  else
    .error (.badMarker config.noLocalizeComment)

/-- The patterns of generated files; what is no pattern is passed over. -/
def generatedPatterns (config : Config) : List Glob.Pattern :=
  config.generatedFilePatterns.filterMap fun pattern => (Glob.Pattern.ofText pattern).toOption

/-- Whether the file at a path is written by a tool. -/
def isGenerated (config : Config) (path : Text) : Bool :=
  config.generatedPatterns.any (·.isMatch path)

end Config

end LocalizationScan
