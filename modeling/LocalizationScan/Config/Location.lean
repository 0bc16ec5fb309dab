import LocalizationScan.Config.Reading
import LocalizationScan.Files.Tree
import LocalizationScan.Text.Quoted

namespace LocalizationScan

/-!
# The configuration file of a project

The file is looked for in the start directory and in the directories above it,
up to the first one that holds a repository.  Without a file the default
configuration is in force.
-/

/-- Why the configuration file of a project cannot be used. -/
inductive ConfigFileError where
  | unreadable (path : Text) (error : FileError)
  | malformed (path : Text) (failure : Json.Failure)
  | invalid (error : ConfigError)
  deriving Repr, DecidableEq

/-- The wording of an error. -/
def ConfigFileError.message : ConfigFileError → Text
  | .unreadable path _ => "Failed to read config file: ".toList ++ Text.quoted path
  | .malformed path _ => "Failed to parse config file: ".toList ++ Text.quoted path
  | .invalid error => error.message

/-- A configuration and whether it comes from a file. -/
structure LoadedConfig where
  config : Config
  fromFile : Bool
  deriving Repr, DecidableEq

namespace Config

/-- The entry of a directory that holds a repository. -/
def repositoryMark : Text := ".git".toList

/-- The path of the nearest configuration file, from a directory upwards, given which paths
exist.  The search does not go beyond a directory that holds a repository. -/
def find? (present : Text → Bool) (directory : Text) : Option Text :=
  if present (Path.join directory fileName) then
    some (Path.join directory fileName)
  else if present (Path.join directory repositoryMark) then
    none
  else
    match _ : Path.parent? directory with
    | some above => find? present above
    | none => none
termination_by directory.length
decreasing_by
  exact Path.length_parent?_lt ‹_›

/-- The configuration in force in a directory. -/
def load (tree : FileTree) (directory : Text) : Except ConfigFileError LoadedConfig :=
  match find? tree.has directory with
  | none => .ok ⟨default, false⟩
  | some path => do
      let text ← (tree.read path).mapError (.unreadable path)
      let config ← (ofText text).mapError (.malformed path)
      config.validate.mapError .invalid
      return ⟨config, true⟩

end Config

end LocalizationScan
