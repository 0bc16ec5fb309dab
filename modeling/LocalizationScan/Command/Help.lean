import LocalizationScan.Command.Arguments

namespace LocalizationScan.Command

/-!
# Help

The pages of help.  The page of a command with options has a short form and a
long one, which leaves a line between options and explains their values.
-/

/-- Name and version of the program. -/
def versionText : Text := "locscan 0.4.0\n".toList

/-- What a command does. -/
def Verb.description : Verb → String
  | .strings => "Find string literals that should move to resource files"
  | .references => "Find references to existing resource entries"
  | .init => "Initialize a new .locscanrc.json configuration file"

/-- The name of a command. -/
def Verb.name : Verb → String
  | .strings => "strings"
  | .references => "references"
  | .init => "init"

namespace Switch

/-- What stands for the value of an option. -/
def placeholder : Switch → String
  | .sourceRoot => " <SOURCE_ROOT>"
  | .rootNamespace => " <ROOT_NAMESPACE>"
  | .format => " <FORMAT>"
  | .resource => " <GLOB>"
  | .prefer => " <PATH>"
  | .verbose | .includeUnlocalizable | .help => ""

/-- The option as it is given, with its letter if it has one. -/
def heading (switch : Switch) : Text :=
  (match switch.letter? with
    | some letter => "  -".toList ++ letter :: ", --".toList
    | none => "      --".toList) ++ switch.name ++ switch.placeholder.toList

/-- What an option does, line by line. -/
def description (long : Bool) : Switch → List String
  | .sourceRoot => ["Source code root directory (defaults to the current directory)"]
  | .rootNamespace => ["Root namespace of the project (overrides config file)"]
  | .verbose => ["Enable verbose output"]
  | .format =>
      if long then
        ["Output format", "\n", "Possible values:", "- text: Cargo-style diagnostics",
          "- json: One JSON document on stdout", "", "[default: text]"]
      else ["Output format [default: text] [possible values: text, json]"]
  | .includeUnlocalizable => ["Also report literals marked with a no-localize comment"]
  | .resource => ["Only load resource files matching this glob (repeatable)"]
  | .prefer => ["Resource file whose entries win ties between same-key candidates"]
  | .help =>
      if long then ["Print help (see a summary with '-h')"]
      else ["Print help (see more with '--help')"]

/-- A line of a description; a line break by itself stands for an empty line. -/
def descriptionLine (line : String) : Text :=
  if line = "\n" then ['\n'] else List.replicate 10 ' ' ++ line.toList ++ ['\n']

/-- An option and what it does. -/
def render (long : Bool) (switch : Switch) : Text :=
  switch.heading ++ '\n' :: (switch.description long).flatMap descriptionLine

end Switch

/-- The page of the program. -/
def overviewText : Text :=
  ("A fast CLI tool for finding localizable string literals and resource references in C#, " ++
    "VB and ASP.NET sources\n\nUsage: locscan [COMMAND]\n\nCommands:\n" ++
    "  strings     Find string literals that should move to resource files\n" ++
    "  references  Find references to existing resource entries\n" ++
    "  init        Initialize a new .locscanrc.json configuration file\n" ++
    "  help        Print this message or the help of the given subcommand(s)\n\n" ++
    "Options:\n  -h, --help     Print help\n  -V, --version  Print version\n").toList

/-- The page of the command that shows help. -/
def helpText : Text :=
  ("Print this message or the help of the given subcommand(s)\n\n" ++
    "Usage: locscan help [COMMAND]...\n\nArguments:\n" ++
    "  [COMMAND]...  Print help for the subcommand(s)\n").toList

/-- The page of a command. -/
def Verb.helpText (verb : Verb) (long : Bool) : Text :=
  verb.description.toList ++ "\n\nUsage: locscan ".toList ++ verb.name.toList ++
    match verb with
    | .init => "\n\nOptions:\n  -h, --help  Print help\n".toList
    | .strings | .references =>
        " [OPTIONS]\n\nOptions:\n".toList ++
          Text.joinWith (if long then ['\n'] else []) (verb.switches.map (Switch.render long))

/-- The text of a page. -/
def HelpPage.text : HelpPage → Text
  | .overview => overviewText
  | .command verb long => verb.helpText long
  | .help => Command.helpText

end LocalizationScan.Command
