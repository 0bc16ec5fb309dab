import LocalizationScan.Command.Help
import LocalizationScan.Report.Json
import LocalizationScan.Report.Text

namespace LocalizationScan.Command

/-!
# Running a command

A command reads the files of a project and answers with texts and a status.
Only one command writes: it puts a default configuration into the current
directory.
-/

/-- How a run ends. -/
inductive Outcome where
  /-- The command line cannot be carried out. -/
  | misused (error : UsageError)
  /-- Help or the version was asked for. -/
  | told (text : Text)
  /-- The command ran: its status, its output and what it said on the side. -/
  | finished (status : Nat) (output notes : Text)
  /-- The command could not run; what it said on the side before. -/
  | failed (notes : Text) (error : ProjectError)
  deriving Repr, DecidableEq

/-- The options of a project among those of a command. -/
def Options.project (options : Options) : ProjectOptions :=
  ⟨options.sourceRoot?, options.rootNamespace?, options.verbose⟩

/-- A run that failed, with the notices before it. -/
structure Failure where
  notices : List Notice
  error : ProjectError
  deriving Repr, DecidableEq

/-- Find literals that should move to resource containers. -/
def findLiteralFindings (tree : FileTree) (options : Options) :
    Except Failure (List Notice × Report) := do
  let project ← (Project.ofOptions tree options.project).mapError (Failure.mk [])
  let sources := project.readSources tree
  let findings :=
    project.config.literalFindings sources.files options.includeUnlocalizable ++ sources.errors
  let notices := project.notices ++ if options.verbose then sources.notices else []
  return (notices, .ofFindings .literals findings sources.files.length 0)

/-- Find references to resource entries. -/
def findReferenceFindings (tree : FileTree) (options : Options) :
    Except Failure (List Notice × Report) := do
  let project ← (Project.ofOptions tree options.project).mapError (Failure.mk [])
  let failed := Failure.mk project.notices
  let selection ← (readSelection options.resources).mapError failed
  let resources := project.loadResources tree selection
  let preferred? ← (resources.preferredOrigin options.prefer?).mapError failed
  let sources := project.readSources tree
  let findings :=
    resources.referenceFindings project.config sources.files preferred? ++
      sources.errors ++ resources.errors
  let notices := project.notices ++ if options.verbose then sources.notices else []
  return (notices, .ofFindings .references findings sources.files.length resources.fileCount)

/-- How a scan ends. -/
def outcomeOfScan
    (palette : Palette)
    (options : Options)
    (scan : Except Failure (List Notice × Report)) :
    Outcome :=
  match scan with
  | .error failure => .failed (Notice.renderAll palette failure.notices) failure.error
  | .ok (notices, report) =>
      let said := Notice.renderAll palette notices
      let status := if report.fails then 1 else 0
      match options.format?.getD .text with
      | .json => .finished status (report.toJson.toText ++ ['\n']) said
      | .text =>
          .finished status (report.render palette)
            (said ++ report.renderFileErrors palette options.verbose)

/-- Put a default configuration into the current directory, unless there is one. -/
def writeConfig (palette : Palette) (tree : FileTree) : Outcome × FileTree :=
  if tree.has Config.fileName then
    (.finished 1 []
      (palette.errorLabel ++ ' ' :: Config.fileName ++ " already exists\n".toList), tree)
  else
    (.finished 0
      (palette.paint (.plain .green) successMark ++ ' ' ::
        palette.paint (.plain .green) ("Created ".toList ++ Config.fileName) ++ ['\n']) [],
      tree.write Config.fileName Config.defaultText)

/-- Carry out a command; gives the files after it. -/
def execute (palette : Palette) (tree : FileTree) (verb : Verb) (options : Options) :
    Outcome × FileTree :=
  match verb with
  | .strings => (outcomeOfScan palette options (findLiteralFindings tree options), tree)
  | .references => (outcomeOfScan palette options (findReferenceFindings tree options), tree)
  | .init => writeConfig palette tree

/-- Carry out a command line; gives the files after it. -/
def run (palette : Palette) (tree : FileTree) (arguments : List Text) : Outcome × FileTree :=
  match ofArguments arguments with
  | .ok .nothing => (.finished 0 overviewText [], tree)
  | .ok (.run verb options) => execute palette tree verb options
  | .error (.usage error) => (.misused error, tree)
  | .error (.help page) => (.told page.text, tree)
  | .error .version => (.told versionText, tree)

end LocalizationScan.Command
