import LocalizationScan.Command.Run

/-!
# The program

Takes the files that a command can need from the disk into a file tree, carries
out the command line and writes what comes of it.
-/

namespace LocalizationScan.Main

/-- The location of an absolute path of the disk. -/
def locationOf (path : String) : Location :=
  (Text.splitOn '/' path.toList).filter fun name => !name.isEmpty

/-- The file at a path of the disk; only the content of files that a command can read is
taken. -/
def readNode (path : String) : IO Node := do
  let name := path.toList
  let read := (FileKind.ofPath? name).isSome || Path.fileName? name == some Config.fileName
  if !read then
    return .file none
  try
    return .file ((String.fromUTF8? (← IO.FS.readBinFile path)).map String.toList)
  catch _ =>
    return .file none

/-- Take a file or directory of the disk and all below it into a tree; links to directories
are not followed. -/
partial def takeBelow (tree : FileTree) (path : String) : IO FileTree := do
  let place := System.mkFilePath [path]
  if ← place.isDir then
    let mut tree := tree.insert (locationOf path) .directory
    for entry in ← place.readDir do
      let child := path ++ "/" ++ entry.fileName
      let kind := (← (System.mkFilePath [child]).symlinkMetadata).type
      let isFile := !(← (System.mkFilePath [child]).isDir)
      if isFile || kind == .dir then
        tree ← takeBelow tree child
    return tree
  else
    return tree.insert (locationOf path) (← readNode path)

/-- Take what lies at a path into a tree, if something does. -/
def take (tree : FileTree) (path : Text) : IO FileTree := do
  if ← (System.mkFilePath [String.ofList path]).pathExists then
    takeBelow tree (← IO.FS.realPath (String.ofList path)).toString
  else
    return tree

/-- Take what tells where the configuration of a directory lies into a tree. -/
partial def takeConfig (tree : FileTree) (directory : Text) : IO FileTree := do
  let tree ← take tree (Path.join directory Config.fileName)
  let mark := Path.join directory Config.repositoryMark
  let tree ←
    if ← (System.mkFilePath [String.ofList mark]).pathExists then
      let above ← IO.FS.realPath (String.ofList (Path.join directory ['.']))
      pure (tree.insert (locationOf above.toString ++ [Config.repositoryMark]) .directory)
    else pure tree
  match Path.parent? directory with
  | some above => takeConfig tree above
  | none => return tree

/-- Take the files that a command can need into a tree. -/
def takeFiles (tree : FileTree) (options : Command.Options) : IO FileTree := do
  let start := Project.startDirectory options.project
  let tree ← take (← takeConfig tree start) start
  match Config.load tree start with
  | .ok loaded =>
      let root := Project.rootDirectory start loaded.config.sourceRoot
      (lookedAt root loaded.config.includes).foldlM take tree
  | .error _ => return tree

/-- The palette for a terminal. -/
def palette : IO Palette := do
  let plain := (← IO.getEnv "NO_COLOR").isSome || !(← (← IO.getStdout).isTty)
  return if plain then .plain else .coloured

/-- Write how a run ends; gives its status. -/
def report : Command.Outcome → IO UInt32
  | .misused error => do
      IO.eprintln (String.ofList ("error: ".toList ++ error.message))
      return 2
  | .told text => do
      IO.print (String.ofList text)
      return 0
  | .finished status output notes => do
      IO.eprint (String.ofList notes)
      IO.print (String.ofList output)
      return status.toUInt32
  | .failed notes error => do
      let cause := (error.cause?.map fun cause => ": ".toList ++ cause).getD []
      IO.eprint (String.ofList notes)
      IO.eprintln (String.ofList ("Error: ".toList ++ error.message ++ cause))
      return 2

end LocalizationScan.Main

open LocalizationScan in
/-- Carry out a command line. -/
def main (arguments : List String) : IO UInt32 := do
  let words := arguments.map String.toList
  let current := Main.locationOf (← IO.currentDir).toString
  let empty : FileTree := { (FileTree.mk [] []).insert current .directory with current := current }
  let tree ←
    match Command.ofArguments words with
    | .ok (.run .init _) => Main.takeConfig empty ['.']
    | .ok (.run _ options) => Main.takeFiles empty options
    | _ => pure empty
  let (outcome, after) := Command.run (← Main.palette) tree words
  if after ≠ tree then
    if let .ok content := after.read Config.fileName then
      IO.FS.writeFile (String.ofList Config.fileName) (String.ofList content)
  Main.report outcome
