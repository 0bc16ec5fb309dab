import LocalizationScan.SourceFile

namespace LocalizationScan

/-!
# Findings

A finding is what a scan reports: a literal that should move to a resource
container, a reference to a resource entry, or a file that could not be read.
Findings are ordered by place, so that a report follows the files from top to
bottom; what concerns a file as a whole comes before what is found in it.
-/

/-- How much a finding matters. -/
inductive Severity where
  | error
  | warning
  /-- Information that never fails a run. -/
  | note
  deriving Repr, DecidableEq

/-- The name of a severity. -/
def Severity.name : Severity → Text
  | .error => "error".toList
  | .warning => "warning".toList
  | .note => "note".toList

/-- What a finding is about. -/
inductive Rule where
  | localizableLiteral
  | resourceReference
  | parseError
  deriving Repr, DecidableEq

namespace Rule

/-- The name of a rule. -/
def name : Rule → Text
  | .localizableLiteral => "localizable-literal".toList
  | .resourceReference => "resource-reference".toList
  | .parseError => "parse-error".toList

/-- The place of a rule in the order of findings. -/
def rank : Rule → Nat
  | .localizableLiteral => 0
  | .resourceReference => 1
  | .parseError => 2

end Rule

/-- Where an item starts, with the line that shows it. -/
structure SourceContext where
  path : Text
  line : Nat
  column : Nat
  sourceLine : Text
  deriving Repr, DecidableEq

/-- Where a position of a source file is. -/
def SourceFile.context (source : SourceFile) (position : Position) : SourceContext :=
  ⟨source.path, position.line, position.column, source.line position.line⟩

/-- What a scan reports. -/
inductive Finding where
  | literal (context : SourceContext) (item : Literal)
  | reference (context : SourceContext) (item : Reference)
  /-- A file that cannot be read or scanned. -/
  | fileError (path message : Text)
  deriving Repr, DecidableEq

/-- The notes on the flags of a literal, if there are any. -/
def ItemFlags.notes? (flags : ItemFlags) : Option Text :=
  let notes :=
    (if flags.markedUnlocalizable then ["marked with a no-localize comment".toList] else []) ++
    (if flags.withinNoLocalizeScope then ["inside a no-localize scope".toList] else []) ++
    (if flags.fromGeneratedSource then ["in generated code".toList] else [])
  if notes.isEmpty then Option.none else some (Text.joinWith [',', ' '] notes)

namespace Finding

/-- What the finding is about. -/
def rule : Finding → Rule
  | .literal _ _ => .localizableLiteral
  | .reference _ _ => .resourceReference
  | .fileError _ _ => .parseError

/-- How much the finding matters: a literal that is to stay as it is needs no mending. -/
def severity : Finding → Severity
  | .literal _ item => if item.flags.isUnlocalizable then .warning else .error
  | .reference _ _ => .note
  | .fileError _ _ => .warning

/-- Where the finding is, if that is narrower than a file. -/
def context? : Finding → Option SourceContext
  | .literal context _ | .reference context _ => some context
  | .fileError _ _ => none

/-- The file of the finding. -/
def path : Finding → Text
  | .literal context _ | .reference context _ => context.path
  | .fileError path _ => path

/-- The main text of the finding. -/
def message : Finding → Text
  | .literal _ item => item.value
  | .reference _ item => item.originalText
  | .fileError _ message => message

/-- The value that a reference stands for. -/
def hint? : Finding → Option Text
  | .reference _ item => some ("(\"".toList ++ item.value ++ "\")".toList)
  | .literal _ _ | .fileError _ _ => none

/-- More about the finding. -/
def details? : Finding → Option Text
  | .literal _ item => item.flags.notes?
  | .reference _ item =>
      some (item.fullText ++ " in ".toList ++ item.origin.path ++ " [".toList ++
        item.origin.culture?.getD "neutral".toList ++ [']'])
  | .fileError _ _ => none

/-- Number of characters that the finding covers. -/
def width : Finding → Nat
  | .literal _ item => item.length
  | .reference _ item => item.length
  | .fileError _ _ => 1

/-- Line of the finding; zero for a whole file. -/
def line (finding : Finding) : Nat :=
  (finding.context?.map SourceContext.line).getD 0

/-- Column of the finding; zero for a whole file. -/
def column (finding : Finding) : Nat :=
  (finding.context?.map SourceContext.column).getD 0

/-- The order of a report: by file, line and column, then by rule and message. -/
def compare (finding other : Finding) : Ordering :=
  (Text.compare finding.path other.path).then <|
  (Ord.compare finding.line other.line).then <|
  (Ord.compare finding.column other.column).then <|
  (Ord.compare finding.rule.rank other.rule.rank).then <|
  Text.compare finding.message other.message

/-- Findings in the order of a report; equal ones keep their order. -/
def sort (findings : List Finding) : List Finding :=
  findings.mergeSort fun finding other => finding.compare other != .gt

/-- Whether a finding is about a whole file. -/
def isFileError : Finding → Bool
  | .fileError _ _ => true
  | .literal _ _ | .reference _ _ => false

end Finding

end LocalizationScan
