import LocalizationScan.Finding.Basic

namespace LocalizationScan

/-!
# Reports

A report holds the findings of a scan in display order and what they come to.
Only literals that should move make a run fail; references are information.
-/

/-- What a scan looks for. -/
inductive Topic where
  | literals
  | references
  deriving Repr, DecidableEq

/-- The findings of a scan and their numbers. -/
structure Report where
  topic : Topic
  /-- In display order. -/
  findings : List Finding
  errorCount : Nat
  warningCount : Nat
  /-- Number of findings about files that could not be read or scanned. -/
  fileErrorCount : Nat
  /-- Number of sources that were scanned. -/
  sourceCount : Nat
  /-- Number of resource containers that were used. -/
  resourceCount : Nat
  deriving Repr, DecidableEq

namespace Report

/-- Number of findings of a severity. -/
def countOf (severity : Severity) (findings : List Finding) : Nat :=
  findings.countP fun finding => finding.severity == severity

/-- The report on findings in any order. -/
def ofFindings
    (topic : Topic)
    (findings : List Finding)
    (sourceCount resourceCount : Nat) :
    Report where
  topic := topic
  findings := Finding.sort findings
  errorCount := countOf .error findings
  warningCount := countOf .warning findings
  fileErrorCount := findings.countP Finding.isFileError
  sourceCount := sourceCount
  resourceCount := resourceCount

/-- Whether a run with this report fails. -/
def fails (report : Report) : Bool :=
  report.topic == .literals && 0 < report.errorCount

end Report

end LocalizationScan
