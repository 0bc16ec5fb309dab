import LocalizationScan.Finding.Json
import LocalizationScan.Report.Basic

namespace LocalizationScan

/-!
# Reports as JSON

The findings of a report and their numbers as one document.
-/

/-- The report as a JSON object. -/
def Report.toJson (report : Report) : Json.Value :=
  .object [("findings".toList, .array (report.findings.map Finding.toJson)),
    ("errorCount".toList, .number report.errorCount),
    ("warningCount".toList, .number report.warningCount),
    ("sourceFilesChecked".toList, .number report.sourceCount),
    ("resourceFilesChecked".toList, .number report.resourceCount)]

end LocalizationScan
