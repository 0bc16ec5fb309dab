import LocalizationScan.Report.Basic
import LocalizationScan.Report.Style
import LocalizationScan.Text.Width

namespace LocalizationScan

/-!
# Reports as text

Every finding is shown with its place, its line and a mark below it; a summary
follows.  Line numbers of all findings are aligned.
-/

/-- The ink of a severity. -/
def Severity.colour : Severity → Colour
  | .error => .red
  | .warning => .yellow
  | .note => .cyan

/-- The mark of success. -/
def successMark : Text := ['✓']

/-- The mark of failure. -/
def failureMark : Text := ['✘']

/-- A word that depends on a number. -/
def plural (number : Nat) (one many : String) : Text :=
  (if number = 1 then one else many).toList

namespace Palette

/-- The bar between line numbers and lines. -/
def bar (palette : Palette) : Text :=
  palette.paint (.plain .blue) ['|']

/-- The arrow in front of a place. -/
def arrow (palette : Palette) : Text :=
  palette.paint (.plain .blue) "-->".toList

end Palette

/-- Spaces in the place of a line number. -/
def gutter (size : Nat) : Text :=
  List.replicate size ' '

/-- The line of a finding with its number, and the mark below what the finding covers; the
mark has at least one sign and ends with the line. -/
def renderExcerpt
    (palette : Palette)
    (size : Nat)
    (finding : Finding)
    (context : SourceContext) :
    Text :=
  let before := context.sourceLine.take (context.column - 1)
  let covered := (context.sourceLine.drop (context.column - 1)).take finding.width
  let mark := List.replicate (max 1 (Text.width covered)) '^'
  "  ".toList ++ palette.arrow ++ ' ' :: context.path ++ ':' :: Text.ofNat context.line ++
    ':' :: Text.ofNat context.column ++ '\n' ::
  gutter size ++ ' ' :: palette.bar ++ '\n' ::
  palette.paint (.plain .blue) (Text.padLeft size (Text.ofNat context.line)) ++ ' ' ::
    palette.bar ++ ' ' :: context.sourceLine ++ '\n' ::
  gutter size ++ ' ' :: palette.bar ++ ' ' :: List.replicate (Text.width before) ' ' ++
    palette.paint (.plain finding.severity.colour) mark ++ ['\n']

/-- A line with more about a finding. -/
def renderRemark (palette : Palette) (size : Nat) (label : Ink) (name : String) (text : Text) :
    Text :=
  gutter size ++ ' ' :: palette.paint (.plain .blue) ['='] ++ ' ' ::
    palette.paint label name.toList ++ ' ' :: text ++ ['\n']

namespace Finding

/-- A finding, with line numbers of a given size, and an empty line. -/
def render (palette : Palette) (size : Nat) (finding : Finding) : Text :=
  palette.paint (.bold finding.severity.colour) finding.severity.name ++ ": \"".toList ++
    finding.message ++ "\"  ".toList ++
    palette.paint ⟨some .dimmed, some .cyan⟩ finding.rule.name ++ '\n' ::
  (match finding.context? with
    | some context => renderExcerpt palette size finding context
    | none => "  ".toList ++ palette.arrow ++ ' ' :: finding.path ++ ['\n']) ++
  (finding.details?.map (renderRemark palette size ⟨some .bold, none⟩ "note:")).getD [] ++
  (finding.hint?.map (renderRemark palette size (.bold .cyan) "value:")).getD [] ++
  ['\n']

/-- Number of digits of the largest line number among findings; one if there is none. -/
def numberSize (findings : List Finding) : Nat :=
  match (findings.filterMap fun finding => finding.context?.map SourceContext.line).max? with
  | some line => (Text.ofNat line).length
  | none => 1

end Finding

namespace Report

/-- The summary of findings. -/
def renderSummary (palette : Palette) (findings : List Finding) : Text :=
  let errors := countOf .error findings
  let warnings := countOf .warning findings
  let notes := countOf .note findings
  (if 0 < errors + warnings then
    palette.paint (.plain .red) failureMark ++ ' ' :: Text.ofNat (errors + warnings) ++
      " problems (".toList ++ Text.ofNat errors ++ ' ' ::
      palette.paint (.plain .red) (plural errors "error" "errors") ++ ", ".toList ++
      Text.ofNat warnings ++ ' ' ::
      palette.paint (.plain .yellow) (plural warnings "warning" "warnings") ++ ")\n".toList
  else []) ++
  (if 0 < notes then
    palette.paint (.plain .green) successMark ++ ' ' :: Text.ofNat notes ++
      " resource ".toList ++ plural notes "reference" "references" ++ ['\n']
  else [])

/-- The line that says that nothing was found. -/
def renderSuccess (palette : Palette) (report : Report) : Text :=
  let sources := "Scanned ".toList ++ Text.ofNat report.sourceCount ++ " source ".toList ++
    plural report.sourceCount "file" "files"
  let resources :=
    if report.resourceCount = 0 then []
    else ", ".toList ++ Text.ofNat report.resourceCount ++ " resource ".toList ++
      plural report.resourceCount "file" "files"
  let result := match report.topic with
    | .literals => "no localizable strings found".toList
    | .references => "no resource references found".toList
  palette.paint (.plain .green) successMark ++ ' ' ::
    palette.paint (.plain .green) (sources ++ resources ++ " - ".toList ++ result) ++ ['\n']

/-- The report as text. -/
def render (palette : Palette) (report : Report) : Text :=
  if report.findings.isEmpty then
    renderSuccess palette report
  else
    report.findings.flatMap (Finding.render palette (Finding.numberSize report.findings)) ++
      renderSummary palette report.findings

/-- What is said on the side about files that could not be read or scanned. -/
def renderFileErrors (palette : Palette) (verbose : Bool) (report : Report) : Text :=
  if report.fileErrorCount = 0 || verbose then []
  else
    palette.warningLabel ++ ' ' :: Text.ofNat report.fileErrorCount ++
      " file(s) could not be parsed (use ".toList ++
      palette.paint (.plain .cyan) "-v".toList ++ " for details)\n".toList

end Report

end LocalizationScan
