import Mathlib
import LocalizationScan.Command.Run
import LocalizationScan.Proofs.Finding.Order
import LocalizationScan.Proofs.SourceItems

namespace LocalizationScan

/-!
# Literals that stay as they are

Literals that should stay as they are can be reported too.  This adds warnings
between the other findings and changes nothing else: neither how many literals
should move, nor how many files could not be read, nor how the run ends.
-/

/-- A literal that should move to a resource container. -/
def Literal.ShouldMove (config : Config) (literal : Literal) : Prop :=
  literal.flags.isUnlocalizable = false ∧ literal.value ∉ config.ignoreTexts

instance (config : Config) (literal : Literal) : Decidable (literal.ShouldMove config) :=
  inferInstanceAs (Decidable (_ ∧ _))

/-- Whether a finding is about a literal that should stay as it is. -/
def Finding.isUnlocalizable : Finding → Bool
  | .literal _ item => item.flags.isUnlocalizable
  | .reference _ _ | .fileError _ _ => false

/-- The status of a command that ran. -/
def Command.Outcome.status? : Outcome → Option Nat
  | .finished status _ _ => some status
  | .misused _ | .told _ | .failed _ _ => none

/-- The report of a scan for literals. -/
def Sources.literalReport
    (sources : Sources)
    (config : Config)
    (includeUnlocalizable : Bool) :
    Report :=
  .ofFindings .literals
    (config.literalFindings sources.files includeUnlocalizable ++ sources.errors)
    sources.files.length 0

/-- The report of a run is the one on the sources of its project. -/
theorem Command.findLiteralFindings_eq (tree : FileTree) (options : Options) :
    findLiteralFindings tree options = do
      let project ← (Project.ofOptions tree options.project).mapError (Failure.mk [])
      let sources := project.readSources tree
      return (project.notices ++ if options.verbose then sources.notices else [],
        sources.literalReport project.config options.includeUnlocalizable) :=
  rfl

section Sources

variable {config : Config} {sources : Sources} {items : SourceFile → List Literal}
  {files : List SourceFile}

/-- The literals of every file are found. -/
theorem SourceFile.exists_literals
    (opened :
      ∀ source ∈ files, ofContent? source.path source.content source.generated = some source)
    (marker : Text) :
    ∃ items : SourceFile → List Literal,
      ∀ source ∈ files, source.literals marker = .ok (items source) :=
  ⟨_, fun source member => literals_eq_ok (opened source member) marker⟩

/-- The findings are the literals that are reported, file by file. -/
theorem Config.literalFindings_eq
    (searched : ∀ source ∈ files, source.literals config.noLocalizeComment = .ok (items source))
    (includeUnlocalizable : Bool) :
    config.literalFindings files includeUnlocalizable =
      files.flatMap fun source =>
        ((items source).filter (config.reports includeUnlocalizable)).map fun literal =>
          .literal (source.context literal.span.start) literal := by
  apply List.flatMap_congr
  intro source member
  rw [searched source member]
  rfl

/-- Of the reported literals those that need not stay are reported in any case. -/
theorem Config.reports_of_localizable (includeUnlocalizable : Bool) (literal : Literal) :
    (!literal.flags.isUnlocalizable && config.reports includeUnlocalizable literal) =
      config.reports false literal := by
  unfold reports
  cases literal.flags.isUnlocalizable <;> simp

/-- The literals that are reported in any case are those that should move. -/
theorem Config.reports_false_eq_true_iff (literal : Literal) :
    config.reports false literal = true ↔ literal.ShouldMove config := by
  simp [reports, Literal.ShouldMove]

namespace Sources

/-- Files that could not be read are warnings. -/
theorem countOf_error_errors (sources : Sources) :
    Report.countOf .error sources.errors = 0 := by
  unfold Report.countOf errors
  rw [List.countP_map]
  exact List.countP_eq_zero.mpr fun _ _ => by simp [Finding.severity]

/-- Every file that could not be read is counted. -/
theorem countP_isFileError_errors (sources : Sources) :
    sources.errors.countP Finding.isFileError = sources.unreadable.length := by
  unfold errors
  rw [List.countP_map]
  exact List.countP_eq_length.mpr fun _ _ => rfl

/-- The errors of a report are the literals that should move. -/
theorem errorCount_literalReport
    (searched :
      ∀ source ∈ sources.files,
        source.literals config.noLocalizeComment = .ok (items source))
    (includeUnlocalizable : Bool) :
    (sources.literalReport config includeUnlocalizable).errorCount =
      (sources.files.flatMap items).countP fun literal => literal.ShouldMove config := by
  have counted :
      ∀ source ∈ sources.files,
        Report.countOf .error
            (((items source).filter (config.reports includeUnlocalizable)).map fun literal =>
              .literal (source.context literal.span.start) literal) =
          (items source).countP fun literal => literal.ShouldMove config := by
    intro source member
    rw [Report.countOf, List.countP_map, List.countP_filter]
    apply List.countP_congr
    intro literal _
    rw [decide_eq_true_iff, ← config.reports_false_eq_true_iff,
      ← config.reports_of_localizable includeUnlocalizable]
    cases unlocalizable : literal.flags.isUnlocalizable <;>
      simp [Finding.severity, unlocalizable]
  calc
    (sources.literalReport config includeUnlocalizable).errorCount
    _ = Report.countOf .error
          (config.literalFindings sources.files includeUnlocalizable ++ sources.errors) := rfl
    _ = Report.countOf .error (config.literalFindings sources.files includeUnlocalizable) := by
      rw [Report.countOf, List.countP_append]
      exact congrArg _ sources.countOf_error_errors
    _ = (sources.files.flatMap items).countP fun literal => literal.ShouldMove config := by
      rw [config.literalFindings_eq searched, Report.countOf, List.countP_flatMap,
        List.countP_flatMap]
      exact congrArg List.sum (List.map_congr_left counted)

/-- The file errors of a report are the sources that could not be read: no scan fails. -/
theorem fileErrorCount_literalReport
    (searched :
      ∀ source ∈ sources.files,
        source.literals config.noLocalizeComment = .ok (items source))
    (includeUnlocalizable : Bool) :
    (sources.literalReport config includeUnlocalizable).fileErrorCount =
      sources.unreadable.length := by
  have none :
      (config.literalFindings sources.files includeUnlocalizable).countP Finding.isFileError =
        0 := by
    rw [config.literalFindings_eq searched, List.countP_eq_zero]
    intro finding member
    obtain ⟨source, -, member⟩ := List.mem_flatMap.mp member
    obtain ⟨literal, -, rfl⟩ := List.mem_map.mp member
    simp [Finding.isFileError]
  rw [literalReport, Report.ofFindings, List.countP_append, none, countP_isFileError_errors,
    Nat.zero_add]

/-- Without the literals that should stay the findings are those of a run that leaves them
out. -/
theorem filter_findings_literalReport
    (searched :
      ∀ source ∈ sources.files,
        source.literals config.noLocalizeComment = .ok (items source)) :
    (sources.literalReport config true).findings.filter (!·.isUnlocalizable) =
      (sources.literalReport config false).findings := by
  have filtered (source : SourceFile) :
      (((items source).filter (config.reports true)).map fun literal =>
          Finding.literal (source.context literal.span.start) literal).filter
          (!·.isUnlocalizable) =
        ((items source).filter (config.reports false)).map fun literal =>
          .literal (source.context literal.span.start) literal := by
    rw [List.filter_map, List.filter_filter]
    exact congrArg _ (List.filter_congr fun literal _ => config.reports_of_localizable true literal)
  have kept : sources.errors.filter (!·.isUnlocalizable) = sources.errors := by
    rw [List.filter_eq_self]
    intro finding member
    obtain ⟨_, -, rfl⟩ := List.mem_map.mp member
    rfl
  calc
    (sources.literalReport config true).findings.filter (!·.isUnlocalizable)
    _ = Finding.sort
          ((config.literalFindings sources.files true ++ sources.errors).filter
            (!·.isUnlocalizable)) :=
      Finding.filter_sort _ _
    _ = (sources.literalReport config false).findings := by
      rw [List.filter_append, kept, config.literalFindings_eq searched, List.filter_flatMap]
      simp only [filtered, ← config.literalFindings_eq searched]
      rfl

/-- A report fails exactly if some literal should move. -/
theorem fails_literalReport_iff
    (searched :
      ∀ source ∈ sources.files,
        source.literals config.noLocalizeComment = .ok (items source))
    (includeUnlocalizable : Bool) :
    (sources.literalReport config includeUnlocalizable).fails = true ↔
      ∃ source ∈ sources.files, ∃ literal ∈ items source, literal.ShouldMove config := by
  have topic : (sources.literalReport config includeUnlocalizable).topic = .literals := rfl
  rw [Report.fails, topic, errorCount_literalReport searched]
  simp only [BEq.rfl, Bool.true_and, decide_eq_true_eq, List.countP_pos_iff, List.mem_flatMap]
  constructor
  · rintro ⟨literal, ⟨source, memberSource, member⟩, shouldMove⟩
    exact ⟨source, memberSource, literal, member, shouldMove⟩
  · rintro ⟨source, memberSource, literal, member, shouldMove⟩
    exact ⟨literal, ⟨source, memberSource, member⟩, shouldMove⟩

end Sources

end Sources

namespace Command

variable {palette : Palette} {tree : FileTree} {options : Options} {notices : List Notice}
  {report : Report}

/-- The report alone decides how a scan ends. -/
theorem status?_outcomeOfScan :
    (outcomeOfScan palette options (.ok (notices, report))).status? =
      some (if report.fails then 1 else 0) := by
  unfold outcomeOfScan
  cases options.format?.getD .text <;> rfl

/-- Sources are read by opening what their files hold. -/
theorem ofContent?_of_mem_readSources
    {project : Project}
    {source : SourceFile}
    (member : source ∈ (project.readSources tree).files) :
    SourceFile.ofContent? source.path source.content source.generated = some source := by
  obtain ⟨⟨path, content⟩, -, opened⟩ := List.mem_filterMap.mp member
  obtain ⟨text, -, opened⟩ := Option.bind_eq_some_iff.mp opened
  obtain ⟨kind, -, rfl⟩ := Option.map_eq_some_iff.mp opened
  exact opened

/-- A command that looks for literals ends alike with the literals that should stay and
without them. -/
theorem status?_execute_strings (includeUnlocalizable : Bool) :
    (execute palette tree .strings { options with includeUnlocalizable }).1.status? =
      (execute palette tree .strings options).1.status? := by
  simp only [execute, findLiteralFindings_eq]
  -- The project does not depend on what is reported.
  have same : ({ options with includeUnlocalizable } : Options).project = options.project := rfl
  rw [same]
  cases Project.ofOptions tree options.project with
  | error =>
      rfl
  | ok project =>
      have opened :
          ∀ source ∈ (project.readSources tree).files,
            SourceFile.ofContent? source.path source.content source.generated = some source :=
        fun _ => ofContent?_of_mem_readSources
      obtain ⟨items, searched⟩ :=
        SourceFile.exists_literals opened project.config.noLocalizeComment
      have fails (flag : Bool) := Sources.fails_literalReport_iff searched flag
      have verdict :
          ((project.readSources tree).literalReport project.config includeUnlocalizable).fails =
            ((project.readSources tree).literalReport project.config
              options.includeUnlocalizable).fails := by
        rw [Bool.eq_iff_iff, fails, fails]
      exact (status?_outcomeOfScan.trans (by rw [verdict])).trans status?_outcomeOfScan.symm

end Command

/-- Whether literals that should stay are reported does not change the verdict.  The literals of
all files are found, the errors are those that should move, and a run fails exactly if there is
one.  Apart from the literals that should stay, the findings are the same. -/
theorem Sources.literalReport_verdict
    (config : Config)
    (sources : Sources)
    (opened :
      ∀ source ∈ sources.files,
        SourceFile.ofContent? source.path source.content source.generated = some source) :
    ∃ items : SourceFile → List Literal,
      (∀ source ∈ sources.files,
        source.literals config.noLocalizeComment = .ok (items source)) ∧
      (sources.literalReport config true).findings.filter (!·.isUnlocalizable) =
        (sources.literalReport config false).findings ∧
      ∀ includeUnlocalizable,
        let report := sources.literalReport config includeUnlocalizable
        report.errorCount =
            (sources.files.flatMap items).countP (fun literal => literal.ShouldMove config) ∧
          report.fileErrorCount = sources.unreadable.length ∧
          ∀ palette options notices,
            (Command.outcomeOfScan palette options (.ok (notices, report))).status? =
              some (if ∃ source ∈ sources.files, ∃ literal ∈ items source,
                literal.ShouldMove config then 1 else 0) := by
  obtain ⟨items, searched⟩ := SourceFile.exists_literals opened config.noLocalizeComment
  refine ⟨items, searched, filter_findings_literalReport searched, ?_⟩
  intro includeUnlocalizable
  refine ⟨errorCount_literalReport searched _, fileErrorCount_literalReport searched _, ?_⟩
  intro palette options notices
  rw [Command.status?_outcomeOfScan]
  simp only [fails_literalReport_iff searched]

/-- One literal stays because of its mark, one is ignored, and one should move. -/
theorem Sources.literalReport_verdict_marked :
    let config : Config := { Config.default with ignoreTexts := [['n']] }
    let source : SourceFile :=
      ⟨"a.cs".toList, "/*VL_NO_LOC*/\"x\" + \"n\" + \"y\"".toList, false, .code .csharp⟩
    let sources : Sources := ⟨[source], [("b.cs".toList, .notFound)]⟩
    (sources.literalReport config true).warningCount = 2 ∧
      (sources.literalReport config false).warningCount = 1 ∧
      (sources.literalReport config true).findings.filter (!·.isUnlocalizable) =
        (sources.literalReport config false).findings ∧
      ∀ includeUnlocalizable,
        let report := sources.literalReport config includeUnlocalizable
        report.errorCount = 1 ∧ report.fileErrorCount = 1 ∧
          ∀ palette options notices,
            (Command.outcomeOfScan palette options (.ok (notices, report))).status? =
              some 1 := by
  intro config source sources
  have opened :
      ∀ source ∈ sources.files,
        SourceFile.ofContent? source.path source.content source.generated = some source := by
    decide +kernel
  obtain ⟨items, searched, findings, verdict⟩ := literalReport_verdict config sources opened
  have scanned :
      source.literals config.noLocalizeComment =
        .ok
          [⟨"\"x\"".toList, ['x'], ⟨⟨1, 14, 13⟩, ⟨1, 17, 16⟩⟩, false, ⟨false, true, false⟩⟩,
            ⟨"\"n\"".toList, ['n'], ⟨⟨1, 20, 19⟩, ⟨1, 23, 22⟩⟩, false, .none⟩,
            ⟨"\"y\"".toList, ['y'], ⟨⟨1, 26, 25⟩, ⟨1, 29, 28⟩⟩, false, .none⟩] := by
    decide +kernel
  have found := Except.ok.inj ((searched source List.mem_cons_self).symm.trans scanned)
  refine ⟨by decide +kernel, by decide +kernel, findings, fun includeUnlocalizable => ?_⟩
  obtain ⟨errors, fileErrors, ends⟩ := verdict includeUnlocalizable
  refine ⟨errors.trans ?_, fileErrors, fun palette options notices => ?_⟩
  · rw [show sources.files = [source] from rfl, List.flatMap_singleton, found]
    decide
  · rw [ends, if_pos]
    refine ⟨source, List.mem_cons_self, ?_⟩
    rw [found]
    decide

end LocalizationScan
