import LocalizationScan.Project
import LocalizationScan.Proofs.Finding.Order
import LocalizationScan.Proofs.SourceOrder
import LocalizationScan.Report.Basic

namespace LocalizationScan

/-!
# Reports in document order

Findings are sorted by lines and columns, items are found by their offsets.  Both
give the same order: on the positions of one file lines and columns grow with
the offset.  Items of a file never start at one place, so the report on some
findings does not depend on the order in which they come.
-/

/-! ## Positions -/

/-- Whether a position is on an earlier line than another one, or before it on one line. -/
def Position.ComesBefore (position other : Position) : Prop :=
  position.line < other.line ∨ position.line = other.line ∧ position.column < other.column

namespace Position

theorem ComesBefore.trans
    {first second third : Position}
    (before : first.ComesBefore second)
    (beforeNext : second.ComesBefore third) :
    first.ComesBefore third := by
  unfold ComesBefore at *
  omega

theorem comesBefore_advance (position : Position) (char : Char) :
    position.ComesBefore (position.advance char) := by
  unfold advance
  split
  · exact .inl (Nat.lt_succ_self _)
  · exact .inr ⟨rfl, Nat.lt_succ_self _⟩

theorem comesBefore_advanceOver
    (position : Position)
    {text : Text}
    (nonempty : text ≠ []) :
    position.ComesBefore (position.advanceOver text) := by
  induction text generalizing position with
  | nil =>
      exact absurd rfl nonempty
  | cons char rest inductionHypothesis =>
      rw [advanceOver_cons]
      have here := position.comesBefore_advance char
      cases rest with
      | nil =>
          exact here
      | cons next rest =>
          exact here.trans (inductionHypothesis _ (List.cons_ne_nil _ _))

/-- Whether a position is that of a character of a file, or the end of the file. -/
def IsIn (content : Text) (position : Position) : Prop :=
  ∃ before, before <+: content ∧ position = start.advanceOver before

/-- In a file the position with the smaller offset comes first. -/
theorem IsIn.comesBefore
    {content : Text}
    {position other : Position}
    (isIn : position.IsIn content)
    (isInOther : other.IsIn content)
    (smaller : position.offset < other.offset) :
    position.ComesBefore other := by
  obtain ⟨before, isPrefix, rfl⟩ := isIn
  obtain ⟨beforeOther, isPrefixOther, rfl⟩ := isInOther
  simp only [offset_advanceOver] at smaller
  have shorter : before.length ≤ beforeOther.length := by omega
  obtain ⟨between, rfl⟩ := List.prefix_of_prefix_length_le isPrefix isPrefixOther shorter
  rw [advanceOver_append]
  apply comesBefore_advanceOver
  rintro rfl
  simp at smaller

end Position

/-! ## Items of a file -/

/-- The spans of ordered items start further and further back. -/
theorem Span.AreOrdered.pairwise_start
    {spans : List Span}
    (ordered : AreOrdered spans) :
    spans.Pairwise fun span other => span.start.offset < other.start.offset := by
  apply List.Pairwise.imp_of_mem _ ordered.apart
  intro span other member _ apart
  exact Nat.lt_of_lt_of_le (ordered.nonempty span member) apart

namespace SourceFile

variable {source : SourceFile}

/-- Spans that are ordered in every region of a file and lie there are ordered in the file and
start in it. -/
theorem areOrdered_flatMap
    (opened : ofContent? source.path source.content source.generated = some source)
    {spans : CodeRegion → List Span}
    (ordered : ∀ region ∈ source.regions, Span.AreOrdered (spans region))
    (covers :
      ∀ region ∈ source.regions, ∀ span ∈ spans region,
        ∃ slice, span.Covers region.anchor region.code slice) :
    Span.AreOrdered (source.regions.flatMap spans) ∧
      ∀ span ∈ source.regions.flatMap spans, span.start.IsIn source.content := by
  constructor
  · apply Span.areOrdered_flatMap (pairwise_regions opened) ordered
    intro region memberRegion span member
    obtain ⟨slice, covers⟩ := covers region memberRegion span member
    obtain ⟨first, last⟩ := covers.bounds
    exact ⟨first, last⟩
  · intro span member
    obtain ⟨region, memberRegion, memberSpan⟩ := List.mem_flatMap.mp member
    obtain ⟨-, before, after, shape, anchor⟩ := isPlaced_of_mem_regions opened memberRegion
    obtain ⟨slice, covers⟩ := covers region memberRegion span memberSpan
    rw [anchor] at covers
    obtain ⟨front, back, whole, rfl⟩ := Span.Covers.within before after covers
    rw [shape, whole]
    exact ⟨front, ⟨slice ++ back, by simp⟩, rfl⟩

theorem areOrdered_literals
    (opened : ofContent? source.path source.content source.generated = some source)
    {marker : Text}
    {items : List Literal}
    (searched : source.literals marker = .ok items) :
    Span.AreOrdered (items.map Literal.span) ∧
      ∀ span ∈ items.map Literal.span, span.start.IsIn source.content := by
  rw [literals_eq_ok opened] at searched
  cases searched
  rw [List.map_flatMap]
  apply areOrdered_flatMap opened
  · intro region _
    exact Dialect.areOrdered_literals _ _ _ _
  · intro region _ span member
    obtain ⟨literal, memberLiteral, rfl⟩ := List.mem_map.mp member
    exact ⟨_, (Dialect.covers_of_mem_literals memberLiteral).1⟩

theorem areOrdered_references
    (opened : ofContent? source.path source.content source.generated = some source)
    {trie : Trie}
    {rootNamespace : Text}
    {preferred? : Option Origin}
    {items : List Reference}
    (searched : source.references trie rootNamespace preferred? = .ok items) :
    Span.AreOrdered (items.map Reference.span) ∧
      ∀ span ∈ items.map Reference.span, span.start.IsIn source.content := by
  obtain ⟨found, rfl, searchedRegions⟩ := references_eq_flatMap opened searched
  rw [List.map_flatMap]
  apply areOrdered_flatMap opened
  · intro region memberRegion
    exact Dialect.areOrdered_references (searchedRegions region memberRegion)
  · intro region memberRegion span member
    obtain ⟨reference, memberReference, rfl⟩ := List.mem_map.mp member
    obtain ⟨slice, covers, -⟩ :=
      Dialect.isSpelled_of_mem_references (searchedRegions region memberRegion) memberReference
    exact ⟨slice, covers⟩

end SourceFile

/-! ## Findings about items -/

namespace Finding

/-- Where the item of a finding starts, if the finding is about an item. -/
def start? : Finding → Option Position
  | .literal _ item => some item.span.start
  | .reference _ item => some item.span.start
  | .fileError _ _ => none

/-- A finding that says where an item starts in a file. -/
structure Locates (source : SourceFile) (start : Position) (finding : Finding) : Prop where
  path : finding.path = source.path
  starts : finding.start? = some start
  line : finding.line = start.line
  column : finding.column = start.column
  isIn : start.IsIn source.content

/-- Whether findings are about different places, unless one is about a whole file. -/
def AreApart (finding other : Finding) : Prop :=
  finding.path = other.path →
    ∀ start startOther, finding.start? = some start → other.start? = some startOther →
      start.offset ≠ startOther.offset

/-- The order in which findings are read: file by file, then what concerns the file as a whole,
then its items by their offsets. -/
inductive Precedes (finding other : Finding) : Prop where
  | earlierFile (earlier : Text.compare finding.path other.path = .lt)
  | wholeFile (samePath : finding.path = other.path) (isFileError : finding.isFileError = true)
  | earlierItem
      {start startOther : Position}
      (samePath : finding.path = other.path)
      (starts : finding.start? = some start)
      (startsOther : other.start? = some startOther)
      (earlier : start.offset < startOther.offset)

end Finding

/-- Findings about items that a search of a file has found, in the order of the search.  Some
items may be left out. -/
inductive SourceFile.Reports (source : SourceFile) : List Finding → Prop where
  | literals
      {marker : Text}
      {items kept : List Literal}
      (searched : source.literals marker = .ok items)
      (selected : kept.Sublist items) :
      Reports source (kept.map fun item => .literal (source.context item.span.start) item)
  | references
      {trie : Trie}
      {rootNamespace : Text}
      {preferred? : Option Origin}
      {items kept : List Reference}
      (searched : source.references trie rootNamespace preferred? = .ok items)
      (selected : kept.Sublist items) :
      Reports source (kept.map fun item => .reference (source.context item.span.start) item)

namespace Finding

variable {source : SourceFile} {files : List SourceFile} {finding other : Finding}
  {start startOther : Position} {findings others : List Finding}

instance : Std.Symm AreApart where
  symm _ _ apart samePath _ _ starts startsOther :=
    (apart samePath.symm _ _ startsOther starts).symm

theorem start?_eq_none_of_isFileError
    (isFileError : finding.isFileError = true) :
    finding.start? = none := by
  cases finding with
  | fileError => rfl
  | literal | reference => cases isFileError

theorem line_eq_zero_of_isFileError
    (isFileError : finding.isFileError = true) :
    finding.line = 0 := by
  cases finding with
  | fileError => rfl
  | literal | reference => cases isFileError

/-- Lines of items are counted from one. -/
theorem Locates.line_pos
    (locates : finding.Locates source start) :
    0 < finding.line := by
  obtain ⟨before, -, rfl⟩ := locates.isIn
  rw [locates.line]
  exact Position.line_le_advanceOver .start before

/-- Findings of one file are compared by their places. -/
theorem compare_eq_lt_of_comesBefore
    (samePath : finding.path = other.path)
    (before :
      Position.ComesBefore ⟨finding.line, finding.column, 0⟩ ⟨other.line, other.column, 0⟩) :
    finding.compare other = .lt := by
  simp only [compare, Ordering.then_eq_lt, Text.compare_eq_eq_iff, samePath, true_and]
  rcases before with line | ⟨line, column⟩
  · exact .inr (.inl (Nat.compare_eq_lt.mpr line))
  · exact .inr (.inr ⟨Nat.compare_eq_eq.mpr line, .inl (Nat.compare_eq_lt.mpr column)⟩)

/-- Of two items of a file the one with the smaller offset comes first. -/
theorem Locates.compare_eq_lt
    (locates : finding.Locates source start)
    (locatesOther : other.Locates source startOther)
    (smaller : start.offset < startOther.offset) :
    finding.compare other = .lt := by
  apply compare_eq_lt_of_comesBefore (locates.path.trans locatesOther.path.symm)
  have before := locates.isIn.comesBefore locatesOther.isIn smaller
  unfold Position.ComesBefore at before ⊢
  rw [locates.line, locates.column, locatesOther.line, locatesOther.column]
  exact before

/-- What concerns a file as a whole comes before its items. -/
theorem Locates.compare_eq_lt_of_isFileError
    (locates : finding.Locates source start)
    (isFileError : other.isFileError = true)
    (samePath : other.path = finding.path) :
    other.compare finding = .lt := by
  apply compare_eq_lt_of_comesBefore samePath
  left
  rw [line_eq_zero_of_isFileError isFileError]
  exact locates.line_pos

theorem not_isLE_of_compare_eq_lt
    (behind : other.compare finding = .lt) :
    ¬(finding.compare other).isLE = true := by
  rw [@Std.OrientedCmp.eq_swap _ compare, behind]
  nofun

/-- Findings each of which is about a file as a whole or about an item of one of some files,
where no two are about one place. -/
structure AreLocated (files : List SourceFile) (findings : List Finding) : Prop where
  located :
    ∀ finding ∈ findings,
      finding.isFileError = true ∨ ∃ source ∈ files, ∃ start, finding.Locates source start
  apart : findings.Pairwise AreApart

namespace AreLocated

theorem perm
    (areLocated : AreLocated files findings)
    (permuted : others.Perm findings) :
    AreLocated files others where
  located finding member := areLocated.located finding (permuted.mem_iff.mp member)
  apart := permuted.symm.pairwise areLocated.apart (Std.Symm.symm _ _)

/-- Two items with one path are items of one file. -/
theorem exists_source
    (distinct : (files.map SourceFile.path).Nodup)
    (areLocated : AreLocated files findings)
    (member : finding ∈ findings)
    (memberOther : other ∈ findings)
    (samePath : finding.path = other.path)
    (starts : finding.start? = some start)
    (startsOther : other.start? = some startOther) :
    ∃ source, finding.Locates source start ∧ other.Locates source startOther := by
  have located :
      ∀ finding ∈ findings, ∀ start, finding.start? = some start →
        ∃ source ∈ files, finding.Locates source start := by
    intro finding member start starts
    rcases areLocated.located finding member with isFileError |
        ⟨source, memberSource, found, locates⟩
    · cases (start?_eq_none_of_isFileError isFileError).symm.trans starts
    · cases locates.starts.symm.trans starts
      exact ⟨source, memberSource, locates⟩
  obtain ⟨source, memberSource, locates⟩ := located finding member start starts
  obtain ⟨sourceOther, memberSourceOther, locatesOther⟩ :=
    located other memberOther startOther startsOther
  have same : source = sourceOther :=
    List.inj_on_of_nodup_map distinct memberSource memberSourceOther
      (locates.path.symm.trans (samePath.trans locatesOther.path))
  subst same
  exact ⟨source, locates, locatesOther⟩

/-- A finding that does not come behind another one precedes it. -/
theorem precedes_of_isLE
    (distinct : (files.map SourceFile.path).Nodup)
    (areLocated : AreLocated files findings)
    (member : finding ∈ findings)
    (memberOther : other ∈ findings)
    (apart : finding.AreApart other)
    (isLE : (finding.compare other).isLE = true) :
    finding.Precedes other := by
  have paths := isLE
  rw [compare, Ordering.isLE_then_iff_or] at paths
  rcases paths with earlier | ⟨samePath, -⟩
  · exact .earlierFile earlier
  · rw [Text.compare_eq_eq_iff] at samePath
    rcases areLocated.located finding member with isFileError | ⟨source, -, start, locates⟩
    · exact .wholeFile samePath isFileError
    · rcases areLocated.located other memberOther with isFileError |
          ⟨_, -, startOther, locatesOther⟩
      · have behind := locates.compare_eq_lt_of_isFileError isFileError samePath.symm
        exact absurd isLE (not_isLE_of_compare_eq_lt behind)
      · obtain ⟨source, locates, locatesOther⟩ :=
          areLocated.exists_source distinct member memberOther samePath locates.starts
            locatesOther.starts
        have differs := apart samePath _ _ locates.starts locatesOther.starts
        refine .earlierItem samePath locates.starts locatesOther.starts ?_
        apply Nat.lt_of_le_of_ne _ differs
        rw [← Nat.not_lt]
        intro smaller
        exact not_isLE_of_compare_eq_lt (locatesOther.compare_eq_lt locates smaller) isLE

/-- There is one item at a place. -/
theorem eq_of_offset_eq
    (areLocated : AreLocated files findings)
    (member : finding ∈ findings)
    (memberOther : other ∈ findings)
    (samePath : finding.path = other.path)
    (starts : finding.start? = some start)
    (startsOther : other.start? = some startOther)
    (same : start.offset = startOther.offset) :
    finding = other := by
  by_contra differs
  exact areLocated.apart.forall member memberOther differs samePath _ _ starts startsOther same

/-- Two items of a file are compared as their offsets are. -/
theorem compare_eq_lt_iff
    (distinct : (files.map SourceFile.path).Nodup)
    (areLocated : AreLocated files findings)
    (member : finding ∈ findings)
    (memberOther : other ∈ findings)
    (samePath : finding.path = other.path)
    (starts : finding.start? = some start)
    (startsOther : other.start? = some startOther) :
    finding.compare other = .lt ↔ start.offset < startOther.offset := by
  obtain ⟨source, locates, locatesOther⟩ :=
    areLocated.exists_source distinct member memberOther samePath starts startsOther
  refine ⟨fun before => ?_, locates.compare_eq_lt locatesOther⟩
  rcases Nat.lt_trichotomy start.offset startOther.offset with smaller | same | larger
  · exact smaller
  · cases areLocated.eq_of_offset_eq member memberOther samePath starts startsOther same
    cases before.symm.trans Std.ReflCmp.compare_self
  · rw [@Std.OrientedCmp.eq_swap _ compare, locatesOther.compare_eq_lt locates larger] at before
    cases before

/-- Findings that the order does not tell apart are the same. -/
theorem eq_of_compare_eq
    (distinct : (files.map SourceFile.path).Nodup)
    (areLocated : AreLocated files findings)
    (member : finding ∈ findings)
    (memberOther : other ∈ findings)
    (same : finding.compare other = .eq) :
    finding = other := by
  obtain ⟨samePath, sameLine, -, -, sameMessage⟩ :
      finding.path = other.path ∧ finding.line = other.line ∧ _ ∧ _ ∧
        finding.message = other.message := by
    simpa only [compare, Ordering.then_eq_eq, Text.compare_eq_eq_iff, Nat.compare_eq_eq] using same
  rcases areLocated.located finding member with isFileError | ⟨_, -, start, locates⟩
  · rcases areLocated.located other memberOther with isFileErrorOther |
        ⟨_, -, startOther, locatesOther⟩
    · cases finding with
      | literal | reference => cases isFileError
      | fileError path message =>
          cases other with
          | literal | reference => cases isFileErrorOther
          | fileError pathOther messageOther =>
              cases samePath
              cases sameMessage
              rfl
    · have positive := locatesOther.line_pos
      rw [← sameLine, line_eq_zero_of_isFileError isFileError] at positive
      cases positive
  · rcases areLocated.located other memberOther with isFileErrorOther |
        ⟨_, -, startOther, locatesOther⟩
    · have positive := locates.line_pos
      rw [sameLine, line_eq_zero_of_isFileError isFileErrorOther] at positive
      cases positive
    · apply areLocated.eq_of_offset_eq member memberOther samePath locates.starts
        locatesOther.starts
      have notBefore :=
        (areLocated.compare_eq_lt_iff distinct member memberOther samePath locates.starts
          locatesOther.starts).not.mp (by rw [same]; nofun)
      have notBehind :=
        (areLocated.compare_eq_lt_iff distinct memberOther member samePath.symm
          locatesOther.starts locates.starts).not.mp
          (by rw [@Std.OrientedCmp.eq_swap _ compare, same]; nofun)
      omega

/-- Sorted findings are in the order in which they are read. -/
theorem pairwise_sort
    (distinct : (files.map SourceFile.path).Nodup)
    (areLocated : AreLocated files findings) :
    (sort findings).Pairwise Precedes := by
  have sorted := areLocated.perm (perm_sort findings)
  apply ((Finding.pairwise_sort findings).and sorted.apart).imp_of_mem
  intro finding other member memberOther ⟨isLE, apart⟩
  exact sorted.precedes_of_isLE distinct member memberOther apart isLE

end AreLocated

end Finding

/-! ## Findings of several files -/

namespace SourceFile

variable {source : SourceFile} {findings : List Finding}

/-- Findings that say where ordered items start. -/
theorem located_of_areOrdered
    {item : Type}
    {items kept : List item}
    {span : item → Span}
    {finding : item → Finding}
    (placed :
      Span.AreOrdered (items.map span) ∧
        ∀ place ∈ items.map span, place.start.IsIn source.content)
    (selected : kept.Sublist items)
    (locates :
      ∀ value, (span value).start.IsIn source.content →
        (finding value).Locates source (span value).start) :
    (∀ value ∈ kept.map finding, ∃ start, value.Locates source start) ∧
      (kept.map finding).Pairwise Finding.AreApart := by
  obtain ⟨ordered, inContent⟩ := placed
  have located : ∀ value ∈ kept, (finding value).Locates source (span value).start := by
    intro value member
    exact locates value (inContent _ (List.mem_map_of_mem (selected.subset member)))
  constructor
  · intro value member
    obtain ⟨value, memberValue, rfl⟩ := List.mem_map.mp member
    exact ⟨_, located value memberValue⟩
  · have starts := (List.pairwise_map.mp ordered.pairwise_start).sublist selected
    rw [List.pairwise_map]
    apply starts.imp_of_mem
    intro value other member memberOther smaller _ start startOther startsAt startsAtOther
    cases (located value member).starts.symm.trans startsAt
    cases (located other memberOther).starts.symm.trans startsAtOther
    exact Nat.ne_of_lt smaller

theorem Reports.located
    (opened : ofContent? source.path source.content source.generated = some source)
    (reports : source.Reports findings) :
    (∀ finding ∈ findings, ∃ start, finding.Locates source start) ∧
      findings.Pairwise Finding.AreApart := by
  cases reports with
  | literals searched selected =>
      exact located_of_areOrdered (areOrdered_literals opened searched) selected
        fun _ isIn => ⟨rfl, rfl, rfl, rfl, isIn⟩
  | references searched selected =>
      exact located_of_areOrdered (areOrdered_references opened searched) selected
        fun _ isIn => ⟨rfl, rfl, rfl, rfl, isIn⟩

end SourceFile

/-- Findings about items of files with different paths, and findings about whole files. -/
theorem Finding.areLocated_of_reports
    {files : List SourceFile}
    {found : SourceFile → List Finding}
    {fileErrors : List Finding}
    (opened :
      ∀ source ∈ files,
        SourceFile.ofContent? source.path source.content source.generated = some source)
    (distinct : (files.map SourceFile.path).Nodup)
    (reports : ∀ source ∈ files, source.Reports (found source))
    (areFileErrors : ∀ finding ∈ fileErrors, finding.isFileError = true) :
    AreLocated files (files.flatMap found ++ fileErrors) := by
  have located := fun source member => (reports source member).located (opened source member)
  have noStart :
      ∀ finding ∈ fileErrors, ∀ start, finding.start? ≠ some start := by
    intro finding member start starts
    cases (start?_eq_none_of_isFileError (areFileErrors finding member)).symm.trans starts
  constructor
  · intro finding member
    rcases List.mem_append.mp member with inFile | isFileError
    · obtain ⟨source, memberSource, memberFound⟩ := List.mem_flatMap.mp inFile
      exact .inr ⟨source, memberSource, (located source memberSource).1 finding memberFound⟩
    · exact .inl (areFileErrors finding isFileError)
  · rw [List.pairwise_append, List.pairwise_flatMap]
    refine ⟨⟨fun source member => (located source member).2, ?_⟩, ?_, ?_⟩
    · apply (List.pairwise_map.mp distinct).imp_of_mem
      intro source other member memberOther differs finding memberFound later memberLater samePath
      obtain ⟨_, locates⟩ := (located source member).1 finding memberFound
      obtain ⟨_, locatesLater⟩ := (located other memberOther).1 later memberLater
      exact absurd (locates.path.symm.trans (samePath.trans locatesLater.path)) differs
    · apply List.pairwise_of_forall_mem_list
      intro finding member _ _ _ start _ starts
      exact absurd starts (noStart finding member start)
    · intro _ _ other memberOther _ _ start _ starts
      exact absurd starts (noStart other memberOther start)

/-- The report on the items of some files and on files that could not be read has all of these
findings, file by file, with the items of a file by their offsets.  It is the same in whatever
order the findings come. -/
theorem Report.ofFindings_documentOrder
    (topic : Topic)
    (files : List SourceFile)
    (found : SourceFile → List Finding)
    (fileErrors findings : List Finding)
    (sourceCount resourceCount : Nat)
    (opened :
      ∀ source ∈ files,
        SourceFile.ofContent? source.path source.content source.generated = some source)
    (distinct : (files.map SourceFile.path).Nodup)
    (reports : ∀ source ∈ files, source.Reports (found source))
    (areFileErrors : ∀ finding ∈ fileErrors, finding.isFileError = true)
    (mixed : findings.Perm (files.flatMap found ++ fileErrors)) :
    let report := ofFindings topic findings sourceCount resourceCount
    report.findings.Perm findings ∧
      report.findings.Pairwise Finding.Precedes ∧
      (∀ finding ∈ findings, ∀ other ∈ findings, finding.path = other.path →
        ∀ start startOther, finding.start? = some start → other.start? = some startOther →
          (finding.compare other = .lt ↔ start.offset < startOther.offset)) ∧
      ∀ reordered, reordered.Perm findings →
        ofFindings topic reordered sourceCount resourceCount = report := by
  have areLocated :=
    (Finding.areLocated_of_reports opened distinct reports areFileErrors).perm mixed
  refine ⟨Finding.perm_sort findings, areLocated.pairwise_sort distinct, ?_, ?_⟩
  · intro finding member other memberOther samePath start startOther starts startsOther
    exact areLocated.compare_eq_lt_iff distinct member memberOther samePath starts startsOther
  · intro reordered permuted
    have sameOrder : Finding.sort reordered = Finding.sort findings :=
      Finding.sort_eq_of_perm permuted fun finding member other memberOther =>
        (areLocated.perm permuted).eq_of_compare_eq distinct member memberOther
    simp only [ofFindings, countOf, sameOrder, permuted.countP_eq]

/-- A file that could not be read a second time, before its two items and that of a later file,
which the findings start with. -/
theorem Report.ofFindings_documentOrder_files :
    let first : SourceFile := ⟨"a.cs".toList, "\"p\"\n+\"q\"".toList, false, .code .csharp⟩
    let second : SourceFile := ⟨"b.cs".toList, "\"r\"".toList, false, .code .csharp⟩
    let found (source : SourceFile) : List Finding :=
      source.findings AnchorError.message
        (fun item => .literal (source.context item.span.start) item)
        (source.literals defaultMarker)
    let findings := [second, first].flatMap found ++ [.fileError "a.cs".toList []]
    let report := ofFindings .literals findings 2 0
    report.findings.Pairwise Finding.Precedes ∧
      report.findings.map (fun finding => (finding.path, finding.line, finding.column)) =
        [("a.cs".toList, 0, 0), ("a.cs".toList, 1, 1), ("a.cs".toList, 2, 2),
          ("b.cs".toList, 1, 1)] := by
  intro first second found findings report
  have opened :
      ∀ source ∈ [first, second],
        SourceFile.ofContent? source.path source.content source.generated = some source := by
    decide +kernel
  have reports : ∀ source ∈ [first, second], source.Reports (found source) := by
    intro source member
    have searched := SourceFile.literals_eq_ok (opened source member) defaultMarker
    simp only [found, searched]
    exact .literals searched (List.Sublist.refl _)
  have mixed : findings.Perm ([first, second].flatMap found ++ [.fileError "a.cs".toList []]) :=
    List.Perm.append_right _ ((List.Perm.swap first second []).flatMap_right found)
  obtain ⟨-, ordered, -⟩ :=
    ofFindings_documentOrder .literals [first, second] found [.fileError "a.cs".toList []] findings
      2 0 opened (by decide) reports (by decide) mixed
  refine ⟨ordered, ?_⟩
  simp only [report, findings, found, first, second]
  cbv

end LocalizationScan
