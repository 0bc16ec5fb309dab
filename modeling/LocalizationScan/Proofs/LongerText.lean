import LocalizationScan.Proofs.Literal.Marks
import LocalizationScan.Proofs.Scan.LongerText
import LocalizationScan.Proofs.SourceOrder
import LocalizationScan.Proofs.StatementBreaks

namespace LocalizationScan

/-!
# Searches with more text behind

More text behind a block adds items, and it may change what the end of the
block means.  The items that end before the end of the block stay as they are,
in the same order, and nothing is found between them.
-/

section Early

variable {item : Type} {span : item → Span} {reported others : List item} {stop : Nat}

theorem Span.AreOrdered.pairwise_stop
    {items : List item}
    (ordered : AreOrdered (items.map span)) :
    items.Pairwise fun first second => (span first).stop.offset ≤ (span second).stop.offset := by
  refine (List.pairwise_map.mp ordered.apart).imp_of_mem fun {_ second} _ member before => ?_
  exact Nat.le_trans before (Nat.le_of_lt (ordered.nonempty _ (List.mem_map_of_mem member)))

/-- Of items in order, those that end early stand in front. -/
theorem isPrefix_filter_of_pairwise
    {items : List item}
    (ordered :
      items.Pairwise fun first second => (span first).stop.offset ≤ (span second).stop.offset) :
    items.filter (fun item => (span item).stop.offset < stop) <+: items := by
  induction ordered with
  | nil =>
      exact List.prefix_rfl
  | @cons first items before _ inductionHypothesis =>
      by_cases early : (span first).stop.offset < stop
      · simpa [early] using inductionHypothesis
      · have noneEarly :
            (first :: items).filter (fun item => (span item).stop.offset < stop) = [] := by
          refine List.filter_eq_nil_iff.mpr (List.forall_mem_cons.mpr ⟨by simpa using early, ?_⟩)
          intro second member
          have behind := before second member
          simp only [decide_eq_true_eq]
          omega
        rw [noneEarly]
        exact List.nil_prefix

/-- When the last of some items in order end late, those that end early are among the first. -/
theorem Span.AreOrdered.isPrefix_filter
    (ordered : AreOrdered ((reported ++ others).map span))
    (late : ∀ item ∈ others, stop ≤ (span item).stop.offset)
    (more : List item) :
    (reported ++ others).filter (fun item => (span item).stop.offset < stop) <+:
      reported ++ more := by
  have noneLate : others.filter (fun item => (span item).stop.offset < stop) = [] := by
    simpa using late
  rw [List.filter_append, noneLate, List.append_nil]
  have orderedReported := (List.pairwise_append.mp ordered.pairwise_stop).1
  exact (isPrefix_filter_of_pairwise orderedReported).trans (List.prefix_append _ _)

end Early

section Literals

variable {dialect : Dialect} {flags : ItemFlags}

/-- Late events complete late literals only. -/
theorem le_stop_of_mem_literalsOfEvents
    {stop : Nat}
    {state : MarkerState}
    {events : List Event}
    (late : ∀ event ∈ events, event.IsLate dialect stop)
    {literal : Literal}
    (member : literal ∈ literalsOfEvents dialect flags state events) :
    stop ≤ literal.span.stop.offset := by
  obtain ⟨token, marked, closed, reported, rfl⟩ := exists_closed_of_mem_literalsOfEvents member
  exact late _ closed reported

/-- The literals of a block that end before its end are the first of a longer block. -/
theorem Dialect.isPrefix_literals
    (dialect : Dialect)
    (flags : ItemFlags)
    (anchor : Position)
    (block later : Text) :
    (dialect.literals flags anchor block).filter
        (fun item => item.span.stop.offset < anchor.offset + block.length) <+:
      dialect.literals flags anchor (block ++ later) := by
  have ordered := dialect.areOrdered_literals flags anchor block
  obtain ⟨shared, sharedLonger, last, others, scanned, scannedLonger, same, late⟩ :=
    dialect.agreeUntilLate anchor block later
  have sameLiterals :
      literalsOfEvents dialect flags .initial sharedLonger =
        literalsOfEvents dialect flags .initial shared := by
    rw [← literalsOfEvents_normalized, same, literalsOfEvents_normalized]
  simp only [literals, scanned, scannedLonger, literalsOfEvents_append, sameLiterals]
    at ordered ⊢
  exact ordered.isPrefix_filter (fun _ member => le_stop_of_mem_literalsOfEvents late member) _

end Literals

section References

variable {dialect : Dialect} {context : ResolveContext} {flags : ItemFlags} {chain : Chain}
  {events : List Event} {items : List Reference}

/-- What a chain reports of events is what a search of these events alone finds. -/
theorem Chain.Takes.searched
    {reported : List Reference}
    {after : Chain}
    (takes : Takes context flags chain events reported after) :
    referencesOfEvents context flags chain events = .ok reported := by
  induction takes with
  | nil =>
      rfl
  | cons taken _ inductionHypothesis =>
      simp only [referencesOfEvents, taken, bind, Except.bind, inductionHypothesis]
      rfl

/-- The references of a block that end before its end are the first of a longer block. -/
theorem Dialect.isPrefix_references
    {marker : Text}
    {anchor : Position}
    {block later : Text}
    {whole : List Reference}
    (csharp : dialect = .csharp marker)
    (searched : dialect.references context flags anchor block = .ok items)
    (searchedLonger : dialect.references context flags anchor (block ++ later) = .ok whole) :
    items.filter (fun item => item.span.stop.offset < anchor.offset + block.length) <+:
      whole := by
  have ordered := areOrdered_references searched
  obtain ⟨shared, sharedLonger, last, others, scanned, scannedLonger, same, late⟩ :=
    dialect.agreeUntilLate anchor block later
  rw [references, scanned] at searched
  rw [references, scannedLonger] at searchedLonger
  obtain ⟨after, reported, found, takes, searchedLast, rfl⟩ := Chain.exists_takes searched
  obtain ⟨_, reportedLonger, more, takesLonger, -, rfl⟩ := Chain.exists_takes searchedLonger
  have sameReported : reported = reportedLonger := by
    have shortAlone := takes.searched
    rw [← referencesOfEvents_normalized, ← same, referencesOfEvents_normalized,
      takesLonger.searched] at shortAlone
    exact (Except.ok.inj shortAlone).symm
  subst sameReported
  refine ordered.isPrefix_filter (fun reference member => ?_) more
  obtain ⟨char, position, next, memberCode, isIdentifier, stop⟩ :=
    Chain.exists_code_of_mem searchedLast member
  rw [stop]
  exact late _ memberCode marker csharp isIdentifier

end References

/-- More text behind a block disturbs nothing that is found before the end of the block: the
items that end there earlier are the first items of the longer text. -/
theorem searches_append
    (dialect : Dialect)
    (context : ResolveContext)
    (flags : ItemFlags)
    (anchor : Position)
    (block later : Text) :
    (∀ items,
      findLiterals dialect flags anchor block = .ok items →
        ∃ whole,
          findLiterals dialect flags anchor (block ++ later) = .ok whole ∧
            items.filter (fun item => item.span.stop.offset < anchor.offset + block.length) <+:
              whole) ∧
    ∀ marker items whole,
      dialect = .csharp marker →
      findReferences dialect context flags anchor block = .ok items →
      findReferences dialect context flags anchor (block ++ later) = .ok whole →
        items.filter (fun item => item.span.stop.offset < anchor.offset + block.length) <+:
          whole := by
  cases valid : anchor.asAnchor with
  | error error =>
      simp only [findLiterals, findReferences, valid]
      constructor
      · intro items found
        cases found
      · intro marker items whole _ found
        cases found
  | ok position =>
      obtain ⟨rfl, -⟩ := Position.asAnchor_advanceOver valid []
      simp only [findLiterals, findReferences, valid]
      refine ⟨fun items found => ?_, fun marker items whole csharp found foundLonger => ?_⟩
      · cases found
        exact ⟨_, rfl, dialect.isPrefix_literals flags position block later⟩
      · exact Dialect.isPrefix_references csharp (Except.eq_ok_of_mapError_eq_ok found)
          (Except.eq_ok_of_mapError_eq_ok foundLonger)

/-- The string at the end of the block is closed by the text behind it, and what stands before
the string is found as before. -/
theorem searches_append_unterminated :
    let dialect : Dialect := .csharp defaultMarker
    let entry : Entry := ⟨['K'], ['V'], ⟨[], ['R'], none, []⟩⟩
    let context : ResolveContext := ⟨.ofList [entry], ⟨[], []⟩, none⟩
    let block := "R.K+\"x\"+\"y".toList
    let later := "z\"+R.K".toList
    let literal : Literal := ⟨"\"x\"".toList, ['x'], ⟨⟨1, 5, 4⟩, ⟨1, 8, 7⟩⟩, false, .none⟩
    let reference (span : Span) : Reference :=
      ⟨"R.K".toList, "R.K".toList, ['K'], ['V'], entry.origin, span, .none⟩
    let first := reference ⟨⟨1, 1, 0⟩, ⟨1, 4, 3⟩⟩
    let second := reference ⟨⟨1, 14, 13⟩, ⟨1, 17, 16⟩⟩
    findLiterals dialect .none .start block = .ok [literal] ∧
      (∃ whole,
        findLiterals dialect .none .start (block ++ later) = .ok whole ∧
          [literal] <+: whole) ∧
      findReferences dialect context .none .start block = .ok [first] ∧
      findReferences dialect context .none .start (block ++ later) = .ok [first, second] ∧
      [first] <+: [first, second] := by
  intro dialect entry context block later literal reference first second
  have foundLiterals : findLiterals dialect .none .start block = .ok [literal] := by
    simp only [dialect, block, literal]
    cbv
  have foundReferences :
      findReferences dialect context .none .start block = .ok [first] ∧
        findReferences dialect context .none .start (block ++ later) = .ok [first, second] := by
    simp only [dialect, block, later, context, first, second, reference, entry]
    cbv
  obtain ⟨literals, references⟩ := searches_append dialect context .none .start block later
  exact ⟨foundLiterals, literals _ foundLiterals, foundReferences.1, foundReferences.2,
    references _ _ _ rfl foundReferences.1 foundReferences.2⟩

end LocalizationScan
