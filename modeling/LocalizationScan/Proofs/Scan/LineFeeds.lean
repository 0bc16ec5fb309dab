import LocalizationScan.Proofs.Lexical.LineFeeds
import LocalizationScan.Proofs.Scan.Invariant
import LocalizationScan.Proofs.Scan.StatementBreaks
import LocalizationScan.Proofs.Scan.Strings

namespace LocalizationScan

/-!
# Scans over a line feed

A line feed leads back to code from code and from a string that ends at its
line.  When the scan of a block ends in one of them, the scan of the block with
a line feed and more text behind it yields the events of the block, a few that
belong to neither literals nor comments, and those of the text behind as a block
of its own.
-/

/-- What may be open at the end of a line for the next line to begin in code. -/
inductive Control.EndsAtFeed : Dialect → Control → Prop where
  | code
      {dialect : Dialect} :
      EndsAtFeed dialect .initial
  | string
      {marker : Text}
      {kind : StringKind}
      {token : OpenToken}
      (ofLine : kind = .regular ∨ kind = .char) :
      EndsAtFeed (.csharp marker) ⟨.inString kind token, []⟩

theorem Control.EndsAtFeed.extend
    {dialect : Dialect}
    {control : Control}
    (feeds : control.EndsAtFeed dialect)
    (more : Text) :
    (control.extend more).EndsAtFeed dialect := by
  cases feeds with
  | code => exact .code
  | string ofLine => exact .string ofLine

/-- An event that reports no literal and ends no comment. -/
def Event.IsSilent : Event → Prop
  | .stringClosed token => token.emit = false
  | .commentClosed _ => False
  | .code _ _ _ | .stringOpened _ _ | .stringAbandoned | .commentOpened | .lineComment
  | .continuation | .holeClosed => True

/-- Whether the whole events go on with the later ones behind the given events, save for what
they tell about the next character and for events that belong to no literal. -/
inductive GoesOn (later : List Event) : (events whole : List Event) → Prop where
  | intro
      {shared sharedLonger along last : List Event}
      (same : sharedLonger.map Event.normalized = shared.map Event.normalized)
      (nothing : emittedTokens along = [])
      (silent : ∀ event ∈ last, event.IsSilent) :
      GoesOn later (shared ++ along) (sharedLonger ++ (last ++ later))

section Relation

variable {later events whole last along : List Event}

theorem GoesOn.of_last
    (nothing : emittedTokens along = [])
    (silent : ∀ event ∈ last, event.IsSilent) :
    GoesOn later along (last ++ later) :=
  @GoesOn.intro later [] [] along last rfl nothing silent

theorem GoesOn.append
    {front frontLonger : List Event}
    (sameFront : frontLonger.map Event.normalized = front.map Event.normalized)
    (goesOn : GoesOn later events whole) :
    GoesOn later (front ++ events) (frontLonger ++ whole) := by
  obtain @⟨shared, sharedLonger, along, last, same, nothing, silent⟩ := goesOn
  rw [← List.append_assoc, ← List.append_assoc]
  exact .intro (by rw [List.map_append, List.map_append, sameFront, same]) nothing silent

end Relation

namespace Scan

variable {dialect : Dialect} {anchor : Position} {control : Control} {done : Text}

/-- In code without quotes Visual Basic opens nothing. -/
theorem keeps_resting (anchor : Position) (holes : List Hole) :
    Keeps .visualBasic anchor
      (fun control _ rest => control = ⟨.resting, holes⟩ ∧ '"' ∉ rest)
      (fun event => event.emitted? = none) := by
  rintro _ done piece later events next - - move ⟨rfl, noQuote⟩
  have noQuoteLater : '"' ∉ later := fun member => noQuote (List.mem_append_right _ member)
  cases move with
  | code | lineComment | continuation =>
      exact ⟨⟨rfl, noQuoteLater⟩, List.forall_mem_singleton.mpr rfl⟩
  | openString classified =>
      have taken := (VisualBasic.opening_of_openString classified).2
      rw [List.take_left] at taken
      exact absurd (by simp [taken]) noQuote
  | openComment csharp | openBrace csharp | closeBrace csharp | closeHole csharp =>
      cases csharp

/-- A line feed leads back to code, without an item of its own. -/
theorem exists_events_feed
    (feeds : control.EndsAtFeed dialect)
    (anchor : Position)
    (done later : Text) :
    ∃ last,
      (∀ event ∈ last, event.IsSilent) ∧
        events dialect ⟨control, .between anchor done ('\n' :: later)⟩ =
          last ++ events dialect ⟨.initial, .between anchor (done ++ ['\n']) later⟩ := by
  have silent (position : Position) : Event.IsSilent (.code '\n' position later.head?) :=
    trivial
  cases feeds with
  | code =>
      refine ⟨_, List.forall_mem_singleton.mpr (silent (anchor.advanceOver done)), ?_⟩
      exact @events_eq_react anchor .initial done later '\n' dialect ['\n'] .stay later rfl
        (by cases dialect <;> rfl) rfl
  | @string marker kind token ofLine =>
      refine ⟨[.stringAbandoned, .code '\n' (anchor.advanceOver done) later.head?],
        List.forall_mem_cons.mpr ⟨trivial, List.forall_mem_singleton.mpr (silent _)⟩, ?_⟩
      exact @events_eq_react anchor ⟨.inString kind token, []⟩ done later '\n' (.csharp marker)
        ['\n'] .abandon later rfl (by rcases ofLine with rfl | rfl <;> rfl) rfl

/-- A line comment goes on to the line feed, or to the end of the block. -/
theorem goesOn_of_lineComment
    {char : Char}
    {tail later : Text}
    {final : Control}
    (comments :
      dialect.classify control.lexicalState done.getLast? (char :: tail) = .lineComment)
    (longer :
      dialect.classify control.lexicalState done.getLast? (char :: tail ++ '\n' :: later) =
        .lineComment)
    (noBreak : '\n' ∉ char :: tail)
    (ends : finalControl? dialect ⟨control, .between anchor done (char :: tail)⟩ = some final)
    (feeds : final.EndsAtFeed dialect) :
    GoesOn
      (events dialect ⟨.initial, .between anchor (done ++ char :: tail ++ ['\n']) later⟩)
      (events dialect ⟨control, .between anchor done (char :: tail)⟩)
      (events dialect
        ⟨control.extend ('\n' :: later),
          .between anchor done (char :: tail ++ '\n' :: later)⟩) := by
  have covers := @Transition.covered_lineComment (char :: tail) [] (by simp) noBreak (.inl rfl)
  rw [List.append_nil] at covers
  obtain ⟨scanned, last⟩ :=
    @events_last dialect anchor control done char _ tail _ _ comments covers fun _ _ _ => rfl
  cases last.symm.trans ends
  have scannedLonger :
      events dialect
          ⟨control.extend ('\n' :: later),
            .between anchor done (char :: tail ++ '\n' :: later)⟩ =
        .lineComment ::
          events dialect
            ⟨control.extend ('\n' :: later),
              .between anchor (done ++ char :: tail) ('\n' :: later)⟩ :=
    @events_eq_react anchor (control.extend ('\n' :: later)) done ('\n' :: later) char dialect
      (char :: tail) .lineComment (tail ++ '\n' :: later) rfl
      (by rw [Control.lexicalState_extend]; exact longer)
      (Transition.covered_lineComment (by simp) noBreak (.inr rfl))
  obtain ⟨feed, silent, scannedFeed⟩ :=
    exists_events_feed (feeds.extend ('\n' :: later)) anchor (done ++ char :: tail) later
  rw [scanned, scannedLonger, scannedFeed]
  exact @GoesOn.append _ [] _ [.lineComment] [.lineComment] rfl (.of_last rfl silent)

/-- A backslash at the end of a line does not escape the line feed. -/
theorem goesOn_of_escape
    {later : Text}
    {final : Control}
    (escapes : dialect.classify control.lexicalState done.getLast? ['\\'] = .escape 2)
    (abandons :
      dialect.classify control.lexicalState done.getLast? ('\\' :: '\n' :: later) = .abandon)
    (inString : control.lexicalState.isCode = false)
    (ends : finalControl? dialect ⟨control, .between anchor done ['\\']⟩ = some final)
    (feeds : final.EndsAtFeed dialect) :
    GoesOn
      (events dialect ⟨.initial, .between anchor (done ++ ['\\'] ++ ['\n']) later⟩)
      (events dialect ⟨control, .between anchor done ['\\']⟩)
      (events dialect
        ⟨control.extend ('\n' :: later), .between anchor done ('\\' :: '\n' :: later)⟩) := by
  obtain ⟨scanned, last⟩ :=
    @events_last dialect anchor control done '\\' _ [] _ _ escapes rfl fun _ _ _ => rfl
  cases last.symm.trans ends
  obtain ⟨feed, silent, scannedFeed⟩ :=
    exists_events_feed (@Control.EndsAtFeed.code dialect) anchor (done ++ ['\\']) later
  cases feeds with
  | code =>
      cases inString
  | @string marker kind token =>
      have scannedLonger :
          events (.csharp marker)
              ⟨⟨.inString kind (token.extend ('\n' :: later)), []⟩,
                .between anchor done ('\\' :: '\n' :: later)⟩ =
            .stringAbandoned :: .code '\\' (anchor.advanceOver done) (some '\n') ::
              events (.csharp marker)
                ⟨.initial, .between anchor (done ++ ['\\']) ('\n' :: later)⟩ :=
        @events_eq_react anchor ⟨.inString kind (token.extend ('\n' :: later)), []⟩ done
          ('\n' :: later) '\\' (.csharp marker) ['\\'] .abandon ('\n' :: later) rfl abandons rfl
      have silentLonger :
          ∀ event ∈
              .stringAbandoned :: .code '\\' (anchor.advanceOver done) (some '\n') :: feed,
            Event.IsSilent event :=
        List.forall_mem_cons.mpr ⟨trivial, List.forall_mem_cons.mpr ⟨trivial, silent⟩⟩
      rw [scannedFeed] at scannedLonger
      rw [scanned]
      exact scannedLonger ▸ .of_last rfl silentLonger

/-- A line feed completes the line continuation at the end of a line. -/
theorem goesOn_of_continuation
    {char : Char}
    {tail later : Text}
    {final : Control}
    (continues :
      Dialect.visualBasic.classify control.lexicalState done.getLast?
          (char :: tail ++ '\n' :: later) =
        .continuation ((char :: tail).length + 1))
    (inCode : control.lexicalState.isCode = true)
    (noQuote : '"' ∉ char :: tail)
    (ends :
      finalControl? .visualBasic ⟨control, .between anchor done (char :: tail)⟩ = some final)
    (feeds : final.EndsAtFeed .visualBasic) :
    GoesOn
      (events .visualBasic
        ⟨.initial, .between anchor (done ++ char :: tail ++ ['\n']) later⟩)
      (events .visualBasic ⟨control, .between anchor done (char :: tail)⟩)
      (events .visualBasic
        ⟨control.extend ('\n' :: later),
          .between anchor done (char :: tail ++ '\n' :: later)⟩) := by
  obtain ⟨mode, holes⟩ := control
  cases Control.mode_of_isCode inCode
  have quiet :=
    forall_mem_events (keeps_resting anchor holes) _ done (char :: tail) ⟨rfl, noQuote⟩
  obtain ⟨_, last, rfl, -⟩ :=
    exists_finalControl? (keeps_resting anchor holes) _ done (char :: tail) ⟨rfl, noQuote⟩
  cases last.symm.trans ends
  cases feeds
  have shape : char :: tail ++ '\n' :: later = char :: tail ++ ['\n'] ++ later := by
    simp
  have scannedLonger :
      events .visualBasic
          ⟨.initial, .between anchor done (char :: tail ++ '\n' :: later)⟩ =
        .continuation ::
          events .visualBasic
            ⟨.initial, .between anchor (done ++ (char :: tail ++ ['\n'])) later⟩ := by
    rw [shape] at continues ⊢
    exact @events_eq_react anchor .initial done later char .visualBasic
      (char :: tail ++ ['\n']) _ (tail ++ ['\n'] ++ later) rfl continues
      (Transition.covered_of_length (by simp) (by simp [Transition.covered]))
  rw [← List.append_assoc] at scannedLonger
  have silent : ∀ event ∈ [Event.continuation], event.IsSilent :=
    List.forall_mem_singleton.mpr trivial
  exact scannedLonger ▸ .of_last (List.filterMap_eq_nil_iff.mpr quiet) silent

/-- A scan that ends where a line feed leads back to code goes on behind the line feed as
a block of its own does. -/
theorem goesOn_feed
    (dialect : Dialect)
    (anchor : Position)
    {later : Text}
    (unindented : dialect = .visualBasic → later.takeWhile VisualBasic.isLineBlank = [])
    (control final : Control)
    (done rest : Text)
    (reaches : control.ReachesTo (anchor.offset + done.length + rest.length))
    (ends : finalControl? dialect ⟨control, .between anchor done rest⟩ = some final)
    (feeds : final.EndsAtFeed dialect) :
    GoesOn
      (events dialect ⟨.initial, .between anchor (done ++ rest ++ ['\n']) later⟩)
      (events dialect ⟨control, .between anchor done rest⟩)
      (events dialect
        ⟨control.extend ('\n' :: later), .between anchor done (rest ++ '\n' :: later)⟩) := by
  obtain ⟨last, doneLast, restLast, shared, sharedLonger, path, parts⟩ :=
    @exists_sharesPath dialect anchor ('\n' :: later) rfl control done rest reaches
  rw [path.scanned, path.scannedLonger, ← path.whole]
  rw [path.final] at ends
  refine .append path.same ?_
  cases restLast with
  | nil =>
      rw [finalControl?_between_nil] at ends
      cases ends
      obtain ⟨feed, silent, scanned⟩ :=
        exists_events_feed (feeds.extend ('\n' :: later)) anchor doneLast later
      rw [events_between_nil, List.nil_append, scanned, List.append_nil]
      exact .of_last rfl silent
  | cons char tail =>
      rcases Dialect.classify_append_feed doneLast.getLast? (List.cons_ne_nil char tail)
          unindented with
        same | ⟨isBackslash, inString, escapes, abandons⟩ |
          ⟨visualBasic, inCode, noQuote, continues⟩
      · rcases dialect.covers_classify last.lexicalState doneLast.getLast? char tail with
            covers | ⟨comments, inCode, noBreak⟩ | ⟨escapes, inString, rfl⟩
        · exact absurd covers (parts (List.cons_ne_nil char tail) same)
        · exact goesOn_of_lineComment comments (same.trans comments) noBreak ends feeds
        · exact absurd (same.trans escapes)
            (Dialect.classify_feed_ne_escape _ _ _ _ inString)
      · cases isBackslash
        exact goesOn_of_escape escapes abandons inString ends feeds
      · cases visualBasic
        exact goesOn_of_continuation continues inCode noQuote ends feeds

end Scan

/-- The events of a block that a line feed ends, and behind it those of a block of its own. -/
theorem Dialect.goesOn_feed
    {dialect : Dialect}
    {anchor : Position}
    {block later : Text}
    {final : Control}
    (ends : (Scan.ofBlock anchor block).finalControl? dialect = some final)
    (feeds : final.EndsAtFeed dialect)
    (unindented : dialect = .visualBasic → later.takeWhile VisualBasic.isLineBlank = []) :
    GoesOn
      (dialect.events (anchor.advanceOver (block ++ ['\n'])) later)
      (dialect.events anchor block)
      (dialect.events anchor (block ++ '\n' :: later)) := by
  have goesOn :=
    Scan.goesOn_feed dialect anchor unindented .initial final [] block (.initial _) ends feeds
  rw [List.nil_append, Scan.events_behind_feed] at goesOn
  exact goesOn

end LocalizationScan
