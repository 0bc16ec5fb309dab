import LocalizationScan.Proofs.Lexical.StatementBreak
import LocalizationScan.Proofs.Scan.SharedPath

namespace LocalizationScan

/-!
# Scans over a statement break

A blank, a semicolon and a line feed end whatever the code before them has
begun.  When the scan of a block ends in code, the scan of the block with a
statement break and more code behind it yields the events of the block, those
of the break and those of the code behind.
-/

/-- A blank, the end of a statement and the end of its line. -/
def statementBreak : Text := [' ', ';', '\n']

/-- The lexical state in which a scan arrives at the end of the block. -/
def Scan.finalState? (dialect : Dialect) (scan : Scan) : Option LexicalState :=
  (scan.visited dialect).getLast?.map fun final => final.control.lexicalState

/-- The lexical state in which the scan of a block ends. -/
def Dialect.finalState? (dialect : Dialect) (anchor : Position) (block : Text) :
    Option LexicalState :=
  (Scan.ofBlock anchor block).finalState? dialect

/-- Events that break off with a statement, and the whole events that go on behind the
break with the later ones. -/
inductive BreaksOff (later : List Event) : (events whole : List Event) → Prop where
  | blank
      {first second third : Position} :
      BreaksOff later []
        (.code ' ' first none :: .code ';' second none :: .code '\n' third none :: later)
  /-- The blank belongs to a line continuation. -/
  | statement
      {second third : Position} :
      BreaksOff later [] (.code ';' second none :: .code '\n' third none :: later)
  /-- The blank and the semicolon belong to a comment. -/
  | comment
      {third : Position} :
      BreaksOff later [.lineComment] (.lineComment :: .code '\n' third none :: later)
  | cons
      {event : Event}
      {events whole : List Event}
      (behind : BreaksOff later events whole) :
      BreaksOff later (event :: events) (event :: whole)

theorem BreaksOff.append
    {later events whole : List Event}
    (front : List Event)
    (behind : BreaksOff later events whole) :
    BreaksOff later (front ++ events) (front ++ whole) := by
  induction front with
  | nil =>
      exact behind
  | cons event front inductionHypothesis =>
      exact .cons inductionHypothesis

namespace Scan

variable {dialect : Dialect} {anchor : Position} {control : Control}
  {done piece later : Text} {char : Char}

theorem eq_initial_of_lexicalState
    (inCode : control.lexicalState = .code) :
    control = .initial := by
  obtain ⟨mode, holes⟩ := control
  cases mode with
  | resting =>
      cases holes with
      | nil => rfl
      | cons => cases inCode
  | inString | inComment =>
      cases inCode

/-- Nothing is open where a scan ends in code. -/
theorem finalControl?_of_finalState?
    {scan : Scan}
    (ends : scan.finalState? dialect = some .code) :
    scan.finalControl? dialect = some .initial := by
  obtain ⟨final, last, inCode⟩ := Option.map_eq_some_iff.mp ends
  rw [finalControl?, last, Option.map_some, eq_initial_of_lexicalState inCode]

/-- An ordinary character of code that is none of an identifier yields itself. -/
theorem events_of_stay
    (stays : dialect.classify .code done.getLast? (char :: later) = .stay)
    (noIdentifier : Text.isIdentifierChar char = false) :
    (events dialect ⟨.initial, .between anchor done (char :: later)⟩).map Event.normalized =
      .code char (anchor.advanceOver done) none ::
        (events dialect ⟨.initial, .between anchor (done ++ [char]) later⟩).map
          Event.normalized := by
  have scanned :=
    @events_eq_react anchor .initial done later char dialect [char] .stay later rfl stays rfl
  rw [List.singleton_append] at scanned
  rw [scanned, List.map_append]
  simp [Control.react, Control.initial, Event.normalized, noIdentifier]

section Break

/-- The events of a scan in code, normalized. -/
def eventsInCode (dialect : Dialect) (anchor : Position) (done rest : Text) : List Event :=
  (events dialect ⟨.initial, .between anchor done rest⟩).map Event.normalized

variable (dialect anchor done later)

theorem eventsInCode_feed :
    eventsInCode dialect anchor done ('\n' :: later) =
      .code '\n' (anchor.advanceOver done) none ::
        eventsInCode dialect anchor (done ++ ['\n']) later := by
  apply events_of_stay _ (by decide)
  cases dialect <;> rfl

theorem eventsInCode_semicolon :
    eventsInCode dialect anchor done (';' :: '\n' :: later) =
      .code ';' (anchor.advanceOver done) none ::
        .code '\n' (anchor.advanceOver (done ++ [';'])) none ::
          eventsInCode dialect anchor (done ++ [';'] ++ ['\n']) later := by
  rw [← eventsInCode_feed]
  apply events_of_stay _ (by decide)
  cases dialect <;> rfl

theorem eventsInCode_break :
    eventsInCode dialect anchor done (statementBreak ++ later) =
      .code ' ' (anchor.advanceOver done) none ::
        .code ';' (anchor.advanceOver (done ++ [' '])) none ::
          .code '\n' (anchor.advanceOver (done ++ [' '] ++ [';'])) none ::
            eventsInCode dialect anchor (done ++ [' '] ++ [';'] ++ ['\n']) later := by
  rw [← eventsInCode_semicolon]
  apply events_of_stay _ (by decide)
  cases dialect <;> rfl

end Break

/-- A scan that ends in code with a transition which yields an event and changes nothing: the
transition may take a part of the statement break along, and the scan goes on behind it. -/
theorem events_of_last
    {transition longer : Transition}
    {tail along left : Text}
    {event : Event}
    (splits : statementBreak ++ later = along ++ left)
    (classified :
      dialect.classify control.lexicalState done.getLast? (char :: tail) = transition)
    (covers : transition.covered (char :: tail) = (char :: tail).length)
    (classifiedLonger :
      dialect.classify control.lexicalState done.getLast?
          (char :: tail ++ (statementBreak ++ later)) =
        longer)
    (coversLonger :
      longer.covered ((char :: tail ++ along) ++ left) =
        (char :: tail ++ along).length)
    (reacts :
      ∀ control before after code,
        Control.react control transition before after code = ([event], control))
    (reactsLonger :
      ∀ control before after code,
        Control.react control longer before after code = ([event], control))
    (ends :
      finalControl? dialect ⟨control, .between anchor done (char :: tail)⟩ = some .initial) :
    events dialect ⟨control, .between anchor done (char :: tail)⟩ = [event] ∧
      (events dialect
          ⟨control.extend (statementBreak ++ later),
            .between anchor done (char :: tail ++ (statementBreak ++ later))⟩).map
          Event.normalized =
        event.normalized ::
          eventsInCode dialect anchor (done ++ (char :: tail ++ along)) left := by
  obtain ⟨scanned, last⟩ :=
    @events_last dialect anchor control done char transition tail _ _ classified covers
      (reacts control)
  cases last.symm.trans ends
  have shape :
      char :: tail ++ (statementBreak ++ later) =
        (char :: tail ++ along) ++ left := by
    rw [splits, List.append_assoc]
  rw [shape] at classifiedLonger
  have scannedLonger :=
    @events_eq_react anchor .initial done left char dialect (char :: tail ++ along)
      longer (tail ++ (statementBreak ++ later)) shape classifiedLonger coversLonger
  simp only [reactsLonger] at scannedLonger
  refine ⟨scanned, ?_⟩
  rw [Control.extend_initial, shape, scannedLonger]
  rfl

/-- A line continuation takes the blank of a statement break along. -/
theorem breaksOff_of_continuation
    {tail : Text}
    (continues :
      dialect.classify control.lexicalState done.getLast? (char :: tail) =
        .continuation (char :: tail).length)
    (longer :
      dialect.classify control.lexicalState done.getLast?
          (char :: tail ++ (statementBreak ++ later)) =
        .continuation ((char :: tail).length + 1))
    (ends :
      finalControl? dialect ⟨control, .between anchor done (char :: tail)⟩ = some .initial) :
    BreaksOff
      (eventsInCode dialect anchor (done ++ char :: tail ++ statementBreak) later)
      ((events dialect ⟨control, .between anchor done (char :: tail)⟩).map Event.normalized)
      ((events dialect
          ⟨control.extend (statementBreak ++ later),
            .between anchor done (char :: tail ++ (statementBreak ++ later))⟩).map
        Event.normalized) := by
  obtain ⟨scanned, scannedLonger⟩ :=
    @events_of_last dialect anchor control done later char _ _ tail [' ']
      (';' :: '\n' :: later) .continuation rfl continues (by simp [Transition.covered]) longer
      (Transition.covered_of_length (by simp) (by simp [Transition.covered]))
      (fun _ _ _ _ => rfl) (fun _ _ _ _ => rfl) ends
  have behind :
      done ++ char :: tail ++ statementBreak =
        done ++ (char :: tail ++ [' ']) ++ [';'] ++ ['\n'] := by
    simp [statementBreak]
  rw [scanned, scannedLonger, behind, eventsInCode_semicolon]
  exact .cons .statement

/-- A line comment takes the blank and the semicolon of a statement break along. -/
theorem breaksOff_of_lineComment
    {tail : Text}
    (comments :
      dialect.classify control.lexicalState done.getLast? (char :: tail) = .lineComment)
    (longer :
      dialect.classify control.lexicalState done.getLast?
          (char :: tail ++ (statementBreak ++ later)) =
        .lineComment)
    (noBreak : '\n' ∉ char :: tail)
    (ends :
      finalControl? dialect ⟨control, .between anchor done (char :: tail)⟩ = some .initial) :
    BreaksOff
      (eventsInCode dialect anchor (done ++ char :: tail ++ statementBreak) later)
      ((events dialect ⟨control, .between anchor done (char :: tail)⟩).map Event.normalized)
      ((events dialect
          ⟨control.extend (statementBreak ++ later),
            .between anchor done (char :: tail ++ (statementBreak ++ later))⟩).map
        Event.normalized) := by
  have covers := @Transition.covered_lineComment (char :: tail) [] (by simp) noBreak (.inl rfl)
  rw [List.append_nil] at covers
  have noBreakLonger : '\n' ∉ char :: tail ++ [' ', ';'] := by
    simpa using noBreak
  obtain ⟨scanned, scannedLonger⟩ :=
    @events_of_last dialect anchor control done later char _ _ tail [' ', ';']
      ('\n' :: later) .lineComment rfl comments covers longer
      (Transition.covered_lineComment (by simp) noBreakLonger (.inr rfl))
      (fun _ _ _ _ => rfl) (fun _ _ _ _ => rfl) ends
  have behind :
      done ++ char :: tail ++ statementBreak =
        done ++ (char :: tail ++ [' ', ';']) ++ ['\n'] := by
    simp [statementBreak]
  rw [scanned, scannedLonger, behind, eventsInCode_feed]
  exact .comment

/-- A scan that ends in code breaks off with a statement break behind it. -/
theorem breaksOff
    (dialect : Dialect)
    (anchor : Position)
    (later : Text)
    (control : Control)
    (done rest : Text)
    (reaches : control.ReachesTo (anchor.offset + done.length + rest.length))
    (ends :
      finalControl? dialect ⟨control, .between anchor done rest⟩ = some .initial) :
    BreaksOff
      (eventsInCode dialect anchor (done ++ rest ++ statementBreak) later)
      ((events dialect ⟨control, .between anchor done rest⟩).map Event.normalized)
      ((events dialect
          ⟨control.extend (statementBreak ++ later),
            .between anchor done (rest ++ (statementBreak ++ later))⟩).map
        Event.normalized) := by
  obtain ⟨last, doneLast, restLast, shared, sharedLonger, path, parts⟩ :=
    @exists_sharesPath dialect anchor (statementBreak ++ later) rfl control done rest reaches
  rw [path.scanned, path.scannedLonger, List.map_append, List.map_append, path.same, ← path.whole]
  rw [path.final] at ends
  refine .append _ ?_
  cases restLast with
  | nil =>
      rw [finalControl?_between_nil] at ends
      cases ends
      have behind : doneLast ++ [] ++ statementBreak = doneLast ++ [' '] ++ [';'] ++ ['\n'] := by
        simp [statementBreak]
      have scanned := eventsInCode_break dialect anchor doneLast later
      rw [eventsInCode] at scanned
      rw [events_between_nil, Control.extend_initial, List.nil_append, scanned, behind]
      exact .blank
  | cons char tail =>
      rcases dialect.classify_append_break last.lexicalState doneLast.getLast?
          (List.cons_ne_nil char tail) ('\n' :: later) with same | ⟨continues, longer⟩
      · rcases dialect.covers_classify last.lexicalState doneLast.getLast? char tail with
            covers | ⟨comments, inCode, noBreak⟩ | ⟨escapes, inString, rfl⟩
        · exact absurd covers (parts (List.cons_ne_nil char tail) same)
        · exact breaksOff_of_lineComment comments (same.trans comments) noBreak ends
        · -- A block that ends with an escape ends in a string.
          have final :=
            @finalControl?_eq_react dialect anchor last doneLast [char] [] char _ [] rfl
              escapes rfl
          rw [List.singleton_append, ends, finalControl?_between_nil] at final
          cases Option.some.inj final
          cases inString
      · exact breaksOff_of_continuation continues longer ends

/-- Behind a character that is none of an identifier a scan goes on as at the start of a
block. -/
theorem events_of_noIdentifier
    {char : Char}
    (noIdentifier : Text.isIdentifierChar char = false)
    (dialect : Dialect)
    (control : Control)
    (position : Position)
    (rest : Text) :
    events dialect ⟨control, ⟨some char, rest, position⟩⟩ =
      events dialect ⟨control, ⟨none, rest, position⟩⟩ := by
  have same := dialect.classify_of_noIdentifier noIdentifier control.lexicalState rest
  cases rest with
  | nil =>
      rw [events, events]
  | cons first others =>
      have next :
          nextCursor dialect ⟨control, ⟨some char, first :: others, position⟩⟩ =
            nextCursor dialect ⟨control, ⟨none, first :: others, position⟩⟩ := by
        obtain ⟨count, covered⟩ := Nat.exists_eq_add_of_le'
          (one_le_covered (dialect.classify control.lexicalState none (first :: others))
            (first :: others))
        simp only [nextCursor, transition, same, covered, Cursor.skip, List.take_succ_cons]
        simp [List.getLast?_cons]
      have stepped :
          step dialect ⟨control, ⟨some char, first :: others, position⟩⟩ first =
            step dialect ⟨control, ⟨none, first :: others, position⟩⟩ first := by
        unfold step
        rw [next]
        simp only [transition, same]
        rfl
      conv => lhs; rw [events]
      conv => rhs; rw [events]
      simp only [stepped]

/-- Behind a line feed the events of a scan in code are those of a block of its own. -/
theorem events_behind_feed
    (dialect : Dialect)
    (anchor : Position)
    (done later : Text) :
    events dialect ⟨.initial, .between anchor (done ++ ['\n']) later⟩ =
      dialect.events (anchor.advanceOver (done ++ ['\n'])) later := by
  unfold Cursor.between
  rw [List.getLast?_concat]
  exact events_of_noIdentifier (by decide) dialect .initial _ later

theorem eventsInCode_statementBreak
    (dialect : Dialect)
    (anchor : Position)
    (done later : Text) :
    eventsInCode dialect anchor (done ++ statementBreak) later =
      (dialect.events (anchor.advanceOver (done ++ statementBreak)) later).map
        Event.normalized := by
  have shape : done ++ statementBreak = done ++ [' ', ';'] ++ ['\n'] := by
    simp [statementBreak]
  rw [eventsInCode, shape, events_behind_feed]

end Scan

/-- The events of a block that ends in code break off with a statement break, and behind it
the events are those of a block of its own. -/
theorem Dialect.breaksOff
    {dialect : Dialect}
    {anchor : Position}
    {block : Text}
    (ends : dialect.finalState? anchor block = some .code)
    (later : Text) :
    BreaksOff
      ((dialect.events (anchor.advanceOver (block ++ statementBreak)) later).map
        Event.normalized)
      ((dialect.events anchor block).map Event.normalized)
      ((dialect.events anchor (block ++ statementBreak ++ later)).map Event.normalized) := by
  have broken :=
    Scan.breaksOff dialect anchor later .initial [] block (.initial _)
      (Scan.finalControl?_of_finalState? ends)
  rw [Scan.eventsInCode_statementBreak, List.nil_append] at broken
  rw [List.append_assoc]
  exact broken

end LocalizationScan
