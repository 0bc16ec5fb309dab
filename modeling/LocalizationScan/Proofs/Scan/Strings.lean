import LocalizationScan.Proofs.Literal.Emitted
import LocalizationScan.Proofs.Scan.Trail

namespace LocalizationScan

/-!
# Where strings stand

While a scan is between the delimiters of a string it holds the string: the
string is the open token, or it waits for the end of a hole.  A string that is
reported as a literal has no holes and stands in none, so it is the open token
all the time.
-/

/-- A control between the delimiters of a string token. -/
inductive Control.Holds (control : Control) (token : StringToken) : Prop where
  | current
      {kind : StringKind}
      {opened : OpenToken}
      (mode : control.mode = .inString kind opened)
      (start : opened.start = token.span.start)
      (alone : token.emit = true → control.holes = [] ∧ kind.isInterpolated = false)
  | waiting
      {hole : Hole}
      (member : hole ∈ control.holes)
      (start : hole.token.start = token.span.start)
      (silent : token.emit = false)

/-- A control whose strings with holes are those of a dialect that has them. -/
structure Control.FitsDialect (dialect : Dialect) (control : Control) : Prop where
  current :
    ∀ kind token, control.mode = .inString kind token →
      kind.isInterpolated = true → ∃ marker, dialect = .csharp marker
  waiting :
    ∀ hole ∈ control.holes,
      hole.kind.isInterpolated = true ∧ ∃ marker, dialect = .csharp marker

theorem Control.initial_fitsDialect (dialect : Dialect) :
    Control.initial.FitsDialect dialect where
  current := fun _ _ mode => (nomatch mode)
  waiting := fun _ member => (nomatch member)

/-- Whether a string opens at a scan. -/
def Scan.OpensString (dialect : Dialect) (scan : Scan) : Prop :=
  ∃ kind length, scan.transition dialect = .openString kind length

/-- Whether a string token is opened by one of some scans and held by those between its
delimiters. -/
structure StringToken.StandsIn
    (dialect : Dialect)
    (visited : List Scan)
    (token : StringToken) :
    Prop where
  opened :
    ∃ scan ∈ visited, scan.cursor.position = token.span.start ∧ scan.OpensString dialect
  held :
    ∀ scan ∈ visited,
      token.span.start.offset < scan.offset → scan.offset < token.span.stop.offset →
        scan.control.Holds token

section Closing

variable {quote : Char} {emit reported : Bool} {rest : Text} {length : Nat}

theorem CSharp.eq_of_classifyLineString_closeString
    (closes : classifyLineString quote emit rest = .closeString length reported) :
    reported = emit := by
  revert closes
  fun_cases classifyLineString quote emit rest with
  | case7 =>
      simp_all
  | _ =>
      intro closes
      cases closes

theorem CSharp.eq_of_classifyVerbatim_closeString
    (closes : classifyVerbatim emit rest = .closeString length reported) :
    reported = emit := by
  revert closes
  fun_cases classifyVerbatim emit rest with
  | case2 =>
      intro closes
      cases closes
      rfl
  | _ =>
      intro closes
      cases closes

theorem CSharp.eq_closeString_of_getD
    {plain : Transition}
    (closes : (classifyBrace? rest).getD plain = .closeString length reported) :
    plain = .closeString length reported := by
  revert closes
  fun_cases classifyBrace? rest with
  | case4 =>
      exact id
  | _ =>
      intro closes
      cases closes

/-- Strings with holes are not reported. -/
theorem CSharp.isInterpolated_of_closeString
    {kind : StringKind}
    (closes : classifyString kind rest = .closeString length true) :
    kind.isInterpolated = false := by
  cases kind with
  | regular | verbatim | char =>
      rfl
  | interpolated =>
      cases eq_of_classifyLineString_closeString (eq_closeString_of_getD closes)
  | interpolatedVerbatim =>
      cases eq_of_classifyVerbatim_closeString (eq_closeString_of_getD closes)

end Closing

section Moves

variable {dialect : Dialect} {anchor : Position} {control next : Control}
  {done piece later : Text} {before : Option Char} {position : Position}
  {events : List Event} {token : StringToken}

/-- Visual Basic has one form of strings, which opens with a quote. -/
theorem VisualBasic.opening_of_openString
    {kind : StringKind}
    {rest : Text}
    {length : Nat}
    {holes : List Hole}
    (opens :
      Dialect.visualBasic.classify (Control.lexicalState ⟨.resting, holes⟩) before rest =
        .openString kind length) :
    kind = .regular ∧ rest.take length = ['"'] := by
  have inCode : classifyCode before rest = .openString kind length := by
    cases holes <;> exact opens
  cases rest with
  | nil =>
      cases inCode
  | cons first others =>
      rcases classifyCode_cases before first others with
          same | ⟨same, -⟩ | ⟨rfl, same⟩ | ⟨_, _, -, -, same⟩
      all_goals
        rw [same] at inCode
        cases inCode
      exact ⟨rfl, rfl⟩

theorem Control.FitsDialect.move
    (fits : control.FitsDialect dialect)
    (move : Move dialect before position piece later control events next) :
    next.FitsDialect dialect := by
  cases move with
  | code | lineComment | continuation | openComment | closeString | abandon | commentText
  | closeComment =>
      exact ⟨fun _ _ mode => (nomatch mode), fits.waiting⟩
  | openBrace | closeBrace =>
      obtain ⟨here, outer⟩ := List.forall_mem_cons.mp fits.waiting
      exact ⟨fun _ _ mode => (nomatch mode), List.forall_mem_cons.mpr ⟨here, outer⟩⟩
  | stringText =>
      exact fits
  | openString classified =>
      refine ⟨?_, fits.waiting⟩
      intro _ _ mode interpolated
      cases mode
      cases dialect with
      | csharp marker =>
          exact ⟨marker, rfl⟩
      | visualBasic =>
          rw [(VisualBasic.opening_of_openString classified).1] at interpolated
          cases interpolated
  | closeHole =>
      obtain ⟨⟨-, csharp⟩, outer⟩ := List.forall_mem_cons.mp fits.waiting
      refine ⟨?_, outer⟩
      intro _ _ mode _
      cases mode
      exact csharp
  | @openHole marker _ _ _ _ csharp interpolated =>
      refine ⟨fun _ _ mode => (nomatch mode), ?_⟩
      exact List.forall_mem_cons.mpr ⟨⟨interpolated, marker, csharp⟩, fits.waiting⟩

/-- A token that is held behind a move is held before it, or the move opens it. -/
theorem Control.FitsDialect.holds_or_opens
    (fits : control.FitsDialect dialect)
    (move :
      Move dialect done.getLast? (anchor.advanceOver done) piece later control events next)
    (held : next.Holds token) :
    control.Holds token ∨
      anchor.advanceOver done = token.span.start ∧
        Scan.OpensString dialect ⟨control, .between anchor done (piece ++ later)⟩ := by
  cases move with
  | code | lineComment | continuation | openComment | closeString | abandon | commentText
  | closeComment =>
      cases held with
      | current mode => cases mode
      | waiting member start silent => exact .inl (.waiting member start silent)
  | openString classified =>
      cases held with
      | current mode start =>
          cases mode
          exact .inr ⟨start, _, _, classified⟩
      | waiting member start silent => exact .inl (.waiting member start silent)
  | openBrace | closeBrace =>
      cases held with
      | current mode => cases mode
      | waiting member start silent =>
          rcases List.mem_cons.mp member with rfl | outer
          · exact .inl (.waiting List.mem_cons_self start silent)
          · exact .inl (.waiting (List.mem_cons_of_mem _ outer) start silent)
  | @closeHole _ _ hole =>
      cases held with
      | current mode start alone =>
          cases mode
          -- The string that goes on behind its hole has holes, so it is not reported.
          have silent : token.emit = false := by
            rw [← Bool.not_eq_true]
            intro reported
            have interpolated := (fits.waiting hole List.mem_cons_self).1
            rw [(alone reported).2] at interpolated
            cases interpolated
          exact .inl (.waiting List.mem_cons_self start silent)
      | waiting member start silent =>
          exact .inl (.waiting (List.mem_cons_of_mem _ member) start silent)
  | stringText =>
      exact .inl held
  | openHole =>
      cases held with
      | current mode => cases mode
      | waiting member start silent =>
          rcases List.mem_cons.mp member with rfl | outer
          · refine .inl (.current rfl start ?_)
            intro reported
            rw [silent] at reported
            cases reported
          · exact .inl (.waiting outer start silent)

/-- A string that a move closes is held before the move and ends where the move ends. -/
theorem Control.FitsDialect.holds_closed
    (fits : control.FitsDialect dialect)
    (move :
      Move dialect done.getLast? (anchor.advanceOver done) piece later control events next)
    (closed : .stringClosed token ∈ events) :
    control.Holds token ∧
      token.span.stop = anchor.advanceOver (done ++ piece) ∧
      (token.emit = true → next = .initial) := by
  cases move with
  | @closeString kind _ emit _ _ holes classified =>
      cases List.mem_singleton.mp closed
      have reportedAlone :
          (emit && holes.isEmpty) = true → holes = [] ∧ kind.isInterpolated = false := by
        intro reported
        obtain ⟨emits, alone⟩ := Bool.and_eq_true_iff.mp reported
        refine ⟨List.isEmpty_iff.mp alone, ?_⟩
        subst emits
        cases dialect with
        | csharp marker =>
            exact CSharp.isInterpolated_of_closeString classified
        | visualBasic =>
            rw [← Bool.not_eq_true]
            intro interpolated
            obtain ⟨marker, csharp⟩ := fits.current _ _ rfl interpolated
            cases csharp
      refine ⟨.current rfl rfl reportedAlone, (Position.advanceOver_append ..).symm, ?_⟩
      intro reported
      rw [(reportedAlone reported).1]
      rfl
  | _ =>
      simp at closed

/-- A move reports one token as a literal at the most. -/
theorem Move.emittedTokens_cases
    (move : Move dialect before position piece later control events next) :
    emittedTokens events = [] ∨
      ∃ token,
        emittedTokens events = [token] ∧ .stringClosed token ∈ events ∧ token.emit = true := by
  cases move with
  | @closeString kind token emit _ _ holes =>
      by_cases reported : (emit && holes.isEmpty) = true
      · refine .inr ⟨_, ?_, List.mem_cons_self, reported⟩
        simp [emittedTokens, Event.emitted?, Control.closeToken, reported]
      · refine .inl ?_
        simp [emittedTokens, Event.emitted?, Control.closeToken, reported]
  | _ =>
      exact .inl rfl

theorem mem_emittedTokens_iff :
    token ∈ emittedTokens events ↔ .stringClosed token ∈ events ∧ token.emit = true := by
  constructor
  · intro member
    obtain ⟨event, memberEvent, emits⟩ := List.mem_filterMap.mp member
    cases event with
    | stringClosed other =>
        obtain ⟨reported, same⟩ := Option.ite_none_right_eq_some.mp emits
        cases same
        exact ⟨memberEvent, reported⟩
    | _ =>
        cases emits
  · rintro ⟨closed, reported⟩
    exact List.mem_filterMap.mpr ⟨_, closed, by simp [Event.emitted?, reported]⟩

end Moves

namespace Trail

variable {dialect : Dialect} {anchor : Position} {control : Control} {done rest : Text}
  {events : List Event} {visited : List Scan} {token : StringToken}

/-- A token that is closed on a trail is held from its start, or opened and held from there,
up to its end. -/
theorem holds_or_standsIn
    (trail : Trail dialect anchor control done rest events visited)
    (fits : control.FitsDialect dialect)
    (closed : .stringClosed token ∈ events) :
    (control.Holds token ∧
        ∀ scan ∈ visited, scan.offset < token.span.stop.offset → scan.control.Holds token) ∨
      token.StandsIn dialect visited := by
  induction trail with
  | finished =>
      cases closed
  | @move control next done piece later events laterEvents visited nonempty here behind
      inductionHypothesis =>
      have further := behind.offset_le
      have longer : anchor.offset + done.length < anchor.offset + (done ++ piece).length :=
        Nat.add_lt_add_left (Text.length_lt_append done nonempty) _
      rcases List.mem_append.mp closed with closedHere | closedLater
      · obtain ⟨held, stop, -⟩ := fits.holds_closed here closedHere
        refine .inl ⟨held, List.forall_mem_cons.mpr ⟨fun _ => held, ?_⟩⟩
        intro scan member inside
        rw [stop, Position.offset_advanceOver] at inside
        exact absurd (further scan member) (Nat.not_le.mpr inside)
      · rcases inductionHypothesis (fits.move here) closedLater with
            ⟨held, heldUpTo⟩ | ⟨⟨opening, member, position, opens⟩, held⟩
        · rcases fits.holds_or_opens here held with heldHere | ⟨start, opens⟩
          · exact .inl ⟨heldHere, List.forall_mem_cons.mpr ⟨fun _ => heldHere, heldUpTo⟩⟩
          · refine .inr ⟨⟨_, List.mem_cons_self, start, opens⟩, ?_⟩
            refine List.forall_mem_cons.mpr ⟨?_, fun scan member _ => heldUpTo scan member⟩
            intro inside
            rw [← start] at inside
            exact absurd inside (Nat.lt_irrefl _)
        · refine .inr ⟨⟨opening, List.mem_cons_of_mem _ member, position, opens⟩, ?_⟩
          refine List.forall_mem_cons.mpr ⟨?_, held⟩
          intro inside
          have beyond := further opening member
          rw [Scan.offset_between, ← position] at inside
          exact absurd (Nat.lt_of_lt_of_le longer beyond) (Nat.lt_asymm inside)

/-- A token that is reported ends before the next one starts. -/
theorem pairwise_emittedTokens
    (trail : Trail dialect anchor control done rest events visited)
    (fits : control.FitsDialect dialect) :
    (emittedTokens events).Pairwise fun token other =>
      token.span.stop.offset ≤ other.span.start.offset := by
  induction trail with
  | finished =>
      exact List.Pairwise.nil
  | move _ here behind inductionHypothesis =>
      have later := inductionHypothesis (fits.move here)
      rw [emittedTokens_append]
      rcases here.emittedTokens_cases with nothing | ⟨token, single, closed, reported⟩
      · rw [nothing]
        exact later
      · rw [single]
        refine List.pairwise_cons.mpr ⟨?_, later⟩
        intro other member
        obtain ⟨-, stop, finishes⟩ := fits.holds_closed here closed
        have closedLater := (mem_emittedTokens_iff.mp member).1
        -- Behind the token nothing is open, so the next one is opened further on.
        rcases behind.holds_or_standsIn (fits.move here) closedLater with
            ⟨held, -⟩ | ⟨⟨opening, memberOpening, position, -⟩, -⟩
        · rw [finishes reported] at held
          cases held with
          | current mode => cases mode
          | waiting member => cases member
        · rw [stop, Position.offset_advanceOver, ← position]
          exact behind.offset_le opening memberOpening

end Trail

end LocalizationScan
