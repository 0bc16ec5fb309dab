import LocalizationScan.Proofs.Lexical.LongerText
import LocalizationScan.Proofs.Lexical.StringForms
import LocalizationScan.Proofs.Scan.SharedPath

namespace LocalizationScan

/-!
# Scans with more text behind

A scan of a text and a scan of the text with more behind it go the same way
until the transition at hand depends on what follows the text.  From there on
the scan of the text alone completes no item before the end of the text: its
last transition takes all that is left, or what is left opens and closes
nothing.
-/

/-- An event that completes no literal, and in C# no reference, before an offset. -/
def Event.IsLate (dialect : Dialect) (stop : Nat) : Event → Prop
  | .stringClosed token => token.emit = true → stop ≤ token.span.stop.offset
  | .code char position _ =>
      ∀ marker, dialect = .csharp marker → Text.isIdentifierChar char = true →
        stop ≤ (position.advance char).offset
  | _ => True

/-- Events that are the same, save for what they tell about the next character, until the
first ones are late. -/
def AgreeUntilLate (dialect : Dialect) (stop : Nat) (events whole : List Event) : Prop :=
  ∃ shared sharedLonger last others,
    events = shared ++ last ∧
      whole = sharedLonger ++ others ∧
      sharedLonger.map Event.normalized = shared.map Event.normalized ∧
      ∀ event ∈ last, event.IsLate dialect stop

section Agreement

variable {dialect : Dialect} {stop : Nat} {events whole : List Event}

theorem AgreeUntilLate.of_late
    (late : ∀ event ∈ events, event.IsLate dialect stop)
    (whole : List Event) :
    AgreeUntilLate dialect stop events whole :=
  ⟨[], [], events, whole, rfl, rfl, rfl, late⟩

theorem AgreeUntilLate.append
    {front frontLonger : List Event}
    (same : frontLonger.map Event.normalized = front.map Event.normalized)
    (agree : AgreeUntilLate dialect stop events whole) :
    AgreeUntilLate dialect stop (front ++ events) (frontLonger ++ whole) := by
  obtain ⟨shared, sharedLonger, last, others, rfl, rfl, sameShared, late⟩ := agree
  exact ⟨front ++ shared, frontLonger ++ sharedLonger, last, others, by simp, by simp,
    by simp [same, sameShared], late⟩

end Agreement

/-- A string that is reported ends with a quote. -/
theorem Dialect.quote_mem_of_closeString
    {kind : StringKind}
    {before : Option Char}
    {rest : Text}
    {length : Nat}
    (dialect : Dialect)
    (closes : dialect.classify (.string kind) before rest = .closeString length true) :
    '"' ∈ rest := by
  cases rest with
  | nil =>
      rw [classify_nil] at closes
      cases closes
  | cons char later =>
      have isQuote : char = '"' := by
        cases dialect with
        | csharp marker =>
            rcases reports_of_closeString closes with rfl | rfl
            · exact (CSharp.eq_quote_of_closeString closes).1
            · exact (CSharp.endsBefore_of_closeString closes).1
        | visualBasic =>
            exact (@VisualBasic.endsBefore_of_closeString char later length kind closes).1
      exact isQuote ▸ List.mem_cons_self

section Moves

variable {dialect : Dialect} {anchor : Position} {control next : Control}
  {done piece later rest : Text} {events : List Event}

/-- A character of code that is none of an identifier completes no reference. -/
theorem Event.isLate_code
    {char : Char}
    {position : Position}
    {following : Option Char}
    {stop : Nat}
    (completes :
      ∀ marker, dialect = .csharp marker →
        Text.isIdentifierChar char = false ∨ stop ≤ (position.advance char).offset) :
    (code char position following).IsLate dialect stop := by
  intro marker csharp isIdentifier
  refine (completes marker csharp).resolve_left ?_
  simp [isIdentifier]

/-- A move to the end of the block completes an item there at the earliest. -/
theorem Move.isLate_of_last
    (move :
      Move dialect done.getLast? (anchor.advanceOver done) piece [] control events next) :
    ∀ event ∈ events, event.IsLate dialect (anchor.offset + (done ++ piece).length) := by
  cases move with
  | code | openBrace | closeBrace =>
      refine List.forall_mem_singleton.mpr (Event.isLate_code fun _ _ => .inr ?_)
      simp [Nat.add_assoc]
  | abandon =>
      refine List.forall_mem_cons.mpr ⟨trivial, List.forall_mem_singleton.mpr ?_⟩
      refine Event.isLate_code fun _ _ => .inr ?_
      simp [Nat.add_assoc]
  | closeString =>
      refine List.forall_mem_singleton.mpr fun _ => ?_
      simp [Control.closeToken, Nat.add_assoc]
  | stringText | openHole | commentText =>
      exact List.forall_mem_nil _
  | lineComment | openString | openComment | continuation | closeHole | closeComment =>
      exact List.forall_mem_singleton.mpr trivial

/-- A move over a quiet text completes no item. -/
theorem Move.isLate_of_isQuiet
    (move :
      Move dialect done.getLast? (anchor.advanceOver done) piece later control events next)
    (quiet : dialect.IsQuiet (piece ++ later))
    (stop : Nat) :
    ∀ event ∈ events, event.IsLate dialect stop := by
  cases move with
  | code | openBrace | closeBrace =>
      exact List.forall_mem_singleton.mpr (Event.isLate_code fun marker csharp =>
        .inl (quiet.2 marker csharp _ List.mem_cons_self))
  | abandon =>
      refine List.forall_mem_cons.mpr ⟨trivial, List.forall_mem_singleton.mpr ?_⟩
      exact Event.isLate_code fun marker csharp =>
        .inl (quiet.2 marker csharp _ List.mem_cons_self)
  | @closeString _ _ emit _ _ holes classified =>
      refine List.forall_mem_singleton.mpr fun reported => ?_
      have emits : emit = true := (Bool.and_eq_true_iff.mp reported).1
      rw [emits] at classified
      exact absurd (dialect.quote_mem_of_closeString classified) quiet.1
  | stringText | openHole | commentText =>
      exact List.forall_mem_nil _
  | lineComment | openString | openComment | continuation | closeHole | closeComment =>
      exact List.forall_mem_singleton.mpr trivial

theorem Dialect.IsQuiet.append_right
    (quiet : dialect.IsQuiet (piece ++ later)) :
    dialect.IsQuiet later :=
  ⟨fun member => quiet.1 (List.mem_append_right _ member),
    fun marker csharp char member => quiet.2 marker csharp char (List.mem_append_right _ member)⟩

/-- A run over a quiet text completes no item. -/
theorem Run.isLate_of_isQuiet
    (run : Run dialect anchor control done rest events)
    (quiet : dialect.IsQuiet rest)
    (stop : Nat) :
    ∀ event ∈ events, event.IsLate dialect stop := by
  induction run with
  | finished =>
      exact List.forall_mem_nil _
  | move _ here _ inductionHypothesis =>
      intro event member
      rcases List.mem_append.mp member with memberHere | memberLater
      · exact here.isLate_of_isQuiet quiet stop event memberHere
      · exact inductionHypothesis quiet.append_right event memberLater

end Moves

namespace Scan

variable {dialect : Dialect} {anchor : Position} {control : Control} {done rest : Text}

/-- A scan whose transition takes all that is left completes an item at the end of the block
at the earliest. -/
theorem isLate_of_covered
    (covered :
      (dialect.classify control.lexicalState done.getLast? rest).covered rest = rest.length) :
    ∀ event ∈ events dialect ⟨control, .between anchor done rest⟩,
      event.IsLate dialect (anchor.offset + done.length + rest.length) := by
  cases rest with
  | nil =>
      rw [events_between_nil]
      exact List.forall_mem_nil _
  | cons char tail =>
      obtain ⟨piece, later, produced, next, shape, -, move, stepped⟩ :=
        advances dialect anchor control done char tail
      -- The cursor is behind the transition, so nothing is left there.
      have left : (char :: tail).drop (char :: tail).length = later := by
        rw [← covered]
        exact congrArg (fun result => result.2.cursor.rest) stepped
      rw [List.drop_length] at left
      subst left
      rw [events_between_cons, stepped, events_between_nil, List.append_nil, shape,
        List.append_nil, Nat.add_assoc, ← List.length_append]
      exact move.isLate_of_last

/-- A scan with more text behind the block agrees with the scan of the block until this one
completes no more items before its end. -/
theorem agreeUntilLate
    (dialect : Dialect)
    (anchor : Position)
    (more : Text)
    (control : Control)
    (done rest : Text)
    (reaches : control.ReachesTo (anchor.offset + done.length + rest.length)) :
    AgreeUntilLate dialect (anchor.offset + done.length + rest.length)
      (events dialect ⟨control, .between anchor done rest⟩)
      (events dialect ⟨control.extend more, .between anchor done (rest ++ more)⟩) := by
  cases rest with
  | nil =>
      rw [events_between_nil]
      exact .of_late (List.forall_mem_nil _) _
  | cons char tail =>
      by_cases covered :
          (dialect.classify control.lexicalState done.getLast? (char :: tail)).covered
              (char :: tail) =
            (char :: tail).length
      · exact .of_late (isLate_of_covered covered) _
      · rcases dialect.classify_append control.lexicalState done.getLast?
            (List.cons_ne_nil char tail) more with same | whole | quiet
        · rcases dialect.covers_classify control.lexicalState done.getLast? char tail with
              ⟨piece, behind, shape, nonempty, covers⟩ | ⟨comments, -, noBreak⟩ |
                ⟨-, -, rfl⟩
          · cases behind with
            | nil =>
                refine absurd ?_ covered
                simpa [shape] using covers []
            | cons following others =>
                obtain ⟨next, produced, producedLonger, nextReaches, sameEvents, -, scanned,
                    scannedLonger⟩ :=
                  @exists_step_extend dialect anchor control done piece (following :: others)
                    char _ tail more reaches shape rfl rfl same covers
                have shorter := Text.length_lt_of_eq_append shape nonempty
                have agreeBehind :=
                  agreeUntilLate dialect anchor more next (done ++ piece)
                    (following :: others) nextReaches
                have stop :
                    anchor.offset + (done ++ piece).length + (following :: others).length =
                      anchor.offset + done.length + (char :: tail).length := by
                  rw [shape, List.length_append, List.length_append]
                  omega
                rw [stop] at agreeBehind
                rw [scanned, scannedLonger]
                exact agreeBehind.append sameEvents
          · refine absurd ?_ covered
            rw [comments]
            simpa using
              @Transition.covered_lineComment (char :: tail) [] (by simp) noBreak (.inl rfl)
          · exact absurd (Transition.covered_singleton _ char) covered
        · exact absurd whole covered
        · exact .of_late ((run_events dialect anchor control done _).isLate_of_isQuiet quiet _) _
termination_by rest.length

end Scan

/-- The events of a text and those of the text with more behind it. -/
theorem Dialect.agreeUntilLate
    (dialect : Dialect)
    (anchor : Position)
    (block more : Text) :
    AgreeUntilLate dialect (anchor.offset + block.length)
      (dialect.events anchor block) (dialect.events anchor (block ++ more)) := by
  have agree :=
    Scan.agreeUntilLate dialect anchor more .initial [] block (.initial _)
  rw [List.length_nil, Nat.add_zero] at agree
  exact agree

end LocalizationScan
