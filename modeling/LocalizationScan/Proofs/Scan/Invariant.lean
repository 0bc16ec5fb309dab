import LocalizationScan.Proofs.Scan.Trail

namespace LocalizationScan

/-!
# Invariants of a scan

Every step of a scan is a move over the piece that its transition covers.  What
these moves keep holds all along a scan and at its end, so whatever they yield
where it holds is all that the scan yields.
-/

/-- Whether the moves of a scan keep an invariant, on what is open, what is done and what is
left, and yield events with a property where it holds. -/
def Scan.Keeps
    (dialect : Dialect)
    (anchor : Position)
    (invariant : Control → Text → Text → Prop)
    (property : Event → Prop) :
    Prop :=
  ∀ control done piece later events next,
    piece ≠ [] →
    (dialect.classify control.lexicalState done.getLast? (piece ++ later)).covered
        (piece ++ later) =
      piece.length →
    Move dialect done.getLast? (anchor.advanceOver done) piece later control events next →
    invariant control done (piece ++ later) →
      invariant next (done ++ piece) later ∧ ∀ event ∈ events, property event

namespace Scan

variable {dialect : Dialect} {anchor : Position} {invariant : Control → Text → Text → Prop}
  {property : Event → Prop}

/-- A step is a move over the piece that its transition covers. -/
theorem exists_move_covered
    (dialect : Dialect)
    (anchor : Position)
    (control : Control)
    (done : Text)
    (char : Char)
    (tail : Text) :
    ∃ piece later events next,
      char :: tail = piece ++ later ∧ piece ≠ [] ∧
        (dialect.classify control.lexicalState done.getLast? (piece ++ later)).covered
            (piece ++ later) =
          piece.length ∧
        Move dialect done.getLast? (anchor.advanceOver done) piece later control events next ∧
        step dialect ⟨control, .between anchor done (char :: tail)⟩ char =
          (events, ⟨next, .between anchor (done ++ piece) later⟩) := by
  obtain ⟨piece, later, events, next, shape, nonempty, move, stepped⟩ :=
    advances dialect anchor control done char tail
  refine ⟨piece, later, events, next, shape, nonempty, ?_, move, stepped⟩
  -- The cursor is behind the transition, and it is behind the piece.
  have left :
      (char :: tail).drop
          ((dialect.classify control.lexicalState done.getLast? (char :: tail)).covered
            (char :: tail)) =
        later :=
    congrArg (fun result => result.2.cursor.rest) stepped
  have inside :=
    covered_le (dialect.classify control.lexicalState done.getLast? (char :: tail))
      (List.cons_ne_nil char tail)
  have lengths := congrArg List.length left
  rw [List.length_drop] at lengths
  rw [shape, List.length_append] at lengths inside
  omega

/-- Where an invariant holds that every move keeps, a scan yields what the moves yield. -/
theorem forall_mem_events
    (keeps : Keeps dialect anchor invariant property)
    (control : Control)
    (done rest : Text)
    (holds : invariant control done rest) :
    ∀ event ∈ events dialect ⟨control, .between anchor done rest⟩, property event := by
  cases rest with
  | nil =>
      rw [events_between_nil]
      exact List.forall_mem_nil _
  | cons char tail =>
      obtain ⟨piece, later, produced, next, shape, nonempty, covers, move, stepped⟩ :=
        exists_move_covered dialect anchor control done char tail
      have shorter := Text.length_lt_of_eq_append shape nonempty
      rw [shape] at holds
      obtain ⟨holdsNext, here⟩ :=
        keeps control done piece later produced next nonempty covers move holds
      rw [events_between_cons, stepped]
      exact List.forall_mem_append.mpr
        ⟨here, forall_mem_events keeps next (done ++ piece) later holdsNext⟩
termination_by rest.length

/-- An invariant that every move keeps holds at every scan on the way, of what is done there and
what is left. -/
theorem exists_done_of_mem_visited
    (keeps : Keeps dialect anchor invariant property)
    (control : Control)
    (done rest : Text)
    (holds : invariant control done rest)
    {scan : Scan}
    (passed : scan ∈ visited dialect ⟨control, .between anchor done rest⟩) :
    ∃ front,
      done ++ rest = front ++ scan.cursor.rest ∧
        scan.cursor = .between anchor front scan.cursor.rest ∧
        invariant scan.control front scan.cursor.rest := by
  cases rest with
  | nil =>
      rw [visited_between_nil] at passed
      cases List.mem_singleton.mp passed
      exact ⟨done, rfl, rfl, holds⟩
  | cons char tail =>
      obtain ⟨piece, later, produced, next, shape, nonempty, covers, move, stepped⟩ :=
        exists_move_covered dialect anchor control done char tail
      have shorter := Text.length_lt_of_eq_append shape nonempty
      rw [visited_between_cons, stepped] at passed
      rcases List.mem_cons.mp passed with rfl | behind
      · exact ⟨done, rfl, rfl, holds⟩
      · rw [shape] at holds
        obtain ⟨holdsNext, -⟩ :=
          keeps control done piece later produced next nonempty covers move holds
        rw [shape, ← List.append_assoc]
        exact exists_done_of_mem_visited keeps next (done ++ piece) later holdsNext behind
termination_by rest.length

/-- An invariant that every move keeps holds where the scan ends. -/
theorem exists_finalControl?
    (keeps : Keeps dialect anchor invariant property)
    (control : Control)
    (done rest : Text)
    (holds : invariant control done rest) :
    ∃ final,
      finalControl? dialect ⟨control, .between anchor done rest⟩ = some final ∧
        invariant final (done ++ rest) [] := by
  cases rest with
  | nil =>
      exact ⟨control, finalControl?_between_nil dialect anchor control done, by simpa using holds⟩
  | cons char tail =>
      obtain ⟨piece, later, produced, next, shape, nonempty, covers, move, stepped⟩ :=
        exists_move_covered dialect anchor control done char tail
      have shorter := Text.length_lt_of_eq_append shape nonempty
      rw [shape] at holds
      obtain ⟨holdsNext, -⟩ :=
        keeps control done piece later produced next nonempty covers move holds
      rw [finalControl?_between_cons, stepped, shape, ← List.append_assoc]
      exact exists_finalControl? keeps next (done ++ piece) later holdsNext
termination_by rest.length

end Scan

end LocalizationScan
