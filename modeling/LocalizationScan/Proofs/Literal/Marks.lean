import LocalizationScan.Proofs.Literal.Emitted
import LocalizationScan.Proofs.Scan.Extension

namespace LocalizationScan

/-!
# Marks of literals

A marker comment waits for the literal that it marks.  Some events end the
waiting, the others leave the marker pending; without a marker comment nothing
is ever pending.
-/

/-- Whether an event leaves a pending marker pending. -/
def Event.KeepsMark : Event → Prop
  | .code char _ _ => Text.isBlank char = true
  | .commentOpened | .continuation | .holeClosed | .stringClosed _ | .stringAbandoned => True
  | .stringOpened _ _ | .lineComment | .commentClosed _ => False

namespace MarkerState

variable {marker? : Option Text} {state : MarkerState} {event : Event} {events : List Event}

/-- A marker is pending behind its comment, and it was pending before what keeps it so. -/
theorem pending_next_iff :
    (state.next marker? event).pending = true ↔
      (∃ marker, marker? = some marker ∧ event = .commentClosed marker) ∨
        state.pending = true ∧ event.KeepsMark := by
  cases event with
  | code char position next =>
      by_cases isBlank : Text.isBlank char = true <;>
        simp [MarkerState.next, Event.KeepsMark, isBlank]
  | commentClosed text =>
      simp [MarkerState.next, Event.KeepsMark]
  | _ =>
      simp [MarkerState.next, Event.KeepsMark]

/-- Nothing is pending behind other events than the end of the marker comment. -/
theorem next_initial
    (other : ∀ marker, marker? = some marker → event ≠ .commentClosed marker) :
    initial.next marker? event = initial := by
  cases event with
  | code =>
      simp [MarkerState.next, initial]
  | commentClosed text =>
      have noMarker : marker? ≠ some text := fun same => other text same rfl
      simp [MarkerState.next, initial, noMarker]
  | _ =>
      rfl

theorem foldl_next_initial
    (other : ∀ marker, marker? = some marker → .commentClosed marker ∉ events) :
    events.foldl (next marker?) initial = initial := by
  induction events with
  | nil =>
      rfl
  | cons event events inductionHypothesis =>
      have stays : initial.next marker? event = initial :=
        next_initial fun marker isMarker same =>
          other marker isMarker (same ▸ List.mem_cons_self)
      rw [List.foldl_cons, stays]
      exact inductionHypothesis fun marker isMarker closed =>
        other marker isMarker (List.mem_cons_of_mem _ closed)

/-- Behind events without the end of a comment a marker is pending when it was so before and
all of them keep it so. -/
theorem pending_foldl_of_notMem
    (noComment : ∀ text, .commentClosed text ∉ events) :
    (events.foldl (next marker?) state).pending = true ↔
      state.pending = true ∧ ∀ event ∈ events, event.KeepsMark := by
  induction events generalizing state with
  | nil =>
      simp
  | cons event events inductionHypothesis =>
      have notHere : ¬∃ marker, marker? = some marker ∧ event = .commentClosed marker := by
        rintro ⟨marker, -, rfl⟩
        exact noComment marker List.mem_cons_self
      have notLater : ∀ text, .commentClosed text ∉ events :=
        fun text member => noComment text (List.mem_cons_of_mem _ member)
      rw [List.foldl_cons, inductionHypothesis notLater, pending_next_iff, List.forall_mem_cons,
        or_iff_right notHere, and_assoc]

/-- Where the end of a comment comes alone, a marker is pending behind some events when they
are its end, or when it was pending before and they keep it so. -/
theorem pending_foldl_iff
    {marker : Text}
    (alone : ∀ text, .commentClosed text ∈ events → events = [.commentClosed text]) :
    (events.foldl (next (some marker)) state).pending = true ↔
      events = [.commentClosed marker] ∨
        state.pending = true ∧ ∀ event ∈ events, event.KeepsMark := by
  by_cases closed : ∃ text, .commentClosed text ∈ events
  · obtain ⟨text, member⟩ := closed
    rw [alone text member, List.foldl_cons, List.foldl_nil, pending_next_iff]
    simp [Event.KeepsMark]
  · have noComment : ∀ text, .commentClosed text ∉ events := not_exists.mp closed
    rw [pending_foldl_of_notMem noComment, or_iff_right]
    rintro rfl
    exact noComment marker List.mem_cons_self

end MarkerState

section Literals

variable {dialect : Dialect} {flags : ItemFlags} {state : MarkerState} {events later : List Event}

/-- Literals are found event by event. -/
theorem literalsOfEvents_append
    (state : MarkerState)
    (events later : List Event) :
    literalsOfEvents dialect flags state (events ++ later) =
      literalsOfEvents dialect flags state events ++
        literalsOfEvents dialect flags (events.foldl (MarkerState.next dialect.marker?) state)
          later := by
  induction events generalizing state with
  | nil =>
      rfl
  | cons event events inductionHypothesis =>
      simp [literalsOfEvents, inductionHypothesis]

/-- What an event tells about the next character does not matter to literals. -/
theorem literalsOfEvents_normalized
    (dialect : Dialect)
    (flags : ItemFlags)
    (state : MarkerState)
    (events : List Event) :
    literalsOfEvents dialect flags state (events.map Event.normalized) =
      literalsOfEvents dialect flags state events := by
  induction events generalizing state with
  | nil =>
      rfl
  | cons event rest inductionHypothesis =>
      rw [List.map_cons, literalsOfEvents, literalsOfEvents, inductionHypothesis]
      cases event <;> rfl

/-- White space is no literal, and what was pending before it is so behind it. -/
theorem literalsOfEvents_blanks
    (blanks :
      ∀ event ∈ events,
        ∃ char position next, event = .code char position next ∧ Text.isBlank char = true) :
    literalsOfEvents dialect flags state (events ++ later) =
      literalsOfEvents dialect flags state later := by
  induction events with
  | nil =>
      rfl
  | cons event events inductionHypothesis =>
      obtain ⟨⟨char, position, next, rfl, isBlank⟩, others⟩ := List.forall_mem_cons.mp blanks
      rw [List.cons_append, literalsOfEvents]
      simpa [Event.literal?, MarkerState.next, isBlank] using inductionHypothesis others

/-- Without a marker comment no literal is marked. -/
theorem unmarked_of_mem_literalsOfEvents
    (noMarker : ∀ marker, dialect.marker? = some marker → .commentClosed marker ∉ events)
    {literal : Literal}
    (member : literal ∈ literalsOfEvents dialect flags .initial events) :
    literal.flags.markedUnlocalizable = false := by
  induction events with
  | nil =>
      cases member
  | cons event events inductionHypothesis =>
      have stays : MarkerState.initial.next dialect.marker? event = .initial :=
        MarkerState.next_initial fun marker isMarker same =>
          noMarker marker isMarker (same ▸ List.mem_cons_self)
      rw [literalsOfEvents, stays] at member
      rcases List.mem_append.mp member with here | behind
      · cases event with
        | stringClosed token =>
            rw [Option.mem_toList] at here
            simp only [Event.literal?, Option.ite_none_right_eq_some, Option.some.injEq] at here
            obtain ⟨-, rfl⟩ := here
            rfl
        | _ =>
            cases here
      · exact inductionHypothesis
          (fun marker isMarker closed =>
            noMarker marker isMarker (List.mem_cons_of_mem _ closed))
          behind

end Literals

end LocalizationScan
