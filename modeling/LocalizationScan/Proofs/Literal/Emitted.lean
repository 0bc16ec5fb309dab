import LocalizationScan.Literal
import LocalizationScan.Proofs.Scan.Move

namespace LocalizationScan

/-!
# Emitted tokens

The literals of a block are its emitted string tokens.  The marker comment
decides about one flag of a literal and about nothing else.
-/

/-- The string token that an event reports as a literal. -/
def Event.emitted? : Event → Option StringToken
  | .stringClosed token => if token.emit then some token else none
  | _ => none

/-- The string tokens among events that are reported as literals. -/
def emittedTokens (events : List Event) : List StringToken :=
  events.filterMap Event.emitted?

@[simp] theorem emittedTokens_append (first second : List Event) :
    emittedTokens (first ++ second) = emittedTokens first ++ emittedTokens second :=
  List.filterMap_append

/-- A literal without the mark of a no-localize comment. -/
def Literal.unmarked (literal : Literal) : Literal :=
  { literal with flags := { literal.flags with markedUnlocalizable := false } }

/-- Apart from their marks, the literals among events are those of the emitted tokens. -/
theorem unmarked_literalsOfEvents
    (dialect : Dialect)
    (flags : ItemFlags)
    (state : MarkerState)
    (events : List Event) :
    (literalsOfEvents dialect flags state events).map Literal.unmarked =
      (emittedTokens events).map (Literal.ofToken dialect flags false) := by
  induction events generalizing state with
  | nil =>
      rfl
  | cons event rest inductionHypothesis =>
      simp only [literalsOfEvents, List.map_append, inductionHypothesis]
      cases event with
      | stringClosed token =>
          by_cases emit : token.emit = true <;>
            simp [Event.literal?, Event.emitted?, emittedTokens, emit,
              Literal.unmarked, Literal.ofToken]
      | _ =>
          rfl

/-- Every literal among events is that of a string that is closed and reported. -/
theorem exists_closed_of_mem_literalsOfEvents
    {dialect : Dialect}
    {flags : ItemFlags}
    {state : MarkerState}
    {events : List Event}
    {literal : Literal}
    (member : literal ∈ literalsOfEvents dialect flags state events) :
    ∃ token marked,
      .stringClosed token ∈ events ∧ token.emit = true ∧
        literal = .ofToken dialect flags marked token := by
  induction events generalizing state with
  | nil =>
      cases member
  | cons event events inductionHypothesis =>
      rcases List.mem_append.mp member with here | later
      · rw [Option.mem_toList] at here
        cases event with
        | stringClosed token =>
            simp only [Event.literal?, Option.ite_none_right_eq_some, Option.some.injEq] at here
            obtain ⟨reported, rfl⟩ := here
            exact ⟨token, _, List.mem_cons_self, reported, rfl⟩
        | _ =>
            cases here
      · obtain ⟨token, marked, closed, same⟩ := inductionHypothesis later
        exact ⟨token, marked, List.mem_cons_of_mem _ closed, same⟩

end LocalizationScan
