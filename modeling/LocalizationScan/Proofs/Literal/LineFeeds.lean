import LocalizationScan.Proofs.Literal.Marks
import LocalizationScan.Proofs.Scan.LineFeeds

namespace LocalizationScan

/-!
# Literals over a line feed

The literals of a block that a line feed ends come before those of the text
behind it.  The block is remembered there only by the marker comment that it may
end with.
-/

section Silence

variable {events : List Event}

/-- Events that report nothing hold no literal. -/
theorem literalsOfEvents_eq_nil
    (nothing : emittedTokens events = [])
    (dialect : Dialect)
    (flags : ItemFlags)
    (state : MarkerState) :
    literalsOfEvents dialect flags state events = [] := by
  have same := unmarked_literalsOfEvents dialect flags state events
  rw [nothing] at same
  exact List.map_eq_nil_iff.mp same

theorem emittedTokens_eq_nil
    (silent : ∀ event ∈ events, event.IsSilent) :
    emittedTokens events = [] := by
  refine List.filterMap_eq_nil_iff.mpr fun event member => ?_
  have isSilent := silent event member
  cases event with
  | stringClosed token =>
      have unreported : token.emit = false := isSilent
      simp [Event.emitted?, unreported]
  | _ =>
      rfl

/-- The end of a comment tells nothing about the next character. -/
theorem Event.commentClosed_mem_of_normalized
    {other : List Event}
    (same : other.map normalized = events.map normalized)
    {text : Text}
    (closed : .commentClosed text ∈ other) :
    .commentClosed text ∈ events := by
  have member : Event.commentClosed text ∈ events.map normalized := by
    rw [← same]
    exact List.mem_map.mpr ⟨_, closed, rfl⟩
  obtain ⟨event, memberEvent, isClosed⟩ := List.mem_map.mp member
  cases event with
  | commentClosed =>
      cases isClosed
      exact memberEvent
  | _ =>
      cases isClosed

end Silence

/-- The literals among whole events are those among the given events and then those among
the later ones.  Where no comment has ended, nothing is remembered in between. -/
theorem GoesOn.exists_literalsOfEvents_eq
    {later events whole : List Event}
    (goesOn : GoesOn later events whole)
    (dialect : Dialect)
    (flags : ItemFlags)
    (state : MarkerState) :
    ∃ between,
      literalsOfEvents dialect flags state whole =
          literalsOfEvents dialect flags state events ++
            literalsOfEvents dialect flags between later ∧
        (state = .initial → (∀ text, .commentClosed text ∉ events) → between = .initial) := by
  obtain @⟨shared, sharedLonger, along, last, same, nothing, silent⟩ := goesOn
  have sameLiterals :
      literalsOfEvents dialect flags state sharedLonger =
        literalsOfEvents dialect flags state shared := by
    rw [← literalsOfEvents_normalized, same, literalsOfEvents_normalized]
  refine ⟨(sharedLonger ++ last).foldl (MarkerState.next dialect.marker?) state, ?_, ?_⟩
  · rw [← List.append_assoc, literalsOfEvents_append, literalsOfEvents_append,
      literalsOfEvents_append, literalsOfEvents_eq_nil nothing,
      literalsOfEvents_eq_nil (emittedTokens_eq_nil silent), sameLiterals]
  · rintro rfl noComment
    refine MarkerState.foldl_next_initial fun marker _ closed => ?_
    rcases List.mem_append.mp closed with closedShared | closedLast
    · exact noComment marker
        (List.mem_append_left _ (Event.commentClosed_mem_of_normalized same closedShared))
    · exact silent _ closedLast

end LocalizationScan
