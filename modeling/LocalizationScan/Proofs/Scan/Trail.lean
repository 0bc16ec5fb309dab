import LocalizationScan.Proofs.Scan.Move

namespace LocalizationScan

/-!
# Trails

A scan passes through other scans on its way to the end of a block.  A trail is
a run together with the scans that it passes through, each of them further on
in the text than the one before it.
-/

/-- The scans that a scan passes through up to the end of the block, itself included. -/
def Scan.visited (dialect : Dialect) (scan : Scan) : List Scan :=
  match _ : scan.cursor.rest with
  | [] => [scan]
  | char :: _ => scan :: visited dialect (scan.step dialect char).2
termination_by scan.cursor.rest.length
decreasing_by exact length_rest_step_lt dialect scan char (by simp [*])

/-- What is open when a scan arrives at the end of the block. -/
def Scan.finalControl? (dialect : Dialect) (scan : Scan) : Option Control :=
  (scan.visited dialect).getLast?.map Scan.control

/-- Number of characters of the file before the scan. -/
def Scan.offset (scan : Scan) : Nat :=
  scan.cursor.position.offset

/-- A chain of moves to the end of a block, with its events and the scans on its way. -/
inductive Trail (dialect : Dialect) (anchor : Position) :
    Control → (done rest : Text) → List Event → List Scan → Prop where
  | finished
      {control : Control}
      {done : Text} :
      Trail dialect anchor control done [] [] [⟨control, .between anchor done []⟩]
  | move
      {control next : Control}
      {done piece later : Text}
      {events laterEvents : List Event}
      {visited : List Scan}
      (nonempty : piece ≠ [])
      (here :
        Move dialect done.getLast? (anchor.advanceOver done) piece later control events next)
      (behind : Trail dialect anchor next (done ++ piece) later laterEvents visited) :
      Trail dialect anchor control done (piece ++ later) (events ++ laterEvents)
        (⟨control, .between anchor done (piece ++ later)⟩ :: visited)

namespace Scan

variable {dialect : Dialect} {anchor : Position} {control : Control} {done : Text}

theorem visited_between_nil
    (dialect : Dialect)
    (anchor : Position)
    (control : Control)
    (done : Text) :
    visited dialect ⟨control, .between anchor done []⟩ =
      [⟨control, .between anchor done []⟩] := by
  rw [visited]
  rfl

theorem visited_between_cons
    (dialect : Dialect)
    (anchor : Position)
    (control : Control)
    (done : Text)
    (char : Char)
    (tail : Text) :
    visited dialect ⟨control, .between anchor done (char :: tail)⟩ =
      ⟨control, .between anchor done (char :: tail)⟩ ::
        visited dialect
          (step dialect ⟨control, .between anchor done (char :: tail)⟩ char).2 := by
  conv => lhs; rw [visited]
  rfl

theorem visited_ne_nil (dialect : Dialect) (scan : Scan) :
    scan.visited dialect ≠ [] := by
  rw [visited]
  split <;> simp

theorem finalControl?_between_nil
    (dialect : Dialect)
    (anchor : Position)
    (control : Control)
    (done : Text) :
    finalControl? dialect ⟨control, .between anchor done []⟩ = some control := by
  rw [finalControl?, visited_between_nil]
  rfl

theorem finalControl?_between_cons
    (dialect : Dialect)
    (anchor : Position)
    (control : Control)
    (done : Text)
    (char : Char)
    (tail : Text) :
    finalControl? dialect ⟨control, .between anchor done (char :: tail)⟩ =
      finalControl? dialect
        (step dialect ⟨control, .between anchor done (char :: tail)⟩ char).2 := by
  rw [finalControl?, visited_between_cons, finalControl?,
    List.getLast?_cons_of_ne_nil (visited_ne_nil _ _)]

/-- The scans on the way have no more left than the one at the start. -/
theorem length_rest_le_of_mem_visited
    {dialect : Dialect}
    {start scan : Scan}
    (member : scan ∈ start.visited dialect) :
    scan.cursor.rest.length ≤ start.cursor.rest.length := by
  fun_induction visited dialect start with
  | case1 =>
      cases List.mem_singleton.mp member
      exact Nat.le_refl _
  | case2 start char tail shape inductionHypothesis =>
      rcases List.mem_cons.mp member with rfl | later
      · exact Nat.le_refl _
      · have shorter := length_rest_step_lt dialect start char (by simp [shape])
        exact Nat.le_of_lt (Nat.lt_of_le_of_lt (inductionHypothesis later) shorter)

@[simp]
theorem offset_between (control : Control) (anchor : Position) (done rest : Text) :
    offset ⟨control, .between anchor done rest⟩ = anchor.offset + done.length :=
  Position.offset_advanceOver anchor done

/-- The events of a scan and the scans that it passes through are those of a trail. -/
theorem trail_visited
    (dialect : Dialect)
    (anchor : Position)
    (control : Control)
    (done rest : Text) :
    Trail dialect anchor control done rest
      (events dialect ⟨control, .between anchor done rest⟩)
      (visited dialect ⟨control, .between anchor done rest⟩) := by
  cases rest with
  | nil =>
      rw [events_between_nil, visited_between_nil]
      exact .finished
  | cons char tail =>
      rw [events_between_cons, visited_between_cons]
      obtain ⟨piece, later, produced, next, shape, nonempty, move, stepped⟩ :=
        advances dialect anchor control done char tail
      have shorter := Text.length_lt_of_eq_append shape nonempty
      rw [stepped, shape]
      exact .move nonempty move (trail_visited dialect anchor next (done ++ piece) later)
termination_by rest.length
decreasing_by exact shorter

end Scan

/-- The scans that the scan of a block passes through. -/
def Dialect.visited (dialect : Dialect) (anchor : Position) (block : Text) : List Scan :=
  (Scan.ofBlock anchor block).visited dialect

theorem Dialect.trail_visited
    (dialect : Dialect)
    (anchor : Position)
    (block : Text) :
    Trail dialect anchor .initial [] block
      (dialect.events anchor block) (dialect.visited anchor block) :=
  Scan.trail_visited dialect anchor .initial [] block

namespace Trail

variable {dialect : Dialect} {anchor : Position} {control : Control} {done rest : Text}
  {events : List Event} {visited : List Scan}

/-- The scans on a trail are not before its start. -/
theorem offset_le
    (trail : Trail dialect anchor control done rest events visited) :
    ∀ scan ∈ visited, anchor.offset + done.length ≤ scan.offset := by
  induction trail with
  | finished =>
      intro scan member
      cases List.mem_singleton.mp member
      exact Nat.le_of_eq (Scan.offset_between _ _ _ _).symm
  | move _ _ _ inductionHypothesis =>
      intro scan member
      rcases List.mem_cons.mp member with rfl | later
      · exact Nat.le_of_eq (Scan.offset_between _ _ _ _).symm
      · have further := inductionHypothesis scan later
        rw [List.length_append, ← Nat.add_assoc] at further
        exact Nat.le_of_add_right_le further

/-- Each scan on a trail is further on than those before it. -/
theorem pairwise_offset
    (trail : Trail dialect anchor control done rest events visited) :
    visited.Pairwise fun first second => first.offset < second.offset := by
  induction trail with
  | finished =>
      exact List.pairwise_singleton _ _
  | move nonempty _ behind inductionHypothesis =>
      refine List.pairwise_cons.mpr ⟨fun scan member => ?_, inductionHypothesis⟩
      rw [Scan.offset_between]
      exact Nat.lt_of_lt_of_le
        (Nat.add_lt_add_left (Text.length_lt_append _ nonempty) _)
        (behind.offset_le scan member)

end Trail

/-- The no-localize comment has no part in a scan. -/
theorem Scan.events_csharp
    (marker other : Text)
    (scan : Scan) :
    scan.events (.csharp marker) = scan.events (.csharp other) := by
  fun_induction Scan.events (.csharp marker) scan with
  | case1 scan finished =>
      rw [events.eq_def]
      split
      · rfl
      · rename_i shape
        cases finished.symm.trans shape
  | case2 scan char tail shape inductionHypothesis =>
      rw [inductionHypothesis]
      conv => rhs; rw [events.eq_def]
      split
      · rename_i finished
        cases finished.symm.trans shape
      · rename_i same
        cases same.symm.trans shape
        rfl

end LocalizationScan
