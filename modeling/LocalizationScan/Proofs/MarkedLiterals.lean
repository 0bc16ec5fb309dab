import Mathlib
import LocalizationScan.Proofs.Literal.Marks
import LocalizationScan.Proofs.Scan.Tracking
import LocalizationScan.Proofs.SourceItems

namespace LocalizationScan

/-!
# What marks a literal

A marker comment in plain code marks the literal that only white space
separates from it.  A marker comment in a hole waits on through the ends of the
hole and of its string, so it may mark a literal behind that string, too.  A
literal is marked in these two cases and in no other.
-/

/-- Whether a string is open that has no holes, stands in none and begins at a position. -/
def Control.IsInLiteral (start : Position) (control : Control) : Prop :=
  ∃ kind token,
    control = ⟨.inString kind token, []⟩ ∧ kind.isInterpolated = false ∧ token.start = start

/-- Whether a literal stands behind a comment that a scan has met in front of a gap, with the
given strings waiting around the comment. -/
structure Literal.Follows
    (dialect : Dialect)
    (anchor : Position)
    (block front comment gap : Text)
    (holes : List Hole)
    (literal : Literal) :
    Prop where
  content : ∃ back, block = front ++ comment ++ gap ++ literal.text ++ back
  start : literal.span.start = anchor.advanceOver (front ++ comment ++ gap)
  closed :
    ∃ closing ∈ dialect.visited anchor block,
      closing.yielded dialect = [.commentClosed comment] ∧
        ∃ rest,
          closing.next? dialect =
            some ⟨⟨.resting, holes⟩, .between anchor (front ++ comment) rest⟩

/-- Whether a scan meets nothing between two offsets that ends the waiting of a marker. -/
def Dialect.KeepsMark
    (dialect : Dialect)
    (anchor : Position)
    (block : Text)
    (start stop : Nat) :
    Prop :=
  ∀ scan ∈ dialect.visited anchor block, start ≤ scan.offset → scan.offset < stop →
    ∀ event ∈ scan.yielded dialect, event.KeepsMark

section Moves

variable {marker : Text} {anchor : Position} {before : Option Char} {start position : Position}
  {control next : Control} {done piece later : Text} {events : List Event} {flags : ItemFlags}
  {state : MarkerState} {literal : Literal} {holes : List Hole}

/-- A literal that a move completes is the open string, and it has the mark of that string. -/
theorem Move.isInLiteral
    (move : Move (.csharp marker) before position piece later control events next)
    (member : literal ∈ literalsOfEvents (.csharp marker) flags state events) :
    control.IsInLiteral literal.span.start ∧
      literal.flags.markedUnlocalizable = state.captured := by
  cases move with
  | @closeString kind token emit _ _ holes classified =>
      simp only [literalsOfEvents, Event.literal?, List.append_nil,
        Option.mem_toList, Option.ite_none_right_eq_some, Option.some.injEq] at member
      obtain ⟨reported, rfl⟩ := member
      obtain ⟨rfl, alone⟩ := Bool.and_eq_true_iff.mp reported
      obtain rfl : holes = [] := List.isEmpty_iff.mp alone
      exact ⟨⟨kind, token, rfl, CSharp.isInterpolated_of_closeString classified, rfl⟩, rfl⟩
  | _ =>
      simp [literalsOfEvents, Event.literal?] at member

/-- A literal that is open behind a move is open before it, or the move opens it in code. -/
theorem Move.isInLiteral_or_opens
    (move : Move (.csharp marker) before position piece later control events next)
    (fits : control.FitsDialect (.csharp marker))
    (behind : next.IsInLiteral start) :
    (control.IsInLiteral start ∧ events = []) ∨
      control = .initial ∧ position = start ∧ ∃ kind, events = [.stringOpened kind position] := by
  obtain ⟨kind, token, shape, plain, begins⟩ := behind
  cases move with
  | openString =>
      cases shape
      exact .inr ⟨rfl, begins, _, rfl⟩
  | @closeHole _ _ hole =>
      -- The string around a hole has holes.
      cases shape
      rw [(fits.waiting hole List.mem_cons_self).1] at plain
      cases plain
  | stringText =>
      cases shape
      exact .inl ⟨⟨kind, token, rfl, plain, begins⟩, rfl⟩
  | _ =>
      cases shape

/-- A move that ends a comment yields its text, which ends where the move ends. -/
theorem Control.HasBegun.closed_comment
    {comment : Text}
    (begun : control.HasBegun anchor done (piece ++ later))
    (move :
      Move (.csharp marker) done.getLast? (anchor.advanceOver done) piece later control events
        next)
    (closed : .commentClosed comment ∈ events) :
    events = [.commentClosed comment] ∧
      ∃ front holes, done ++ piece = front ++ comment ∧ next = ⟨.resting, holes⟩ := by
  cases move with
  | @closeComment _ _ token holes =>
      cases List.mem_singleton.mp closed
      refine ⟨rfl, ?_⟩
      obtain ⟨front, opened, rfl, -, -, text⟩ :=
        (begun.placed token List.mem_cons_self).exists_textTo
      refine ⟨front, holes, ?_, rfl⟩
      rw [← Position.advanceOver_append, text, List.append_assoc]
  | _ =>
      simp at closed

/-- White space in code is passed over, and it keeps a marker pending. -/
theorem Move.keepsMark_of_isBlank
    (move : Move (.csharp marker) before position piece later ⟨.resting, holes⟩ events next)
    (nonempty : piece ≠ [])
    (areBlank : ∀ char ∈ piece, Text.isBlank char = true) :
    next = ⟨.resting, holes⟩ ∧ ∀ event ∈ events, event.KeepsMark := by
  obtain ⟨char, tail, rfl⟩ := List.exists_cons_of_ne_nil nonempty
  have isBlank := areBlank char List.mem_cons_self
  have stays :
      (Dialect.csharp marker).classify (Control.lexicalState ⟨.resting, holes⟩) before
          (char :: tail ++ later) =
        .stay :=
    CSharp.classify_of_isBlank (by cases holes <;> rfl) isBlank (tail ++ later)
  cases move with
  | code =>
      refine ⟨rfl, fun event member => ?_⟩
      cases List.mem_singleton.mp member
      exact isBlank
  | lineComment classified | openString classified =>
      cases stays.symm.trans classified
  | openComment | openBrace | closeBrace | closeHole =>
      cases isBlank
  | continuation visualBasic =>
      cases visualBasic

/-- What keeps a marker pending in plain code is white space or the opening of a comment, and
in a comment it is the text of the comment. -/
theorem Move.isBlank_of_keepsMark
    (move : Move (.csharp marker) before position piece later control events next)
    (keeps : ∀ event ∈ events, event.KeepsMark) :
    (control = .initial →
        (next = .initial ∧ ∀ char ∈ piece, Text.isBlank char = true) ∨
          ∃ token, next = ⟨.inComment token, []⟩) ∧
      ((∃ token, control = ⟨.inComment token, []⟩) → ∃ token, next = ⟨.inComment token, []⟩) := by
  constructor
  · rintro rfl
    cases move with
    | code =>
        refine .inl ⟨rfl, fun char member => ?_⟩
        cases List.mem_singleton.mp member
        exact keeps _ List.mem_cons_self
    | openComment =>
        exact .inr ⟨_, rfl⟩
    | lineComment | openString =>
        exact (keeps _ List.mem_cons_self).elim
    | continuation visualBasic =>
        cases visualBasic
  · rintro ⟨token, rfl⟩
    cases move with
    | commentText =>
        exact ⟨token, rfl⟩
    | closeComment =>
        exact (keeps _ List.mem_cons_self).elim

end Moves

namespace Scan

variable {marker : Text} {anchor : Position} {block done : Text} {flags : ItemFlags}
  {state : MarkerState} {literal : Literal} {scan opening : Scan}
  {earlier between later : List Scan}

/-- A literal that a scan finds is open at the scan, or it opens in code on the way.  It is
marked when a marker was pending there. -/
theorem isInLiteral_or_exists_opening
    (cursor : scan.cursor = .between anchor done scan.cursor.rest)
    (fits : scan.control.FitsDialect (.csharp marker))
    (member :
      literal ∈ literalsOfEvents (.csharp marker) flags state (scan.events (.csharp marker))) :
    (scan.control.IsInLiteral literal.span.start ∧
        literal.flags.markedUnlocalizable = state.captured) ∨
      ∃ (earlier : List Scan) (opening : Scan) (later : List Scan),
        scan.visited (.csharp marker) = earlier ++ opening :: later ∧
          opening.control = .initial ∧ opening.cursor.position = literal.span.start ∧
          literal.flags.markedUnlocalizable =
            ((earlier.flatMap (yielded (.csharp marker))).foldl
              (MarkerState.next (some marker)) state).pending := by
  fun_induction Scan.visited (.csharp marker) scan generalizing done state with
  | case1 scan finished =>
      rw [events_eq] at member
      simp [yielded, next?, finished, literalsOfEvents] at member
  | case2 scan char tail shape inductionHypothesis =>
      have goesOn : scan.next? (.csharp marker) = some (scan.step (.csharp marker) char).2 := by
        simp [next?, shape]
      generalize (scan.step (.csharp marker) char).2 = next at goesOn inductionHypothesis
      obtain ⟨later, control, -, nonempty, move, rfl⟩ := exists_move cursor goesOn
      rw [events_eq, goesOn, Option.elim_some, literalsOfEvents_append] at member
      rcases List.mem_append.mp member with here | behind
      · exact .inl (move.isInLiteral here)
      · rcases inductionHypothesis rfl (fits.move move) behind with
            ⟨isOpen, mark⟩ | ⟨earlier, opening, others, passed, initial, position, mark⟩
        · rcases move.isInLiteral_or_opens fits isOpen with
              ⟨isOpenHere, silent⟩ | ⟨initial, position, kind, opens⟩
          · refine .inl ⟨isOpenHere, ?_⟩
            rw [mark, silent]
            rfl
          · refine .inr ⟨[], scan, _, rfl, initial, ?_, ?_⟩
            · rw [cursor]
              exact position
            · rw [mark, opens]
              rfl
        · refine .inr ⟨scan :: earlier, opening, others, ?_, initial, position, ?_⟩
          · rw [passed, List.cons_append]
          · rw [mark, List.flatMap_cons, List.foldl_append]
            rfl

/-- At the end of the block nothing is yielded. -/
theorem yielded_of_next?_eq_none
    {dialect : Dialect}
    (finished : scan.next? dialect = none) :
    scan.yielded dialect = [] := by
  cases shape : scan.cursor.rest with
  | nil =>
      simp [yielded, shape]
  | cons =>
      simp [next?, shape] at finished

/-- The end of a comment is all that its scan yields, and code goes on behind it. -/
theorem IsTracked.closed_comment
    {comment : Text}
    (tracked : scan.IsTracked (.csharp marker) anchor block earlier)
    (closed : .commentClosed comment ∈ scan.yielded (.csharp marker)) :
    scan.yielded (.csharp marker) = [.commentClosed comment] ∧
      ∃ front holes rest,
        (earlier ++ [scan]).flatMap (piece (.csharp marker)) = front ++ comment ∧
          scan.next? (.csharp marker) =
            some ⟨⟨.resting, holes⟩, .between anchor (front ++ comment) rest⟩ := by
  obtain ⟨next, goesOn⟩ : ∃ next, scan.next? (.csharp marker) = some next := by
    refine Option.ne_none_iff_exists'.mp fun finished => ?_
    rw [yielded_of_next?_eq_none finished] at closed
    cases closed
  obtain ⟨later, control, split, nonempty, move, rfl⟩ := exists_move tracked.cursor goesOn
  have begun := tracked.begun
  rw [split] at begun
  obtain ⟨alone, front, holes, shape, rfl⟩ := begun.closed_comment move closed
  refine ⟨alone, front, holes, later, ?_, ?_⟩
  · rw [← shape, List.flatMap_append, List.flatMap_singleton]
  · rw [goesOn, shape]

/-- A marker is pending behind some scans when one of them ends its comment and the ones
behind that keep it pending. -/
theorem pending_foldl_yielded_iff
    {dialect : Dialect}
    {scans : List Scan}
    (alone :
      ∀ scan ∈ scans, ∀ text, .commentClosed text ∈ scan.yielded dialect →
        scan.yielded dialect = [.commentClosed text]) :
    ((scans.flatMap (yielded dialect)).foldl (MarkerState.next (some marker))
        .initial).pending = true ↔
      ∃ (first : List Scan) (closing : Scan) (between : List Scan),
        scans = first ++ closing :: between ∧
          closing.yielded dialect = [.commentClosed marker] ∧
          ∀ scan ∈ between, ∀ event ∈ scan.yielded dialect, event.KeepsMark := by
  induction scans using List.reverseRecOn with
  | nil =>
      simp [MarkerState.initial]
  | append_singleton scans last inductionHypothesis =>
      have aloneEarlier : ∀ scan ∈ scans, _ := fun scan member =>
        alone scan (List.mem_append_left _ member)
      have aloneLast := alone last (List.mem_append_right _ (List.mem_singleton_self last))
      rw [List.flatMap_append, List.flatMap_singleton, List.foldl_append,
        MarkerState.pending_foldl_iff aloneLast, inductionHypothesis aloneEarlier]
      constructor
      · rintro (closes | ⟨⟨first, closing, between, rfl, closes, keeps⟩, keepsLast⟩)
        · exact ⟨scans, last, [], rfl, closes, by simp⟩
        · refine ⟨first, closing, between ++ [last], by simp, closes, ?_⟩
          exact List.forall_mem_append.mpr ⟨keeps, List.forall_mem_singleton.mpr keepsLast⟩
      · rintro ⟨first, closing, between, shape, closes, keeps⟩
        rcases List.eq_nil_or_concat' between with rfl | ⟨between, final, rfl⟩
        · obtain ⟨-, rfl⟩ := List.append_singleton_inj.mp shape
          exact .inl closes
        · rw [← List.cons_append, ← List.append_assoc] at shape
          obtain ⟨rfl, rfl⟩ := List.append_singleton_inj.mp shape
          obtain ⟨keepsBetween, keepsLast⟩ := List.forall_mem_append.mp keeps
          exact .inr ⟨⟨first, closing, between, rfl, closes, keepsBetween⟩,
            List.forall_mem_singleton.mp keepsLast⟩

/-- Scans over white space in code keep a marker pending. -/
theorem keepsMark_of_isBlank
    {holes : List Hole}
    (cursor : scan.cursor = .between anchor done scan.cursor.rest)
    (resting : scan.control = ⟨.resting, holes⟩)
    (passed : scan.visited (.csharp marker) = between ++ later)
    (areBlank : ∀ char ∈ between.flatMap (piece (.csharp marker)), Text.isBlank char = true) :
    ∀ scan ∈ between, ∀ event ∈ scan.yielded (.csharp marker), event.KeepsMark := by
  induction between generalizing scan done with
  | nil =>
      exact fun _ member => (nomatch member)
  | cons first between inductionHypothesis =>
      rw [visited_eq] at passed
      obtain ⟨rfl, behind⟩ := List.cons.inj passed
      rw [List.flatMap_cons] at areBlank
      obtain ⟨blankHere, blankLater⟩ := List.forall_mem_append.mp areBlank
      cases goesOn : scan.next? (.csharp marker) with
      | none =>
          rw [goesOn, Option.elim_none] at behind
          obtain ⟨rfl, -⟩ := List.append_eq_nil_iff.mp behind.symm
          refine List.forall_mem_singleton.mpr ?_
          rw [yielded_of_next?_eq_none goesOn]
          exact fun _ member => (nomatch member)
      | some next =>
          rw [goesOn, Option.elim_some] at behind
          obtain ⟨later, control, -, nonempty, move, rfl⟩ := exists_move cursor goesOn
          rw [resting] at move
          obtain ⟨same, keeps⟩ := move.keepsMark_of_isBlank nonempty blankHere
          exact List.forall_mem_cons.mpr ⟨keeps, inductionHypothesis rfl same behind blankLater⟩

/-- Between a comment in plain code and a string in plain code only white space keeps a
marker pending. -/
theorem isBlank_of_keepsMark
    (cursor : scan.cursor = .between anchor done scan.cursor.rest)
    (passed : scan.visited (.csharp marker) = between ++ opening :: later)
    (initial : opening.control = .initial)
    (keeps : ∀ scan ∈ between, ∀ event ∈ scan.yielded (.csharp marker), event.KeepsMark) :
    (scan.control = .initial →
        ∀ char ∈ between.flatMap (piece (.csharp marker)), Text.isBlank char = true) ∧
      ¬∃ token, scan.control = ⟨.inComment token, []⟩ := by
  rw [visited_eq] at passed
  induction between generalizing scan done with
  | nil =>
      obtain ⟨rfl, -⟩ := List.cons.inj passed
      refine ⟨fun _ _ member => (nomatch member), ?_⟩
      rintro ⟨token, inComment⟩
      cases initial.symm.trans inComment
  | cons first between inductionHypothesis =>
      obtain ⟨rfl, behind⟩ := List.cons.inj passed
      obtain ⟨keepsHere, keepsLater⟩ := List.forall_mem_cons.mp keeps
      cases goesOn : scan.next? (.csharp marker) with
      | none =>
          rw [goesOn] at behind
          simp at behind
      | some next =>
          rw [goesOn, Option.elim_some, visited_eq] at behind
          obtain ⟨later, control, -, nonempty, move, rfl⟩ := exists_move cursor goesOn
          obtain ⟨blankLater, noComment⟩ := inductionHypothesis rfl behind keepsLater
          obtain ⟨fromCode, fromComment⟩ := move.isBlank_of_keepsMark keepsHere
          refine ⟨fun inCode => ?_, fun inComment => noComment (fromComment inComment)⟩
          rcases fromCode inCode with ⟨same, areBlank⟩ | inComment
          · rw [List.flatMap_cons]
            exact List.forall_mem_append.mpr ⟨areBlank, blankLater same⟩
          · exact absurd inComment noComment

end Scan

section Literals

variable {dialect : Dialect} {marker : Text} {flags : ItemFlags} {anchor : Position}
  {block front gap : Text} {literal : Literal} {holes : List Hole} {closing opening next : Scan}
  {first between earlier later : List Scan}

/-- The scans before another one are before it in the text, and the others are not. -/
theorem Dialect.offset_cases
    {scan : Scan}
    (dialect : Dialect)
    (passed : dialect.visited anchor block = earlier ++ scan :: later) :
    (∀ before ∈ earlier, before.offset < scan.offset) ∧
      ∀ behind ∈ scan :: later, scan.offset ≤ behind.offset := by
  have ordered := (dialect.trail_visited anchor block).pairwise_offset
  rw [passed] at ordered
  obtain ⟨-, orderedLater, before⟩ := List.pairwise_append.mp ordered
  refine ⟨fun other member => before other member scan List.mem_cons_self, ?_⟩
  refine List.forall_mem_cons.mpr ⟨Nat.le_refl _, fun behind member => Nat.le_of_lt ?_⟩
  exact (List.pairwise_cons.mp orderedLater).1 behind member

/-- Behind a scan comes the next one and what that one passes through. -/
theorem Scan.visited_next
    (passed : dialect.visited anchor block = first ++ closing :: later)
    (goesOn : closing.next? dialect = some next) :
    next.visited dialect = later ∧ ∃ others, later = next :: others := by
  have behind := visited_eq_of_visited passed
  rw [visited_eq, goesOn, Option.elim_some] at behind
  obtain ⟨-, rfl⟩ := List.cons.inj behind
  exact ⟨rfl, _, visited_eq dialect next⟩

/-- A stretch between two scans keeps a marker pending when the scans there do. -/
theorem Dialect.keepsMark_iff
    (passed : dialect.visited anchor block = first ++ closing :: (between ++ opening :: later))
    (goesOn : closing.next? dialect = some next) :
    dialect.KeepsMark anchor block next.offset opening.offset ↔
      ∀ scan ∈ between, ∀ event ∈ scan.yielded dialect, event.KeepsMark := by
  obtain ⟨-, others, shape⟩ := Scan.visited_next passed goesOn
  have fromNext := dialect.offset_cases
    (passed.trans (by rw [shape, List.append_cons] : _ = (first ++ [closing]) ++ next :: others))
  have toOpening := dialect.offset_cases
    (passed.trans (by simp : _ = (first ++ closing :: between) ++ opening :: later))
  rw [← shape] at fromNext
  constructor
  · intro keeps scan member
    refine keeps scan ?_ (fromNext.2 scan (List.mem_append_left _ member))
      (toOpening.1 scan (List.mem_append_right _ (List.mem_cons_of_mem _ member)))
    rw [passed]
    exact List.mem_append_right _ (List.mem_cons_of_mem _ (List.mem_append_left _ member))
  · intro keeps scan member late early
    rw [passed, List.append_cons] at member
    rcases List.mem_append.mp member with before | member
    · exact absurd (fromNext.1 scan before) (Nat.not_lt.mpr late)
    · rcases List.mem_append.mp member with inside | behind
      · exact keeps scan inside
      · exact absurd early (Nat.not_lt.mpr (toOpening.2 scan behind))

/-- A literal opens at a scan in plain code, and it is marked when a marker is pending there. -/
theorem CSharp.exists_opening_of_mem_literals
    (member : literal ∈ (Dialect.csharp marker).literals flags anchor block) :
    ∃ (earlier : List Scan) (opening : Scan) (later : List Scan),
      (Dialect.csharp marker).visited anchor block = earlier ++ opening :: later ∧
        opening.control = .initial ∧ opening.cursor.position = literal.span.start ∧
        (literal.flags.markedUnlocalizable = true ↔
          ∃ (first : List Scan) (closing : Scan) (between : List Scan),
            earlier = first ++ closing :: between ∧
              closing.yielded (.csharp marker) = [.commentClosed marker] ∧
              ∀ scan ∈ between, ∀ event ∈ scan.yielded (.csharp marker), event.KeepsMark) := by
  have tracked := Scan.isTracked_ofBlock (.csharp marker) anchor block
  rcases Scan.isInLiteral_or_exists_opening tracked.cursor tracked.fitsDialect member with
      ⟨⟨_, _, isOpen, -⟩, -⟩ | ⟨earlier, opening, later, passed, initial, position, mark⟩
  · cases isOpen
  · refine ⟨earlier, opening, later, passed, initial, position, ?_⟩
    rw [mark]
    refine Scan.pending_foldl_yielded_iff fun scan inside text closed => ?_
    obtain ⟨front, back, rfl⟩ := List.append_of_mem inside
    rw [List.append_assoc] at passed
    exact ((tracked.of_visited passed).closed_comment closed).1

/-- A literal follows a comment when the scan that ends the comment and the one that opens the
literal pass the gap between them. -/
theorem CSharp.follows_iff
    (member : literal ∈ (Dialect.csharp marker).literals flags anchor block)
    (passed : (Dialect.csharp marker).visited anchor block = earlier ++ opening :: later)
    (position : opening.cursor.position = literal.span.start) :
    literal.Follows (.csharp marker) anchor block front marker gap holes ↔
      ∃ (first : List Scan) (closing : Scan) (between : List Scan),
        earlier = first ++ closing :: between ∧
          closing.yielded (.csharp marker) = [.commentClosed marker] ∧
          (first ++ [closing]).flatMap (Scan.piece (.csharp marker)) = front ++ marker ∧
          between.flatMap (Scan.piece (.csharp marker)) = gap ∧
          ∃ rest,
            closing.next? (.csharp marker) =
              some ⟨⟨.resting, holes⟩, .between anchor (front ++ marker) rest⟩ := by
  have start := Scan.isTracked_ofBlock (.csharp marker) anchor block
  have tracked := start.of_visited passed
  rw [List.nil_append] at tracked
  constructor
  · rintro ⟨⟨back, content⟩, begins, closing, visited, closes, rest, goesOn⟩
    have contentClosing : block = (front ++ marker) ++ (gap ++ literal.text ++ back) := by
      simpa using content
    have openingOffset :
        opening.offset = anchor.offset + (front ++ marker ++ gap).length := by
      rw [Scan.offset, position, begins, Position.offset_advanceOver]
    have done : earlier.flatMap (Scan.piece (.csharp marker)) = front ++ marker ++ gap :=
      tracked.done_eq (content.trans (List.append_assoc ..)) openingOffset
    -- The comment ends before the literal opens, so its scan is among the earlier ones.
    have inside : closing ∈ earlier := by
      obtain ⟨before, behind, split⟩ := List.append_of_mem visited
      obtain ⟨-, others, rfl⟩ := Scan.visited_next split goesOn
      rw [List.append_cons] at split
      have early := ((Dialect.csharp marker).offset_cases split).1 closing (by simp)
      rw [Scan.offset_between] at early
      rw [passed] at visited
      refine (List.mem_append.mp visited).resolve_right fun late => ?_
      have beyond := ((Dialect.csharp marker).offset_cases passed).2 closing late
      rw [openingOffset, List.length_append] at beyond
      omega
    obtain ⟨first, between, rfl⟩ := List.append_of_mem inside
    rw [List.append_assoc, List.cons_append] at passed
    have trackedClosing := start.of_visited passed
    have doneClosing :
        (first ++ [closing]).flatMap (Scan.piece (.csharp marker)) = front ++ marker :=
      (trackedClosing.step goesOn).done_eq contentClosing (Scan.offset_between ..)
    refine ⟨first, closing, between, rfl, closes, doneClosing, ?_, rest, goesOn⟩
    rw [List.append_cons, List.flatMap_append, doneClosing] at done
    exact List.append_cancel_left done
  · rintro ⟨first, closing, between, rfl, closes, doneClosing, rfl, rest, goesOn⟩
    have done :
        (first ++ closing :: between).flatMap (Scan.piece (.csharp marker)) =
          front ++ marker ++ between.flatMap (Scan.piece (.csharp marker)) := by
      rw [List.append_cons, List.flatMap_append, doneClosing]
    have begins := tracked.cursor
    rw [done] at begins
    have partition := tracked.partition
    rw [done] at partition
    obtain ⟨⟨before, back, content, span⟩, -⟩ := Dialect.covers_of_mem_literals member
    have startPosition :
        literal.span.start =
          anchor.advanceOver
            (front ++ marker ++ between.flatMap (Scan.piece (.csharp marker))) := by
      rw [← position, begins]
      rfl
    -- The literal covers its text, so the text stands where it opens.
    have length :
        before.length =
          (front ++ marker ++ between.flatMap (Scan.piece (.csharp marker))).length := by
      have offsets := congrArg Position.offset startPosition
      rw [span, Position.offset_advanceOver, Position.offset_advanceOver] at offsets
      exact Nat.add_left_cancel offsets
    rw [List.append_assoc] at content
    obtain ⟨rfl, -⟩ := List.append_inj (content.symm.trans partition.symm) length
    refine ⟨⟨back, by rw [content]; simp⟩, startPosition, closing, ?_, closes, rest, goesOn⟩
    rw [passed]
    simp

/-- What a pending marker at the opening of a literal says about the text before it. -/
theorem CSharp.marked_iff_of_mem_literals
    (member : literal ∈ (Dialect.csharp marker).literals flags anchor block) :
    literal.flags.markedUnlocalizable = true ↔
      (∃ front gap holes,
        literal.Follows (.csharp marker) anchor block front marker gap holes ∧
          ∀ char ∈ gap, Text.isBlank char = true) ∨
      ∃ front gap hole outer,
        literal.Follows (.csharp marker) anchor block front marker gap (hole :: outer) ∧
          (Dialect.csharp marker).KeepsMark anchor block
            (anchor.offset + (front ++ marker).length) literal.span.start.offset := by
  obtain ⟨earlier, opening, later, passed, initial, position, mark⟩ :=
    exists_opening_of_mem_literals member
  have openingOffset : opening.offset = literal.span.start.offset :=
    congrArg Position.offset position
  rw [mark]
  constructor
  · rintro ⟨first, closing, between, rfl, closes, keeps⟩
    have split :
        (Dialect.csharp marker).visited anchor block =
          first ++ closing :: (between ++ opening :: later) :=
      passed.trans (by simp)
    have tracked := (Scan.isTracked_ofBlock (.csharp marker) anchor block).of_visited split
    have closed : .commentClosed marker ∈ closing.yielded (.csharp marker) := by
      rw [closes]
      exact List.mem_singleton_self _
    obtain ⟨-, front, holes, rest, done, goesOn⟩ := tracked.closed_comment closed
    have isBehind :
        literal.Follows (.csharp marker) anchor block front marker
          (between.flatMap (Scan.piece (.csharp marker))) holes :=
      (follows_iff member passed position).mpr
        ⟨first, closing, between, rfl, closes, done, rfl, rest, goesOn⟩
    cases holes with
    | nil =>
        have passedNext := (Scan.visited_next split goesOn).1
        exact .inl ⟨front, _, [], isBehind,
          (Scan.isBlank_of_keepsMark rfl passedNext initial keeps).1 rfl⟩
    | cons hole outer =>
        refine .inr ⟨front, _, hole, outer, isBehind, ?_⟩
        rw [← openingOffset, ← Scan.offset_between]
        exact (Dialect.keepsMark_iff split goesOn).mpr keeps
  · rintro (⟨front, gap, holes, isBehind, areBlank⟩ | ⟨front, gap, hole, outer, isBehind, keeps⟩)
    all_goals
      obtain ⟨first, closing, between, rfl, closes, -, rfl, rest, goesOn⟩ :=
        (follows_iff member passed position).mp isBehind
      have split :
          (Dialect.csharp marker).visited anchor block =
            first ++ closing :: (between ++ opening :: later) :=
        passed.trans (by simp)
      refine ⟨first, closing, between, rfl, closes, ?_⟩
    · exact Scan.keepsMark_of_isBlank rfl rfl (Scan.visited_next split goesOn).1 areBlank
    · rw [← openingOffset, ← Scan.offset_between] at keeps
      exact (Dialect.keepsMark_iff split goesOn).mp keeps

end Literals

/-- A literal is marked when only white space stands between it and a marker comment, or when
a marker comment stands in a hole before it and nothing in between ends the marking. -/
theorem findLiterals_marked_iff
    {marker block : Text}
    {flags : ItemFlags}
    {anchor : Position}
    {items : List Literal}
    (searched : findLiterals (.csharp marker) flags anchor block = .ok items)
    {literal : Literal}
    (member : literal ∈ items) :
    literal.flags.markedUnlocalizable = true ↔
      (∃ front gap holes,
        literal.Follows (.csharp marker) anchor block front marker gap holes ∧
          ∀ char ∈ gap, Text.isBlank char = true) ∨
      ∃ front gap hole outer,
        literal.Follows (.csharp marker) anchor block front marker gap (hole :: outer) ∧
          (Dialect.csharp marker).KeepsMark anchor block
            (anchor.offset + (front ++ marker).length) literal.span.start.offset := by
  cases valid : anchor.asAnchor with
  | error error =>
      rw [findLiterals, valid] at searched
      cases searched
  | ok position =>
      obtain ⟨rfl, -⟩ := Position.asAnchor_advanceOver valid []
      rw [findLiterals, valid] at searched
      cases searched
      exact CSharp.marked_iff_of_mem_literals member

/-- Of two strings behind a marker comment only the first one is marked. -/
theorem findLiterals_marked_iff_first :
    let dialect : Dialect := .csharp defaultMarker
    let block := "/*VL_NO_LOC*/ \"a\" \"b\"".toList
    let first : Literal :=
      ⟨"\"a\"".toList, ['a'], ⟨⟨1, 15, 14⟩, ⟨1, 18, 17⟩⟩, false, ⟨false, true, false⟩⟩
    let second : Literal :=
      ⟨"\"b\"".toList, ['b'], ⟨⟨1, 19, 18⟩, ⟨1, 22, 21⟩⟩, false, ⟨false, false, false⟩⟩
    findLiterals dialect .none .start block = .ok [first, second] ∧
      ((∃ front gap holes,
          first.Follows dialect .start block front defaultMarker gap holes ∧
            ∀ char ∈ gap, Text.isBlank char = true) ∨
        ∃ front gap hole outer,
          first.Follows dialect .start block front defaultMarker gap (hole :: outer) ∧
            dialect.KeepsMark .start block
              (Position.start.offset + (front ++ defaultMarker).length) first.span.start.offset) ∧
      ¬∃ front gap holes,
        second.Follows dialect .start block front defaultMarker gap holes ∧
          ∀ char ∈ gap, Text.isBlank char = true := by
  intro dialect block first second
  have found : findLiterals dialect .none .start block = .ok [first, second] := by
    simp only [dialect, block, first, second]
    cbv
  refine ⟨found, (findLiterals_marked_iff found List.mem_cons_self).mp rfl, fun follows => ?_⟩
  have marked :=
    (findLiterals_marked_iff found (List.mem_cons_of_mem _ (List.mem_singleton_self second))).mpr
      (.inl follows)
  cases marked

/-- A marker comment in a hole marks the literal behind the string around it. -/
theorem findLiterals_marked_behindHole :
    let dialect : Dialect := .csharp defaultMarker
    let block := "$\"\x7b/*VL_NO_LOC*/\x7d\" \"abc\"".toList
    let literal : Literal :=
      ⟨"\"abc\"".toList, "abc".toList, ⟨⟨1, 20, 19⟩, ⟨1, 25, 24⟩⟩, false, ⟨false, true, false⟩⟩
    findLiterals dialect .none .start block = .ok [literal] ∧
      ¬∃ front gap holes,
        literal.Follows dialect .start block front defaultMarker gap holes ∧
          ∀ char ∈ gap, Text.isBlank char = true := by
  intro dialect block literal
  refine ⟨?_, ?_⟩
  · simp only [dialect, block, literal]
    cbv
  · rintro ⟨front, gap, holes, ⟨⟨back, content⟩, begins, -⟩, areBlank⟩
    have length : (front ++ defaultMarker ++ gap).length = 19 := by
      have offset := congrArg Position.offset begins
      rw [Position.offset_advanceOver] at offset
      exact (offset.trans (Nat.zero_add _)).symm
    have before : front ++ defaultMarker ++ gap = block.take 19 := by
      rw [content, List.append_assoc _ literal.text, ← length, List.take_left]
    obtain ⟨comment, others, backwards⟩ :
        ∃ comment others, gap.reverse ++ '/' :: comment = ' ' :: '"' :: others := by
      have marker : defaultMarker.reverse = '/' :: defaultMarker.reverse.tail := by decide
      have text : (block.take 19).reverse = ' ' :: '"' :: (block.take 17).reverse := by decide
      have reversed := congrArg List.reverse before
      rw [List.reverse_append, List.reverse_append, marker, text] at reversed
      exact ⟨_, _, reversed⟩
    -- The gap would begin behind the quote at the end of the string, where no comment ends.
    rcases shape : gap.reverse with _ | ⟨first, _ | ⟨second, others⟩⟩
    · rw [shape] at backwards
      cases backwards
    · rw [shape] at backwards
      cases backwards
    · rw [shape] at backwards
      cases backwards
      have quote := areBlank '"' (List.mem_reverse.mp (by simp [shape]))
      cases quote

end LocalizationScan
