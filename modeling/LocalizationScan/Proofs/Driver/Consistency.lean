import Mathlib
import LocalizationScan.Proofs.Driver.Braces
import LocalizationScan.Proofs.Driver.Simulation

namespace LocalizationScan

/-!
# The invariant of the driver

On its way through a block the driver leaves behind the pieces that its turns
have taken.  Its registers agree, the tokens they hold lie in these pieces, one
inside of the other, and every hole has counted the braces of its code.  So the
loop never reaches out of the block, and what closes something finds it open.
-/

namespace Driver

/-- The open token and those of the waiting strings, innermost first. -/
def tokens (driver : Driver) : List Token :=
  driver.token?.toList ++ driver.holes.filterMap Hole.token?

/-- A driver whose tokens have begun where they say, each of them inside of the next one. -/
structure IsNested (anchor : Position) (block : Text) (driver : Driver) : Prop where
  placed :
    ∀ token ∈ driver.tokens, token.start = anchor.advanceOver (block.take token.index)
  begun : ∀ token ∈ driver.tokens, token.index < driver.index
  /-- Their opening delimiters are done. -/
  opened : ∀ token ∈ driver.tokens, token.index + token.openingLength ≤ driver.index
  /-- A token begins behind those that it is inside of. -/
  inside : driver.tokens.Pairwise fun inner outer => outer.index < inner.index

/-- A driver behind the given earlier turns over a block, which has taken their pieces, whose
registers agree and whose holes have counted their braces. -/
structure IsConsistent
    (dialect : Dialect)
    (anchor : Position)
    (block : Text)
    (earlier : List Turn)
    (driver : Driver) :
    Prop where
  agrees : driver.Agrees dialect
  nested : driver.IsNested anchor block
  inBlock : driver.index ≤ block.length
  partition : earlier.flatMap Turn.piece = block.take driver.index
  position : driver.position = anchor.advanceOver (block.take driver.index)
  counts : CountBraces earlier driver.holes

section Tokens

variable {dialect : Dialect} {anchor : Position} {block : Text} {driver next : Driver}
  {count : Nat} {char : Char} {transition : Transition} {events : List Event}

/-- A transition leaves the tokens as they are, opens one at the index, or closes the
innermost. -/
theorem Change.tokens_cases
    (change : Change dialect driver count char transition events next) :
    next.tokens = driver.tokens ∨
      (∃ length ≤ count,
        next.tokens = ⟨driver.index, driver.position, length⟩ :: driver.tokens) ∨
      ∃ closed, driver.tokens = closed :: next.tokens := by
  cases change with
  | code | text | escape | continuation | lineComment =>
      exact .inl rfl
  | openString nothingOpen taken =>
      exact .inr (.inl ⟨_, taken, by simp [tokens, nothingOpen]⟩)
  | openComment nothingOpen =>
      exact .inr (.inl ⟨_, Nat.le_refl _, by simp [tokens, nothingOpen]⟩)
  | @closeString _ _ token _ current | @closeComment _ token _ current
  | @abandon token _ current =>
      exact .inr (.inr ⟨token, by simp [tokens, Driver.rest, current]⟩)
  | openHole csharp current =>
      exact .inl (by simp [tokens, current])
  | openBrace inside | closeBrace inside =>
      exact .inl (by simp [tokens, inside, List.filterMap_cons])
  | closeHole inside unmatched nothingOpen kept =>
      exact .inl (by simp [tokens, inside, nothingOpen, kept])

/-- Every transition leaves tokens that lie one inside of the other. -/
theorem IsNested.change
    (nested : driver.IsNested anchor block)
    (position : driver.position = anchor.advanceOver (block.take driver.index))
    (positive : 1 ≤ count)
    (change : Change dialect driver count char transition events next)
    (stop : Position) :
    (next.moveTo (driver.index + count) stop).IsNested anchor block := by
  have placed := nested.placed
  have begun : ∀ token ∈ driver.tokens, token.index < driver.index + count :=
    fun token member => Nat.lt_add_right count (nested.begun token member)
  have opened :
      ∀ token ∈ driver.tokens, token.index + token.openingLength ≤ driver.index + count :=
    fun token member => Nat.le_add_right_of_le (nested.opened token member)
  have inside := nested.inside
  rcases change.tokens_cases with same | ⟨length, taken, opens⟩ | ⟨closed, shape⟩
  · rw [← same] at placed begun opened inside
    exact ⟨placed, begun, opened, inside⟩
  · have tokens : (next.moveTo (driver.index + count) stop).tokens =
        ⟨driver.index, driver.position, length⟩ :: driver.tokens := opens
    constructor
    · rw [tokens]
      exact List.forall_mem_cons.mpr ⟨position, placed⟩
    · rw [tokens]
      exact List.forall_mem_cons.mpr ⟨Nat.lt_add_of_pos_right positive, begun⟩
    · rw [tokens]
      exact List.forall_mem_cons.mpr ⟨Nat.add_le_add_left taken _, opened⟩
    · rw [tokens]
      exact List.pairwise_cons.mpr ⟨nested.begun, inside⟩
  · rw [shape] at placed begun opened inside
    exact ⟨(List.forall_mem_cons.mp placed).2, (List.forall_mem_cons.mp begun).2,
      (List.forall_mem_cons.mp opened).2, (List.pairwise_cons.mp inside).2⟩

end Tokens

/-- A turn that stays inside of the block and whose transition finds open what it closes. -/
structure Turn.IsSound (dialect : Dialect) (block : Text) (turn : Turn) : Prop where
  /-- It is the turn of the loop, with every index and difference in range. -/
  taken : turn.before.turn? dialect block = some turn
  /-- It takes at least one character, and no more than are left. -/
  covers : 1 ≤ turn.piece.length ∧ turn.piece.length ≤ block.length - turn.before.index
  goesOn : turn.after.index = turn.before.index + turn.piece.length
  /-- The end of a string finds a token open and reports a string. -/
  closesString :
    ∀ length emit, turn.transition = .closeString length emit →
      ∃ token closed,
        turn.before.token? = some token ∧ turn.events = [.stringClosed closed]
  /-- The end of a comment finds a token open and reports its text. -/
  closesComment :
    ∀ length, turn.transition = .closeComment length →
      ∃ token text,
        turn.before.token? = some token ∧ turn.events = [.commentClosed text]
  /-- An opening brace is counted in the innermost hole; a closing one ends the hole, or it is
  taken from a count that is not zero. -/
  matchesBrace :
    ∀ opening, turn.transition = .brace opening →
      ∃ hole outer,
        turn.before.holes = hole :: outer ∧
          (opening = true ∧
              turn.after.holes = { hole with depth := hole.depth + 1 } :: outer ∨
            opening = false ∧ hole.depth = 0 ∧
              turn.events = [.holeClosed] ∧ turn.after.holes = outer ∨
            opening = false ∧
              ∃ depth,
                hole.depth = depth + 1 ∧
                  turn.after.holes = { hole with depth := depth } :: outer)

section Run

variable {dialect : Dialect} {anchor : Position} {block : Text} {earlier : List Turn}
  {driver next : Driver} {count : Nat} {char : Char} {events : List Event} {turn : Turn}

theorem isConsistent_ofAnchor
    (dialect : Dialect)
    (anchor : Position)
    (block : Text) :
    (ofAnchor anchor).IsConsistent dialect anchor block [] where
  agrees := agrees_ofAnchor dialect anchor
  nested := ⟨fun _ member => (nomatch member), fun _ member => (nomatch member),
    fun _ member => (nomatch member), .nil⟩
  inBlock := Nat.zero_le _
  partition := rfl
  position := rfl
  counts := trivial

theorem IsConsistent.of_token?
    {token : Token}
    (consistent : driver.IsConsistent dialect anchor block earlier)
    (current : driver.token? = some token) :
    token.index + token.openingLength ≤ driver.index := by
  apply consistent.nested.opened
  rw [tokens, current]
  exact List.mem_cons_self

theorem Change.of_closeString
    {length : Nat}
    {emit : Bool}
    (change : Change dialect driver count char (.closeString length emit) events next) :
    ∃ token closed, driver.token? = some token ∧ events = [.stringClosed closed] := by
  cases change with
  | closeString current => exact ⟨_, _, current, rfl⟩

theorem Change.of_closeComment
    {length : Nat}
    (change : Change dialect driver count char (.closeComment length) events next) :
    ∃ token text, driver.token? = some token ∧ events = [.commentClosed text] := by
  cases change with
  | closeComment current => exact ⟨_, _, current, rfl⟩

theorem Change.of_brace
    {opening : Bool}
    (change : Change dialect driver count char (.brace opening) events next) :
    ∃ hole outer,
      driver.holes = hole :: outer ∧
        (opening = true ∧ next.holes = { hole with depth := hole.depth + 1 } :: outer ∨
          opening = false ∧ hole.depth = 0 ∧
            events = [.holeClosed] ∧ next.holes = outer ∨
          opening = false ∧
            ∃ depth,
              hole.depth = depth + 1 ∧
                next.holes = { hole with depth := depth } :: outer) := by
  cases change with
  | @openBrace hole outer _ inside =>
      exact ⟨hole, outer, inside, .inl ⟨rfl, rfl⟩⟩
  | @closeBrace hole outer depth _ inside matched =>
      exact ⟨hole, outer, inside, .inr (.inr ⟨rfl, depth, matched, rfl⟩)⟩
  | @closeHole hole outer _ inside unmatched =>
      exact ⟨hole, outer, inside, .inr (.inl ⟨rfl, unmatched, rfl, rfl⟩)⟩

/-- A turn over a piece of the block finds open what it closes. -/
theorem Turn.IsTaken.isSound
    (isTaken : turn.IsTaken dialect block next)
    (inside : turn.before.index < block.length) :
    turn.IsSound dialect block := by
  have length : turn.piece.length = turn.before.count dialect block :=
    isTaken.piece ▸ length_piece dialect inside
  have room := index_add_count_le dialect inside
  have positive : 1 ≤ turn.before.count dialect block := Scan.one_le_covered _ _
  obtain ⟨char, change⟩ := isTaken.change
  constructor
  case taken =>
    exact isTaken.taken
  case covers =>
    omega
  case goesOn =>
    rw [isTaken.after, length]
    rfl
  case closesString =>
    intro length emit closes
    exact (closes ▸ change).of_closeString
  case closesComment =>
    intro length closes
    exact (closes ▸ change).of_closeComment
  case matchesBrace =>
    intro opening counts
    rw [isTaken.after]
    exact (counts ▸ change).of_brace

/-- A driver stays consistent when it takes its turn. -/
theorem IsConsistent.after
    (consistent : turn.before.IsConsistent dialect anchor block earlier)
    (isTaken : turn.IsTaken dialect block next)
    (inside : turn.before.index < block.length) :
    turn.after.IsConsistent dialect anchor block (earlier ++ [turn]) := by
  have positive : 1 ≤ turn.before.count dialect block := Scan.one_le_covered _ _
  have whole :
      block.take turn.before.index ++ turn.piece =
        block.take (turn.before.index + turn.before.count dialect block) := by
    rw [isTaken.piece, piece, List.take_add]
  obtain ⟨char, change⟩ := isTaken.change
  rw [isTaken.after]
  constructor
  case agrees =>
    exact (consistent.agrees.change change).moveTo _ _
  case nested =>
    exact consistent.nested.change consistent.position positive change _
  case inBlock =>
    exact index_add_count_le dialect inside
  case partition =>
    rw [List.flatMap_append, consistent.partition, List.flatMap_singleton, whole]
    rfl
  case position =>
    simp only [moveTo]
    rw [consistent.position, ← Position.advanceOver_append, whole]
  case counts =>
    have counts := consistent.counts.change rfl change
    exact counts

/-- The loop runs from a consistent driver to the end of the block, by sound turns that each
begin at a consistent driver, where the turn before ended. -/
theorem IsConsistent.exists_turns?
    (consistent : driver.IsConsistent dialect anchor block earlier) :
    ∃ turns final,
      driver.turns? dialect block = some (turns, final) ∧
        final.IsConsistent dialect anchor block (earlier ++ turns) ∧
        final.index = block.length ∧
        (turns.head?.map Turn.before).getD final = driver ∧
        ∀ front turn later, turns = front ++ turn :: later →
          turn.before.IsConsistent dialect anchor block (earlier ++ front) ∧
            turn.IsSound dialect block ∧
            (later.head?.map Turn.before).getD final = turn.after := by
  induction left : block.length - driver.index using Nat.strongRecOn
    generalizing driver earlier with
  | ind left inductionHypothesis =>
    subst left
    by_cases inside : driver.index < block.length
    · obtain ⟨turn, next, rfl, isTaken⟩ :=
        consistent.agrees.exists_isTaken (fun _ => consistent.of_token?) inside
      have sound := isTaken.isSound inside
      have shorter : block.length - turn.after.index < block.length - turn.before.index := by
        have covers := sound.covers
        have goesOn := sound.goesOn
        omega
      obtain ⟨turns, final, runs, ends, complete, begins, passed⟩ :=
        inductionHypothesis _ shorter (consistent.after isTaken inside) rfl
      refine ⟨turn :: turns, final, ?_, by rwa [List.append_cons], complete, rfl, ?_⟩
      · rw [turns?_of_turn? inside isTaken.taken, runs]
        rfl
      · intro front here later split
        cases front with
        | nil =>
            obtain ⟨rfl, rfl⟩ := List.cons.inj split
            rw [List.append_nil]
            exact ⟨consistent, sound, begins⟩
        | cons first front =>
            obtain ⟨rfl, behind⟩ := List.cons.inj split
            rw [List.append_cons]
            exact passed front here later behind
    · refine ⟨[], driver, by rw [turns?, if_neg inside], by rwa [List.append_nil], ?_, rfl, ?_⟩
      · exact Nat.le_antisymm consistent.inBlock (Nat.not_lt.mp inside)
      · intro front here later split
        simp at split

end Run

end Driver

/-- The loop over a block takes the block piece by piece, never reaches out of range and ends
where the block ends.  It stands where the scan of the block stands and yields its events; at
every turn what is open, what waits and what is counted fit what has been done. -/
theorem Dialect.turns?_areConsistent
    (dialect : Dialect)
    (anchor : Position)
    (block : Text) :
    ∃ turns final,
      (Driver.ofAnchor anchor).turns? dialect block = some (turns, final) ∧
        turns.flatMap Driver.Turn.piece = block ∧
        turns.flatMap Driver.Turn.events = dialect.events anchor block ∧
        turns.map Driver.Turn.before ++ [final] =
          (dialect.visited anchor block).map (Scan.driver anchor) ∧
        final.IsConsistent dialect anchor block turns ∧
        final.index = block.length ∧
        ∀ earlier turn later, turns = earlier ++ turn :: later →
          turn.before.IsConsistent dialect anchor block earlier ∧
            turn.IsSound dialect block ∧
            (later.head?.map Driver.Turn.before).getD final = turn.after := by
  obtain ⟨turns, final, runs, ends, complete, -, passed⟩ :=
    (Driver.isConsistent_ofAnchor dialect anchor block).exists_turns?
  obtain ⟨_, _, runsAlong, stands, yields⟩ := dialect.exists_turns?_ofAnchor anchor block
  cases runsAlong.symm.trans runs
  refine ⟨turns, final, runs, ?_, yields, stands, ends, complete, passed⟩
  have partition := ends.partition
  rwa [complete, List.take_length] at partition

/-- A closing brace in a hole that has an open brace of its own is taken from the count. -/
theorem Dialect.turns?_areConsistent_hole :
    let dialect : Dialect := .csharp defaultMarker
    let block := "$\"\x7bx\x7b\x7d".toList
    let hole (depth : Nat) : Driver.Hole := ⟨.interpolated, some ⟨0, .start, 2⟩, depth⟩
    let driver : Driver := ⟨.hole, none, [hole 1], 5, ⟨1, 6, 5⟩⟩
    let final : Driver := ⟨.hole, none, [hole 0], 6, ⟨1, 7, 6⟩⟩
    let turn : Driver.Turn :=
      ⟨driver, .brace false, ['\x7d'], [.code '\x7d' ⟨1, 6, 5⟩ none], final⟩
    ∃ earlier,
      (Driver.ofAnchor .start).turns? dialect block = some (earlier ++ [turn], final) ∧
        Driver.codeInHole 1 earlier = "x\x7b".toList ∧
        driver.IsConsistent dialect .start block earlier ∧
        turn.IsSound dialect block := by
  intro dialect block hole driver final turn
  obtain ⟨turns, last, runs, -, -, -, -, -, passed⟩ := dialect.turns?_areConsistent .start block
  let earlier := turns.take 4
  have evaluated :
      ((Driver.ofAnchor .start).turns? dialect block).map
          (fun run => (run.1.drop 4, run.2, Driver.codeInHole 1 (run.1.take 4))) =
        some ([turn], final, "x\x7b".toList) := by
    simp only [dialect, block, hole, driver, final, turn]
    cbv
  rw [runs] at evaluated
  obtain ⟨lastTurn, rfl, code⟩ := by simpa using evaluated
  have split : turns = earlier ++ [turn] := by
    rw [← lastTurn]
    exact (List.take_append_drop 4 turns).symm
  obtain ⟨consistent, sound, -⟩ := passed earlier turn [] split
  exact ⟨earlier, split ▸ runs, code, consistent, sound⟩

end LocalizationScan
