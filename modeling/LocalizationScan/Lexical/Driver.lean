import LocalizationScan.Lexical.Event

namespace LocalizationScan

/-!
# The driver of a scan

A scan as a loop over the characters of a block.  The driver of the loop keeps
its lexical state, the open token and the waiting strings apart from each other,
and finds a token by an index into the block; nothing in its type makes these
agree.  A turn that reaches for an index or a difference out of range has no
result.
-/

/-- The characters of a text from one index up to another. -/
def Text.slice? (text : Text) (start stop : Nat) : Option Text :=
  if start ≤ stop ∧ stop ≤ text.length then some ((text.take stop).drop start) else none

/-- The difference of two numbers, which is not below zero. -/
def difference? (minuend subtrahend : Nat) : Option Nat :=
  if subtrahend ≤ minuend then some (minuend - subtrahend) else none

namespace Driver

/-- A token that has begun, by the place of its first character. -/
structure Token where
  /-- Number of characters of the block before the token. -/
  index : Nat
  start : Position
  /-- Number of characters of the opening delimiter. -/
  openingLength : Nat
  deriving Repr, DecidableEq

/-- An interpolated string that waits for the end of a hole, with the token it gave up. -/
structure Hole where
  kind : StringKind
  token? : Option Token
  /-- Number of unmatched opening braces in the code of the hole. -/
  depth : Nat
  deriving Repr, DecidableEq

end Driver

/-- What the loop keeps from one turn to the next. -/
structure Driver where
  state : LexicalState
  /-- The token that is open, be it a string or a comment. -/
  token? : Option Driver.Token
  /-- The waiting interpolated strings, innermost first. -/
  holes : List Driver.Hole
  /-- Number of characters of the block that are done. -/
  index : Nat
  position : Position
  deriving Repr, DecidableEq

/-- One turn of the loop, between two drivers. -/
structure Driver.Turn where
  before : Driver
  transition : Transition
  /-- The characters that the turn takes. -/
  piece : Text
  events : List Event
  after : Driver
  deriving Repr, DecidableEq

namespace Driver

/-- The driver at the start of a block. -/
def ofAnchor (anchor : Position) : Driver :=
  ⟨.code, none, [], 0, anchor⟩

/-- The state behind a token: code, or the hole that the token sits in. -/
def restingState (holes : List Hole) : LexicalState :=
  if holes.isEmpty then .code else .hole

/-- The driver when the open token has ended. -/
def rest (driver : Driver) : Driver :=
  { driver with state := restingState driver.holes, token? := none }

/-- The driver with the same registers at another character of the block. -/
def moveTo (driver : Driver) (index : Nat) (position : Position) : Driver :=
  { driver with index := index, position := position }

/-- The string token that ends behind a number of characters. -/
def closeToken?
    (driver : Driver)
    (block : Text)
    (kind : StringKind)
    (token : Token)
    (closingLength : Nat)
    (emit : Bool)
    (count : Nat)
    (stop : Position) :
    Option StringToken := do
  let text ← block.slice? token.index (driver.index + count)
  let bodyEnd ← difference? (driver.index + count) (min closingLength count)
  let body ← block.slice? (token.index + token.openingLength) bodyEnd
  return ⟨kind, text, body, ⟨token.start, stop⟩, emit && driver.holes.isEmpty⟩

/-- What a brace in code does: the one that matches the brace of the innermost hole ends the
hole, all others are counted. -/
def brace (driver : Driver) (opening : Bool) (code : Event) : List Event × Driver :=
  match driver.holes with
  | [] => ([code], driver)
  | hole :: outer =>
      if opening then
        ([code], { driver with holes := { hole with depth := hole.depth + 1 } :: outer })
      else if hole.depth = 0 then
        ([.holeClosed],
          { driver with state := .string hole.kind, token? := hole.token?, holes := outer })
      else
        ([code], { driver with holes := { hole with depth := hole.depth - 1 } :: outer })

/-- What a transition over a number of characters yields, and the driver that it leaves where
it is; `stop` is the position behind these characters, `code` the event for the first one. -/
def react?
    (driver : Driver)
    (block : Text)
    (transition : Transition)
    (count : Nat)
    (stop : Position)
    (code : Event) :
    Option (List Event × Driver) :=
  let opened (length : Nat) : Option Token := some ⟨driver.index, driver.position, length⟩
  match transition with
  | .stay => some (if driver.state.isCode then [code] else [], driver)
  | .escape _ => some ([], driver)
  | .continuation _ => some ([.continuation], driver)
  | .lineComment => some ([.lineComment], driver)
  | .abandon =>
      if driver.state.isCode then some ([code], { driver with token? := none })
      else some ([.stringAbandoned, code], driver.rest)
  | .openString kind length =>
      some ([.stringOpened kind driver.position],
        { driver with state := .string kind, token? := opened length })
  | .closeString length emit =>
      match driver.state, driver.token? with
      | .string kind, some token =>
          (driver.closeToken? block kind token length emit count stop).map fun closed =>
            ([.stringClosed closed], driver.rest)
      | _, _ => some ([], driver.rest)
  | .openHole =>
      match driver.state with
      | .string kind =>
          some ([], { driver with
            state := .hole, token? := none, holes := ⟨kind, driver.token?, 0⟩ :: driver.holes })
      | _ => some ([], driver)
  | .brace opening => some (driver.brace opening code)
  | .openComment _ =>
      some ([.commentOpened], { driver with state := .comment, token? := opened count })
  | .closeComment _ =>
      match driver.token? with
      | some token =>
          (block.slice? token.index (driver.index + count)).map fun text =>
            ([.commentClosed text], driver.rest)
      | none => some ([], driver.rest)

/-- The transition that the character at the index of a driver begins. -/
def transition (dialect : Dialect) (block : Text) (driver : Driver) : Transition :=
  dialect.classify driver.state (block.take driver.index).getLast? (block.drop driver.index)

/-- Number of characters that this transition covers. -/
def count (dialect : Dialect) (block : Text) (driver : Driver) : Nat :=
  (driver.transition dialect block).covered (block.drop driver.index)

/-- The turn of a driver at a character of the block. -/
def turn? (dialect : Dialect) (block : Text) (driver : Driver) : Option Turn := do
  let char ← block[driver.index]?
  let transition := driver.transition dialect block
  let count := driver.count dialect block
  let piece ← block.slice? driver.index (driver.index + count)
  let stop := driver.position.advanceOver piece
  let code := Event.code char driver.position block[driver.index + count]?
  let (events, next) ← driver.react? block transition count stop code
  return ⟨driver, transition, piece, events, next.moveTo (driver.index + count) stop⟩

/-- A turn goes on to the character behind those that its transition covers. -/
theorem index_of_turn?
    {dialect : Dialect}
    {block : Text}
    {driver : Driver}
    {turn : Turn}
    (turns : driver.turn? dialect block = some turn) :
    turn.after.index = driver.index + driver.count dialect block := by
  simp only [turn?, Option.bind_eq_bind, Option.bind_eq_some_iff] at turns
  obtain ⟨char, -, piece, -, ⟨events, next⟩, -, same⟩ := turns
  cases same
  rfl

/-- The turns of the loop to the end of the block, and the driver there.  Where a receiver of
the events fails the loop stops early, and the turns up to there are the first of these. -/
def turns? (dialect : Dialect) (block : Text) (driver : Driver) : Option (List Turn × Driver) :=
  if driver.index < block.length then
    match _ : driver.turn? dialect block with
    | none => none
    | some turn =>
        (turn.after.turns? dialect block).map fun (later, final) => (turn :: later, final)
  else
    some ([], driver)
termination_by block.length - driver.index
decreasing_by
  have advances : 1 ≤ driver.count dialect block := Scan.one_le_covered _ _
  have goesOn := index_of_turn? ‹_›
  omega

end Driver

end LocalizationScan
