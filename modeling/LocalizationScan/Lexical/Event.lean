import LocalizationScan.Lexical.Dialect
import LocalizationScan.Position

namespace LocalizationScan

/-!
# Lexical events

A scan walks once over a block of code and yields what it meets as a list of
events: characters of code, strings, comments, line continuations and the ends
of holes.  The cursor says where the scan stands in the text; the control says
which token is open and which interpolated strings wait for the end of a hole.
Unterminated strings and comments at the end of the text yield no event.
-/

/-- A complete string token. -/
structure StringToken where
  kind : StringKind
  /-- Text of the token with its delimiters. -/
  text : Text
  /-- Text between the delimiters, escapes not decoded. -/
  body : Text
  span : Span
  /-- Whether the token is reported as a literal. -/
  emit : Bool
  deriving Repr, DecidableEq

/-- What a scan meets. -/
inductive Event where
  /-- A character outside strings and comments, where it sits, and what follows it. -/
  | code (char : Char) (position : Position) (next : Option Char)
  | stringOpened (kind : StringKind) (position : Position)
  | stringClosed (token : StringToken)
  /-- A string that cannot go on; its text so far is dropped. -/
  | stringAbandoned
  | commentOpened
  /-- The end of a block comment, with its text from `/*` to `*/`. -/
  | commentClosed (text : Text)
  | lineComment
  | continuation
  /-- The closing brace of a hole; string text follows. -/
  | holeClosed
  deriving Repr, DecidableEq

/-- Where a scan stands. -/
structure Cursor where
  /-- The character before the next one, if the block has one. -/
  before : Option Char
  /-- The text that is still to be scanned. -/
  rest : Text
  /-- Position of the first character of the rest. -/
  position : Position
  deriving Repr, DecidableEq

/-- The cursor at the start of a block. -/
def Cursor.ofBlock (anchor : Position) (block : Text) : Cursor :=
  ⟨none, block, anchor⟩

/-- The cursor after a number of characters. -/
def Cursor.skip (cursor : Cursor) (count : Nat) : Cursor where
  before := ((cursor.rest.take count).getLast?).or cursor.before
  rest := cursor.rest.drop count
  position := cursor.position.advanceOver (cursor.rest.take count)

/-- A token that has been opened and not yet closed. -/
structure OpenToken where
  start : Position
  /-- The text from the first character of the token on. -/
  text : Text
  /-- Number of characters of the opening delimiter. -/
  openingLength : Nat
  deriving Repr, DecidableEq

/-- The text of an open token up to a position behind it. -/
def OpenToken.textTo (token : OpenToken) (stop : Position) : Text :=
  token.text.take (stop.offset - token.start.offset)

/-- An interpolated string that waits while the code of one of its holes is scanned. -/
structure Hole where
  kind : StringKind
  token : OpenToken
  /-- Number of unmatched opening braces in the code of the hole. -/
  depth : Nat
  deriving Repr, DecidableEq

/-- What a scan is inside of, the innermost token apart from the waiting strings. -/
inductive Mode where
  /-- In code: that of the block, or that of the innermost hole. -/
  | resting
  | inString (kind : StringKind) (token : OpenToken)
  | inComment (token : OpenToken)
  deriving Repr, DecidableEq

/-- The open token and the waiting interpolated strings, innermost first. -/
structure Control where
  mode : Mode
  holes : List Hole
  deriving Repr, DecidableEq

namespace Control

/-- Nothing is open at the start of a block. -/
def initial : Control := ⟨.resting, []⟩

/-- The lexical state that a dialect is asked about. -/
def lexicalState (control : Control) : LexicalState :=
  match control.mode with
  | .resting => if control.holes.isEmpty then .code else .hole
  | .inString kind _ => .string kind
  | .inComment _ => .comment

/-- The control when the innermost token has ended. -/
def rest (control : Control) : Control :=
  { control with mode := .resting }

/-- A string token that ends at the given position. -/
def closeToken
    (control : Control)
    (kind : StringKind)
    (token : OpenToken)
    (closingLength : Nat)
    (emit : Bool)
    (stop : Position) :
    StringToken where
  kind := kind
  text := token.textTo stop
  body :=
    let text := token.textTo stop
    (text.take (text.length - closingLength)).drop token.openingLength
  span := ⟨token.start, stop⟩
  emit := emit && control.holes.isEmpty

/-- What a brace in code does: the one that matches the brace of the innermost hole
ends the hole, all others are counted. -/
def brace (control : Control) (opening : Bool) (code : Event) : List Event × Control :=
  match control.holes with
  | [] => ([code], control)
  | hole :: outer =>
      if opening then
        ([code], { control with holes := { hole with depth := hole.depth + 1 } :: outer })
      else if hole.depth = 0 then
        ([.holeClosed], ⟨.inString hole.kind hole.token, outer⟩)
      else
        ([code], { control with holes := { hole with depth := hole.depth - 1 } :: outer })

/-- What a transition yields and changes, given the cursors before and after it and the
code event for the character in front of it. -/
def react
    (control : Control)
    (transition : Transition)
    (before after : Cursor)
    (code : Event) :
    List Event × Control :=
  let opened (length : Nat) : OpenToken := ⟨before.position, before.rest, length⟩
  match transition with
  | .stay => (if control.mode = .resting then [code] else [], control)
  | .escape _ => ([], control)
  | .continuation _ => ([.continuation], control)
  | .lineComment => ([.lineComment], control)
  | .abandon =>
      (if control.mode = .resting then [code] else [.stringAbandoned, code], control.rest)
  | .openString kind length =>
      ([.stringOpened kind before.position],
        { control with mode := .inString kind (opened length) })
  | .closeString length emit =>
      match control.mode with
      | .inString kind token =>
          ([.stringClosed (control.closeToken kind token length emit after.position)],
            control.rest)
      | _ => ([], control.rest)
  | .openComment length =>
      ([.commentOpened], { control with mode := .inComment (opened length) })
  | .closeComment _ =>
      match control.mode with
      | .inComment token => ([.commentClosed (token.textTo after.position)], control.rest)
      | _ => ([], control.rest)
  | .openHole =>
      match control.mode with
      | .inString kind token => ([], ⟨.resting, ⟨kind, token, 0⟩ :: control.holes⟩)
      | _ => ([], control)
  | .brace opening => control.brace opening code

end Control

/-- Number of characters that a transition covers at the start of a non-empty rest. -/
def Transition.covered (transition : Transition) (rest : Text) : Nat :=
  let length :=
    match transition with
    | .stay | .abandon | .openHole | .brace _ => 1
    | .lineComment => (rest.takeWhile (· ≠ '\n')).length
    | .openString _ length | .escape length | .closeString length _
    | .openComment length | .closeComment length | .continuation length => length
  max 1 (min length rest.length)

/-- A scan on its way through a block. -/
structure Scan where
  control : Control
  cursor : Cursor
  deriving Repr, DecidableEq

namespace Scan

/-- The scan at the start of a block. -/
def ofBlock (anchor : Position) (block : Text) : Scan :=
  ⟨.initial, .ofBlock anchor block⟩

/-- The transition at the cursor. -/
def transition (dialect : Dialect) (scan : Scan) : Transition :=
  dialect.classify scan.control.lexicalState scan.cursor.before scan.cursor.rest

/-- The cursor after the transition at the cursor. -/
def nextCursor (dialect : Dialect) (scan : Scan) : Cursor :=
  scan.cursor.skip ((scan.transition dialect).covered scan.cursor.rest)

/-- The events of one step at a given next character, and the scan after it. -/
def step (dialect : Dialect) (scan : Scan) (char : Char) : List Event × Scan :=
  let after := scan.nextCursor dialect
  let code := Event.code char scan.cursor.position after.rest.head?
  let (events, control) :=
    scan.control.react (scan.transition dialect) scan.cursor after code
  (events, ⟨control, after⟩)

/-- Every transition covers at least one character. -/
theorem one_le_covered (transition : Transition) (rest : Text) :
    1 ≤ transition.covered rest :=
  Nat.le_max_left 1 _

/-- The rest after a step is shorter. -/
theorem length_rest_step_lt
    (dialect : Dialect)
    (scan : Scan)
    (char : Char)
    (nonempty : scan.cursor.rest ≠ []) :
    (scan.step dialect char).2.cursor.rest.length < scan.cursor.rest.length := by
  have covered := one_le_covered (scan.transition dialect) scan.cursor.rest
  have positive := List.length_pos_iff.mpr nonempty
  simp only [step, nextCursor, Cursor.skip, List.length_drop]
  omega

/-- The events from the cursor to the end of the block. -/
def events (dialect : Dialect) (scan : Scan) : List Event :=
  match _ : scan.cursor.rest with
  | [] => []
  | char :: _ =>
      (scan.step dialect char).1 ++ events dialect (scan.step dialect char).2
termination_by scan.cursor.rest.length
decreasing_by exact length_rest_step_lt dialect scan char (by simp [*])

end Scan

/-- The events of a block of code whose first character sits at the anchor. -/
def Dialect.events (dialect : Dialect) (anchor : Position) (block : Text) : List Event :=
  (Scan.ofBlock anchor block).events dialect

end LocalizationScan
