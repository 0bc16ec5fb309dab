import LocalizationScan.Lexical.Event
import LocalizationScan.Text.Blank

namespace LocalizationScan

/-!
# String literals

The string literals of a block are the emitted string tokens of its scan, in
order.  A literal is marked when the no-localize comment stands right before
it, with nothing but white space between.
-/

/-- What is known about the surroundings of an item. -/
structure ItemFlags where
  /-- The block lies where localization is disabled. -/
  withinNoLocalizeScope : Bool
  /-- A no-localize comment stands right before the literal. -/
  markedUnlocalizable : Bool
  /-- The text comes from a generated file. -/
  fromGeneratedSource : Bool
  deriving Repr, DecidableEq

/-- Flags of an item about which nothing special is known. -/
def ItemFlags.none : ItemFlags := ⟨false, false, false⟩

/-- Whether an item should stay as it is. -/
def ItemFlags.isUnlocalizable (flags : ItemFlags) : Bool :=
  flags.withinNoLocalizeScope || flags.markedUnlocalizable

/-- A string literal in code. -/
structure Literal where
  /-- The literal as written, delimiters included. -/
  text : Text
  /-- The value after decoding. -/
  value : Text
  span : Span
  verbatim : Bool
  flags : ItemFlags
  deriving Repr, DecidableEq

namespace Literal

/-- Number of characters before the literal in its file. -/
def offset (literal : Literal) : Nat :=
  literal.span.start.offset

/-- Number of characters of the literal. -/
def length (literal : Literal) : Nat :=
  literal.span.length

/-- The literal of a token, with the flags of its block and its own mark. -/
def ofToken
    (dialect : Dialect)
    (flags : ItemFlags)
    (marked : Bool)
    (token : StringToken) :
    Literal where
  text := token.text
  value := dialect.decode token.kind token.body
  span := token.span
  verbatim := token.kind == .verbatim
  flags := { flags with markedUnlocalizable := marked }

end Literal

/-- What the search for literals remembers about the marker comment. -/
structure MarkerState where
  /-- The marker was met, and only white space since. -/
  pending : Bool
  /-- The marker stood right before the string that is open. -/
  captured : Bool
  deriving Repr, DecidableEq

namespace MarkerState

/-- No marker has been met. -/
def initial : MarkerState := ⟨false, false⟩

/-- What an event changes about the marker. -/
def next (marker? : Option Text) (state : MarkerState) : Event → MarkerState
  | .code char _ _ => if Text.isBlank char then state else { state with pending := false }
  | .stringOpened _ _ => ⟨false, state.pending⟩
  | .stringClosed _ => { state with captured := false }
  | .stringAbandoned => { state with captured := false }
  | .commentClosed text => { state with pending := marker? = some text }
  | .lineComment => { state with pending := false }
  | .commentOpened | .continuation | .holeClosed => state

end MarkerState

/-- The literal that an event completes. -/
def Event.literal?
    (dialect : Dialect)
    (flags : ItemFlags)
    (state : MarkerState) :
    Event → Option Literal
  | .stringClosed token =>
      if token.emit then some (.ofToken dialect flags state.captured token) else none
  | _ => none

/-- The literals among events, in order. -/
def literalsOfEvents
    (dialect : Dialect)
    (flags : ItemFlags) :
    MarkerState → List Event → List Literal
  | _, [] => []
  | state, event :: events =>
      (event.literal? dialect flags state).toList ++
        literalsOfEvents dialect flags (state.next dialect.marker? event) events

/-- The literals of a block whose first character sits at the anchor. -/
def Dialect.literals
    (dialect : Dialect)
    (flags : ItemFlags)
    (anchor : Position)
    (block : Text) :
    List Literal :=
  literalsOfEvents dialect flags .initial (dialect.events anchor block)

/-- The literals of a block, unless its anchor is no position of a file. -/
def findLiterals
    (dialect : Dialect)
    (flags : ItemFlags)
    (anchor : Position)
    (block : Text) :
    Except AnchorError (List Literal) :=
  anchor.asAnchor.map fun anchor => dialect.literals flags anchor block

end LocalizationScan
