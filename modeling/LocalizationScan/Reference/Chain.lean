import LocalizationScan.Lexical.Event
import LocalizationScan.Literal
import LocalizationScan.Reference.Resolve

namespace LocalizationScan

/-!
# References in code

Chains of identifiers and dots are followed through the trie character by
character.  A chain is reported once, at the first segment whose end is a
terminal node and that resolves to an entry.  White space, block comments and
line continuations may stand around the dots of a chain; everything else that
is no part of a chain ends it.
-/

/-- A reference to a resource entry in code. -/
structure Reference where
  /-- The chain as written, without comments and white space. -/
  originalText : Text
  /-- Full name of the class, and the key segment. -/
  fullText : Text
  key : Text
  value : Text
  origin : Origin
  span : Span
  flags : ItemFlags
  deriving Repr, DecidableEq

namespace Reference

/-- Number of characters before the reference in its file. -/
def offset (reference : Reference) : Nat :=
  reference.span.start.offset

/-- Number of characters from the start to the end of the reference. -/
def length (reference : Reference) : Nat :=
  reference.span.length

/-- The reference that a resolved chain stands for. -/
def ofEntry (dotted : DottedReference) (entry : Entry) (span : Span) (flags : ItemFlags) :
    Reference where
  originalText := dotted.toText
  fullText := entry.origin.qualifiedClass ++ '.' :: dotted.key
  key := entry.key
  value := entry.value
  origin := entry.origin
  span := span
  flags := flags

end Reference

/-- Where a chain stands relative to the last event. -/
inductive ChainState where
  /-- Not inside a chain. -/
  | idle
  /-- Inside a segment. -/
  | segment
  /-- Behind a segment and white space; a dot continues the chain. -/
  | afterSegment
  /-- Behind a dot; a segment continues the chain. -/
  | afterDot
  deriving Repr, DecidableEq

/-- A chain on its way through the trie. -/
structure Chain where
  state : ChainState
  start : Position
  /-- The identifiers and dots so far. -/
  text : Text
  /-- The node that the walk has reached; the root when the walk has left the trie. -/
  node : Trie.Node
  /-- The chain has been reported. -/
  consumed : Bool
  deriving Repr, DecidableEq

namespace Chain

/-- No chain. -/
def idle : Chain := ⟨.idle, .start, [], Trie.root, false⟩

/-- Whether the walk of the chain is inside the trie. -/
def isAlive (chain : Chain) : Bool :=
  chain.node ≠ Trie.root

/-- Follow a character, unless the walk has left the trie. -/
def follow (chain : Chain) (trie : Trie) (char : Char) : Trie.Node :=
  if chain.isAlive then trie.step chain.node char else Trie.root

/-- Follow the first character of a segment behind a dot: a walk that cannot go on there
starts again at the root. -/
def followOrRestart (chain : Chain) (trie : Trie) (char : Char) : Trie.Node :=
  let node := chain.follow trie char
  if node = Trie.root then trie.step Trie.root char else node

/-- Take up an identifier character. -/
def identifier (chain : Chain) (trie : Trie) (char : Char) (position : Position) : Chain :=
  match chain.state with
  | .idle | .afterSegment =>
      ⟨.segment, position, [char], trie.step Trie.root char, false⟩
  | .afterDot =>
      { chain with
        state := .segment
        text := chain.text ++ [char]
        node := chain.followOrRestart trie char }
  | .segment =>
      { chain with
        text := chain.text ++ [char]
        node := chain.follow trie char }

/-- Take up a dot; one that does not follow a segment ends the chain. -/
def dot (chain : Chain) (trie : Trie) : Chain :=
  match chain.state with
  | .segment | .afterSegment =>
      { chain with
        state := .afterDot
        text := chain.text ++ ['.']
        node := chain.follow trie '.' }
  | .idle | .afterDot => idle

/-- Take up white space, or what counts as such. -/
def blank (chain : Chain) : Chain :=
  match chain.state with
  | .segment => { chain with state := .afterSegment }
  | .idle | .afterSegment | .afterDot => chain

/-- The reference that a chain stands for at the end of a segment. -/
def resolved
    (chain : Chain)
    (context : ResolveContext)
    (flags : ItemFlags)
    (stop : Position) :
    Except ScopeError (Option Reference) :=
  if chain.consumed || !chain.isAlive || !context.trie.isTerminal chain.node then
    .ok none
  else
    match DottedReference.ofText? chain.text with
    | none => .ok none
    | some dotted =>
        (context.resolve dotted (context.trie.entriesAt chain.node)).map fun found =>
          found.map fun entry => .ofEntry dotted entry ⟨chain.start, stop⟩ flags

/-- The chain after a character of code, and the reference that it completes. -/
def code
    (chain : Chain)
    (context : ResolveContext)
    (flags : ItemFlags)
    (char : Char)
    (position : Position)
    (next : Option Char) :
    Except ScopeError (Chain × Option Reference) :=
  if Text.isIdentifierChar char then
    let longer := chain.identifier context.trie char position
    if next.any Text.isIdentifierChar then
      .ok (longer, none)
    else
      (longer.resolved context flags (position.advance char)).map fun found =>
        ({ longer with consumed := longer.consumed || found.isSome }, found)
  else if char = '.' then
    .ok (chain.dot context.trie, none)
  else if Text.isBlank char then
    .ok (chain.blank, none)
  else
    .ok (idle, none)

/-- The chain after an event, and the reference that the event completes. -/
def next
    (chain : Chain)
    (context : ResolveContext)
    (flags : ItemFlags) :
    Event → Except ScopeError (Chain × Option Reference)
  | .code char position next => chain.code context flags char position next
  | .stringOpened _ _ | .lineComment | .holeClosed => .ok (idle, none)
  | .commentClosed _ | .continuation => .ok (chain.blank, none)
  | .stringClosed _ | .stringAbandoned | .commentOpened => .ok (chain, none)

end Chain

/-- The references among events, in order; the first scope error ends the search. -/
def referencesOfEvents
    (context : ResolveContext)
    (flags : ItemFlags) :
    Chain → List Event → Except ScopeError (List Reference)
  | _, [] => .ok []
  | chain, event :: events => do
      let (chain, found) ← chain.next context flags event
      let later ← referencesOfEvents context flags chain events
      return found.toList ++ later

/-- The references of a block whose first character sits at the anchor. -/
def Dialect.references
    (dialect : Dialect)
    (context : ResolveContext)
    (flags : ItemFlags)
    (anchor : Position)
    (block : Text) :
    Except ScopeError (List Reference) :=
  referencesOfEvents context flags .idle (dialect.events anchor block)

/-- Why a block could not be scanned. -/
inductive ScanError where
  | anchor (error : AnchorError)
  | scope (error : ScopeError)
  deriving Repr, DecidableEq

/-- The wording of a scan error. -/
def ScanError.message : ScanError → Text
  | .anchor error => error.message
  | .scope error => error.message

/-- The references of a block, unless its anchor is no position of a file or the scope
cannot be used. -/
def findReferences
    (dialect : Dialect)
    (context : ResolveContext)
    (flags : ItemFlags)
    (anchor : Position)
    (block : Text) :
    Except ScanError (List Reference) :=
  match anchor.asAnchor with
  | .error error => .error (.anchor error)
  | .ok anchor => (dialect.references context flags anchor block).mapError .scope

end LocalizationScan
