import LocalizationScan.Reference.Chain

namespace LocalizationScan

/-!
# References by segments

What the references of a block are, said without following characters.  The
events of a block are read as identifiers and what separates them.  Identifiers
that are joined by single dots form a chain, and a walk along the chain goes
from segment to segment over the paths of the entries.
-/

/-- What stands between two identifiers. -/
inductive Separator where
  | dot
  /-- White space, a closed block comment or a line continuation. -/
  | blank
  /-- Anything else that is met. -/
  | cut
  deriving Repr, DecidableEq

/-- What an event is to a chain. -/
inductive Mark where
  | identifier
      (char : Char)
      (position : Position)
      (isIdentifier : Text.isIdentifierChar char = true)
  | separator (separator : Separator)

def Mark.ofChar (char : Char) (position : Position) : Mark :=
  if isIdentifier : Text.isIdentifierChar char = true then
    .identifier char position isIdentifier
  else if char = '.' then .separator .dot
  else if Text.isBlank char then .separator .blank
  else .separator .cut

/-- The mark of an event; a comment that opens counts when it is closed, and a string when
it opens. -/
def Event.mark? : Event → Option Mark
  | .code char position _ => some (.ofChar char position)
  | .commentClosed _ | .continuation => some (.separator .blank)
  | .stringOpened _ _ | .lineComment | .holeClosed => some (.separator .cut)
  | .stringClosed _ | .stringAbandoned | .commentOpened => none

/-- A run of identifier characters. -/
structure Segment where
  text : Text
  start : Position
  /-- Position behind the last character. -/
  stop : Position
  nonempty : text ≠ []
  isIdentifier : ∀ char ∈ text, Text.isIdentifierChar char = true

namespace Segment

def single
    (char : Char)
    (position : Position)
    (isIdentifier : Text.isIdentifierChar char = true) :
    Segment where
  text := [char]
  start := position
  stop := position.advance char
  nonempty := by simp
  isIdentifier := by simpa using isIdentifier

def push
    (segment : Segment)
    (char : Char)
    (position : Position)
    (isIdentifier : Text.isIdentifierChar char = true) :
    Segment where
  text := char :: segment.text
  start := position
  stop := segment.stop
  nonempty := by simp
  isIdentifier := by simpa using ⟨isIdentifier, segment.isIdentifier⟩

/-- Segments with single dots between them. -/
def joined (segments : List Segment) : Text :=
  Text.joinWith ['.'] (segments.map text)

/-- From the start of the first segment to the end of the last one. -/
def spanOf (segments : List Segment) : Span where
  start := (segments.head?.map start).getD .start
  stop := (segments.getLast?.map stop).getD .start

end Segment

/-- A segment and what stands between it and the segment before it. -/
structure Link where
  gap : List Separator
  segment : Segment

/-- Whether the segment goes on with the chain of the segment before it: one dot stands
between them, and nothing else but blanks. -/
def Link.joins (link : Link) : Bool :=
  link.gap.filter (· ≠ .blank) = [.dot]

/-- The segments among marks; identifier characters with nothing between them are one
segment. -/
def linksOf : List Mark → List Link
  | [] => []
  | .identifier char position isIdentifier :: marks =>
      match linksOf marks with
      | ⟨[], segment⟩ :: links => ⟨[], segment.push char position isIdentifier⟩ :: links
      | links => ⟨[], .single char position isIdentifier⟩ :: links
  | .separator separator :: marks =>
      match linksOf marks with
      | link :: links => { link with gap := separator :: link.gap } :: links
      | [] => []

/-- Chains of segments: every link that does not join the one before it begins a chain. -/
def chainsOf : List Link → List (List Segment)
  | [] => []
  | link :: links =>
      (link.segment :: (links.takeWhile Link.joins).map Link.segment) ::
        chainsOf (links.dropWhile Link.joins)
termination_by links => links.length
decreasing_by exact Nat.lt_succ_of_le (List.dropWhile_suffix _).length_le

/-- Whether a text begins one of some paths. -/
def BeginsPath (paths : List Text) (text : Text) : Prop :=
  ∃ path ∈ paths, text <+: path

instance (paths : List Text) (text : Text) : Decidable (BeginsPath paths text) :=
  inferInstanceAs (Decidable (∃ path ∈ paths, text <+: path))

/-- The path that a walk has taken behind one more segment: it goes on behind a dot when
some path goes on with the first character of the segment, and begins anew otherwise. -/
def advanceWalk (paths : List Text) (walked? : Option Text) (segment : Text) : Option Text :=
  let path :=
    match walked? with
    | none => segment
    | some walked =>
        if BeginsPath paths (walked ++ '.' :: segment.take 1) then walked ++ '.' :: segment
        else segment
  if BeginsPath paths path then some path else none

/-- The path that a walk has taken behind some segments, if it is on one. -/
def walkOf (paths : List Text) (segments : List Segment) : Option Text :=
  (segments.map Segment.text).foldl (advanceWalk paths) none

section Specification

variable (entries : List Entry) (scope : Scope) (preferred? : Option Origin) (flags : ItemFlags)

/-- The reference that segments stand for whose walk ends on a path. -/
def segmentReference? (segments : List Segment) : Except ScopeError (Option Reference) :=
  match walkOf (entries.flatMap Entry.paths) segments with
  | none => .ok none
  | some path =>
      if (entries.flatMap Entry.paths).contains path then
        match DottedReference.ofText? (Segment.joined segments) with
        | none => .ok none
        | some dotted =>
            let candidates := entries.filter fun entry => entry.paths.contains path
            (ResolveContext.resolve ⟨.ofList entries, scope, preferred?⟩ dotted candidates).map
              fun found =>
                found.map fun entry => .ofEntry dotted entry (Segment.spanOf segments) flags
      else
        .ok none

/-- The reference of a chain: that of its shortest start of two or more segments which
stands for one. -/
def chainReference? (chain : List Segment) : Except ScopeError (Option Reference) :=
  (List.range' 2 (chain.length - 1)).findSomeM? fun count =>
    segmentReference? entries scope preferred? flags (chain.take count)

def chainReferences (chains : List (List Segment)) : Except ScopeError (List Reference) :=
  (chains.mapM (chainReference? entries scope preferred? flags)).map (·.filterMap id)

end Specification

/-- The chains of a block whose first character sits at the anchor. -/
def Dialect.chains (dialect : Dialect) (anchor : Position) (block : Text) :
    List (List Segment) :=
  chainsOf (linksOf ((dialect.events anchor block).filterMap Event.mark?))

end LocalizationScan
