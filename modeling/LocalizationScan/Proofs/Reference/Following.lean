import LocalizationScan.Proofs.Reference.Segments
import LocalizationScan.Proofs.Scan.Lookahead
import LocalizationScan.Proofs.Trie.Paths

namespace LocalizationScan

/-!
# Following chains

The chain that is followed character by character is in a known state behind
each segment: it has the text and the start of the segments read so far, and
the node that their walk has reached.  From this the references of a block are
those that are said by segments.
-/

namespace Chain

/-- The chain behind a separator. -/
def pass (trie : Trie) (chain : Chain) : Separator → Chain
  | .dot => chain.dot trie
  | .blank => chain.blank
  | .cut => idle

/-- The chain behind all characters of a segment. -/
def read (trie : Trie) (chain : Chain) (segment : Segment) : Chain :=
  segment.text.foldl (fun chain char => chain.identifier trie char segment.start) chain

/-- The references of links, when a chain has been followed up to them. -/
def followLinks (context : ResolveContext) (flags : ItemFlags) :
    Chain → List Link → Except ScopeError (List Reference)
  | _, [] => .ok []
  | chain, link :: links => do
      let behind := (link.gap.foldl (pass context.trie) chain).read context.trie link.segment
      let found ← behind.resolved context flags link.segment.stop
      let later ← followLinks context flags
        { behind with consumed := behind.consumed || found.isSome } links
      return found.toList ++ later

end Chain

section Links

/-- Links begin inside a segment when their marks go on with an identifier character. -/
theorem linksOf_of_goesOn
    {marks : List Mark}
    (identifierNext : goesOn marks = true) :
    ∃ segment links, linksOf marks = ⟨[], segment⟩ :: links := by
  cases marks with
  | nil =>
      cases identifierNext
  | cons mark marks =>
      cases mark with
      | separator separator =>
          cases identifierNext
      | identifier char position isIdentifier =>
          unfold linksOf
          split <;> exact ⟨_, _, rfl⟩

/-- A separator widens the gap before the first segment. -/
theorem linksOf_separator (separator : Separator) (marks : List Mark) :
    linksOf (.separator separator :: marks) = [] ∧ linksOf marks = [] ∨
      ∃ link links,
        linksOf (.separator separator :: marks) =
            { link with gap := separator :: link.gap } :: links ∧
          linksOf marks = link :: links := by
  cases behind : linksOf marks with
  | nil =>
      exact .inl ⟨by simp [linksOf, behind], rfl⟩
  | cons link links =>
      exact .inr ⟨link, links, by simp [linksOf, behind], rfl⟩

theorem linksOf_identifier
    {char : Char}
    {position : Position}
    {isIdentifier : Text.isIdentifierChar char = true}
    {marks : List Mark}
    (ends : goesOn marks = false) :
    linksOf (.identifier char position isIdentifier :: marks) =
      ⟨[], .single char position isIdentifier⟩ :: linksOf marks := by
  cases marks with
  | nil =>
      rfl
  | cons mark marks =>
      cases mark with
      | identifier =>
          cases ends
      | separator separator =>
          rcases linksOf_separator separator marks with ⟨here, _⟩ | ⟨link, links, here, _⟩ <;>
            rw [linksOf, here]

/-- Something stands between each two segments. -/
theorem gap_ne_nil_of_mem_tail
    (marks : List Mark)
    {link : Link}
    (member : link ∈ (linksOf marks).tail) :
    link.gap ≠ [] := by
  induction marks with
  | nil =>
      cases member
  | cons mark marks inductionHypothesis =>
      cases mark with
      | separator separator =>
          rcases linksOf_separator separator marks with
              ⟨here, behind⟩ | ⟨first, links, here, behind⟩
          · rw [here] at member
            cases member
          · rw [here] at member
            rw [behind] at inductionHypothesis
            exact inductionHypothesis member
      | identifier char position isIdentifier =>
          by_cases identifierNext : goesOn marks = true
          · obtain ⟨segment, links, behind⟩ := linksOf_of_goesOn identifierNext
            simp only [linksOf, behind, List.tail_cons] at member inductionHypothesis
            exact inductionHypothesis member
          · simp only [Bool.not_eq_true] at identifierNext
            rw [linksOf_identifier identifierNext, List.tail_cons] at member
            cases marks with
            | nil =>
                cases member
            | cons next marks =>
                cases next with
                | identifier =>
                    cases identifierNext
                | separator separator =>
                    -- The segment ends here, and the separator behind it widens the next gap.
                    rcases linksOf_separator separator marks with
                        ⟨here, _⟩ | ⟨first, links, here, _⟩
                    · rw [here] at member
                      cases member
                    · rw [here] at member inductionHypothesis
                      rcases List.mem_cons.mp member with rfl | later
                      · simp
                      · exact inductionHypothesis later

end Links

@[simp] theorem Segment.stop_single
    (char : Char)
    (position : Position)
    (isIdentifier : Text.isIdentifierChar char = true) :
    (single char position isIdentifier).stop = position.advance char :=
  rfl

namespace Chain

section Events

variable {context : ResolveContext} {flags : ItemFlags}

theorem identifier_foldl_eq
    (trie : Trie)
    (first second : Position)
    (text : Text)
    {chain : Chain}
    (inSegment : chain.state = .segment) :
    text.foldl (fun chain char => chain.identifier trie char first) chain =
      text.foldl (fun chain char => chain.identifier trie char second) chain := by
  induction text generalizing chain with
  | nil =>
      rfl
  | cons char rest inductionHypothesis =>
      have same :
          chain.identifier trie char first = chain.identifier trie char second := by
        simp [identifier, inSegment]
      have inSegmentNext : (chain.identifier trie char second).state = .segment := by
        simp [identifier, inSegment]
      simp only [List.foldl_cons, same]
      exact inductionHypothesis inSegmentNext

theorem identifier_state
    (chain : Chain)
    (trie : Trie)
    (char : Char)
    (position : Position) :
    (chain.identifier trie char position).state = .segment := by
  cases state : chain.state <;> simp [identifier, state]

theorem read_single
    (trie : Trie)
    (chain : Chain)
    {char : Char}
    {position : Position}
    (isIdentifier : Text.isIdentifierChar char = true) :
    chain.read trie (.single char position isIdentifier) =
      chain.identifier trie char position :=
  rfl

theorem read_push
    (trie : Trie)
    (chain : Chain)
    (segment : Segment)
    {char : Char}
    {position : Position}
    (isIdentifier : Text.isIdentifierChar char = true) :
    chain.read trie (segment.push char position isIdentifier) =
      (chain.identifier trie char position).read trie segment :=
  identifier_foldl_eq trie _ _ segment.text (chain.identifier_state trie char position)

/-- Behind a link, its reference stands in front of those of the links behind it. -/
theorem followLinks_cons
    (chain : Chain)
    (link : Link)
    (links : List Link) :
    chain.followLinks context flags (link :: links) =
      let behind := (link.gap.foldl (pass context.trie) chain).read context.trie link.segment
      match behind.resolved context flags link.segment.stop with
      | .error error => .error error
      | .ok found =>
          (followLinks context flags
            { behind with consumed := behind.consumed || found.isSome } links).map
              (found.toList ++ ·) := by
  simp only [followLinks]
  split
  · rename_i resolved
    rw [resolved]
    rfl
  · rename_i found resolved
    rw [resolved]
    show (followLinks context flags _ links >>= _) = _
    cases followLinks context flags _ links <;> rfl

theorem followLinks_separator
    (chain : Chain)
    (separator : Separator)
    (marks : List Mark) :
    chain.followLinks context flags (linksOf (.separator separator :: marks)) =
      (chain.pass context.trie separator).followLinks context flags (linksOf marks) := by
  rcases linksOf_separator separator marks with
      ⟨here, behind⟩ | ⟨link, links, here, behind⟩ <;>
    rw [here, behind] <;> rfl

theorem next_of_mark?_none
    (chain : Chain)
    {event : Event}
    (unmarked : event.mark? = none) :
    chain.next context flags event = .ok (chain, none) := by
  cases event with
  | stringClosed | stringAbandoned | commentOpened =>
      rfl
  | _ =>
      cases unmarked

theorem next_of_mark?_separator
    (chain : Chain)
    {event : Event}
    {separator : Separator}
    (marked : event.mark? = some (.separator separator)) :
    chain.next context flags event = .ok (chain.pass context.trie separator, none) := by
  cases event with
  | code char position following =>
      simp only [Event.mark?, Mark.ofChar, Option.some.injEq] at marked
      simp only [next, code]
      split at marked
      · cases marked
      · rename_i noIdentifier
        simp only [noIdentifier, Bool.false_eq_true, ↓reduceIte]
        split at marked
        · rename_i isDot
          cases marked
          simp only [isDot, ↓reduceIte, pass]
        · rename_i noDot
          split at marked
          · rename_i isBlank
            cases marked
            simp only [noDot, isBlank, ↓reduceIte, pass]
          · rename_i noBlank
            cases marked
            simp only [noDot, noBlank, ↓reduceIte, Bool.false_eq_true, pass]
  | stringClosed | stringAbandoned | commentOpened =>
      cases marked
  | _ =>
      cases marked
      rfl

/-- Inside a segment a character is followed without a reference. -/
theorem next_of_goesOn
    (chain : Chain)
    {char : Char}
    {following : Option Char}
    (position : Position)
    (isIdentifier : Text.isIdentifierChar char = true)
    (goes : following.any Text.isIdentifierChar = true) :
    chain.next context flags (.code char position following) =
      .ok (chain.identifier context.trie char position, none) := by
  simp [next, code, isIdentifier, goes]

/-- The last character of a segment is followed, and the chain is resolved behind it. -/
theorem next_of_ends
    (chain : Chain)
    {char : Char}
    {following : Option Char}
    (position : Position)
    (isIdentifier : Text.isIdentifierChar char = true)
    (ends : following.any Text.isIdentifierChar = false) :
    chain.next context flags (.code char position following) =
      let longer := chain.identifier context.trie char position
      (longer.resolved context flags (position.advance char)).map fun found =>
        ({ longer with consumed := longer.consumed || found.isSome }, found) := by
  simp [next, code, isIdentifier, ends]

/-- Only a character of code is marked as an identifier. -/
theorem eq_code_of_mark?_identifier
    {event : Event}
    {char : Char}
    {position : Position}
    {isIdentifier : Text.isIdentifierChar char = true}
    (marked : event.mark? = some (.identifier char position isIdentifier)) :
    ∃ following, event = .code char position following := by
  cases event with
  | code other place following =>
      simp only [Event.mark?, Mark.ofChar, Option.some.injEq] at marked
      split at marked
      · cases marked
        exact ⟨following, rfl⟩
      · split at marked
        · cases marked
        · split at marked <;> cases marked
  | _ =>
      cases marked

/-- An event that is taken up puts its reference in front of those behind it. -/
theorem referencesOfEvents_of_next
    {chain after : Chain}
    {event : Event}
    {found : Option Reference}
    (events : List Event)
    (taken : chain.next context flags event = .ok (after, found)) :
    referencesOfEvents context flags chain (event :: events) =
      (referencesOfEvents context flags after events).map (found.toList ++ ·) := by
  rw [referencesOfEvents, taken]
  show (referencesOfEvents context flags after events >>= _) = _
  cases referencesOfEvents context flags after events <;> rfl

/-- What completes no reference takes a chain to the events behind. -/
theorem referencesOfEvents_of_quiet
    {chain after : Chain}
    {event : Event}
    (events : List Event)
    (quiet : chain.next context flags event = .ok (after, none)) :
    referencesOfEvents context flags chain (event :: events) =
      referencesOfEvents context flags after events := by
  rw [referencesOfEvents_of_next events quiet]
  cases referencesOfEvents context flags after events <;> rfl

theorem foretells_of_cons
    {event : Event}
    {events : List Event}
    (foretold : Foretells (event :: events)) :
    Foretells events := by
  cases event with
  | code =>
      exact foretold.2
  | _ =>
      exact foretold

/-- The references among events are those of their links. -/
theorem referencesOfEvents_eq_followLinks
    (chain : Chain)
    (events : List Event)
    (foretold : Foretells events) :
    referencesOfEvents context flags chain events =
      chain.followLinks context flags (linksOf (events.filterMap Event.mark?)) := by
  induction events generalizing chain with
  | nil =>
      rfl
  | cons event events inductionHypothesis =>
      have behind := fun chain => inductionHypothesis chain (foretells_of_cons foretold)
      cases marked : event.mark? with
      | none =>
          rw [referencesOfEvents_of_quiet events (chain.next_of_mark?_none marked), behind,
            List.filterMap_cons_none marked]
      | some mark =>
          cases mark with
          | separator separator =>
              rw [referencesOfEvents_of_quiet events (chain.next_of_mark?_separator marked),
                behind, List.filterMap_cons_some marked, followLinks_separator]
          | identifier char position isIdentifier =>
              obtain ⟨following, rfl⟩ := eq_code_of_mark?_identifier marked
              have foretoldHere := foretold.1 isIdentifier
              rw [List.filterMap_cons_some marked]
              -- The chain is resolved when the text ends its segment, which is when the marks do.
              cases goes : goesOn (events.filterMap Event.mark?) with
              | true =>
                  obtain ⟨segment, links, shape⟩ := linksOf_of_goesOn goes
                  rw [referencesOfEvents_of_quiet events
                      (chain.next_of_goesOn position isIdentifier (foretoldHere.trans goes)),
                    behind, linksOf, shape]
                  simp only [followLinks, List.foldl_nil, read_push]
                  rfl
              | false =>
                  have ends :=
                    @next_of_ends context flags chain _ _ position isIdentifier
                      (foretoldHere.trans goes)
                  rw [linksOf_identifier goes, followLinks_cons]
                  simp only [List.foldl_nil, read_single, Segment.stop_single]
                  cases resolved :
                      (chain.identifier context.trie char position).resolved context flags
                        (position.advance char) with
                  | error error =>
                      simp only [resolved] at ends
                      rw [referencesOfEvents, ends]
                      rfl
                  | ok found =>
                      simp only [resolved] at ends
                      rw [referencesOfEvents_of_next events ends, behind]

end Events

end Chain

end LocalizationScan
