import LocalizationScan.Proofs.Reference.Placement

namespace LocalizationScan

/-!
# What stands before references

A reference begins at the first character of a segment, and no dot that follows
another segment stands before it: such a dot joins the two segments to one
chain.  A dot that follows something else, as in a member access on the result
of a call, is forgotten, and the segment behind it can begin a reference.
-/

namespace Event

/-- White space around the dots of a chain, and what counts as such. -/
def isGap : Event → Bool
  | .code char _ _ => Text.isBlank char
  | .commentOpened | .commentClosed _ | .continuation => true
  | .stringOpened _ _ | .stringClosed _ | .stringAbandoned | .lineComment | .holeClosed => false

def isIdentifier : Event → Bool
  | .code char _ _ => Text.isIdentifierChar char
  | _ => false

def isDot : Event → Bool
  | .code char _ _ => char = '.'
  | _ => false

/-- Where a character of code sits. -/
def codePosition? : Event → Option Position
  | .code _ position _ => some position
  | _ => none

/-- Events without the gaps among them. -/
def solid (events : List Event) : List Event :=
  events.filter fun event => !event.isGap

variable {event : Event} {before : List Event}

theorem isGap_eq_false_of_isIdentifier
    (isIdentifier : event.isIdentifier = true) :
    event.isGap = false := by
  cases event with
  | code => exact Text.isBlank_eq_false_of_isIdentifierChar isIdentifier
  | _ => cases isIdentifier

theorem isDot_eq_false_of_isIdentifier
    (isIdentifier : event.isIdentifier = true) :
    event.isDot = false := by
  cases event with
  | code char =>
      refine decide_eq_false ?_
      rintro rfl
      cases isIdentifier
  | _ => cases isIdentifier

theorem isGap_eq_false_of_isDot
    (isDot : event.isDot = true) :
    event.isGap = false := by
  cases event with
  | code char =>
      obtain rfl := of_decide_eq_true isDot
      rfl
  | _ => cases isDot

theorem solid_concat_of_isGap
    (isGap : event.isGap = true) :
    solid (before ++ [event]) = solid before := by
  simp [solid, isGap]

theorem solid_concat
    (noGap : event.isGap = false) :
    solid (before ++ [event]) = solid before ++ [event] := by
  simp [solid, noGap]

end Event

/-- Events behind which a chain can begin: they do not end inside of a segment, and a dot at
their end, gaps apart, follows no segment. -/
structure IsOpenEnd (before : List Event) : Prop where
  noSegment : ∀ event ∈ before.getLast?, event.isIdentifier = false
  noMember :
    ∀ front dot,
      Event.solid before = front ++ [dot] → dot.isDot = true →
        ∀ event ∈ front.getLast?, event.isIdentifier = false

/-- Whether a segment begins at a position, behind events at which a chain can begin. -/
def BeginsChain (events : List Event) (start : Position) : Prop :=
  ∃ before char following after,
    events = before ++ .code char start following :: after ∧
      Text.isIdentifierChar char = true ∧ IsOpenEnd before

theorem BeginsChain.append
    {events : List Event}
    {start : Position}
    (begins : BeginsChain events start)
    (more : List Event) :
    BeginsChain (events ++ more) start := by
  obtain ⟨before, char, following, after, rfl, isIdentifier, isOpen⟩ := begins
  exact ⟨before, char, following, after ++ more, by simp, isIdentifier, isOpen⟩

namespace Chain

/-- What the state of a chain tells about the events before it. -/
structure IsBehind (before : List Event) (chain : Chain) : Prop where
  inSegment : ∀ event ∈ before.getLast?, event.isIdentifier = true → chain.state = .segment
  behindSegment :
    ∀ event ∈ (Event.solid before).getLast?,
      event.isIdentifier = true → chain.state = .segment ∨ chain.state = .afterSegment
  behindDot :
    ∀ front dot,
      Event.solid before = front ++ [dot] → dot.isDot = true →
        ∀ event ∈ front.getLast?, event.isIdentifier = true → chain.state = .afterDot
  begun : chain.state ≠ .idle → BeginsChain before chain.start

section Step

variable {before : List Event} {chain after : Chain} {event : Event} {char : Char}
  {position : Position} {following : Option Char} {context : ResolveContext} {flags : ItemFlags}
  {trie : Trie} {found : Option Reference}

theorem isBehind_nil : IsBehind [] idle := by
  refine ⟨nofun, nofun, ?_, fun busy => absurd rfl busy⟩
  intro front dot shape
  exact absurd shape (by simp [Event.solid])

/-- A chain can begin where the one so far does not take up the next segment. -/
theorem IsBehind.isOpenEnd
    (behind : chain.IsBehind before)
    (apart : chain.state = .idle ∨ chain.state = .afterSegment) :
    IsOpenEnd before := by
  constructor
  · intro event last
    by_contra isIdentifier
    have state := behind.inSegment event last (by simpa using isIdentifier)
    rcases apart with apart | apart <;> cases state.symm.trans apart
  · intro front dot shape isDot event last
    by_contra isIdentifier
    have state := behind.behindDot front dot shape isDot event last (by simpa using isIdentifier)
    rcases apart with apart | apart <;> cases state.symm.trans apart

/-- Behind an event that is neither a gap nor a dot only the beginning of the chain and its
segment count. -/
theorem IsBehind.of_solid
    (noGap : event.isGap = false)
    (noDot : event.isDot = false)
    (inSegment : event.isIdentifier = true → chain.state = .segment)
    (begun : chain.state ≠ .idle → BeginsChain (before ++ [event]) chain.start) :
    chain.IsBehind (before ++ [event]) := by
  refine ⟨?_, ?_, ?_, begun⟩
  · rw [List.getLast?_concat]
    rintro _ ⟨⟩
    exact inSegment
  · rw [Event.solid_concat noGap, List.getLast?_concat]
    rintro _ ⟨⟩
    exact fun isIdentifier => .inl (inSegment isIdentifier)
  · intro front dot shape isDot
    rw [Event.solid_concat noGap] at shape
    cases (List.append_inj' shape rfl).2
    cases noDot.symm.trans isDot

theorem IsBehind.identifier
    (behind : chain.IsBehind before)
    (isIdentifier : Text.isIdentifierChar char = true)
    (trie : Trie)
    (position : Position)
    (following : Option Char) :
    (chain.identifier trie char position).IsBehind
      (before ++ [.code char position following]) := by
  have isSegmentChar : (Event.code char position following).isIdentifier = true := isIdentifier
  refine .of_solid (Event.isGap_eq_false_of_isIdentifier isSegmentChar)
    (Event.isDot_eq_false_of_isIdentifier isSegmentChar)
    (fun _ => identifier_state _ _ _ _) fun _ => ?_
  have here (apart : chain.state = .idle ∨ chain.state = .afterSegment) :
      BeginsChain (before ++ [.code char position following]) position :=
    ⟨before, char, following, [], rfl, isIdentifier, behind.isOpenEnd apart⟩
  cases state : chain.state with
  | idle =>
      simp only [Chain.identifier, state]
      exact here (.inl state)
  | afterSegment =>
      simp only [Chain.identifier, state]
      exact here (.inr state)
  | segment | afterDot =>
      simp only [Chain.identifier, state]
      exact (behind.begun (by simp [state])).append _

theorem IsBehind.dot
    (behind : chain.IsBehind before)
    (isDot : event.isDot = true) :
    (chain.dot trie).IsBehind (before ++ [event]) := by
  have noGap := Event.isGap_eq_false_of_isDot isDot
  have noIdentifier : event.isIdentifier ≠ true := by
    intro isIdentifier
    cases isDot.symm.trans (Event.isDot_eq_false_of_isIdentifier isIdentifier)
  refine ⟨?_, ?_, ?_, ?_⟩
  · rw [List.getLast?_concat]
    rintro _ ⟨⟩ isIdentifier
    exact absurd isIdentifier noIdentifier
  · rw [Event.solid_concat noGap, List.getLast?_concat]
    rintro _ ⟨⟩ isIdentifier
    exact absurd isIdentifier noIdentifier
  · intro front dot shape _ last isLast isIdentifier
    rw [Event.solid_concat noGap] at shape
    obtain ⟨rfl, -⟩ := List.append_inj' shape rfl
    rcases behind.behindSegment last isLast isIdentifier with state | state <;>
      simp [Chain.dot, state]
  · intro busy
    cases state : chain.state with
    | idle | afterDot =>
        simp only [Chain.dot, state] at busy
        exact absurd rfl busy
    | segment | afterSegment =>
        simp only [Chain.dot, state]
        exact (behind.begun (by simp [state])).append _

theorem IsBehind.gap
    (behind : chain.IsBehind before)
    (isGap : event.isGap = true)
    (keeps : after = chain ∨ after = chain.blank) :
    after.IsBehind (before ++ [event]) := by
  have noIdentifier : event.isIdentifier ≠ true := by
    intro isIdentifier
    cases isGap.symm.trans (Event.isGap_eq_false_of_isIdentifier isIdentifier)
  have start : after.start = chain.start := by
    rcases keeps with rfl | rfl
    · rfl
    · cases state : chain.state <;> simp [Chain.blank, state]
  have state :
      after.state = chain.state ∨ chain.state = .segment ∧ after.state = .afterSegment := by
    rcases keeps with rfl | rfl
    · exact .inl rfl
    · cases state : chain.state <;> simp [Chain.blank, state]
  refine ⟨?_, ?_, ?_, ?_⟩
  · rw [List.getLast?_concat]
    rintro _ ⟨⟩ isIdentifier
    exact absurd isIdentifier noIdentifier
  · rw [Event.solid_concat_of_isGap isGap]
    intro last isLast isIdentifier
    have before := behind.behindSegment last isLast isIdentifier
    rcases state with same | ⟨-, behindSegment⟩
    · rwa [same]
    · exact .inr behindSegment
  · rw [Event.solid_concat_of_isGap isGap]
    intro front dot shape isDot last isLast isIdentifier
    have before := behind.behindDot front dot shape isDot last isLast isIdentifier
    rcases state with same | ⟨inSegment, -⟩
    · rwa [same]
    · cases inSegment.symm.trans before
  · intro busy
    rw [start]
    refine (behind.begun ?_).append _
    rcases state with same | ⟨inSegment, -⟩
    · rwa [← same]
    · simp [inSegment]

/-- A chain behind a character of code; what it completes begins where the chain does. -/
theorem IsBehind.code
    (behind : chain.IsBehind before)
    (taken : chain.code context flags char position following = .ok (after, found)) :
    after.IsBehind (before ++ [.code char position following]) ∧
      ∀ reference ∈ found, after.state ≠ .idle ∧ reference.span.start = after.start := by
  unfold Chain.code at taken
  by_cases isIdentifier : Text.isIdentifierChar char = true
  · rw [if_pos isIdentifier] at taken
    have longer := behind.identifier isIdentifier context.trie position following
    split at taken
    · cases taken
      exact ⟨longer, nofun⟩
    · obtain ⟨reported, resolves, same⟩ := Except.exists_of_bind_eq_ok taken
      cases same
      refine ⟨⟨longer.inSegment, longer.behindSegment, longer.behindDot, longer.begun⟩, ?_⟩
      rintro reference isReported
      rw [isReported] at resolves
      refine ⟨?_, by rw [(eq_of_resolved resolves).2]⟩
      simp [identifier_state]
  · rw [if_neg isIdentifier] at taken
    split at taken
    · next isDot =>
        cases taken
        exact ⟨behind.dot (decide_eq_true isDot), nofun⟩
    · next noDot =>
        split at taken
        · next isBlank =>
            cases taken
            exact ⟨behind.gap isBlank (.inr rfl), nofun⟩
        · next noBlank =>
            cases taken
            exact ⟨.of_solid (by simpa [Event.isGap] using noBlank) (decide_eq_false noDot)
              (fun isSegmentChar => absurd isSegmentChar isIdentifier)
              (fun busy => absurd rfl busy), nofun⟩

theorem IsBehind.next
    (behind : chain.IsBehind before)
    (taken : chain.next context flags event = .ok (after, found)) :
    after.IsBehind (before ++ [event]) ∧
      ∀ reference ∈ found, after.state ≠ .idle ∧ reference.span.start = after.start := by
  cases event with
  | code => exact behind.code taken
  | stringOpened | lineComment | holeClosed =>
      cases taken
      exact ⟨.of_solid rfl rfl nofun fun busy => absurd rfl busy, nofun⟩
  | stringClosed | stringAbandoned =>
      cases taken
      exact ⟨.of_solid rfl rfl nofun fun busy => (behind.begun busy).append _, nofun⟩
  | commentOpened =>
      cases taken
      exact ⟨behind.gap rfl (.inl rfl), nofun⟩
  | commentClosed | continuation =>
      cases taken
      exact ⟨behind.gap rfl (.inr rfl), nofun⟩

/-- All references among events begin where a chain can begin. -/
theorem IsBehind.beginsChain
    {events : List Event}
    {items : List Reference}
    (behind : chain.IsBehind before)
    (searched : referencesOfEvents context flags chain events = .ok items)
    (reference : Reference)
    (member : reference ∈ items) :
    BeginsChain (before ++ events) reference.span.start := by
  induction events generalizing before chain items with
  | nil =>
      cases searched
      cases member
  | cons event events inductionHypothesis =>
      rw [referencesOfEvents] at searched
      obtain ⟨⟨after, found⟩, taken, searched⟩ := Except.exists_of_bind_eq_ok searched
      obtain ⟨later, searchedLater, same⟩ := Except.exists_of_bind_eq_ok searched
      cases same
      obtain ⟨behindEvent, starts⟩ := behind.next taken
      rw [List.append_cons]
      rcases List.mem_append.mp member with here | isLater
      · obtain ⟨busy, start⟩ := starts reference (Option.mem_toList.mp here)
        rw [start]
        exact (behindEvent.begun busy).append events
      · exact inductionHypothesis behindEvent searchedLater isLater

end Step

end Chain

section Positions

variable {dialect : Dialect} {anchor : Position} {control next : Control}
  {done rest piece later : Text} {events : List Event}

/-- A move meets one character of code at most, at its beginning. -/
theorem Move.codePositions_eq
    {before : Option Char}
    {position : Position}
    (move : Move dialect before position piece later control events next) :
    events.filterMap Event.codePosition? = [] ∨
      events.filterMap Event.codePosition? = [position] := by
  cases move with
  | code | openBrace | closeBrace | abandon => exact .inr rfl
  | _ => exact .inl rfl

/-- Each character of code on a trail is further on than those before it. -/
theorem Trail.pairwise_codePositions
    {visited : List Scan}
    (trail : Trail dialect anchor control done rest events visited) :
    (∀ position ∈ events.filterMap Event.codePosition?,
        anchor.offset + done.length ≤ position.offset) ∧
      (events.filterMap Event.codePosition?).Pairwise fun first second =>
        first.offset < second.offset := by
  induction trail with
  | finished =>
      exact ⟨nofun, .nil⟩
  | @move _ _ done piece later events laterEvents _ nonempty here behind inductionHypothesis =>
      obtain ⟨further, ordered⟩ := inductionHypothesis
      have longer : anchor.offset + done.length < anchor.offset + (done ++ piece).length :=
        Nat.add_lt_add_left (Text.length_lt_append done nonempty) _
      have later : ∀ position ∈ laterEvents.filterMap Event.codePosition?,
          anchor.offset + done.length < position.offset :=
        fun position member => Nat.lt_of_lt_of_le longer (further position member)
      rw [List.filterMap_append]
      rcases here.codePositions_eq with nothing | single
      · rw [nothing]
        exact ⟨fun position member => Nat.le_of_lt (later position member), ordered⟩
      · rw [single, List.singleton_append]
        have start := Position.offset_advanceOver anchor done
        refine ⟨List.forall_mem_cons.mpr ⟨Nat.le_of_eq start.symm, fun position member =>
          Nat.le_of_lt (later position member)⟩, List.pairwise_cons.mpr ⟨?_, ordered⟩⟩
        rw [start]
        exact later

/-- No two characters of code sit at one position. -/
theorem Dialect.eq_of_codePosition
    {block : Text}
    {before earlier after behind : List Event}
    {char letter : Char}
    {start : Position}
    {following followingLetter : Option Char}
    (cut : dialect.events anchor block = before ++ .code char start following :: after)
    (cutEarlier :
      dialect.events anchor block = earlier ++ .code letter start followingLetter :: behind) :
    before = earlier := by
  have ordered := (dialect.trail_visited anchor block).pairwise_codePositions.2
  -- A second character at the position would not be further on than the first one.
  have apart {front between back : List Event} {char letter : Char}
      {following followingLetter : Option Char}
      (both :
        dialect.events anchor block =
          front ++ .code char start following ::
            (between ++ .code letter start followingLetter :: back)) :
      False := by
    rw [both, List.pairwise_filterMap, List.pairwise_append, List.pairwise_cons] at ordered
    have further := ordered.2.1.1 (.code letter start followingLetter) (by simp)
    exact absurd (further start rfl start rfl) (Nat.lt_irrefl _)
  rcases List.append_eq_append_iff.mp (cut.symm.trans cutEarlier) with
      ⟨between, rfl, tail⟩ | ⟨between, rfl, tail⟩
  · cases between with
    | nil => exact (List.append_nil before).symm
    | cons event between =>
        obtain ⟨rfl, rfl⟩ := List.cons.inj tail
        exact (apart cut).elim
  · cases between with
    | nil => exact List.append_nil earlier
    | cons event between =>
        obtain ⟨rfl, rfl⟩ := List.cons.inj tail
        exact (apart cutEarlier).elim

end Positions

/-- A reference begins with the first character of a segment, and what stands before it, gaps
apart, is no dot that follows a segment. -/
theorem findReferences_isOpenEnd
    {dialect : Dialect}
    {context : ResolveContext}
    {flags : ItemFlags}
    {anchor : Position}
    {block : Text}
    {items : List Reference}
    (found : findReferences dialect context flags anchor block = .ok items)
    (reference : Reference)
    (member : reference ∈ items) :
    BeginsChain (dialect.events anchor block) reference.span.start ∧
      ∀ before char following after,
        dialect.events anchor block =
            before ++ .code char reference.span.start following :: after →
          IsOpenEnd before := by
  unfold findReferences at found
  cases valid : anchor.asAnchor with
  | error error =>
      rw [valid] at found
      cases found
  | ok same =>
      obtain ⟨rfl, -⟩ := Position.asAnchor_advanceOver valid []
      rw [valid] at found
      have begins :=
        Chain.isBehind_nil.beginsChain (Except.eq_ok_of_mapError_eq_ok found) reference member
      refine ⟨begins, fun before char following after cut => ?_⟩
      obtain ⟨earlier, _, _, _, cutEarlier, -, isOpen⟩ := begins
      rw [Dialect.eq_of_codePosition cut cutEarlier]
      exact isOpen

/-- A chain in brackets, with a comment before one of its dots. -/
theorem findReferences_isOpenEnd_bracketed :
    let dialect : Dialect := .csharp defaultMarker
    let entry : Entry := ⟨['K'], ['V'], ⟨['N'], ['R'], none, "R.resx".toList⟩⟩
    let context : ResolveContext := ⟨.ofList [entry], .empty, none⟩
    let block := "f(N/**/.R.K)".toList
    let reference : Reference :=
      ⟨"N.R.K".toList, "N.R.K".toList, ['K'], ['V'], entry.origin, ⟨⟨1, 3, 2⟩, ⟨1, 12, 11⟩⟩, .none⟩
    findReferences dialect context .none .start block = .ok [reference] ∧
      IsOpenEnd
        [.code 'f' ⟨1, 1, 0⟩ (some '('), .code '(' ⟨1, 2, 1⟩ (some 'N')] := by
  intro dialect entry context block reference
  have found : findReferences dialect context .none .start block = .ok [reference] := by
    decide +kernel
  obtain ⟨-, isOpen⟩ := findReferences_isOpenEnd found reference List.mem_cons_self
  refine ⟨found, isOpen _ 'N' (some '/')
    [.commentOpened, .commentClosed "/**/".toList, .code '.' ⟨1, 8, 7⟩ (some 'R'),
      .code 'R' ⟨1, 9, 8⟩ (some '.'), .code '.' ⟨1, 10, 9⟩ (some 'K'),
      .code 'K' ⟨1, 11, 10⟩ (some ')'), .code ')' ⟨1, 12, 11⟩ none] ?_⟩
  decide +kernel

/-- A class with the name of a member of what a call returns is taken for that member. -/
theorem findReferences_memberOfCall :
    let dialect : Dialect := .csharp defaultMarker
    let entry : Entry := ⟨['K'], ['V'], ⟨[], ['R'], none, "R.resx".toList⟩⟩
    let context : ResolveContext := ⟨.ofList [entry], .empty, none⟩
    let block := "f().R.K".toList
    let reference : Reference :=
      ⟨"R.K".toList, "R.K".toList, ['K'], ['V'], entry.origin, ⟨⟨1, 5, 4⟩, ⟨1, 8, 7⟩⟩, .none⟩
    let before := (dialect.events .start block).take 4
    findReferences dialect context .none .start block = .ok [reference] ∧
      dialect.events .start block =
        before ++ .code 'R' reference.span.start (some '.') ::
          (dialect.events .start block).drop 5 ∧
      (Event.solid before).getLast? = some (.code '.' ⟨1, 4, 3⟩ (some 'R')) := by
  intro dialect entry context block reference before
  exact ⟨by decide +kernel, by decide +kernel, by decide +kernel⟩

end LocalizationScan
