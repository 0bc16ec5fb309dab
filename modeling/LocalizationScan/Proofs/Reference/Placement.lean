import LocalizationScan.Proofs.Reference.Spelling
import LocalizationScan.Proofs.Scan.Strings

namespace LocalizationScan

/-!
# Where references stand

A chain begins at a character of code, and as long as it goes on the scan is
outside of strings and the same strings wait.  A chain that is reported is not
reported again, so references do not overlap.
-/

/-- Whether a chain can go on over a transition: over a character of code, and over what
counts as white space. -/
def Transition.keepsChain : Transition → Bool
  | .stay | .openComment _ | .closeComment _ | .continuation _ => true
  | .openString _ _ | .escape _ | .closeString _ _ | .abandon | .lineComment | .openHole
  | .brace _ => false

theorem VisualBasic.IsContinuation.keepsChain_classifyCode
    {piece : Text}
    (continued : IsContinuation piece)
    (before : Option Char)
    (later : Text) :
    (classifyCode before (piece ++ later)).keepsChain = true := by
  cases continued with
  | @intro blanks _ _ _ separated blanksBlank =>
      cases blanks with
      | nil =>
          exact absurd rfl separated
      | cons first others =>
          have isBlank := blanksBlank first List.mem_cons_self
          simp only [List.cons_append]
          rw [classifyCode_of_isLineBlank before _ isBlank]
          split
          · rfl
          · rfl

/-- A scan outside of strings, apart from the given ones in whose holes it stands. -/
structure Scan.IsOutside (dialect : Dialect) (holes : List Hole) (scan : Scan) : Prop where
  holes : scan.control.holes = holes
  noString : ∀ kind token, scan.control.mode ≠ .inString kind token
  keepsChain : (scan.transition dialect).keepsChain = true

/-- A reference that begins at a character of code and stays outside of strings. -/
structure Reference.BeginsAt
    (dialect : Dialect)
    (visited : List Scan)
    (reference : Reference)
    (beginning : Scan) :
    Prop where
  position : beginning.cursor.position = reference.span.start
  inCode : beginning.control.mode = .resting
  isCode : beginning.transition dialect = .stay
  nonempty : reference.span.start.offset < reference.span.stop.offset
  outside :
    ∀ scan ∈ visited,
      reference.span.start.offset ≤ scan.offset → scan.offset < reference.span.stop.offset →
        scan.IsOutside dialect beginning.control.holes

namespace Chain

variable {dialect : Dialect} {anchor : Position} {context : ResolveContext} {flags : ItemFlags}
  {chain after : Chain} {control next : Control} {done piece later : Text} {char : Char}
  {position : Position} {following : Option Char} {found : Option Reference}

/-- A chain that can still be reported. -/
def IsOngoing (chain : Chain) : Prop :=
  chain.state ≠ .idle ∧ chain.consumed = false

theorem not_isOngoing_of_idle
    (idle : chain.state = .idle) :
    ¬chain.IsOngoing := by
  intro ongoing
  exact ongoing.1 idle

theorem start_of_identifier
    {trie : Trie}
    (unconsumed : (chain.identifier trie char position).consumed = false) :
    (chain.identifier trie char position).start = position ∨
      chain.IsOngoing ∧ (chain.identifier trie char position).start = chain.start := by
  cases state : chain.state with
  | idle | afterSegment =>
      simp only [identifier, state]
      exact .inl trivial
  | segment | afterDot =>
      simp only [identifier, state] at unconsumed ⊢
      exact .inr ⟨⟨by simp [state], unconsumed⟩, trivial⟩

theorem isOngoing_of_dot
    {trie : Trie}
    (ongoing : (chain.dot trie).IsOngoing) :
    chain.IsOngoing ∧ (chain.dot trie).start = chain.start := by
  cases state : chain.state with
  | idle | afterDot =>
      simp only [dot, state] at ongoing
      exact absurd ongoing (not_isOngoing_of_idle rfl)
  | segment | afterSegment =>
      simp only [dot, state] at ongoing ⊢
      exact ⟨⟨by simp [state], ongoing.2⟩, trivial⟩

theorem isOngoing_of_blank
    (ongoing : chain.blank.IsOngoing) :
    chain.IsOngoing ∧ chain.blank.start = chain.start := by
  cases state : chain.state with
  | idle | afterSegment | afterDot =>
      simp only [blank, state] at ongoing ⊢
      exact ⟨ongoing, trivial⟩
  | segment =>
      simp only [blank, state] at ongoing ⊢
      exact ⟨⟨by simp [state], ongoing.2⟩, trivial⟩

/-- A chain that goes on behind a character of code begins there or has gone on before. -/
theorem start_of_code
    (taken : chain.code context flags char position following = .ok (after, found))
    (ongoing : after.IsOngoing) :
    Text.isIdentifierChar char = true ∧ after.start = position ∨
      chain.IsOngoing ∧ after.start = chain.start := by
  unfold code at taken
  by_cases isIdentifier : Text.isIdentifierChar char = true
  · rw [if_pos isIdentifier] at taken
    have started :
        (chain.identifier context.trie char position).consumed = false →
          Text.isIdentifierChar char = true ∧
              (chain.identifier context.trie char position).start = position ∨
            chain.IsOngoing ∧
              (chain.identifier context.trie char position).start = chain.start := by
      intro unconsumed
      exact (start_of_identifier unconsumed).imp_left fun start => ⟨isIdentifier, start⟩
    split at taken
    · cases taken
      exact started ongoing.2
    · obtain ⟨reported, resolved, same⟩ := Except.exists_of_bind_eq_ok taken
      cases same
      exact started (Bool.or_eq_false_iff.mp ongoing.2).1
  · rw [if_neg isIdentifier] at taken
    split at taken
    · cases taken
      exact .inr (isOngoing_of_dot ongoing)
    · split at taken
      · cases taken
        exact .inr (isOngoing_of_blank ongoing)
      · cases taken
        exact absurd ongoing (not_isOngoing_of_idle rfl)

/-- A character of code that completes a reference ends its span, and the chain is not
reported again. -/
theorem eq_of_code
    {reference : Reference}
    (taken :
      chain.code context flags char position following = .ok (after, some reference)) :
    Text.isIdentifierChar char = true ∧
      reference.span.stop = position.advance char ∧
      ¬after.IsOngoing ∧
      (reference.span.start = position ∨
        chain.IsOngoing ∧ reference.span.start = chain.start) := by
  unfold code at taken
  by_cases isIdentifier : Text.isIdentifierChar char = true
  · rw [if_pos isIdentifier] at taken
    split at taken
    · cases taken
    · obtain ⟨reported, resolves, same⟩ := Except.exists_of_bind_eq_ok taken
      cases same
      have span := (eq_of_resolved resolves).2
      have unconsumed :
          (chain.identifier context.trie char position).consumed = false := by
        rw [← Bool.not_eq_true]
        intro consumed
        rw [resolved, consumed] at resolves
        cases resolves
      refine ⟨isIdentifier, by rw [span], ?_, ?_⟩
      · intro ongoing
        cases (Bool.or_eq_false_iff.mp ongoing.2).2
      · rw [span]
        exact start_of_identifier unconsumed
  · rw [if_neg isIdentifier] at taken
    split at taken
    · cases taken
    · split at taken
      · cases taken
      · cases taken

/-- Every reference is completed by a character of an identifier. -/
theorem exists_code_of_mem
    {events : List Event}
    {items : List Reference}
    (searched : referencesOfEvents context flags chain events = .ok items)
    {reference : Reference}
    (member : reference ∈ items) :
    ∃ char position following,
      .code char position following ∈ events ∧ Text.isIdentifierChar char = true ∧
        reference.span.stop = position.advance char := by
  induction events generalizing chain items with
  | nil =>
      cases searched
      cases member
  | cons event events inductionHypothesis =>
      rw [referencesOfEvents] at searched
      obtain ⟨⟨after, found⟩, taken, searched⟩ := Except.exists_of_bind_eq_ok searched
      obtain ⟨later, searchedLater, same⟩ := Except.exists_of_bind_eq_ok searched
      cases same
      rcases List.mem_append.mp member with here | isLater
      · cases Option.mem_toList.mp here
        cases event with
        | code char position following =>
            obtain ⟨isIdentifier, stop, -⟩ := eq_of_code taken
            exact ⟨char, position, following, List.mem_cons_self, isIdentifier, stop⟩
        | _ => cases taken
      · obtain ⟨char, position, following, isCode, completes⟩ :=
          inductionHypothesis searchedLater isLater
        exact ⟨char, position, following, List.mem_cons_of_mem _ isCode, completes⟩

theorem eq_idle_of_brace
    (brace : char = '\x7b' ∨ char = '\x7d')
    (taken : chain.code context flags char position following = .ok (after, found)) :
    after = idle ∧ found = none := by
  have ends : chain.code context flags char position following = .ok (idle, none) := by
    rcases brace with rfl | rfl <;> rfl
  cases ends.symm.trans taken
  exact ⟨rfl, rfl⟩

/-- Whether what starts at a position begins at a scan, at a character of code, or has begun
with a chain that goes on. -/
def StartsAt (dialect : Dialect) (scan : Scan) (chain : Chain) (start : Position) : Prop :=
  (scan.cursor.position = start ∧ scan.control.mode = .resting ∧
      scan.transition dialect = .stay) ∨
    chain.IsOngoing ∧ start = chain.start

theorem isOutside_of_stay
    {scan : Scan}
    (noString : ∀ kind token, scan.control.mode ≠ .inString kind token)
    (stays : scan.transition dialect = .stay) :
    scan.IsOutside dialect scan.control.holes := by
  refine ⟨rfl, noString, ?_⟩
  rw [stays]
  rfl

/-- What one step of a scan can do to a chain and report of it. -/
structure Steps
    (dialect : Dialect)
    (scan : Scan)
    (stop : Position)
    (next : Control)
    (chain after : Chain)
    (reported : List Reference) :
    Prop where
  idleInString :
    ∀ kind token, next.mode = .inString kind token → after.state = .idle
  goesOn :
    after.IsOngoing →
      scan.IsOutside dialect scan.control.holes ∧ next.holes = scan.control.holes ∧
        StartsAt dialect scan chain after.start
  reports :
    reported = [] ∨
      ∃ reference,
        reported = [reference] ∧ reference.span.stop = stop ∧ ¬after.IsOngoing ∧
          scan.IsOutside dialect scan.control.holes ∧
          StartsAt dialect scan chain reference.span.start

/-- A step behind which no chain goes on reports nothing when it completes nothing. -/
theorem Steps.of_idle
    {scan : Scan}
    {stop : Position}
    (idle : after.state = .idle) :
    Steps dialect scan stop next chain after [] where
  idleInString := fun _ _ _ => idle
  goesOn := fun ongoing => absurd ongoing (not_isOngoing_of_idle idle)
  reports := .inl rfl

/-- A step over what counts as white space keeps the chain. -/
theorem Steps.of_blank
    {scan : Scan}
    {stop : Position}
    (outside : scan.IsOutside dialect scan.control.holes)
    (sameHoles : next.holes = scan.control.holes)
    (noString : ∀ kind token, next.mode ≠ .inString kind token)
    (keeps : after.IsOngoing → chain.IsOngoing ∧ after.start = chain.start) :
    Steps dialect scan stop next chain after [] where
  idleInString := fun kind token mode => absurd mode (noString kind token)
  goesOn := fun ongoing => ⟨outside, sameHoles, .inr (keeps ongoing)⟩
  reports := .inl rfl

theorem Steps.of_code
    {scan : Scan}
    {reported : List Reference}
    (inCode : scan.control.mode = .resting)
    (isCode : scan.transition dialect = .stay)
    (restsNext : next.mode = .resting)
    (sameHoles : next.holes = scan.control.holes)
    (taken :
      chain.code context flags char scan.cursor.position following = .ok (after, found))
    (single : reported = found.toList) :
    Steps dialect scan (scan.cursor.position.advance char) next chain after reported := by
  have outside : scan.IsOutside dialect scan.control.holes := by
    apply isOutside_of_stay _ isCode
    intro kind token mode
    cases inCode.symm.trans mode
  refine ⟨?_, ?_, ?_⟩
  · intro kind token mode
    cases restsNext.symm.trans mode
  · intro ongoing
    refine ⟨outside, sameHoles, ?_⟩
    exact (start_of_code taken ongoing).imp_left fun ⟨_, start⟩ =>
      ⟨start.symm, inCode, isCode⟩
  · subst single
    cases found with
    | none =>
        exact .inl rfl
    | some reference =>
        obtain ⟨-, stop, finished, start⟩ := eq_of_code taken
        refine .inr ⟨reference, rfl, stop, finished, outside, ?_⟩
        exact start.imp_left fun start => ⟨start.symm, inCode, isCode⟩

theorem steps_of_move
    {events : List Event}
    {reported : List Reference}
    (idleInString : ∀ kind token, control.mode = .inString kind token → chain.state = .idle)
    (move :
      Move dialect done.getLast? (anchor.advanceOver done) piece later control events next)
    (takes : Takes context flags chain events reported after) :
    Steps dialect ⟨control, .between anchor done (piece ++ later)⟩
      (anchor.advanceOver (done ++ piece)) next chain after reported := by
  rw [Position.advanceOver_append]
  cases move with
  | code classified =>
      cases takes with
      | cons taken behind =>
          cases behind
          exact .of_code rfl classified rfl rfl taken (by simp)
  | openBrace | closeBrace =>
      cases takes with
      | cons taken behind =>
          cases behind
          obtain ⟨rfl, rfl⟩ := eq_idle_of_brace (by simp) taken
          exact .of_idle rfl
  | lineComment | openString | closeHole =>
      cases takes with
      | cons taken behind =>
          cases behind
          cases taken
          exact .of_idle rfl
  | @openComment _ _ holes csharp =>
      cases takes with
      | cons taken behind =>
          cases behind
          cases taken
          refine .of_blank ⟨rfl, by simp, ?_⟩ rfl (by simp) (fun ongoing => ⟨ongoing, rfl⟩)
          subst csharp
          cases holes <;> rfl
  | @continuation _ _ holes visualBasic continued =>
      cases takes with
      | cons taken behind =>
          cases behind
          cases taken
          refine .of_blank ⟨rfl, by simp, ?_⟩ rfl (by simp) isOngoing_of_blank
          subst visualBasic
          cases holes <;> exact continued.keepsChain_classifyCode _ _
  | stringText | openHole =>
      cases takes
      exact .of_idle (idleInString _ _ rfl)
  | closeString =>
      cases takes with
      | cons taken behind =>
          cases behind
          cases taken
          exact .of_idle (idleInString _ _ rfl)
  | abandon _ noIdentifier =>
      cases takes with
      | cons dropped behind =>
          cases dropped
          cases behind with
          | @cons _ _ _ _ _ found _ taken behind =>
              cases behind
              have ended := not_isOngoing_of_idle (idleInString _ _ rfl)
              have finished : ¬after.IsOngoing := by
                intro ongoing
                rcases start_of_code taken ongoing with ⟨isIdentifier, -⟩ | ⟨before, -⟩
                · cases noIdentifier.symm.trans isIdentifier
                · exact ended before
              have nothing : found = none := by
                rw [Option.eq_none_iff_forall_ne_some]
                rintro reference rfl
                cases noIdentifier.symm.trans (eq_of_code taken).1
              subst nothing
              exact ⟨by simp, fun ongoing => absurd ongoing finished, .inl rfl⟩
  | commentText classified =>
      cases takes
      exact .of_blank (isOutside_of_stay (by simp) classified) rfl (by simp)
        (fun ongoing => ⟨ongoing, rfl⟩)
  | closeComment csharp =>
      cases takes with
      | cons taken behind =>
          cases behind
          cases taken
          subst csharp
          exact .of_blank ⟨rfl, by simp, rfl⟩ rfl (by simp) isOngoing_of_blank

end Chain

namespace Trail

variable {dialect : Dialect} {anchor : Position} {control : Control} {done rest : Text}
  {events : List Event} {visited : List Scan} {context : ResolveContext} {flags : ItemFlags}
  {chain : Chain} {items : List Reference}

/-- Whether a reference has begun with a chain in front of some scans, or begins at one of
them. -/
def BeginsOn
    (dialect : Dialect)
    (visited : List Scan)
    (chain : Chain)
    (holes : List Hole)
    (reference : Reference) :
    Prop :=
  (chain.IsOngoing ∧ reference.span.start = chain.start ∧
      ∀ scan ∈ visited,
        scan.offset < reference.span.stop.offset → scan.IsOutside dialect holes) ∨
    ∃ beginning ∈ visited, reference.BeginsAt dialect visited beginning

theorem beginsOn_of_startsAt
    {scan : Scan}
    {reference : Reference}
    (start : Chain.StartsAt dialect scan chain reference.span.start)
    (further : scan.offset < reference.span.stop.offset)
    (outside :
      ∀ other ∈ scan :: visited,
        other.offset < reference.span.stop.offset →
          other.IsOutside dialect scan.control.holes) :
    BeginsOn dialect (scan :: visited) chain scan.control.holes reference := by
  rcases start with ⟨position, inCode, isCode⟩ | ⟨ongoing, start⟩
  · have nonempty : reference.span.start.offset < reference.span.stop.offset := by
      rw [← position]
      exact further
    refine .inr ⟨scan, List.mem_cons_self, position, inCode, isCode, nonempty, ?_⟩
    intro other member _
    exact outside other member
  · exact .inl ⟨ongoing, start, outside⟩

/-- A reference that is found on a trail ends behind the start of the trail. -/
theorem lt_stop
    (trail : Trail dialect anchor control done rest events visited)
    (idleInString : ∀ kind token, control.mode = .inString kind token → chain.state = .idle)
    (searched : referencesOfEvents context flags chain events = .ok items)
    (reference : Reference)
    (member : reference ∈ items) :
    anchor.offset + done.length < reference.span.stop.offset := by
  induction trail generalizing chain items with
  | finished =>
      cases searched
      cases member
  | @move control next done piece later events laterEvents visited nonempty here behind
      inductionHypothesis =>
      obtain ⟨after, reported, others, takes, searchedLater, rfl⟩ :=
        Chain.exists_takes searched
      have steps := Chain.steps_of_move idleInString here takes
      have longer : anchor.offset + done.length < anchor.offset + (done ++ piece).length :=
        Nat.add_lt_add_left (Text.length_lt_append done nonempty) _
      rcases List.mem_append.mp member with memberHere | memberLater
      · rcases steps.reports with nothing | ⟨found, single, stop, -, -, -⟩
        · rw [nothing] at memberHere
          cases memberHere
        · rw [single] at memberHere
          cases List.mem_singleton.mp memberHere
          rw [stop, Position.offset_advanceOver]
          exact longer
      · exact Nat.lt_trans longer
          (inductionHypothesis steps.idleInString searchedLater memberLater)

/-- A reference that is found on a trail has begun with the chain at its start, or begins at
a character of code on it, and up to its end the trail is outside of strings. -/
theorem beginsOn
    (trail : Trail dialect anchor control done rest events visited)
    (idleInString : ∀ kind token, control.mode = .inString kind token → chain.state = .idle)
    (searched : referencesOfEvents context flags chain events = .ok items)
    (reference : Reference)
    (member : reference ∈ items) :
    BeginsOn dialect visited chain control.holes reference := by
  induction trail generalizing chain items with
  | finished =>
      cases searched
      cases member
  | @move control next done piece later events laterEvents visited nonempty here behind
      inductionHypothesis =>
      obtain ⟨after, reported, others, takes, searchedLater, rfl⟩ :=
        Chain.exists_takes searched
      have steps := Chain.steps_of_move idleInString here takes
      have further := behind.offset_le
      have inside :=
        (Trail.move nonempty here behind).lt_stop idleInString searched reference member
      rcases List.mem_append.mp member with memberHere | memberLater
      · rcases steps.reports with nothing | ⟨found, single, stop, -, outside, start⟩
        · rw [nothing] at memberHere
          cases memberHere
        · rw [single] at memberHere
          cases List.mem_singleton.mp memberHere
          apply beginsOn_of_startsAt start (by rw [Scan.offset_between]; exact inside)
          refine List.forall_mem_cons.mpr ⟨fun _ => outside, ?_⟩
          intro scan memberScan before
          rw [stop, Position.offset_advanceOver] at before
          exact absurd (further scan memberScan) (Nat.not_le.mpr before)
      · rcases inductionHypothesis steps.idleInString searchedLater memberLater with
            ⟨ongoing, start, outside⟩ | ⟨beginning, memberBeginning, begins⟩
        · obtain ⟨outsideHere, sameHoles, startHere⟩ := steps.goesOn ongoing
          rw [sameHoles] at outside
          rw [← start] at startHere
          apply beginsOn_of_startsAt startHere (by rw [Scan.offset_between]; exact inside)
          exact List.forall_mem_cons.mpr ⟨fun _ => outsideHere, outside⟩
        · refine .inr ⟨beginning, List.mem_cons_of_mem _ memberBeginning, begins.position,
            begins.inCode, begins.isCode, begins.nonempty, ?_⟩
          refine List.forall_mem_cons.mpr ⟨?_, begins.outside⟩
          intro behindStart
          have beyond := further beginning memberBeginning
          rw [Scan.offset_between, ← begins.position] at behindStart
          have longer := Text.length_lt_append done nonempty
          exact absurd (Nat.le_trans beyond behindStart)
            (Nat.not_le.mpr (Nat.add_lt_add_left longer _))

/-- A reference ends before the next one starts. -/
theorem pairwise_references
    (trail : Trail dialect anchor control done rest events visited)
    (idleInString : ∀ kind token, control.mode = .inString kind token → chain.state = .idle)
    (searched : referencesOfEvents context flags chain events = .ok items) :
    items.Pairwise fun reference other =>
      reference.span.stop.offset ≤ other.span.start.offset := by
  induction trail generalizing chain items with
  | finished =>
      cases searched
      exact List.Pairwise.nil
  | move _ here behind inductionHypothesis =>
      obtain ⟨after, reported, others, takes, searchedLater, rfl⟩ :=
        Chain.exists_takes searched
      have steps := Chain.steps_of_move idleInString here takes
      have later := inductionHypothesis steps.idleInString searchedLater
      rcases steps.reports with nothing | ⟨reference, single, stop, finished, -, -⟩
      · rw [nothing]
        exact later
      · rw [single]
        refine List.pairwise_cons.mpr ⟨?_, later⟩
        intro other member
        -- The chain is reported, so the next reference begins further on.
        rcases behind.beginsOn steps.idleInString searchedLater other member with
            ⟨ongoing, -, -⟩ | ⟨beginning, memberBeginning, begins⟩
        · exact absurd ongoing finished
        · rw [stop, Position.offset_advanceOver, ← begins.position]
          exact behind.offset_le beginning memberBeginning

end Trail

end LocalizationScan
