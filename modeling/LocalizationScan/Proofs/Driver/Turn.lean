import LocalizationScan.Lexical.Driver
import LocalizationScan.Proofs.Scan.Move

namespace LocalizationScan

/-!
# Turns of the driver

What a turn can make of the registers of a driver, one case for each arm of the
loop and each way through it.  As long as the registers agree and the open token
lies before the index, a turn reaches for nothing out of range, and the
transition finds open what it closes.
-/

theorem Text.slice?_eq_some
    {text : Text}
    {start stop : Nat}
    (ordered : start ≤ stop)
    (inside : stop ≤ text.length) :
    text.slice? start stop = some ((text.take stop).drop start) :=
  if_pos ⟨ordered, inside⟩

theorem difference?_eq_some
    {minuend subtrahend : Nat}
    (fits : subtrahend ≤ minuend) :
    difference? minuend subtrahend = some (minuend - subtrahend) :=
  if_pos fits

namespace CSharp

variable {char : Char} {later : Text}

/-- The braces of a hole are no ordinary characters of its code. -/
theorem noBrace_of_classifyHole
    (stays : classifyHole (char :: later) = .stay) :
    char ≠ '\x7b' ∧ char ≠ '\x7d' := by
  constructor
  all_goals
    rintro rfl
    cases stays

theorem getD_classifyBrace?_ne_abandon (rest : Text) :
    (classifyBrace? rest).getD .stay ≠ .abandon := by
  fun_cases classifyBrace? rest <;> simp

/-- A string goes on at a brace. -/
theorem noBrace_of_abandon
    {kind : StringKind}
    (abandons : classifyString kind (char :: later) = .abandon) :
    char ≠ '\x7b' ∧ char ≠ '\x7d' := by
  constructor
  all_goals
    rintro rfl
    cases kind with
    | regular | char | verbatim =>
        cases abandons
    | interpolated | interpolatedVerbatim =>
        exact absurd abandons (getD_classifyBrace?_ne_abandon _)

end CSharp

namespace Driver

/-- A driver whose registers agree on what is open. -/
structure Agrees (dialect : Dialect) (driver : Driver) : Prop where
  /-- In code no token is open, and it is the code of a hole when a string waits. -/
  resting :
    driver.state.isCode = true →
      driver.state = restingState driver.holes ∧ driver.token? = none
  /-- In a string or a comment a token is open. -/
  opened : driver.state.isCode = false → ∃ token, driver.token? = some token
  /-- A waiting string has kept its token. -/
  waiting : ∀ hole ∈ driver.holes, ∃ token, hole.token? = some token
  /-- Only C# has strings that wait. -/
  csharp : driver.holes ≠ [] → ∃ marker, dialect = .csharp marker

/-- What a transition over a number of characters, the first of which is given, yields at a
driver whose registers agree, and the registers that it leaves. -/
inductive Change (dialect : Dialect) (driver : Driver) (count : Nat) (char : Char) :
    Transition → List Event → Driver → Prop where
  | code
      {follows : Option Char}
      (noBrace : driver.holes ≠ [] → char ≠ '\x7b' ∧ char ≠ '\x7d') :
      Change dialect driver count char .stay [.code char driver.position follows] driver
  /-- A character of a string or a comment. -/
  | text :
      Change dialect driver count char .stay [] driver
  | escape
      {length : Nat} :
      Change dialect driver count char (.escape length) [] driver
  | continuation
      {length : Nat} :
      Change dialect driver count char (.continuation length) [.continuation] driver
  | lineComment :
      Change dialect driver count char .lineComment [.lineComment] driver
  | openString
      {kind : StringKind}
      {length : Nat}
      (nothingOpen : driver.token? = none)
      (taken : length ≤ count) :
      Change dialect driver count char (.openString kind length)
        [.stringOpened kind driver.position]
        { driver with
          state := .string kind, token? := some ⟨driver.index, driver.position, length⟩ }
  | openComment
      {length : Nat}
      (nothingOpen : driver.token? = none) :
      Change dialect driver count char (.openComment length)
        [.commentOpened]
        { driver with
          state := .comment, token? := some ⟨driver.index, driver.position, count⟩ }
  | closeString
      {length : Nat}
      {emit : Bool}
      {token : Token}
      {closed : StringToken}
      (current : driver.token? = some token) :
      Change dialect driver count char (.closeString length emit)
        [.stringClosed closed] driver.rest
  | closeComment
      {length : Nat}
      {token : Token}
      {text : Text}
      (current : driver.token? = some token) :
      Change dialect driver count char (.closeComment length)
        [.commentClosed text] driver.rest
  | abandon
      {token : Token}
      {follows : Option Char}
      (current : driver.token? = some token)
      (noBrace : driver.holes ≠ [] → char ≠ '\x7b' ∧ char ≠ '\x7d') :
      Change dialect driver count char .abandon
        [.stringAbandoned, .code char driver.position follows] driver.rest
  | openHole
      {marker : Text}
      {kind : StringKind}
      {token : Token}
      (csharp : dialect = .csharp marker)
      (current : driver.token? = some token) :
      Change dialect driver count char .openHole []
        { driver with
          state := .hole, token? := none, holes := ⟨kind, some token, 0⟩ :: driver.holes }
  /-- An opening brace in the code of a hole. -/
  | openBrace
      {hole : Hole}
      {outer : List Hole}
      {follows : Option Char}
      (inside : driver.holes = hole :: outer)
      (isBrace : char = '\x7b') :
      Change dialect driver count char (.brace true)
        [.code char driver.position follows]
        { driver with holes := { hole with depth := hole.depth + 1 } :: outer }
  /-- A closing brace that matches one in the code of the hole. -/
  | closeBrace
      {hole : Hole}
      {outer : List Hole}
      {depth : Nat}
      {follows : Option Char}
      (inside : driver.holes = hole :: outer)
      (matched : hole.depth = depth + 1)
      (isBrace : char = '\x7d') :
      Change dialect driver count char (.brace false)
        [.code char driver.position follows]
        { driver with holes := { hole with depth := depth } :: outer }
  /-- The closing brace of a hole. -/
  | closeHole
      {hole : Hole}
      {outer : List Hole}
      {token : Token}
      (inside : driver.holes = hole :: outer)
      (unmatched : hole.depth = 0)
      (nothingOpen : driver.token? = none)
      (kept : hole.token? = some token) :
      Change dialect driver count char (.brace false)
        [.holeClosed]
        { driver with state := .string hole.kind, token? := some token, holes := outer }

section Registers

variable {dialect : Dialect} {driver next : Driver} {count : Nat} {char : Char}
  {transition : Transition} {events : List Event}

theorem isCode_restingState (holes : List Hole) :
    (restingState holes).isCode = true := by
  cases holes <;> rfl

theorem agrees_ofAnchor (dialect : Dialect) (anchor : Position) :
    (ofAnchor anchor).Agrees dialect where
  resting := fun _ => ⟨rfl, rfl⟩
  opened := fun notCode => (nomatch notCode)
  waiting := fun _ member => (nomatch member)
  csharp := fun waits => absurd rfl waits

/-- In a hole some string waits. -/
theorem Agrees.exists_hole
    (agrees : driver.Agrees dialect)
    (inHole : driver.state = .hole) :
    ∃ hole outer, driver.holes = hole :: outer := by
  obtain ⟨resting, -⟩ := agrees.resting (by rw [inHole]; rfl)
  rw [inHole] at resting
  cases holes : driver.holes with
  | nil =>
      rw [holes] at resting
      cases resting
  | cons hole outer =>
      exact ⟨hole, outer, rfl⟩

/-- Where the open token ends, code goes on. -/
theorem Agrees.rest
    (agrees : driver.Agrees dialect) :
    driver.rest.Agrees dialect where
  resting := fun _ => ⟨rfl, rfl⟩
  opened := by
    intro notCode
    cases (isCode_restingState driver.holes).symm.trans notCode
  waiting := agrees.waiting
  csharp := agrees.csharp

/-- The strings that wait around a hole are those that waited before it. -/
theorem Agrees.recount
    {hole : Hole}
    {outer : List Hole}
    (agrees : driver.Agrees dialect)
    (inside : driver.holes = hole :: outer)
    (depth : Nat) :
    { driver with holes := { hole with depth := depth } :: outer }.Agrees dialect := by
  have waiting := agrees.waiting
  have resting := agrees.resting
  rw [inside] at waiting resting
  obtain ⟨here, behind⟩ := List.forall_mem_cons.mp waiting
  exact ⟨resting, agrees.opened, List.forall_mem_cons.mpr ⟨here, behind⟩,
    fun _ => agrees.csharp (by simp [inside])⟩

theorem Agrees.moveTo
    (agrees : driver.Agrees dialect)
    (index : Nat)
    (position : Position) :
    (driver.moveTo index position).Agrees dialect :=
  ⟨agrees.resting, agrees.opened, agrees.waiting, agrees.csharp⟩

/-- Every transition leaves registers that agree. -/
theorem Agrees.change
    (agrees : driver.Agrees dialect)
    (change : Change dialect driver count char transition events next) :
    next.Agrees dialect := by
  cases change with
  | code | text | escape | continuation | lineComment =>
      exact agrees
  | openString | openComment =>
      exact ⟨fun inCode => (nomatch inCode), fun _ => ⟨_, rfl⟩, agrees.waiting, agrees.csharp⟩
  | closeString | closeComment | abandon =>
      exact agrees.rest
  | @openHole _ _ token csharp =>
      exact ⟨fun _ => ⟨rfl, rfl⟩, fun notCode => (nomatch notCode),
        List.forall_mem_cons.mpr ⟨⟨token, rfl⟩, agrees.waiting⟩, fun _ => ⟨_, csharp⟩⟩
  | openBrace inside | closeBrace inside =>
      exact agrees.recount inside _
  | @closeHole hole outer token inside =>
      have waiting := agrees.waiting
      rw [inside] at waiting
      exact ⟨fun inCode => (nomatch inCode), fun _ => ⟨token, rfl⟩,
        (List.forall_mem_cons.mp waiting).2, fun _ => agrees.csharp (by simp [inside])⟩

end Registers

section Turns

variable {dialect : Dialect} {block tail : Text} {driver : Driver} {before : Option Char}
  {count : Nat} {char : Char} {transition : Transition} {token : Token}

/-- A token that lies before the index is sliced out of the block. -/
theorem exists_closeToken?
    (kind : StringKind)
    (length : Nat)
    (emit : Bool)
    (stop : Position)
    (begun : token.index + token.openingLength ≤ driver.index)
    (room : driver.index + count ≤ block.length) :
    ∃ closed, driver.closeToken? block kind token length emit count stop = some closed := by
  have shorter : min length count ≤ count := Nat.min_le_right _ _
  rw [closeToken?, Text.slice?_eq_some (by omega) room, difference?_eq_some (by omega)]
  simp only [Option.bind_eq_bind, Option.bind_some]
  rw [Text.slice?_eq_some (by omega) (by omega)]
  exact ⟨_, rfl⟩

/-- A driver whose registers agree reacts to every transition that its dialect begins. -/
theorem Agrees.exists_react?
    (agrees : driver.Agrees dialect)
    (begun :
      ∀ token, driver.token? = some token →
        token.index + token.openingLength ≤ driver.index)
    (classified : dialect.classify driver.state before (char :: tail) = transition)
    (covers : transition.covered (char :: tail) = count)
    (room : driver.index + count ≤ block.length)
    (stop : Position)
    (follows : Option Char) :
    ∃ events next,
      driver.react? block transition count stop (.code char driver.position follows) =
          some (events, next) ∧
        Change dialect driver count char transition events next := by
  have fits := dialect.fits_classify_cons driver.state before char tail
  rw [classified] at fits
  cases transition with
  | stay =>
      by_cases inCode : driver.state.isCode = true
      · refine ⟨_, _, by rw [react?, if_pos inCode], .code fun waits => ?_⟩
        obtain ⟨marker, rfl⟩ := agrees.csharp waits
        obtain ⟨resting, -⟩ := agrees.resting inCode
        rw [resting, restingState, if_neg (by simpa using waits)] at classified
        exact CSharp.noBrace_of_classifyHole classified
      · exact ⟨_, _, by rw [react?, if_neg inCode], .text⟩
  | escape length =>
      exact ⟨_, _, rfl, .escape⟩
  | continuation length =>
      exact ⟨_, _, rfl, .continuation⟩
  | lineComment =>
      exact ⟨_, _, rfl, .lineComment⟩
  | openString kind length =>
      refine ⟨_, _, rfl, .openString (agrees.resting fits).2 ?_⟩
      have opens := Dialect.length_of_opening (congrArg Transition.openingLength? classified)
      rw [← covers]
      exact Nat.le_trans (Nat.le_min.mpr ⟨Nat.le_refl _, opens.2⟩) (Nat.le_max_right 1 _)
  | openComment length =>
      exact ⟨_, _, rfl, .openComment (agrees.resting fits).2⟩
  | closeString length emit =>
      obtain ⟨kind, inString⟩ := fits
      obtain ⟨token, current⟩ := agrees.opened (by rw [inString]; rfl)
      obtain ⟨closed, closes⟩ :=
        exists_closeToken? kind length emit stop (begun token current) room
      refine ⟨[.stringClosed closed], _, ?_, .closeString current⟩
      simp only [react?, inString, current, closes, Option.map_some]
  | closeComment length =>
      obtain ⟨token, current⟩ := agrees.opened (by rw [fits]; rfl)
      have lies := begun token current
      obtain ⟨text, slices⟩ :
          ∃ text, block.slice? token.index (driver.index + count) = some text :=
        ⟨_, Text.slice?_eq_some (by omega) room⟩
      refine ⟨[.commentClosed text], _, ?_, .closeComment current⟩
      simp only [react?, current, slices, Option.map_some]
  | abandon =>
      obtain ⟨kind, inString⟩ := fits
      obtain ⟨token, current⟩ := agrees.opened (by rw [inString]; rfl)
      refine ⟨_, _, by rw [react?, if_neg (by simp [inString, LexicalState.isCode])],
        .abandon current fun waits => ?_⟩
      obtain ⟨marker, rfl⟩ := agrees.csharp waits
      rw [inString] at classified
      exact CSharp.noBrace_of_abandon classified
  | openHole =>
      obtain ⟨kind, inString⟩ := fits
      obtain ⟨token, current⟩ := agrees.opened (by rw [inString]; rfl)
      rw [inString] at classified
      obtain ⟨marker, csharp⟩ := Dialect.exists_csharp_of_openHole classified
      refine ⟨_, _, ?_, @Change.openHole _ _ _ _ marker kind token csharp current⟩
      simp only [react?, inString, current]
  | brace opening =>
      obtain ⟨hole, outer, inside⟩ := agrees.exists_hole fits
      have isBrace := classified
      rw [fits] at isBrace
      replace isBrace := Dialect.eq_of_brace isBrace
      cases opening with
      | true =>
          refine ⟨[.code char driver.position follows], _, ?_, .openBrace inside isBrace⟩
          simp only [react?, brace, inside, ↓reduceIte]
      | false =>
          cases counted : hole.depth with
          | zero =>
              obtain ⟨token, kept⟩ := agrees.waiting hole (by simp [inside])
              obtain ⟨-, nothingOpen⟩ := agrees.resting (by rw [fits]; rfl)
              refine ⟨_, _, ?_, .closeHole inside counted nothingOpen kept⟩
              simp [react?, brace, inside, counted, kept]
          | succ depth =>
              refine ⟨[.code char driver.position follows], _, ?_,
                .closeBrace inside counted isBrace⟩
              simp [react?, brace, inside, counted]

/-- The characters that the transition at a driver covers. -/
def piece (dialect : Dialect) (block : Text) (driver : Driver) : Text :=
  (block.drop driver.index).take (driver.count dialect block)

/-- A transition covers no more characters than are left. -/
theorem index_add_count_le
    (dialect : Dialect)
    (inside : driver.index < block.length) :
    driver.index + driver.count dialect block ≤ block.length := by
  have nonempty : block.drop driver.index ≠ [] := by simpa using inside
  have covers := Scan.covered_le (driver.transition dialect block) nonempty
  rw [List.length_drop] at covers
  exact Nat.add_le_of_le_sub' (Nat.le_of_lt inside) covers

theorem length_piece
    (dialect : Dialect)
    (inside : driver.index < block.length) :
    (driver.piece dialect block).length = driver.count dialect block := by
  have room := index_add_count_le dialect inside
  rw [piece, List.length_take, List.length_drop]
  omega

theorem slice?_piece
    (dialect : Dialect)
    (inside : driver.index < block.length) :
    block.slice? driver.index (driver.index + driver.count dialect block) =
      some (driver.piece dialect block) := by
  rw [Text.slice?_eq_some (Nat.le_add_right _ _) (index_add_count_le dialect inside),
    List.drop_take, Nat.add_sub_cancel_left, piece]

/-- The loop goes on behind a turn. -/
theorem turns?_of_turn?
    {turn : Turn}
    (inside : driver.index < block.length)
    (taken : driver.turn? dialect block = some turn) :
    driver.turns? dialect block =
      (turn.after.turns? dialect block).map fun (later, final) => (turn :: later, final) := by
  rw [turns?, if_pos inside]
  split
  · rename_i fails
    cases fails.symm.trans taken
  · rename_i same
    cases same.symm.trans taken
    rfl

/-- A turn of the loop over the piece that its transition covers, which leaves the given
registers. -/
structure Turn.IsTaken (dialect : Dialect) (block : Text) (next : Driver) (turn : Turn) :
    Prop where
  taken : turn.before.turn? dialect block = some turn
  piece : turn.piece = turn.before.piece dialect block
  change :
    ∃ char,
      Change dialect turn.before (turn.before.count dialect block) char
        turn.transition turn.events next
  after :
    turn.after =
      next.moveTo (turn.before.index + turn.before.count dialect block)
        (turn.before.position.advanceOver turn.piece)

/-- A driver whose registers agree takes its turn at every character of the block. -/
theorem Agrees.exists_isTaken
    (agrees : driver.Agrees dialect)
    (begun :
      ∀ token, driver.token? = some token →
        token.index + token.openingLength ≤ driver.index)
    (inside : driver.index < block.length) :
    ∃ (turn : Turn) (next : Driver),
      turn.before = driver ∧ turn.IsTaken dialect block next := by
  have nonempty : block.drop driver.index ≠ [] := by simpa using inside
  obtain ⟨char, tail, left⟩ := List.exists_cons_of_ne_nil nonempty
  have here : block[driver.index]? = some char := by
    rw [← List.head?_drop, left, List.head?_cons]
  have classified :
      dialect.classify driver.state (block.take driver.index).getLast? (char :: tail) =
        driver.transition dialect block := by
    rw [← left]
    rfl
  have covers :
      (driver.transition dialect block).covered (char :: tail) = driver.count dialect block := by
    rw [← left]
    rfl
  let stop := driver.position.advanceOver (driver.piece dialect block)
  obtain ⟨events, next, reacts, change⟩ :=
    agrees.exists_react? begun classified covers (index_add_count_le dialect inside) stop
      block[driver.index + driver.count dialect block]?
  refine ⟨⟨driver, driver.transition dialect block, driver.piece dialect block, events,
    next.moveTo (driver.index + driver.count dialect block) stop⟩, next, rfl,
    ⟨?_, rfl, ⟨char, change⟩, rfl⟩⟩
  simp [turn?, here, slice?_piece dialect inside, reacts, stop]

end Turns

end Driver

end LocalizationScan
