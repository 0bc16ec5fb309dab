import LocalizationScan.Proofs.Scan.Trail

namespace LocalizationScan

/-!
# Scans of longer texts

An open token holds the text up to the end of the block.  When more text
follows the block, the scan holds the same tokens with more text, and as long
as its transitions are the same it yields the same events, save for what they
tell about the next character.
-/

/-- An event that tells what follows only where an identifier goes on. -/
def Event.normalized : Event → Event
  | .code char position next =>
      .code char position
        (if Text.isIdentifierChar char then next.filter Text.isIdentifierChar else none)
  | event => event

/-- Text behind the block that goes on with no identifier changes no event. -/
theorem Event.normalized_code_append
    {char : Char}
    {position : Position}
    {more : Text}
    (later : Text)
    (noIdentifier : more.head?.any Text.isIdentifierChar = false) :
    (code char position (later ++ more).head?).normalized =
      (code char position later.head?).normalized := by
  cases later with
  | nil =>
      cases more with
      | nil =>
          rfl
      | cons next others =>
          simp only [List.head?_cons, Option.any_some] at noIdentifier
          simp [normalized, noIdentifier]
  | cons next others =>
      rfl

def OpenToken.extend (more : Text) (token : OpenToken) : OpenToken :=
  { token with text := token.text ++ more }

def Hole.extend (more : Text) (hole : Hole) : Hole :=
  { hole with token := hole.token.extend more }

def Mode.extend (more : Text) : Mode → Mode
  | .resting => .resting
  | .inString kind token => .inString kind (token.extend more)
  | .inComment token => .inComment (token.extend more)

/-- A control as it is when more text follows the block. -/
def Control.extend (more : Text) (control : Control) : Control :=
  ⟨control.mode.extend more, control.holes.map (Hole.extend more)⟩

/-- The token that is open in a mode. -/
def Mode.token? : Mode → Option OpenToken
  | .resting => none
  | .inString _ token | .inComment token => some token

/-- A control whose tokens hold the text up to a number of characters of the file. -/
structure Control.ReachesTo (stop : Nat) (control : Control) : Prop where
  current : ∀ token ∈ control.mode.token?, token.start.offset + token.text.length = stop
  waiting : ∀ hole ∈ control.holes, hole.token.start.offset + hole.token.text.length = stop

namespace Control

variable {control : Control} {more : Text} {stop : Nat} {transition : Transition}
  {before after : Cursor} {code codeMore : Event}

theorem mode_of_isCode
    (inCode : control.lexicalState.isCode = true) :
    control.mode = .resting := by
  obtain ⟨mode, holes⟩ := control
  cases mode with
  | resting => rfl
  | inString | inComment => cases inCode

@[simp]
theorem lexicalState_extend (more : Text) (control : Control) :
    (control.extend more).lexicalState = control.lexicalState := by
  obtain ⟨mode, holes⟩ := control
  cases mode <;> cases holes <;> rfl

@[simp]
theorem extend_initial (more : Text) :
    initial.extend more = initial := rfl

theorem ReachesTo.initial (stop : Nat) :
    initial.ReachesTo stop :=
  ⟨fun _ member => (nomatch member), fun _ member => (nomatch member)⟩

theorem textTo_extend
    {token : OpenToken}
    {position : Position}
    (reaches : token.start.offset + token.text.length = stop)
    (inside : position.offset ≤ stop) :
    (token.extend more).textTo position = token.textTo position := by
  unfold OpenToken.textTo OpenToken.extend
  apply List.take_append_of_le_length
  rw [← reaches] at inside
  exact Nat.sub_le_iff_le_add'.mpr inside

theorem closeToken_extend
    {kind : StringKind}
    {token : OpenToken}
    {length : Nat}
    {emit : Bool}
    (reaches : token.start.offset + token.text.length = stop)
    (inside : after.position.offset ≤ stop) :
    (control.extend more).closeToken kind (token.extend more) length emit after.position =
      control.closeToken kind token length emit after.position := by
  have holes : (control.extend more).holes.isEmpty = control.holes.isEmpty := by
    simp [extend]
  simp only [closeToken, textTo_extend reaches inside, holes]
  rfl

/-- With more text behind the block the reaction to a transition is the same. -/
theorem react_extend
    (reaches : control.ReachesTo stop)
    (inside : after.position.offset ≤ stop)
    (same : codeMore.normalized = code.normalized) :
    ((control.extend more).react transition
          { before with rest := before.rest ++ more }
          { after with rest := after.rest ++ more } codeMore).1.map Event.normalized =
        (control.react transition before after code).1.map Event.normalized ∧
      ((control.extend more).react transition
          { before with rest := before.rest ++ more }
          { after with rest := after.rest ++ more } codeMore).2 =
        (control.react transition before after code).2.extend more := by
  cases transition with
  | stay | abandon =>
      obtain ⟨mode, holes⟩ := control
      cases mode <;> simp [react, rest, extend, Mode.extend, same]
  | escape | continuation | lineComment =>
      exact ⟨rfl, rfl⟩
  | openString | openComment =>
      exact ⟨rfl, rfl⟩
  | closeString length emit =>
      obtain ⟨mode, holes⟩ := control
      cases mode with
      | resting | inComment =>
          exact ⟨rfl, rfl⟩
      | inString kind token =>
          have closed :=
            @closeToken_extend ⟨.inString kind token, holes⟩ more stop after kind token length
              emit (reaches.current token rfl) inside
          refine ⟨?_, rfl⟩
          exact congrArg (fun token => [Event.stringClosed token]) closed
  | closeComment length =>
      obtain ⟨mode, holes⟩ := control
      cases mode with
      | resting | inString =>
          exact ⟨rfl, rfl⟩
      | inComment token =>
          have text :=
            @textTo_extend more stop token after.position (reaches.current token rfl) inside
          refine ⟨?_, rfl⟩
          exact congrArg (fun text => [Event.commentClosed text]) text
  | openHole =>
      obtain ⟨mode, holes⟩ := control
      cases mode <;> exact ⟨rfl, rfl⟩
  | brace opening =>
      obtain ⟨mode, holes⟩ := control
      cases holes with
      | nil =>
          exact ⟨congrArg (fun event => [event]) same, rfl⟩
      | cons hole outer =>
          cases opening with
          | true =>
              exact ⟨congrArg (fun event => [event]) same, rfl⟩
          | false =>
              by_cases unmatched : hole.depth = 0
              · simp [react, brace, extend, Hole.extend, unmatched, Mode.extend]
              · simp [react, brace, extend, Hole.extend, unmatched, same]

/-- The tokens that a reaction opens hold the text up to the end of the block. -/
theorem ReachesTo.react
    (reaches : control.ReachesTo stop)
    (whole : before.position.offset + before.rest.length = stop) :
    (control.react transition before after code).2.ReachesTo stop := by
  have rests : control.rest.ReachesTo stop :=
    ⟨fun _ member => (nomatch member), reaches.waiting⟩
  cases transition with
  | stay | escape | continuation | lineComment =>
      exact reaches
  | abandon =>
      exact rests
  | openString | openComment =>
      refine ⟨?_, reaches.waiting⟩
      intro token member
      cases member
      exact whole
  | closeString =>
      obtain ⟨mode, holes⟩ := control
      cases mode <;> exact rests
  | closeComment =>
      obtain ⟨mode, holes⟩ := control
      cases mode <;> exact rests
  | openHole =>
      obtain ⟨mode, holes⟩ := control
      cases mode with
      | resting | inComment =>
          exact reaches
      | inString kind token =>
          refine ⟨fun _ member => (nomatch member), ?_⟩
          exact List.forall_mem_cons.mpr ⟨reaches.current token rfl, reaches.waiting⟩
  | brace opening =>
      obtain ⟨mode, holes⟩ := control
      cases holes with
      | nil =>
          exact reaches
      | cons hole outer =>
          obtain ⟨here, waiting⟩ := List.forall_mem_cons.mp reaches.waiting
          simp only [react, brace]
          split
          · exact ⟨reaches.current, List.forall_mem_cons.mpr ⟨here, waiting⟩⟩
          · split
            · refine ⟨?_, waiting⟩
              intro token member
              cases member
              exact here
            · exact ⟨reaches.current, List.forall_mem_cons.mpr ⟨here, waiting⟩⟩

end Control

end LocalizationScan
