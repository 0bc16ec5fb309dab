import LocalizationScan.Proofs.Scan.Move

namespace LocalizationScan

/-!
# Block comments in a scan

A block comment runs to its first end.  A scan that meets one in code yields its
opening and its whole text, and it is in code again behind it.  And what a scan
yields as a comment is a block comment.
-/

namespace CSharp

/-- A text that is one block comment, whose end stands nowhere in its body. -/
inductive IsBlockComment : Text → Prop where
  | intro
      {body : Text}
      (isBody : IsCommentBody body) :
      IsBlockComment ('/' :: '*' :: body ++ ['*', '/'])

theorem isBlockComment_iff
    {body : Text} :
    IsBlockComment ('/' :: '*' :: body ++ ['*', '/']) ↔ IsCommentBody body := by
  constructor
  · generalize shape : '/' :: '*' :: body ++ ['*', '/'] = comment
    rintro ⟨isBody⟩
    obtain rfl : body = _ := by simpa using shape
    exact isBody
  · exact .intro

theorem IsCommentBody.of_cons
    {first : Char}
    {body : Text}
    (isBody : IsCommentBody (first :: body)) :
    IsCommentBody body :=
  fun holdsEnd => isBody (holdsEnd.trans (List.suffix_cons first body).isInfix)

/-- No character in the body of a comment begins its end. -/
theorem classifyComment_of_isCommentBody
    {first : Char}
    {body : Text}
    (isBody : IsCommentBody (first :: body))
    (later : Text) :
    classifyComment (first :: (body ++ '*' :: '/' :: later)) = .stay := by
  unfold classifyComment
  split
  · rename_i behind closes
    -- A comment that closed here would hold its end in its body.
    exfalso
    cases body with
    | nil =>
        simp at closes
    | cons second others =>
        simp only [List.cons_append, List.cons.injEq] at closes
        exact isBody ⟨[], others, by simp [closes.1, closes.2.1]⟩
  · rfl

/-- The text of an open comment goes on while the comment is not closed. -/
theorem isCommentBody_concat
    {body later : Text}
    {char : Char}
    (isBody : IsCommentBody (body ++ (char :: later).take 1))
    (stays : classifyComment (char :: later) = .stay) :
    IsCommentBody (body ++ [char] ++ later.take 1) := by
  cases later with
  | nil =>
      simpa using isBody
  | cons second rest =>
      intro holdsEnd
      rcases List.infix_concat_iff.mp holdsEnd with ending | earlier
      -- A new end would be the character in front and the next one, at which the comment is
      -- closed.
      · obtain ⟨front, shape⟩ := ending
        have shape' : front ++ ['*'] ++ ['/'] = body ++ [char] ++ [second] := by
          simpa using shape
        obtain ⟨sameFront, sameSecond⟩ := List.append_inj' shape' rfl
        obtain ⟨_, sameFirst⟩ := List.append_inj' sameFront rfl
        cases sameFirst
        cases sameSecond
        cases stays
      · exact isBody earlier

end CSharp

namespace Scan

variable {marker body later done : Text} {anchor : Position} {holes : List Hole}
  {token : OpenToken}

/-- The rest of an open comment yields its end, and code goes on behind it. -/
theorem events_commentText
    (isBody : CSharp.IsCommentBody body) :
    events (.csharp marker)
        ⟨⟨.inComment token, holes⟩, .between anchor done (body ++ ['*', '/'] ++ later)⟩ =
      .commentClosed (token.textTo (anchor.advanceOver (done ++ (body ++ ['*', '/'])))) ::
        events (.csharp marker)
          ⟨⟨.resting, holes⟩, .between anchor (done ++ (body ++ ['*', '/'])) later⟩ := by
  induction body generalizing done with
  | nil =>
      exact events_eq_react (.csharp marker) ['*', '/'] rfl rfl
        (Transition.covered_of_length (by simp) rfl)
  | cons first rest inductionHypothesis =>
      have stays : CSharp.classifyComment ([first] ++ (rest ++ ['*', '/'] ++ later)) = .stay := by
        simpa using CSharp.classifyComment_of_isCommentBody isBody later
      have scanned :=
        @events_eq_react anchor ⟨.inComment token, holes⟩ done (rest ++ ['*', '/'] ++ later)
          first (.csharp marker) [first] .stay _ rfl stays
          (Transition.covered_of_length (by simp) rfl)
      refine scanned.trans ?_
      simpa [Control.react] using @inductionHypothesis (done ++ [first]) isBody.of_cons

/-- A block comment in code yields its opening and its text. -/
theorem events_blockComment
    {comment : Text}
    (isComment : CSharp.IsBlockComment comment) :
    events (.csharp marker) ⟨⟨.resting, holes⟩, .between anchor done (comment ++ later)⟩ =
      .commentOpened :: .commentClosed comment ::
        events (.csharp marker)
          ⟨⟨.resting, holes⟩, .between anchor (done ++ comment) later⟩ := by
  cases isComment with
  | @intro body isBody =>
      have opens :
          (Dialect.csharp marker).classify (Control.lexicalState ⟨.resting, holes⟩)
              done.getLast? (['/', '*'] ++ (body ++ ['*', '/'] ++ later)) =
            .openComment 2 := by
        cases holes <;> rfl
      have text :=
        OpenToken.textTo_advanceOver anchor done (['/', '*'] ++ (body ++ ['*', '/'])) later 2
      refine (events_eq_react (.csharp marker) ['/', '*'] rfl opens
        (Transition.covered_of_length (by simp) rfl)).trans ?_
      refine congrArg (Event.commentOpened :: ·) ((events_commentText isBody).trans ?_)
      simp only [List.append_assoc] at text ⊢
      rw [Cursor.between, text]
      rfl

end Scan

/-- Whether an open comment has begun as one and has not met its end. -/
def Control.IsBeforeCommentEnd
    (anchor : Position)
    (done rest : Text)
    (control : Control) :
    Prop :=
  ∀ token, control.mode = .inComment token →
    ∃ front body,
      done = front ++ '/' :: '*' :: body ∧
        token.start = anchor.advanceOver front ∧
        token.text = '/' :: '*' :: body ++ rest ∧
        CSharp.IsCommentBody (body ++ rest.take 1)

section Closing

variable {marker : Text} {anchor : Position} {control next : Control}
  {done piece later rest comment : Text} {events : List Event}

theorem Control.IsBeforeCommentEnd.move
    (beforeEnd : control.IsBeforeCommentEnd anchor done (piece ++ later))
    (move :
      Move (.csharp marker) done.getLast? (anchor.advanceOver done) piece later control events
        next) :
    next.IsBeforeCommentEnd anchor (done ++ piece) later := by
  cases move with
  | openComment =>
      intro token mode
      cases mode
      have noEnd : CSharp.IsCommentBody ([] ++ later.take 1) := by
        intro holdsEnd
        have short : 2 ≤ ([] ++ later.take 1).length := holdsEnd.length_le
        rw [List.nil_append, List.length_take] at short
        omega
      exact ⟨done, [], rfl, rfl, rfl, noEnd⟩
  | @commentText _ char _ _ stays =>
      intro token mode
      obtain ⟨front, body, rfl, start, text, isBody⟩ := beforeEnd token mode
      exact ⟨front, body ++ [char], by simp, start, by simp [text],
        CSharp.isCommentBody_concat isBody stays⟩
  | _ =>
      exact fun _ mode => (nomatch mode)

/-- What a move yields as a comment is a block comment. -/
theorem Control.IsBeforeCommentEnd.isBlockComment_closed
    (beforeEnd : control.IsBeforeCommentEnd anchor done (piece ++ later))
    (move :
      Move (.csharp marker) done.getLast? (anchor.advanceOver done) piece later control events
        next)
    (closed : .commentClosed comment ∈ events) :
    CSharp.IsBlockComment comment := by
  cases move with
  | @closeComment _ _ token =>
      cases List.mem_singleton.mp closed
      obtain ⟨front, body, shape, start, text, isBody⟩ := beforeEnd token rfl
      have complete : CSharp.IsCommentBody body := fun holdsEnd =>
        isBody (holdsEnd.trans (List.prefix_append _ _).isInfix)
      have whole :
          token.textTo ((anchor.advanceOver done).advanceOver ['*', '/']) =
            '/' :: '*' :: body ++ ['*', '/'] := by
        have textTo :=
          OpenToken.textTo_advanceOver anchor front ('/' :: '*' :: body ++ ['*', '/']) later
            token.openingLength
        obtain ⟨_, _, length⟩ := token
        dsimp only at start text textTo
        subst start text
        rw [← Position.advanceOver_append, shape]
        simpa using textTo
      rw [whole]
      exact .intro complete
  | _ =>
      simp at closed

/-- What a run yields as comments are block comments. -/
theorem Run.isBlockComment_closed
    (run : Run (.csharp marker) anchor control done rest events)
    (beforeEnd : control.IsBeforeCommentEnd anchor done rest)
    (closed : .commentClosed comment ∈ events) :
    CSharp.IsBlockComment comment := by
  induction run with
  | finished =>
      cases closed
  | move _ here _ inductionHypothesis =>
      rcases List.mem_append.mp closed with closedHere | closedLater
      · exact beforeEnd.isBlockComment_closed here closedHere
      · exact inductionHypothesis (beforeEnd.move here) closedLater

end Closing

end LocalizationScan
