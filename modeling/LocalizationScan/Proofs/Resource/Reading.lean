import LocalizationScan.Proofs.Xml.Written
import LocalizationScan.Resource.Container

namespace LocalizationScan

/-!
# Reading over written markup

What reading a container does over a written tag, end tag, text, CDATA section
or comment depends on the state in front of it alone: reading goes on from the
state behind it.  Texts behind each other are one token, so a text is read
together with what follows it.
-/

namespace ContainerState

/-- Whether reading goes on over a text and succeeds with the given keys and values. -/
def Reads
    (total : Nat)
    (opened : List Text)
    (state : ContainerState)
    (text : Text)
    (found : List (Text × Text)) :
    Prop :=
  let (tokens, error) := Xml.tokensFrom total opened text
  keyedTexts state tokens error = .ok found

variable {total : Nat} {opened next : List Text} {state after : ContainerState}
  {content rest : Text} {found : List (Text × Text)}

theorem reads_nil (total : Nat) (opened : List Text) (state : ContainerState) :
    state.Reads total opened [] [] := by
  rw [Reads, Xml.tokensFrom]
  rfl

/-- Reading goes on over a token and what follows it. -/
theorem reads_token_iff
    {first : Char}
    {kind : Xml.TokenKind}
    (token : Xml.nextToken total first content = .ok (kind, rest))
    (opens : Xml.nextOpened opened kind = .ok next) :
    state.Reads total opened (first :: content) found ↔
      ∃ after completed later,
        state.next kind = .ok (after, completed) ∧ after.Reads total next rest later ∧
          found = completed.toList ++ later := by
  have tokens :
      Xml.tokensFrom total opened (first :: content) =
        let (later, error) := Xml.tokensFrom total next rest
        (⟨kind, total - Text.byteLength rest⟩ :: later, error) := by
    rw [Xml.tokensFrom]
    split
    · next read => cases token.symm.trans read
    · next read =>
        cases token.symm.trans read
        rw [opens]
  rw [Reads, tokens]
  dsimp only [Reads]
  rw [keyedTexts]
  cases stepped : state.next kind with
  | error => simp
  | ok result =>
      obtain ⟨after, completed⟩ := result
      constructor
      · intro read
        obtain ⟨later, readLater, same⟩ := Except.exists_of_map_eq_ok read
        exact ⟨after, completed, later, rfl, readLater, same.symm⟩
      · rintro ⟨_, _, later, ⟨⟩, readLater, rfl⟩
        dsimp only
        rw [readLater]
        rfl

/-- A token that completes nothing. -/
theorem Reads.token
    {first : Char}
    {kind : Xml.TokenKind}
    (behind : after.Reads total next rest found)
    (token : Xml.nextToken total first content = .ok (kind, rest))
    (opens : Xml.nextOpened opened kind = .ok next)
    (steps : state.next kind = .ok (after, none)) :
    state.Reads total opened (first :: content) found :=
  (reads_token_iff token opens).mpr ⟨after, none, found, steps, behind, rfl⟩

section Pieces

@[simp]
theorem inValue_addText (state : ContainerState) (text : Text) :
    (state.addText text).inValue = state.inValue := by
  unfold addText
  split <;> rfl

@[simp]
theorem addText_nil (state : ContainerState) : state.addText [] = state := by
  unfold addText
  split <;> simp

theorem addText_addText (state : ContainerState) (first second : Text) :
    (state.addText first).addText second = state.addText (first ++ second) := by
  unfold addText
  split <;> simp_all

theorem next_text_iff
    {raw : Text}
    {completed : Option (Text × Text)} :
    state.next (.text raw) = .ok (after, completed) ↔
      completed = none ∧
        ∃ text,
          (state.inValue = true → Xml.unescape raw = .ok text) ∧ after = state.addText text := by
  constructor
  · intro steps
    simp only [ContainerState.next] at steps
    split at steps
    · split at steps
      · next text read =>
          cases steps
          exact ⟨rfl, text, fun _ => read, rfl⟩
      · cases steps
    · next outside =>
        cases steps
        exact ⟨rfl, [], fun inside => absurd inside outside, (addText_nil state).symm⟩
  · rintro ⟨rfl, text, read, rfl⟩
    simp only [ContainerState.next]
    split
    · next inside => rw [read inside]
    · next outside => simp [addText, outside]

theorem next_text_nil (state : ContainerState) :
    state.next (.text []) = .ok (state, none) :=
  next_text_iff.mpr ⟨rfl, [], fun _ => Xml.unescape_escape [], (addText_nil state).symm⟩

/-- Text in front of a tag is one token, and none if it is empty. -/
theorem reads_text_iff :
    state.Reads total opened content found ↔
      ∃ after,
        state.next (.text (content.takeWhile (· ≠ '<'))) = .ok (after, none) ∧
          after.Reads total opened (content.dropWhile (· ≠ '<')) found := by
  have of_noText
      (noText : content.takeWhile (· ≠ '<') = [])
      (all : content.dropWhile (· ≠ '<') = content) :
      state.Reads total opened content found ↔
        ∃ after,
          state.next (.text (content.takeWhile (· ≠ '<'))) = .ok (after, none) ∧
            after.Reads total opened (content.dropWhile (· ≠ '<')) found := by
    rw [noText, all, next_text_nil]
    simp
  cases content with
  | nil => exact of_noText rfl rfl
  | cons first content =>
      by_cases begins : first = '<'
      · exact of_noText (by simp [begins]) (by simp [begins])
      · have token :
            Xml.nextToken total first content =
              .ok (.text (first :: content.takeWhile (· ≠ '<')), content.dropWhile (· ≠ '<')) :=
          if_neg begins
        rw [reads_token_iff token rfl]
        simp only [List.takeWhile_cons, List.dropWhile_cons, ne_eq, begins, not_false_eq_true,
          decide_true, ↓reduceIte]
        constructor
        · rintro ⟨after, completed, later, steps, behind, rfl⟩
          obtain ⟨rfl, -⟩ := next_text_iff.mp steps
          exact ⟨after, steps, behind⟩
        · rintro ⟨after, steps, behind⟩
          exact ⟨after, none, found, steps, behind, rfl⟩

/-- Text that is written in front of other text is read with it. -/
theorem Reads.text
    {text : Text}
    (behind : (state.addText text).Reads total opened rest found) :
    state.Reads total opened (Xml.escape text ++ rest) found := by
  have inText : ∀ char ∈ Xml.escape text, decide (char ≠ '<') = true := fun char member =>
    decide_eq_true fun same => Xml.not_mem_escape (.inl same) text member
  obtain ⟨after, steps, behindText⟩ := reads_text_iff.mp behind
  obtain ⟨-, more, read, rfl⟩ := next_text_iff.mp steps
  refine reads_text_iff.mpr ⟨_, next_text_iff.mpr ⟨rfl, text ++ more, fun inValue => ?_, rfl⟩, ?_⟩
  · rw [List.takeWhile_append_of_pos inText]
    exact Xml.unescape_append (read (by rwa [inValue_addText])) text
  · rw [List.dropWhile_append_of_pos inText, ← addText_addText]
    exact behindText

theorem Reads.piece
    {piece : Xml.Piece}
    (behind : (state.addText piece.content).Reads total opened rest found) :
    state.Reads total opened (piece.render ++ rest) found := by
  cases piece with
  | text => exact Reads.text behind
  | cdata text whole =>
      rw [Xml.Piece.render_cdata_append]
      exact Reads.token behind (Xml.nextToken_cdata whole total rest) rfl rfl
  | comment text whole =>
      rw [Xml.Piece.render_comment_append]
      rw [Xml.Piece.content, addText_nil] at behind
      exact Reads.token behind (Xml.nextToken_comment whole total rest) rfl rfl

theorem Reads.pieces
    {pieces : List Xml.Piece}
    (behind :
      (state.addText (pieces.flatMap Xml.Piece.content)).Reads total opened rest found) :
    state.Reads total opened (pieces.flatMap Xml.Piece.render ++ rest) found := by
  induction pieces generalizing state with
  | nil =>
      rw [List.flatMap_nil, addText_nil] at behind
      exact behind
  | cons piece pieces inductionHypothesis =>
      rw [List.flatMap_cons, ← addText_addText] at behind
      rw [List.flatMap_cons, List.append_assoc]
      exact (inductionHypothesis behind).piece

end Pieces

section Tags

theorem Reads.tag
    {tag : Xml.Tag}
    (behind : after.Reads total (tag.name.text :: opened) rest found)
    (opens : state.openTag tag.inner = .ok after) :
    state.Reads total opened (tag.render ++ rest) found := by
  rw [Xml.Tag.render, List.cons_append, List.append_assoc]
  refine Reads.token behind (Xml.nextToken_tag total tag rest) ?_ ?_
  · rw [Xml.nextOpened, tag.tagName_inner]
  · rw [ContainerState.next, opens]
    rfl

theorem Reads.endTag
    {tag : Xml.Tag}
    {completed : Option (Text × Text)}
    (behind : after.Reads total opened rest found)
    (closes : state.closeTag tag.name.text = (after, completed)) :
    state.Reads total (tag.name.text :: opened) (tag.renderEnd ++ rest)
      (completed.toList ++ found) := by
  rw [Xml.Tag.renderEnd, List.cons_append, List.cons_append, List.append_assoc]
  have matched :
      Xml.nextOpened (tag.name.text :: opened) (.endTag tag.name.text) = .ok opened :=
    if_pos rfl
  refine (reads_token_iff (Xml.nextToken_endTag total tag.name rest) matched).mpr
    ⟨after, completed, found, ?_, behind, rfl⟩
  rw [ContainerState.next, closes]

/-- A tag that is no `data` tag says something in a `data` element only. -/
theorem openTag_eq_self
    {tag : Xml.Tag}
    (noData : tag.name.text ≠ "data".toList)
    (apart : tag.name.text = "value".toList → state.data? = none) :
    state.openTag tag.inner = .ok state := by
  rw [openTag, tag.tagName_inner, if_neg noData]
  refine if_neg fun isValue => ?_
  obtain ⟨isValue, inData⟩ := Bool.and_eq_true_iff.mp isValue
  rw [apart (of_decide_eq_true isValue)] at inData
  cases inData

theorem closeTag_eq_self
    {name : Text}
    (noData : name ≠ "data".toList)
    (closed : state.inValue = false) :
    state.closeTag name = (state, none) := by
  unfold closeTag
  split
  · rw [← closed]
  · rfl

end Tags

end ContainerState

end LocalizationScan
