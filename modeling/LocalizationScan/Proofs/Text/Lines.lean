import Mathlib.Data.List.Basic
import LocalizationScan.Position
import LocalizationScan.Proofs.Reference.Dotted

namespace LocalizationScan

/-!
# Positions and lines

A position counts line feeds, and the lines of a text are cut at line feeds
without the carriage returns before them.  Both agree on where a line begins:
what stands on the line of a position in front of its column is what stands
between the last line feed and the position.
-/

namespace Text

/-- A line without the carriage return that belongs to its line feed. -/
def endLine (line : Text) : Text :=
  if line.getLast? = some '\r' then line.dropLast else line

/-- A text up to its first line feed, without the carriage return that belongs to it. -/
def firstLine (text : Text) : Text :=
  if '\n' ∈ text then endLine (text.takeWhile (· ≠ '\n')) else text

/-- Whether a token shows on the line where it starts: it does not begin with a character of a
line break, nor end in front of a line feed that takes its last character away. -/
structure ShowsOnLine (token : Text) : Prop where
  begins : ∃ first ∈ token.head?, first ≠ '\n' ∧ first ≠ '\r'
  ends : token.getLast? ≠ some '\r'

variable {front line text : Text}

theorem withoutEnding?_return (line : Text) :
    (withoutEnding? ['\r'] line).getD line = endLine line := by
  rcases List.eq_nil_or_concat line with rfl | ⟨line, char, rfl⟩
  · rfl
  · rw [List.concat_eq_append, endLine, List.getLast?_concat, List.dropLast_concat]
    by_cases isReturn : char = '\r'
    · simp [withoutEnding?, after?, isReturn]
    · simp [withoutEnding?, after?, isReturn, Ne.symm isReturn]

theorem endLine_append
    (keeps : line = [] → front.getLast? ≠ some '\r') :
    endLine (front ++ line) = front ++ endLine line := by
  cases line with
  | nil =>
      rw [List.append_nil, endLine, if_neg (keeps rfl)]
      exact (List.append_nil front).symm
  | cons first rest =>
      rw [endLine, endLine, List.getLast?_append_of_ne_nil _ (List.cons_ne_nil first rest),
        List.dropLast_append_of_ne_nil (List.cons_ne_nil first rest)]
      split <;> rfl

theorem length_endLine_le (line : Text) : (endLine line).length ≤ line.length := by
  unfold endLine
  split
  · exact (List.dropLast_sublist line).length_le
  · exact Nat.le_refl _

theorem takeWhile_append_feed
    (inLine : '\n' ∉ line)
    (rest : Text) :
    (line ++ '\n' :: rest).takeWhile (· ≠ '\n') = line := by
  rw [List.takeWhile_append_of_pos]
  · simp
  · rintro char member
    exact decide_eq_true (ne_of_mem_of_not_mem member inLine)

theorem firstLine_of_not_mem
    (inLine : '\n' ∉ line) :
    firstLine line = line :=
  if_neg inLine

theorem firstLine_feed
    (inLine : '\n' ∉ line)
    (rest : Text) :
    firstLine (line ++ '\n' :: rest) = endLine line := by
  rw [firstLine, if_pos (by simp), takeWhile_append_feed inLine]

/-- A text has no line feed, or a first one. -/
theorem not_mem_feed_or_exists (text : Text) :
    '\n' ∉ text ∨ ∃ line rest, text = line ++ '\n' :: rest ∧ '\n' ∉ line := by
  by_cases member : '\n' ∈ text
  · exact .inr (List.eq_append_cons_of_mem member)
  · exact .inl member

theorem firstLine_append
    (inLine : '\n' ∉ front)
    (keeps : text.head? = some '\n' → front.getLast? ≠ some '\r') :
    firstLine (front ++ text) = front ++ firstLine text := by
  rcases not_mem_feed_or_exists text with noFeed | ⟨line, rest, rfl, noFeed⟩
  · rw [firstLine_of_not_mem noFeed, firstLine_of_not_mem (by simp [inLine, noFeed])]
  · rw [firstLine_feed noFeed, ← List.append_assoc,
      firstLine_feed (by simp [inLine, noFeed]), endLine_append]
    rintro rfl
    exact keeps rfl

theorem lines_feed (before after : Text) :
    lines (before ++ '\n' :: after) = (splitOn '\n' before).map endLine ++ lines after := by
  have pieces := splitOn_ne_nil '\n' after
  simp only [lines, splitOn_append, List.getLast?_append_of_ne_nil _ pieces,
    List.dropLast_append_of_ne_nil pieces, withoutEnding?_return, List.map_append]
  split <;> simp

/-- The first of the lines of a text, which has none if it is empty. -/
theorem head?_lines (text : Text) : (lines text).head?.getD [] = firstLine text := by
  rcases not_mem_feed_or_exists text with noFeed | ⟨line, rest, rfl, noFeed⟩
  · rw [firstLine_of_not_mem noFeed, lines, splitOn_of_not_mem noFeed]
    cases text <;> rfl
  · rw [lines_feed, splitOn_of_not_mem noFeed, firstLine_feed noFeed]
    rfl

namespace ShowsOnLine

variable {token : Text}

theorem ne_nil
    (shows : token.ShowsOnLine) :
    token ≠ [] := by
  rintro rfl
  obtain ⟨first, isFirst, -⟩ := shows.begins
  cases isFirst

theorem firstLine_ne_nil
    (shows : token.ShowsOnLine) :
    firstLine token ≠ [] := by
  obtain ⟨first, isFirst, noFeed, noReturn⟩ := shows.begins
  cases token with
  | nil => cases isFirst
  | cons char rest =>
      cases isFirst
      have kept : firstLine ([first] ++ rest) = [first] ++ firstLine rest :=
        firstLine_append (by simpa using noFeed.symm) fun _ => by simpa using noReturn
      rw [← List.singleton_append, kept]
      exact List.cons_ne_nil _ _

/-- Behind the start of a line and in front of any text a token shows up to its first line
feed. -/
theorem take_drop_firstLine
    (shows : token.ShowsOnLine)
    (inLine : '\n' ∉ front)
    (rest : Text) :
    ((firstLine (front ++ (token ++ rest))).drop front.length).take token.length =
      firstLine token := by
  obtain ⟨first, isFirst, noFeed, -⟩ := shows.begins
  have apart : (token ++ rest).head? ≠ some '\n' := by
    rw [List.head?_append, isFirst]
    simpa using noFeed
  rw [firstLine_append inLine fun feed => absurd feed apart, List.drop_left]
  rcases not_mem_feed_or_exists token with inToken | ⟨line, later, rfl, inToken⟩
  · rw [firstLine_append inToken fun _ => shows.ends, List.take_left, firstLine_of_not_mem inToken]
  · rw [List.append_assoc, List.cons_append, firstLine_feed inToken, firstLine_feed inToken]
    refine List.take_of_length_le (Nat.le_trans (length_endLine_le line) ?_)
    simp

end ShowsOnLine

end Text

namespace Position

theorem advanceOver_of_not_mem
    {line : Text}
    (position : Position)
    (inLine : '\n' ∉ line) :
    position.advanceOver line =
      ⟨position.line, position.column + line.length, position.offset + line.length⟩ := by
  induction line generalizing position with
  | nil => rfl
  | cons char rest inductionHypothesis =>
      obtain ⟨noFeed, inRest⟩ := not_or.mp (mt List.mem_cons.mpr inLine)
      rw [advanceOver_cons, inductionHypothesis _ inRest, advance, if_neg (Ne.symm noFeed)]
      simp only [List.length_cons, mk.injEq, true_and]
      omega

theorem line_advanceOver (position : Position) (text : Text) :
    (position.advanceOver text).line = position.line + text.count '\n' := by
  induction text generalizing position with
  | nil => rfl
  | cons char rest inductionHypothesis =>
      rw [advanceOver_cons, inductionHypothesis, advance, List.count_cons]
      split
      · next feed =>
          rw [if_pos (by simp [feed])]
          dsimp only
          omega
      · next noFeed => simp [noFeed]

/-- The line of a position begins behind the last line feed before it, and its column counts
what stands between the two. -/
theorem exists_line_eq_firstLine (before rest : Text) :
    ∃ front,
      '\n' ∉ front ∧
        (start.advanceOver before).column = front.length + 1 ∧
        ((Text.lines (before ++ rest))[(start.advanceOver before).line - 1]?).getD [] =
          Text.firstLine (front ++ rest) := by
  cases cut : Text.splitLast? '\n' before with
  | none =>
      have inLine := Text.not_mem_of_splitLast?_eq_none cut
      refine ⟨before, inLine, ?_, ?_⟩
      · rw [advanceOver_of_not_mem start inLine]
        exact Nat.add_comm ..
      · rw [advanceOver_of_not_mem start inLine, ← Text.head?_lines, List.head?_eq_getElem?]
        rfl
  | some parts =>
      obtain ⟨earlier, front⟩ := parts
      have inLine := Text.not_mem_of_splitLast? cut
      obtain rfl := Text.eq_append_of_splitLast? cut
      refine ⟨front, inLine, ?_, ?_⟩
      · rw [advanceOver_append, advanceOver_cons, advanceOver_of_not_mem _ inLine]
        exact Nat.add_comm ..
      · have above :
            ((Text.splitOn '\n' earlier).map Text.endLine).length =
              (start.advanceOver (earlier ++ '\n' :: front)).line - 1 := by
          have none : front.count '\n' = 0 := List.count_eq_zero.mpr inLine
          simp [line_advanceOver, Text.length_splitOn, none, start]
        rw [List.append_assoc, List.cons_append, Text.lines_feed, ← above,
          List.getElem?_append_right (Nat.le_refl _), Nat.sub_self, ← Text.head?_lines,
          List.head?_eq_getElem?]

end Position

end LocalizationScan
