import LocalizationScan.Proofs.Literal.LineFeeds
import LocalizationScan.Proofs.Results

namespace LocalizationScan

/-!
# Literals of broken lines

In C# only verbatim strings, strings with holes and block comments go on in the
next line.  Where a line begins none of them, whatever it leaves open ends with
it, so the literals of a text of such lines are those of its lines, each found
on its own.
-/

/-- A line of C# that begins no token which can go on in the next line. -/
structure CSharp.EndsTokens (line : Text) : Prop where
  noFeed : '\n' ∉ line
  noVerbatim : '@' ∉ line
  noInterpolated : '$' ∉ line
  noComment : ¬['/', '*'] <:+: line

theorem CSharp.EndsTokens.append_right
    {front back : Text}
    (ends : EndsTokens (front ++ back)) :
    EndsTokens back where
  noFeed := fun member => ends.noFeed (List.mem_append_right _ member)
  noVerbatim := fun member => ends.noVerbatim (List.mem_append_right _ member)
  noInterpolated := fun member => ends.noInterpolated (List.mem_append_right _ member)
  noComment := fun inside =>
    ends.noComment (inside.trans (List.suffix_append front back).isInfix)

/-- Lines with their places, when the first one begins at the anchor. -/
def linesFrom (anchor : Position) : List Text → List (Position × Text)
  | [] => []
  | line :: lines => (anchor, line) :: linesFrom (anchor.advanceOver (line ++ ['\n'])) lines

namespace CSharp

variable {marker : Text} {anchor : Position} {line : Text}

/-- Without the characters of the other forms a string that opens is a regular string or
a character literal. -/
theorem ofLine_of_openString
    {kind : StringKind}
    {length : Nat}
    {rest : Text}
    (opens : classifyCode rest = .openString kind length)
    (ends : EndsTokens rest) :
    kind = .regular ∨ kind = .char := by
  obtain ⟨-, noVerbatim, noInterpolated, -⟩ := ends
  revert opens
  fun_cases classifyCode rest with
  | case3 | case4 =>
      rintro ⟨⟩
      simp
  | case5 | case6 | case7 | case8 =>
      simp at noVerbatim noInterpolated
  | _ =>
      rintro ⟨⟩

/-- What is open stays what a line feed ends, and no comment is. -/
theorem keeps_endsAtFeed (marker : Text) (anchor : Position) :
    Scan.Keeps (.csharp marker) anchor
      (fun control _ rest => control.EndsAtFeed (.csharp marker) ∧ EndsTokens rest)
      (fun event => ∀ text, event ≠ .commentClosed text) := by
  rintro control done piece later events next - - move ⟨feeds, ends⟩
  have endsLater := ends.append_right
  cases move with
  | code | lineComment =>
      cases feeds
      exact ⟨⟨.code, endsLater⟩, List.forall_mem_singleton.mpr nofun⟩
  | openString classified =>
      cases feeds
      refine ⟨⟨.string ?_, endsLater⟩, List.forall_mem_singleton.mpr nofun⟩
      exact ofLine_of_openString classified ends
  | openComment =>
      exact absurd (List.prefix_append _ _).isInfix ends.noComment
  | stringText =>
      exact ⟨⟨feeds, endsLater⟩, List.forall_mem_nil _⟩
  | closeString =>
      cases feeds
      exact ⟨⟨.code, endsLater⟩, List.forall_mem_singleton.mpr nofun⟩
  | abandon =>
      cases feeds
      exact ⟨⟨.code, endsLater⟩,
        List.forall_mem_cons.mpr ⟨nofun, List.forall_mem_singleton.mpr nofun⟩⟩
  | openHole _ interpolated =>
      cases feeds with
      | string ofLine => rcases ofLine with rfl | rfl <;> cases interpolated
  | continuation visualBasic =>
      cases visualBasic
  | openBrace | closeBrace | closeHole | commentText | closeComment =>
      cases feeds

/-- A line feed behind a line that ends its tokens separates the literals. -/
theorem EndsTokens.literals_feed
    (ends : EndsTokens line)
    (marker : Text)
    (flags : ItemFlags)
    (anchor : Position)
    (later : Text) :
    (Dialect.csharp marker).literals flags anchor (line ++ '\n' :: later) =
      (Dialect.csharp marker).literals flags anchor line ++
        (Dialect.csharp marker).literals flags (anchor.advanceOver (line ++ ['\n'])) later := by
  have keeps := keeps_endsAtFeed marker anchor
  have initially : Control.initial.EndsAtFeed (.csharp marker) ∧ EndsTokens line := ⟨.code, ends⟩
  obtain ⟨final, last, feeds, -⟩ :=
    Scan.exists_finalControl? keeps .initial [] line initially
  have noComment := Scan.forall_mem_events keeps .initial [] line initially
  have goesOn := @Dialect.goesOn_feed _ _ _ later _ last feeds nofun
  obtain ⟨between, found, unmarked⟩ :=
    goesOn.exists_literalsOfEvents_eq (.csharp marker) flags .initial
  have nothing := unmarked rfl fun text closed => noComment _ closed text rfl
  rw [nothing] at found
  exact found

end CSharp

section Lines

variable {anchor : Position} {lines : List Text}

/-- The literals of lines that end their tokens are those of each line on its own. -/
theorem literals_joinWith
    (ends : ∀ line ∈ lines, CSharp.EndsTokens line)
    (marker : Text)
    (flags : ItemFlags) :
    (Dialect.csharp marker).literals flags anchor (Text.joinWith ['\n'] lines) =
      ((linesFrom anchor lines).map fun place =>
        (Dialect.csharp marker).literals flags place.1 place.2).flatten := by
  fun_induction linesFrom anchor lines with
  | case1 anchor =>
      have nothing := Scan.events_between_nil (.csharp marker) anchor .initial []
      exact congrArg (literalsOfEvents _ flags .initial) nothing
  | case2 anchor line lines inductionHypothesis =>
      obtain ⟨here, later⟩ := List.forall_mem_cons.mp ends
      cases lines with
      | nil =>
          simp [Text.joinWith, linesFrom]
      | cons next lines =>
          rw [Text.joinWith, List.append_assoc, List.singleton_append, here.literals_feed,
            inductionHypothesis later]
          rfl

/-- Lines have the places of parts of a text. -/
theorem exists_advanceOver_of_mem_linesFrom
    {place : Position × Text}
    (member : place ∈ linesFrom anchor lines) :
    ∃ done, place.1 = anchor.advanceOver done := by
  fun_induction linesFrom anchor lines with
  | case1 =>
      cases member
  | case2 anchor line lines inductionHypothesis =>
      rcases List.mem_cons.mp member with rfl | later
      · exact ⟨[], rfl⟩
      · obtain ⟨done, start⟩ := inductionHypothesis later
        exact ⟨line ++ ['\n'] ++ done, by rw [start, Position.advanceOver_append _ (line ++ _)]⟩

end Lines

/-- What is found in lines is what is found in each of them at its own place, so whatever
a line leaves open neither hides nor adds nor alters a literal of another line. -/
theorem findLiterals_lines
    (marker : Text)
    (flags : ItemFlags)
    (anchor : Position)
    (lines : List Text)
    (ends : ∀ line ∈ lines, CSharp.EndsTokens line)
    (validLine : 1 ≤ anchor.line)
    (validColumn : 1 ≤ anchor.column) :
    findLiterals (.csharp marker) flags anchor (Text.joinWith ['\n'] lines) =
      ((linesFrom anchor lines).mapM fun (start, line) =>
        findLiterals (.csharp marker) flags start line).map List.flatten := by
  have valid := Position.asAnchor_of_one_le validLine validColumn
  have succeeds :
      ∀ place ∈ linesFrom anchor lines,
        findLiterals (.csharp marker) flags place.1 place.2 =
          .ok ((Dialect.csharp marker).literals flags place.1 place.2) := by
    intro place member
    obtain ⟨done, start⟩ := exists_advanceOver_of_mem_linesFrom member
    rw [findLiterals, start, (Position.asAnchor_advanceOver valid done).2]
    rfl
  rw [findLiterals, valid, mapM_eq_ok_map succeeds]
  exact congrArg Except.ok (literals_joinWith ends marker flags)

/-- A string with a backslash before the end of its line, which is a carriage return and a line
feed in one line and a line feed in another, a quote in an open character literal, and a
character literal that is cut off behind a string. -/
theorem findLiterals_lines_cut :
    let lines :=
      ["\"open\\\r".toList, "'\"".toList, "\"a\"+'b".toList, "\"c\\".toList, "\"d\"".toList]
    (∀ line ∈ lines, CSharp.EndsTokens line) ∧
      findLiterals (.csharp defaultMarker) .none .start (Text.joinWith ['\n'] lines) =
        .ok
          [⟨"\"a\"".toList, ['a'], ⟨⟨3, 1, 11⟩, ⟨3, 4, 14⟩⟩, false, .none⟩,
            ⟨"\"d\"".toList, ['d'], ⟨⟨5, 1, 22⟩, ⟨5, 4, 25⟩⟩, false, .none⟩] := by
  intro lines
  have characters :
      ∀ line ∈ lines, '\n' ∉ line ∧ '@' ∉ line ∧ '$' ∉ line ∧ ¬['/', '*'] <:+: line := by
    decide
  have ends : ∀ line ∈ lines, CSharp.EndsTokens line := fun line member =>
    have ⟨noFeed, noVerbatim, noInterpolated, noComment⟩ := characters line member
    ⟨noFeed, noVerbatim, noInterpolated, noComment⟩
  refine ⟨ends, ?_⟩
  rw [findLiterals_lines defaultMarker .none .start lines ends (by decide) (by decide)]
  cbv

end LocalizationScan
