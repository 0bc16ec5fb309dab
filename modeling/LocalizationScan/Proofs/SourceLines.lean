import LocalizationScan.Proofs.LiteralForms
import LocalizationScan.Proofs.Reference.LeftEnds
import LocalizationScan.Proofs.SourceOrder
import LocalizationScan.Proofs.Text.Lines

namespace LocalizationScan

/-!
# Items on their source lines

A report shows the line on which an item starts and underlines the item there.
Literals begin and end with characters of their delimiters, and references with
characters of identifiers, so line breaks around an item take nothing of it
away: what is underlined is the item up to its first line break.
-/

section Blocks

variable {dialect : Dialect} {anchor : Position} {block : Text}

theorem StringToken.IsFormed.showsOnLine
    {token : StringToken}
    (formed : token.IsFormed dialect anchor block) :
    token.text.ShowsOnLine := by
  obtain ⟨-, opening, -, -, -, text, forms, -⟩ := formed
  rw [text]
  generalize token.kind = kind at forms
  generalize token.body = body at forms
  have ends : (opening ++ body ++ ['"']).getLast? ≠ some '\r' := by
    rw [List.getLast?_concat]
    decide
  cases forms with
  | line | doubled => exact ⟨⟨'"', rfl, by decide⟩, ends⟩
  | verbatim => exact ⟨⟨'@', rfl, by decide⟩, ends⟩

theorem Dialect.showsOnLine_of_mem_literals
    {flags : ItemFlags}
    {literal : Literal}
    (member : literal ∈ dialect.literals flags anchor block) :
    literal.text.ShowsOnLine := by
  obtain ⟨token, marked, closed, reported, rfl⟩ := exists_closed_of_mem_literalsOfEvents member
  have reads : Control.initial.ReadsUnits dialect anchor [] block :=
    ⟨Control.initial_fitsDialect dialect, fun _ _ mode => (nomatch mode)⟩
  have formed :=
    Scan.forall_mem_events (Scan.keeps_readsUnits dialect anchor block) .initial [] block
      ⟨rfl, reads⟩ _ closed token rfl reported
  exact formed.showsOnLine

/-- A move meets a character of code only at the beginning of its piece. -/
theorem Move.code_of_mem
    {before : Option Char}
    {position place : Position}
    {piece later : Text}
    {control next : Control}
    {events : List Event}
    {char : Char}
    {following : Option Char}
    (move : Move dialect before position piece later control events next)
    (member : .code char place following ∈ events) :
    place = position ∧ ∃ tail, piece = char :: tail := by
  cases move with
  | code | openBrace | closeBrace =>
      cases List.mem_singleton.mp member
      exact ⟨rfl, [], rfl⟩
  | abandon =>
      rcases List.mem_cons.mp member with dropped | isCode
      · cases dropped
      · cases List.mem_singleton.mp isCode
        exact ⟨rfl, [], rfl⟩
  | _ => simp at member

/-- A character of code stands in its block where its position says. -/
theorem Run.code_of_mem
    {control : Control}
    {done rest : Text}
    {events : List Event}
    {char : Char}
    {place : Position}
    {following : Option Char}
    (run : Run dialect anchor control done rest events)
    (member : .code char place following ∈ events) :
    ∃ before after,
      done ++ rest = before ++ char :: after ∧ place = anchor.advanceOver before := by
  induction run with
  | finished => cases member
  | @move _ _ done piece later _ _ _ here _ inductionHypothesis =>
      rcases List.mem_append.mp member with isHere | isLater
      · obtain ⟨rfl, tail, rfl⟩ := here.code_of_mem isHere
        exact ⟨done, tail ++ later, rfl, rfl⟩
      · rw [← List.append_assoc]
        exact inductionHypothesis isLater

theorem Text.noBreak_of_isIdentifierChar
    {char : Char}
    (isIdentifier : Text.isIdentifierChar char = true) :
    char ≠ '\n' ∧ char ≠ '\r' := by
  constructor
  all_goals
    rintro rfl
    cases isIdentifier

/-- What is covered from a character of an identifier up to one shows on its line. -/
theorem Span.Covers.showsOnLine
    {span : Span}
    {slice before after front back : Text}
    {first last : Char}
    (covers : span.Covers anchor block slice)
    (nonempty : slice ≠ [])
    (begins : block = before ++ first :: after)
    (start : span.start = anchor.advanceOver before)
    (isFirst : Text.isIdentifierChar first = true)
    (ends : block = front ++ last :: back)
    (stop : span.stop = (anchor.advanceOver front).advance last)
    (isLast : Text.isIdentifierChar last = true) :
    slice.ShowsOnLine := by
  obtain ⟨earlier, later, shape, rfl⟩ := covers
  have startOffset := congrArg Position.offset start
  have stopOffset := congrArg Position.offset stop
  simp only [Position.offset_advanceOver, Position.offset_advance, List.length_append]
    at startOffset stopOffset
  constructor
  · have same : earlier ++ (slice ++ later) = before ++ first :: after := by
      rw [← List.append_assoc, ← shape, begins]
    obtain ⟨-, behind⟩ := List.append_inj same (by omega)
    refine ⟨first, ?_, Text.noBreak_of_isIdentifierChar isFirst⟩
    cases slice with
    | nil => exact absurd rfl nonempty
    | cons => exact congrArg List.head? behind
  · have same : (earlier ++ slice) ++ later = (front ++ [last]) ++ back := by
      rw [← shape, ends, List.append_cons]
    obtain ⟨inFront, -⟩ := List.append_inj same (by simp; omega)
    rw [← List.getLast?_append_of_ne_nil earlier nonempty, inFront, List.getLast?_concat]
    simpa using (Text.noBreak_of_isIdentifierChar isLast).2

theorem Dialect.showsOnLine_of_mem_references
    {context : ResolveContext}
    {flags : ItemFlags}
    {items : List Reference}
    (searched : dialect.references context flags anchor block = .ok items)
    {reference : Reference}
    (member : reference ∈ items) :
    ∃ slice, reference.span.Covers anchor block slice ∧ slice.ShowsOnLine := by
  obtain ⟨slice, covers, -⟩ := isSpelled_of_mem_references searched member
  have run := dialect.run_events anchor block
  obtain ⟨events, first, following, later, shape, isFirst, -⟩ :=
    Chain.isBehind_nil.beginsChain searched reference member
  rw [List.nil_append] at shape
  obtain ⟨before, after, begins, start⟩ :=
    run.code_of_mem (shape ▸ List.mem_append_right events List.mem_cons_self)
  obtain ⟨last, position, _, isCode, isLast, stop⟩ := Chain.exists_code_of_mem searched member
  obtain ⟨front, back, ends, rfl⟩ := run.code_of_mem isCode
  obtain ⟨_, _, begun⟩ := exists_beginsAt searched member
  have nonempty : slice ≠ [] := by
    have length := covers.length_eq
    have long := begun.nonempty
    rintro rfl
    simp only [Span.length, List.length_nil] at length
    omega
  exact ⟨slice, covers, covers.showsOnLine nonempty begins start isFirst ends stop isLast⟩

end Blocks

namespace SourceFile

/-- What a file shows on the line where a span starts is what the span covers, up to the first
line break in it. -/
theorem take_drop_line
    {source : SourceFile}
    {span : Span}
    {slice : Text}
    (covers : span.Covers .start source.content slice)
    (shows : slice.ShowsOnLine) :
    let shown := ((source.line span.start.line).drop (span.start.column - 1)).take span.length
    shown = slice.firstLine ∧ shown ≠ [] := by
  have length := covers.length_eq
  obtain ⟨before, after, shape, rfl⟩ := covers
  obtain ⟨front, inLine, column, line⟩ := Position.exists_line_eq_firstLine before (slice ++ after)
  have isLine :
      source.line (Position.start.advanceOver before).line =
        Text.firstLine (front ++ (slice ++ after)) := by
    have positive := Position.line_le_advanceOver .start before
    rw [← line, ← List.append_assoc, ← shape]
    generalize (Position.start.advanceOver before).line = number at positive
    cases number with
    | zero => cases positive
    | succ => rfl
  have shown := shows.take_drop_firstLine inLine after
  rw [isLine, length, column, Nat.add_sub_cancel, shown]
  exact ⟨rfl, shows.firstLine_ne_nil⟩

/-- On the line where it starts, behind its column and over its length, an item of a file shows
its source up to the first line break in it, and shows some of it. -/
theorem line_shows_items
    (path content : Text)
    (generated : Bool)
    (source : SourceFile)
    (opened : ofContent? path content generated = some source) :
    let shown (span : Span) (length : Nat) :=
      ((source.line span.start.line).drop (span.start.column - 1)).take length
    (∀ marker,
      ∃ items,
        source.literals marker = .ok items ∧
          ∀ item ∈ items,
            shown item.span item.length =
                Text.firstLine ((content.drop item.offset).take item.length) ∧
              shown item.span item.length ≠ []) ∧
      ∀ trie rootNamespace preferred? items,
        source.references trie rootNamespace preferred? = .ok items →
          ∀ item ∈ items,
            shown item.span item.length =
                Text.firstLine ((content.drop item.offset).take item.length) ∧
              shown item.span item.length ≠ [] := by
  intro shown
  have sameContent : source.content = content := by
    obtain ⟨_, -, rfl⟩ := Option.map_eq_some_iff.mp opened
    rfl
  -- An item of a region is covered in the file as it is in the region.
  have shownItem
      {span : Span}
      {slice : Text}
      {region : CodeRegion}
      (memberRegion : region ∈ source.regions)
      (covers : span.Covers region.anchor region.code slice)
      (shows : slice.ShowsOnLine) :
      shown span span.length =
          Text.firstLine ((content.drop span.start.offset).take span.length) ∧
        shown span span.length ≠ [] := by
    obtain ⟨-, before, after, shape, anchor⟩ := isPlaced_of_mem_regions opened memberRegion
    rw [anchor] at covers
    have inContent := Span.Covers.within before after covers
    rw [← shape] at inContent
    rw [inContent.take_drop]
    rw [← sameContent] at inContent
    exact take_drop_line inContent shows
  constructor
  · intro marker
    refine ⟨_, literals_eq_ok opened marker, fun item member => ?_⟩
    obtain ⟨region, memberRegion, found⟩ := List.mem_flatMap.mp member
    exact shownItem memberRegion (Dialect.covers_of_mem_literals found).1
      (Dialect.showsOnLine_of_mem_literals found)
  · intro trie rootNamespace preferred? items searched item member
    obtain ⟨region, memberRegion, found, searchedRegion, memberFound⟩ :=
      exists_region_of_mem_references opened searched member
    obtain ⟨slice, covers, shows⟩ :=
      Dialect.showsOnLine_of_mem_references searchedRegion memberFound
    exact shownItem memberRegion covers shows

/-- Of a verbatim string over two lines the first one shows, and a lone carriage return in
front of it ends no line. -/
theorem line_shows_items_verbatim :
    let content := "a\r\n\rs=@\"b\r\nc\";".toList
    let source : SourceFile := ⟨"a.cs".toList, content, false, .code .csharp⟩
    let item : Literal :=
      ⟨"@\"b\r\nc\"".toList, "b\r\nc".toList, ⟨⟨2, 4, 6⟩, ⟨3, 3, 13⟩⟩, true, .none⟩
    ofContent? "a.cs".toList content false = some source ∧
      source.literals defaultMarker = .ok [item] ∧
      ((source.line 2).drop 3).take 7 = "@\"b".toList := by
  intro content source item
  have opened : ofContent? "a.cs".toList content false = some source := by
    cbv
  have scanned : source.literals defaultMarker = .ok [item] := by
    simp only [source, content, item]
    cbv
  obtain ⟨items, found, shown⟩ :=
    (line_shows_items "a.cs".toList content false source opened).1 defaultMarker
  cases scanned.symm.trans found
  exact ⟨opened, scanned, (shown item List.mem_cons_self).1⟩

end SourceFile

end LocalizationScan
