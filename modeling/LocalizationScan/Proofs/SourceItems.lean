import Mathlib
import LocalizationScan.Proofs.Literal.Emitted
import LocalizationScan.Proofs.Markup.Blocks
import LocalizationScan.Proofs.Reference.Spelling
import LocalizationScan.SourceFile

namespace LocalizationScan

/-!
# Items in their source

What is found in a file stands in the content of the file where its span says:
a literal is the text of its span, and a reference is spelled by it.
-/

section Blocks

variable {dialect : Dialect} {flags : ItemFlags} {anchor : Position} {block : Text}

/-- The span of a literal covers its text. -/
theorem Dialect.covers_of_mem_literals
    {literal : Literal}
    (member : literal ∈ dialect.literals flags anchor block) :
    literal.span.Covers anchor block literal.text ∧ 2 ≤ literal.text.length := by
  obtain ⟨token, marked, closed, -, rfl⟩ := exists_closed_of_mem_literalsOfEvents member
  have placed : Control.initial.IsPlaced anchor [] block :=
    ⟨fun _ _ mode => (nomatch mode), fun _ waiting => (nomatch waiting)⟩
  exact (dialect.run_events anchor block).covers_closed placed closed

/-- The span of a reference covers a slice that spells it. -/
theorem Dialect.isSpelled_of_mem_references
    {context : ResolveContext}
    {items : List Reference}
    (searched : dialect.references context flags anchor block = .ok items)
    {reference : Reference}
    (member : reference ∈ items) :
    reference.IsSpelled dialect anchor block := by
  have traced : Chain.idle.IsTraced dialect anchor .initial [] block := .inl rfl
  exact Chain.isSpelled_of_run (dialect.run_events anchor block) traced searched reference member

end Blocks

namespace SourceFile

section Regions

variable {path content : Text} {generated : Bool} {source : SourceFile}

/-- Every region of a file is a part of its content, in the language of the file, and begins
at its anchor. -/
theorem isPlaced_of_mem_regions
    (opened : ofContent? path content generated = some source)
    {region : CodeRegion}
    (member : region ∈ source.regions) :
    region.language = source.language ∧
      ∃ before after,
        content = before ++ region.code ++ after ∧
          region.anchor = Position.start.advanceOver before := by
  simp only [ofContent?, Option.map_eq_some_iff] at opened
  obtain ⟨kind, kindShape, rfl⟩ := opened
  unfold kindOf? at kindShape
  split at kindShape
  · cases kindShape
    cases List.mem_singleton.mp member
    exact ⟨rfl, [], [], by simp, rfl⟩
  · split at kindShape
    · cases kindShape
      obtain ⟨block, memberBlock, rfl⟩ := List.mem_map.mp member
      exact ⟨rfl, Markup.isPlaced_of_mem_blocks memberBlock⟩
    · cases kindShape

theorem asAnchor_of_mem_regions
    (opened : ofContent? path content generated = some source)
    {region : CodeRegion}
    (member : region ∈ source.regions) :
    region.anchor.asAnchor = .ok region.anchor := by
  obtain ⟨_, before, _, _, anchor⟩ := isPlaced_of_mem_regions opened member
  rw [anchor]
  exact Position.asAnchor_advanceOver_start before

/-- The literals of a file are those of its regions. -/
theorem literals_eq_ok
    (opened : ofContent? path content generated = some source)
    (marker : Text) :
    source.literals marker =
      .ok (source.regions.flatMap fun region =>
        (region.language.dialect marker).literals source.flags region.anchor region.code) := by
  have succeeds :
      ∀ region ∈ source.regions,
        findLiterals (region.language.dialect marker) source.flags region.anchor region.code =
          .ok ((region.language.dialect marker).literals source.flags region.anchor
            region.code) := by
    intro region member
    rw [findLiterals, asAnchor_of_mem_regions opened member]
    rfl
  rw [literals, mapM_eq_ok_map succeeds]
  rfl

/-- The references of a file are each found in one of its regions. -/
theorem exists_region_of_mem_references
    (opened : ofContent? path content generated = some source)
    {trie : Trie}
    {rootNamespace : Text}
    {preferred? : Option Origin}
    {items : List Reference}
    (searched : source.references trie rootNamespace preferred? = .ok items)
    {reference : Reference}
    (member : reference ∈ items) :
    ∃ region ∈ source.regions, ∃ found,
      (region.language.dialect defaultMarker).references
          ⟨trie, source.scope rootNamespace, preferred?⟩ source.flags region.anchor
          region.code =
        .ok found ∧ reference ∈ found := by
  obtain ⟨lists, searchedRegions, same⟩ := Except.exists_of_bind_eq_ok searched
  cases same
  obtain ⟨found, memberFound, memberReference⟩ := List.mem_flatten.mp member
  obtain ⟨region, memberRegion, searchedRegion⟩ :=
    exists_of_mem_of_mapM_eq_ok searchedRegions memberFound
  simp only [findReferences, asAnchor_of_mem_regions opened memberRegion] at searchedRegion
  exact ⟨region, memberRegion, found, Except.eq_ok_of_mapError_eq_ok searchedRegion,
    memberReference⟩

end Regions

/-- What is found in a file stands in its content: a literal is the text at its offset, a
reference is spelled by the text at its offset, and the spans of both are the positions
around that text. -/
theorem items_stand_in_content
    (path content : Text)
    (generated : Bool)
    (source : SourceFile)
    (opened : ofContent? path content generated = some source) :
    (∀ marker,
      ∃ items,
        source.literals marker = .ok items ∧
          ∀ item ∈ items,
            2 ≤ item.length ∧
              (content.drop item.offset).take item.length = item.text ∧
              item.span.IsIn content item.offset item.length) ∧
      ∀ trie rootNamespace preferred? items,
        source.references trie rootNamespace preferred? = .ok items →
          ∀ item ∈ items,
            Spells (source.language.dialect defaultMarker)
                ((content.drop item.offset).take item.length) item.originalText ∧
              item.span.IsIn content item.offset item.length := by
  constructor
  · intro marker
    refine ⟨_, literals_eq_ok opened marker, fun item member => ?_⟩
    obtain ⟨region, memberRegion, found⟩ := List.mem_flatMap.mp member
    obtain ⟨_, before, after, shape, anchor⟩ := isPlaced_of_mem_regions opened memberRegion
    obtain ⟨covers, atLeastTwo⟩ := Dialect.covers_of_mem_literals found
    rw [anchor] at covers
    -- A region is scanned from its own first character, which its anchor locates.
    have inContent := Span.Covers.within before after covers
    rw [← shape] at inContent
    have length : item.length = item.text.length := inContent.length_eq
    exact ⟨by rw [length]; exact atLeastTwo, inContent.take_drop, inContent.isIn⟩
  · intro trie rootNamespace preferred? items searched item member
    obtain ⟨region, memberRegion, found, searchedRegion, memberFound⟩ :=
      exists_region_of_mem_references opened searched member
    obtain ⟨language, before, after, shape, anchor⟩ :=
      isPlaced_of_mem_regions opened memberRegion
    obtain ⟨slice, covers, spells⟩ :=
      Dialect.isSpelled_of_mem_references searchedRegion memberFound
    rw [anchor] at covers
    have inContent := Span.Covers.within before after covers
    rw [← shape] at inContent
    rw [language] at spells
    refine ⟨?_, inContent.isIn⟩
    have sliced : (content.drop item.offset).take item.length = slice := inContent.take_drop
    rw [sliced]
    exact spells

/-- The literal of an inline block stands behind the opening of the block. -/
theorem items_stand_in_content_page :
    ∃ source items,
      ofContent? "a.aspx".toList "<%=\"T\"%>".toList false = some source ∧
        source.literals defaultMarker = .ok items ∧
        items.map Literal.span = [⟨⟨1, 4, 3⟩, ⟨1, 7, 6⟩⟩] ∧
        ∀ item ∈ items,
          ("<%=\"T\"%>".toList.drop item.offset).take item.length = item.text := by
  have opened :
      ofContent? "a.aspx".toList "<%=\"T\"%>".toList false =
        some ⟨"a.aspx".toList, "<%=\"T\"%>".toList, false,
          .markup ⟨.csharp, [], [⟨.expression, "\"T\"".toList, ⟨1, 4, 3⟩⟩]⟩⟩ := by
    cbv
  obtain ⟨items, found, located⟩ :=
    (items_stand_in_content "a.aspx".toList "<%=\"T\"%>".toList false _ opened).1
      defaultMarker
  refine ⟨_, items, opened, found, ?_, fun item member => (located item member).2.1⟩
  have scanned :
      literals
          ⟨"a.aspx".toList, "<%=\"T\"%>".toList, false,
            .markup ⟨.csharp, [], [⟨.expression, "\"T\"".toList, ⟨1, 4, 3⟩⟩]⟩⟩
          defaultMarker =
        .ok [⟨"\"T\"".toList, ['T'], ⟨⟨1, 4, 3⟩, ⟨1, 7, 6⟩⟩, false, .none⟩] := by
    cbv
  cases scanned.symm.trans found
  rfl

end SourceFile

end LocalizationScan
