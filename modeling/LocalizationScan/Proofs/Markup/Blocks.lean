import LocalizationScan.Proofs.Markup.Walk

namespace LocalizationScan.Markup

/-!
# Where the code of a page stands

The walk over a page takes the code of a block as it is written, from behind an
opening delimiter up to the first closing one, and the anchor of the block is
where that code begins in the page.
-/

/-- Whether a block is a part of a page that begins at its anchor. -/
def CodeBlock.IsPlaced (content : Text) (block : CodeBlock) : Prop :=
  ∃ before after,
    content = before ++ block.code ++ after ∧ block.anchor = Position.start.advanceOver before

/-- Whether the code of a block of some kind, with the text before and after it, stands between
delimiters of that kind and ends at the first closing one. -/
def BlockKind.Delimits (kind : BlockKind) (before code after : Text) : Prop :=
  match kind with
  | .script =>
      ['>'] <:+ before ∧ IsScriptBody code ∧
        Text.startsIgnoringCase "</script".toList after = true
  | .statement | .expression | .encodedExpression | .dataBinding =>
      "<%".toList ++ kind.marker <:+ before ∧
        (kind = .statement → ∀ marker ∈ markers, ¬marker <+: code ++ after) ∧
        ¬"%>".toList <:+: code ∧
        "%>".toList <+: after

/-- Whether a block is a part of a page between delimiters of its kind. -/
def CodeBlock.IsDelimited (content : Text) (block : CodeBlock) : Prop :=
  ∃ before after,
    content = before ++ block.code ++ after ∧
      block.anchor = Position.start.advanceOver before ∧
      block.kind.Delimits before block.code after

section Walks

variable {done rest piece later : Text} {item? : Option PageItem} {items : List PageItem}
  {block : CodeBlock}

theorem BlockKind.delimits_of_inline
    {kind : BlockKind}
    {before code after : Text}
    (isInline : kind ≠ .script)
    (opened : "<%".toList ++ kind.marker <:+ before)
    (plain : kind = .statement → ∀ marker ∈ markers, ¬marker <+: code ++ after)
    (whole : ¬"%>".toList <:+: code)
    (closed : "%>".toList <+: after) :
    kind.Delimits before code after := by
  cases kind with
  | script => exact absurd rfl isInline
  | _ => exact ⟨opened, plain, whole, closed⟩

/-- A turn that finds a block takes its opening delimiter first. -/
theorem Turn.exists_opening
    (turn : Turn done piece later (some (.block block))) :
    ∃ opening closing,
      opening ≠ [] ∧ piece = opening ++ block.code ++ closing ∧
        block.anchor = Position.start.advanceOver (done ++ opening) ∧
        block.kind.Delimits (done ++ opening) block.code (closing ++ later) := by
  cases turn with
  | @inline kind _ _ isInline plain whole =>
      exact ⟨"<%".toList ++ kind.marker, "%>".toList, by simp, rfl, rfl,
        BlockKind.delimits_of_inline isInline (List.suffix_append _ _) plain whole
          (List.prefix_append _ _)⟩
  | @script tag _ _ _ _ _ whole closed =>
      exact ⟨tag ++ ['>'], [], by simp, (List.append_nil _).symm, rfl,
        ⟨done ++ tag, by simp⟩, whole, closed⟩

/-- The blocks that a walk finds are delimited. -/
theorem Walk.isDelimited
    (walk : Walk done rest items)
    (member : .block block ∈ items) :
    block.IsDelimited (done ++ rest) := by
  induction walk with
  | finished | unterminated =>
      cases member
  | @turn done piece later item? items _ here behind inductionHypothesis =>
      rcases List.mem_append.mp member with isHere | isBehind
      · obtain rfl := Option.mem_toList.mp isHere
        obtain ⟨opening, closing, -, rfl, anchor, delimited⟩ := here.exists_opening
        exact ⟨done ++ opening, closing ++ later, by simp, anchor, delimited⟩
      · rw [← List.append_assoc]
        exact inductionHypothesis isBehind

/-- Whether the code of a block lies behind a number of characters of a page, with a character
between at least, and ends at another number at the latest. -/
structure CodeBlock.IsBetween (first last : Nat) (block : CodeBlock) : Prop where
  first_lt : first < block.anchor.offset
  le_last : block.anchor.offset + block.code.length ≤ last

theorem Turn.isBetween
    (turn : Turn done piece later (some (.block block))) :
    block.IsBetween done.length (done ++ piece).length := by
  obtain ⟨opening, closing, opened, rfl, anchor, -⟩ := turn.exists_opening
  have positive := List.length_pos_iff.mpr opened
  have offset : block.anchor.offset = (done ++ opening).length := by
    rw [anchor, Position.offset_advanceOver]
    exact Nat.zero_add _
  refine ⟨?_, ?_⟩ <;>
    simp only [offset, List.length_append] <;>
    omega

/-- The blocks that a walk finds come one after the other. -/
theorem Walk.pairwise_blocks
    (walk : Walk done rest items) :
    (∀ block ∈ items.filterMap PageItem.block?, done.length < block.anchor.offset) ∧
      (items.filterMap PageItem.block?).Pairwise fun block other =>
        block.anchor.offset + block.code.length < other.anchor.offset := by
  induction walk with
  | finished | unterminated =>
      exact ⟨List.forall_mem_nil _, .nil⟩
  | @turn done piece later item? items nonempty here behind inductionHypothesis =>
      obtain ⟨further, ordered⟩ := inductionHypothesis
      have beyond :
          ∀ block ∈ items.filterMap PageItem.block?, done.length < block.anchor.offset :=
        fun block member =>
          Nat.lt_trans (Text.length_lt_append done nonempty) (further block member)
      rw [List.filterMap_append]
      rcases item? with _ | _ | found
      · exact ⟨beyond, ordered⟩
      · exact ⟨beyond, ordered⟩
      · have between := here.isBetween
        exact ⟨List.forall_mem_cons.mpr ⟨between.first_lt, beyond⟩,
          List.pairwise_cons.mpr ⟨fun other member =>
            Nat.lt_of_le_of_lt between.le_last (further other member), ordered⟩⟩

end Walks

section Blocks

variable {content : Text} {block : CodeBlock}

theorem isDelimited_of_mem_blocks
    (member : block ∈ (Page.ofText content).blocks) :
    block.IsDelimited content := by
  simp only [Page.ofText, Page.ofItems, List.mem_filterMap] at member
  obtain ⟨item, memberItem, isBlock⟩ := member
  cases item with
  | directive text => cases isBlock
  | block found =>
      cases isBlock
      exact (walk_itemsFrom [] content).isDelimited memberItem

/-- The code of every block of a page is placed. -/
theorem isPlaced_of_mem_blocks
    (member : block ∈ (Page.ofText content).blocks) :
    block.IsPlaced content := by
  obtain ⟨before, after, shape, anchor, -⟩ := isDelimited_of_mem_blocks member
  exact ⟨before, after, shape, anchor⟩

/-- A delimited block is told by the offset of its anchor and the length of its code. -/
theorem CodeBlock.IsDelimited.standsAt
    (isDelimited : block.IsDelimited content) :
    let first := block.anchor.offset
    let last := first + block.code.length
    last ≤ content.length ∧
      block.anchor = Position.start.advanceOver (content.take first) ∧
      (content.drop first).take block.code.length = block.code ∧
      block.kind.Delimits (content.take first) block.code (content.drop last) := by
  obtain ⟨before, after, shape, anchor, delimits⟩ := isDelimited
  have first : block.anchor.offset = before.length := by
    rw [anchor, Position.offset_advanceOver]
    exact Nat.zero_add _
  have last :
      block.anchor.offset + block.code.length = (before ++ block.code).length := by
    rw [first, List.length_append]
  have front : content.take block.anchor.offset = before := by
    rw [first, shape, List.append_assoc, List.take_left]
  have back : content.drop block.anchor.offset = block.code ++ after := by
    rw [first, shape, List.append_assoc, List.drop_left]
  have behind : content.drop (block.anchor.offset + block.code.length) = after := by
    rw [last, shape, List.drop_left]
  refine ⟨?_, ?_, ?_, ?_⟩
  · rw [last, shape]
    exact (List.prefix_append _ _).length_le
  · rw [front, anchor]
  · rw [back, List.take_left]
  · rw [front, behind]
    exact delimits

end Blocks

/-- A page is walked over in turns that each take a part of it, and its blocks, in order, are
the parts of it that stand between the delimiters of their kind. -/
theorem blocks_areDelimited (content : Text) :
    let blocks := (Page.ofText content).blocks
    (∃ items, Walk [] content items ∧ blocks = items.filterMap PageItem.block?) ∧
      (blocks.Pairwise fun block other =>
        block.anchor.offset + block.code.length < other.anchor.offset) ∧
      ∀ block ∈ blocks,
        let first := block.anchor.offset
        let last := first + block.code.length
        last ≤ content.length ∧
          block.anchor = Position.start.advanceOver (content.take first) ∧
          (content.drop first).take block.code.length = block.code ∧
          block.kind.Delimits (content.take first) block.code (content.drop last) := by
  have walk := walk_itemsFrom [] content
  exact ⟨⟨_, walk, rfl⟩, walk.pairwise_blocks.2, fun block member =>
    (isDelimited_of_mem_blocks member).standsAt⟩

/-- Delimiters that share characters with each other or stand next to their like. -/
example :
    (Page.ofText "<%--%><%=%%>".toList).blocks = [⟨.expression, ['%'], ⟨1, 10, 9⟩⟩] := by
  decide +kernel

end LocalizationScan.Markup
