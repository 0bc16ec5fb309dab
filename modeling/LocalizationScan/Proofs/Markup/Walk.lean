import LocalizationScan.Markup.Page
import LocalizationScan.Proofs.Scan.Cursor
import LocalizationScan.Proofs.Text.Search

namespace LocalizationScan

/-!
# The walk over a page

One turn of the walk over a page takes a construct off the start of what is
left, or one character of client markup.  Everything that holds of the code
blocks of a page is proved from the turns: the walk is a chain of them up to the
end of the page or to a construct that is not terminated.
-/

namespace Text

variable {text : Text}

/-- An opening without a character ends before that character. -/
theorem startsIgnoringCase_of_append
    {opening : Text}
    {char : Char}
    {later : Text}
    (starts : startsIgnoringCase opening (text ++ char :: later) = true)
    (absent : opening.any (fun letter => sameIgnoringCase letter char) = false) :
    startsIgnoringCase opening text = true := by
  induction opening generalizing text with
  | nil =>
      rfl
  | cons letter opening inductionHypothesis =>
      rw [List.any_cons, Bool.or_eq_false_iff] at absent
      cases text with
      | nil =>
          simp [startsIgnoringCase, absent.1] at starts
      | cons other text =>
          simp only [startsIgnoringCase, List.cons_append, Bool.and_eq_true] at starts ⊢
          exact ⟨starts.1, inductionHypothesis starts.2 absent.2⟩

end Text

namespace Markup

/-- What stands behind the `<%` of a block. -/
def BlockKind.marker : BlockKind → Text
  | .statement | .script => []
  | .expression => ['=']
  | .encodedExpression => [':']
  | .dataBinding => ['#']

/-- What makes an inline construct something else than a block of statements. -/
def markers : List Text := [['='], [':'], ['#'], ['@'], ['-', '-']]

/-- Whether no end of a script begins in a text, in any case of its letters. -/
def IsScriptBody (code : Text) : Prop :=
  ∀ back, back <:+ code → Text.startsIgnoringCase "</script".toList back = false

/-- The text of an opening script tag up to its end. -/
structure IsScriptTag (tag : Text) : Prop where
  opened : Text.startsIgnoringCase "<script".toList tag = true
  whole : '>' ∉ tag

/-- One turn of the walk behind the part of a page that is done, with the piece that it takes
and the text that is left behind it. -/
inductive Turn (done : Text) : (piece later : Text) → Option PageItem → Prop where
  /-- A server comment, of which the two ends can share their hyphens. -/
  | comment
      {inner later : Text}
      (opened : "<%--".toList <+: inner ++ "--%>".toList)
      (whole : ¬"--%>".toList <:+: inner) :
      Turn done (inner ++ "--%>".toList) later none
  | directive
      {text later : Text}
      (whole : ¬"%>".toList <:+: text) :
      Turn done ("<%@".toList ++ text ++ "%>".toList) later (some (.directive text))
  | inline
      {kind : BlockKind}
      {code later : Text}
      (isInline : kind ≠ .script)
      (plain :
        kind = .statement → ∀ marker ∈ markers, ¬marker <+: code ++ ("%>".toList ++ later))
      (whole : ¬"%>".toList <:+: code) :
      Turn done ("<%".toList ++ kind.marker ++ code ++ "%>".toList) later
        (some (.block
          ⟨kind, code, Position.start.advanceOver (done ++ ("<%".toList ++ kind.marker))⟩))
  /-- A script that runs on the server, up to its closing tag. -/
  | script
      {tag code later : Text}
      (isTag : IsScriptTag tag)
      (server : isServerScript tag = true)
      (hasBody : tag.getLast? ≠ some '/')
      (whole : IsScriptBody code)
      (closed : Text.startsIgnoringCase "</script".toList later = true) :
      Turn done (tag ++ ['>'] ++ code) later
        (some (.block ⟨.script, code, Position.start.advanceOver (done ++ (tag ++ ['>']))⟩))
  /-- The tag of another script, whose body is walked over as markup. -/
  | tag
      {tag later : Text}
      (isTag : IsScriptTag tag)
      (client : isServerScript tag = true → tag.getLast? = some '/') :
      Turn done (tag ++ ['>']) later none
  | markup
      {char : Char}
      {later : Text}
      (noConstruct : ¬"<%".toList <+: char :: later)
      (noScript : Text.startsIgnoringCase "<script".toList (char :: later) = false) :
      Turn done [char] later none

/-- Whether a construct at the start of a text has no end. -/
inductive IsUnterminated : Text → Prop where
  | comment
      {rest : Text}
      (opened : "<%--".toList <+: rest)
      (endless : ¬"--%>".toList <:+: rest) :
      IsUnterminated rest
  | inline
      {marker rest : Text}
      (marked : marker ∈ [[], ['='], [':'], ['#'], ['@']])
      (noComment : ¬['-', '-'] <+: marker ++ rest)
      (endless : ¬"%>".toList <:+: rest) :
      IsUnterminated ("<%".toList ++ (marker ++ rest))
  | tag
      {rest : Text}
      (opened : Text.startsIgnoringCase "<script".toList rest = true)
      (endless : '>' ∉ rest) :
      IsUnterminated rest
  | script
      {tag code : Text}
      (isTag : IsScriptTag tag)
      (server : isServerScript tag = true)
      (hasBody : tag.getLast? ≠ some '/')
      (endless : IsScriptBody code) :
      IsUnterminated (tag ++ '>' :: code)

/-- A chain of turns through what is left of a page, with the items that they find. -/
inductive Walk : (done rest : Text) → List PageItem → Prop where
  | finished
      {done : Text} :
      Walk done [] []
  | unterminated
      {done rest : Text}
      (endless : IsUnterminated rest) :
      Walk done rest []
  | turn
      {done piece later : Text}
      {item? : Option PageItem}
      {items : List PageItem}
      (nonempty : piece ≠ [])
      (here : Turn done piece later item?)
      (behind : Walk (done ++ piece) later items) :
      Walk done (piece ++ later) (item?.toList ++ items)

section Turns

variable {done rest : Text} {item? : Option PageItem} {block : CodeBlock} {length : Nat}

/-- What the walk does at the start of what is left: it takes some characters in a turn, or a
construct has no end. -/
def Advances (done rest : Text) : Option (Option PageItem × Nat) → Prop
  | none => IsUnterminated rest
  | some (item?, length) =>
      ∃ piece later, rest = piece ++ later ∧ piece.length = length ∧ Turn done piece later item?

theorem blockKind_eq (text : Text) :
    ∃ kind code,
      text = kind.marker ++ code ∧ blockKind text = (kind, kind.marker.length) ∧
        kind ≠ .script ∧
        (kind = .statement → ∀ marker ∈ [['='], [':'], ['#']], ¬marker <+: text) := by
  unfold blockKind
  split
  · exact ⟨.expression, _, rfl, rfl, nofun, nofun⟩
  · exact ⟨.encodedExpression, _, rfl, rfl, nofun, nofun⟩
  · exact ⟨.dataBinding, _, rfl, rfl, nofun, nofun⟩
  · next noEquals noColon noHash =>
      refine ⟨.statement, _, rfl, rfl, nofun, fun _ marker member => ?_⟩
      simp only [List.mem_cons, List.not_mem_nil, or_false] at member
      rcases member with rfl | rfl | rfl
      · rintro ⟨behind, rfl⟩
        exact noEquals behind rfl
      · rintro ⟨behind, rfl⟩
        exact noColon behind rfl
      · rintro ⟨behind, rfl⟩
        exact noHash behind rfl

/-- The code of an inline construct is searched for its end from behind the marker. -/
theorem inlineBlock?_between
    {kind : BlockKind}
    {behind : Text}
    (marked : blockKind (kind.marker ++ behind) = (kind, kind.marker.length)) :
    inlineBlock? (.between .start done ('<' :: '%' :: (kind.marker ++ behind))) =
      (Text.splitBefore? "%>".toList behind).map fun (code, _) =>
        (⟨kind, code, Position.start.advanceOver (done ++ ("<%".toList ++ kind.marker))⟩,
          2 + kind.marker.length + code.length + 2) := by
  have skipped :
      (Cursor.between .start done ('<' :: '%' :: (kind.marker ++ behind))).skip
          (2 + kind.marker.length) =
        .between .start (done ++ ("<%".toList ++ kind.marker)) behind := by
    have skipped := Cursor.skip_between .start done ("<%".toList ++ kind.marker) behind
    rwa [List.length_append] at skipped
  have markedHere :
      blockKind
          ((Cursor.between .start done ('<' :: '%' :: (kind.marker ++ behind))).rest.drop 2) =
        (kind, kind.marker.length) :=
    marked
  simp only [inlineBlock?, markedHere, skipped]
  rfl

/-- An inline construct is a block if it is neither a server comment nor a directive. -/
theorem advances_inlineBlock?
    (noDirective : ¬['@'] <+: rest)
    (noComment : ¬['-', '-'] <+: rest) :
    Advances done ('<' :: '%' :: rest)
      ((inlineBlock? (.between .start done ('<' :: '%' :: rest))).map
        fun (block, length) => (some (.block block), length)) := by
  obtain ⟨kind, behind, rfl, marked, isInline, plain⟩ := blockKind_eq rest
  rw [inlineBlock?_between marked]
  cases split : Text.splitBefore? "%>".toList behind with
  | none =>
      have endless := Text.not_isInfix_of_splitBefore?_eq_none split
      refine IsUnterminated.inline ?_ noComment endless
      cases kind with
      | script => exact absurd rfl isInline
      | _ => simp [BlockKind.marker]
  | some parts =>
      obtain ⟨code, found⟩ := parts
      obtain ⟨later, rfl, rfl, whole⟩ := Text.exists_of_splitBefore? split (by simp)
      refine ⟨"<%".toList ++ kind.marker ++ code ++ "%>".toList, later, by simp, ?_,
        .inline isInline (fun isStatement => ?_) whole⟩
      · simp only [List.length_append]
        rfl
      · have noMarker : kind.marker = [] := by rw [isStatement]; rfl
        rw [noMarker, List.nil_append] at plain noDirective noComment
        have marks := plain isStatement
        simp only [markers, List.forall_mem_cons] at marks ⊢
        exact ⟨marks.1, marks.2.1, marks.2.2.1, noDirective, noComment, nofun⟩

/-- A script tag and the body of a server script end where they are found to end. -/
theorem advances_scriptItem?
    (opened : Text.startsIgnoringCase "<script".toList rest = true) :
    Advances done rest (scriptItem? (.between .start done rest)) := by
  have rest_eq : (Cursor.between .start done rest).rest = rest := rfl
  rw [scriptItem?, rest_eq]
  cases split : Text.splitBefore? ['>'] rest with
  | none =>
      have nowhere := Text.not_isInfix_of_splitBefore?_eq_none split
      refine IsUnterminated.tag opened fun member => nowhere ?_
      obtain ⟨front, back, rfl⟩ := List.append_of_mem member
      exact ⟨front, back, by simp⟩
  | some parts =>
      obtain ⟨tag, found⟩ := parts
      obtain ⟨behind, rfl, rfl, whole⟩ := Text.exists_of_splitBefore? split (by simp)
      have isTag : IsScriptTag tag := by
        refine ⟨Text.startsIgnoringCase_of_append opened rfl, fun member => whole ?_⟩
        obtain ⟨front, back, rfl⟩ := List.append_of_mem member
        exact ⟨front, back, by simp⟩
      have skipped :
          (Cursor.between .start done (tag ++ (['>'] ++ behind))).skip (tag.length + 1) =
            .between .start (done ++ (tag ++ ['>'])) behind := by
        have skipped := Cursor.skip_between .start done (tag ++ ['>']) behind
        rwa [List.length_append, List.append_assoc tag] at skipped
      simp only [Option.bind_eq_bind, Option.bind_some, skipped]
      split
      · next runs =>
          rw [Bool.and_eq_true, bne_iff_ne] at runs
          have body_eq :
              (Cursor.between .start (done ++ (tag ++ ['>'])) behind).rest = behind := rfl
          rw [body_eq]
          cases splitBody :
              Text.splitWhere? (Text.startsIgnoringCase "</script".toList) behind with
          | none =>
              exact IsUnterminated.script isTag runs.1 runs.2 fun back isBack =>
                Text.test_of_splitWhere?_eq_none splitBody isBack
          | some parts =>
              obtain ⟨code, later⟩ := parts
              obtain ⟨closed, first⟩ := Text.test_of_splitWhere? splitBody
              obtain rfl := Text.append_of_splitWhere? splitBody
              refine ⟨tag ++ ['>'] ++ code, later, by simp, ?_,
                .script isTag runs.1 runs.2 ?_ closed⟩
              · simp only [List.length_append]
                rfl
              · rintro back ⟨front, rfl⟩
                rw [← Bool.not_eq_true]
                intro starts
                have nonempty : back ≠ [] := by
                  rintro rfl
                  cases starts
                have goesOn := Text.startsIgnoringCase_append later starts
                cases goesOn.symm.trans (first front back rfl nonempty)
      · next idle =>
          rw [Bool.and_eq_true, bne_iff_ne] at idle
          refine ⟨tag ++ ['>'], behind, by simp, by simp, .tag isTag fun server => ?_⟩
          exact Decidable.byContradiction fun hasBody => idle ⟨server, hasBody⟩

/-- The walk advances at every cursor before the end of the page. -/
theorem advances_itemAt?
    (nonempty : rest ≠ []) :
    Advances done rest (itemAt? (.between .start done rest)) := by
  unfold itemAt?
  split
  · next tail shape =>
      obtain rfl : rest = '<' :: '%' :: '-' :: '-' :: tail := shape
      have opened : "<%--".toList <+: '<' :: '%' :: '-' :: '-' :: tail := ⟨tail, rfl⟩
      have rest_eq :
          (Cursor.between .start done ('<' :: '%' :: '-' :: '-' :: tail)).rest =
            '<' :: '%' :: '-' :: '-' :: tail :=
        rfl
      rw [rest_eq]
      cases split : Text.splitBefore? "--%>".toList ('<' :: '%' :: '-' :: '-' :: tail) with
      | none =>
          exact IsUnterminated.comment opened (Text.not_isInfix_of_splitBefore?_eq_none split)
      | some parts =>
          obtain ⟨inner, found⟩ := parts
          obtain ⟨later, rfl, shape, whole⟩ := Text.exists_of_splitBefore? split (by simp)
          rw [← List.append_assoc] at shape
          refine ⟨inner ++ "--%>".toList, later, shape, by simp, .comment ?_ whole⟩
          exact List.prefix_of_prefix_length_le opened ⟨later, shape.symm⟩ (by simp)
  · next inner shape =>
      obtain rfl : rest = '<' :: '%' :: '@' :: inner := shape
      cases split : Text.splitBefore? "%>".toList inner with
      | none =>
          have noComment : ¬['-', '-'] <+: ['@'] ++ inner := by
            rintro ⟨_, same⟩
            cases same
          exact IsUnterminated.inline (by simp) noComment
            (Text.not_isInfix_of_splitBefore?_eq_none split)
      | some parts =>
          obtain ⟨text, found⟩ := parts
          obtain ⟨later, rfl, rfl, whole⟩ := Text.exists_of_splitBefore? split (by simp)
          refine ⟨"<%@".toList ++ text ++ "%>".toList, later, by simp, ?_, .directive whole⟩
          simp only [List.length_append]
          rfl
  · next tail noComment noDirective shape =>
      obtain rfl : rest = '<' :: '%' :: tail := shape
      apply advances_inlineBlock?
      · rintro ⟨inner, rfl⟩
        exact noDirective _ rfl
      · rintro ⟨inner, rfl⟩
        exact noComment _ rfl
  · next noInline =>
      have noConstruct : ¬"<%".toList <+: rest := by
        rintro ⟨tail, rfl⟩
        exact noInline tail rfl
      split
      · next opened => exact advances_scriptItem? opened
      · next noScript =>
          obtain ⟨char, later, rfl⟩ := List.exists_cons_of_ne_nil nonempty
          exact ⟨[char], later, rfl, rfl, .markup noConstruct (eq_false_of_ne_true noScript)⟩

theorem Turn.piece_ne_nil
    {piece later : Text}
    (turn : Turn done piece later item?) :
    piece ≠ [] := by
  cases turn <;> simp

/-- The walk from a cursor to the end of the page is a chain of turns. -/
theorem walk_itemsFrom (done rest : Text) :
    Walk done rest (itemsFrom (.between .start done rest)) := by
  cases rest with
  | nil =>
      rw [itemsFrom]
      exact .finished
  | cons char tail =>
      have advances : Advances done (char :: tail) (itemAt? (.between .start done _)) :=
        advances_itemAt? (List.cons_ne_nil char tail)
      rw [itemsFrom]
      dsimp only [Cursor.between] at advances ⊢
      split
      · next stuck =>
          rw [stuck] at advances
          exact .unterminated advances
      · next item? length item =>
          rw [item] at advances
          obtain ⟨piece, later, shape, rfl, turn⟩ := advances
          have nonempty := turn.piece_ne_nil
          have positive : 1 ≤ piece.length := List.length_pos_iff.mpr nonempty
          have shorter := Text.length_lt_of_eq_append shape nonempty
          have skipped := Cursor.skip_between .start done piece later
          dsimp only [Cursor.between] at skipped
          rw [Nat.max_eq_right positive, shape, skipped]
          exact .turn nonempty turn (walk_itemsFrom (done ++ piece) later)
termination_by rest.length
decreasing_by exact shorter

end Turns

end Markup

end LocalizationScan
