import LocalizationScan.Proofs.Markup.Blocks

namespace LocalizationScan

/-!
# Expressions in client markup

Client markup is walked over without a block being found, a character at a time
and script tags as a whole.  An expression behind client markup is therefore the
first block of the page, unless the markup ends inside of a script tag: the end
of that tag is then searched for in the expression and behind it.
-/

namespace Text

/-- Letters that have no case but the two of ASCII are read in either of them only. -/
theorem startsIgnoringCase_of_afterFolded?
    {word text rest : Text}
    (plain : ∀ letter ∈ word, letter ≠ 's' ∧ letter ≠ 'k' ∧ letter.toLower = letter)
    (found : afterFolded? word text = some rest) :
    startsIgnoringCase word text = true := by
  induction word generalizing text with
  | nil =>
      rfl
  | cons letter word inductionHypothesis =>
      obtain ⟨⟨noLongS, noKelvin, isLower⟩, plainLater⟩ := List.forall_mem_cons.mp plain
      cases text with
      | nil =>
          cases found
      | cons char text =>
          unfold afterFolded? at found
          split at found
          · next folds =>
              have same : char.toLower = letter := by
                simpa [foldsTo, noLongS, noKelvin] using folds
              simp [startsIgnoringCase, sameIgnoringCase, isLower, same,
                inductionHypothesis plainLater found]
          · cases found

/-- What is found at the start of a word is read from there on. -/
theorem exists_suffix_of_findAtWordStart?
    {α : Type}
    {recognise : Text → Option α}
    {inWord : Bool}
    {text : Text}
    {value : α}
    (found : findAtWordStart? recognise inWord text = some value) :
    ∃ back, back <:+ text ∧ recognise back = some value := by
  induction text generalizing inWord with
  | nil =>
      cases found
  | cons char rest inductionHypothesis =>
      unfold findAtWordStart? at found
      dsimp only at found
      split at found
      · next here =>
          cases found
          split at here
          · cases here
          · exact ⟨char :: rest, List.suffix_refl _, here⟩
      · obtain ⟨back, isBack, read⟩ := inductionHypothesis found
        exact ⟨back, isBack.trans (List.suffix_cons char rest), read⟩

theorem mem_suffixes_iff {text back : Text} :
    back ∈ suffixes text ↔ back <:+ text := by
  induction text with
  | nil =>
      simp [suffixes]
  | cons char rest inductionHypothesis =>
      rw [suffixes, List.mem_cons, inductionHypothesis, List.suffix_cons_iff]

end Text

namespace Markup

/-- Markup in which neither a construct in angle brackets and percent signs nor a script that
runs on the server can begin. -/
structure IsClientMarkup (text : Text) : Prop where
  noInline : ¬"<%".toList <:+: text
  noServer : ∀ back, back <:+ text → Text.startsIgnoringCase "runat".toList back = false

/-- Whether every script tag that begins in a text ends in it. -/
def ClosesScriptTags (text : Text) : Prop :=
  ∀ back, back <:+ text → Text.startsIgnoringCase "<script".toList back = true → '>' ∈ back

instance (text : Text) : Decidable (IsClientMarkup text) :=
  decidable_of_iff
    (∀ back ∈ Text.suffixes text,
      ¬"<%".toList <+: back ∧ Text.startsIgnoringCase "runat".toList back = false)
    ⟨fun free =>
      { noInline := fun opened => by
          obtain ⟨back, opens, isBack⟩ := List.infix_iff_prefix_suffix.mp opened
          exact (free back (Text.mem_suffixes_iff.mpr isBack)).1 opens
        noServer := fun back isBack => (free back (Text.mem_suffixes_iff.mpr isBack)).2 },
    fun client back member =>
      have isBack := Text.mem_suffixes_iff.mp member
      ⟨fun opens => client.noInline (opens.isInfix.trans isBack.isInfix),
        client.noServer back isBack⟩⟩

instance (text : Text) : Decidable (ClosesScriptTags text) :=
  decidable_of_iff
    (∀ back ∈ Text.suffixes text,
      Text.startsIgnoringCase "<script".toList back = true → '>' ∈ back)
    (by simp only [ClosesScriptTags, Text.mem_suffixes_iff])

section Fronts

variable {done front back piece behind later tag : Text}

theorem exists_runat_of_isServerScript
    (server : isServerScript tag = true) :
    ∃ back, back <:+ tag ∧ Text.startsIgnoringCase "runat".toList back = true := by
  obtain ⟨_, found⟩ := Option.isSome_iff_exists.mp server
  obtain ⟨back, isBack, read⟩ := Text.exists_suffix_of_findAtWordStart? found
  obtain ⟨_, value, -⟩ := Option.bind_eq_some_iff.mp read
  obtain ⟨_, folded, -⟩ := Option.bind_eq_some_iff.mp value
  exact ⟨back, isBack, Text.startsIgnoringCase_of_afterFolded? (by simp) folded⟩

namespace IsClientMarkup

theorem of_suffix
    (client : IsClientMarkup front)
    (isBack : back <:+ front) :
    IsClientMarkup back where
  noInline := fun opened => client.noInline (opened.trans isBack.isInfix)
  noServer := fun last isLast => client.noServer last (isLast.trans isBack)

theorem isServerScript_eq_false
    (client : IsClientMarkup front)
    (isFront : tag <+: front) :
    isServerScript tag = false := by
  rw [← Bool.not_eq_true]
  intro server
  obtain ⟨back, ⟨earlier, rfl⟩, starts⟩ := exists_runat_of_isServerScript server
  obtain ⟨later, rfl⟩ := isFront
  have fails := client.noServer (back ++ later) ⟨earlier, by simp⟩
  cases fails.symm.trans (Text.startsIgnoringCase_append later starts)

/-- No construct begins in client markup and goes on behind it. -/
theorem not_opens_append
    (client : IsClientMarkup front)
    (nonempty : front ≠ []) :
    ¬"<%".toList <+: front ++ '<' :: behind := by
  rintro ⟨tail, shape⟩
  match front, nonempty with
  | [first], _ =>
      have shape : ['<', '%'] ++ tail = first :: '<' :: behind := shape
      simp at shape
  | first :: second :: rest, _ =>
      have shape : ['<', '%'] ++ tail = first :: second :: (rest ++ '<' :: behind) := shape
      obtain ⟨rfl, rfl, -⟩ : '<' = first ∧ '%' = second ∧ tail = rest ++ '<' :: behind := by
        simpa using shape
      exact client.noInline ⟨[], rest, rfl⟩

end IsClientMarkup

/-- A script tag begins in front of a further bracket or at it. -/
theorem startsScript_of_append
    (nonempty : front ≠ [])
    (starts :
      Text.startsIgnoringCase "<script".toList (front ++ '<' :: behind) = true) :
    Text.startsIgnoringCase "<script".toList front = true := by
  cases front with
  | nil =>
      exact absurd rfl nonempty
  | cons first rest =>
      have opening : "<script".toList = '<' :: "script".toList := rfl
      rw [opening, Text.startsIgnoringCase, Bool.and_eq_true]
      rw [opening, List.cons_append, Text.startsIgnoringCase, Bool.and_eq_true] at starts
      exact ⟨starts.1, Text.startsIgnoringCase_of_append starts.2 rfl⟩

theorem ClosesScriptTags.iff_of_append
    (piece : Text)
    (passed :
      ∀ last, last <:+ piece ++ back → ¬last <:+ back →
        Text.startsIgnoringCase "<script".toList last = true → '>' ∈ last) :
    ClosesScriptTags (piece ++ back) ↔ ClosesScriptTags back := by
  constructor
  · intro closes last isLast
    exact closes last (isLast.trans (List.suffix_append piece back))
  · intro closes last isLast starts
    by_cases isBack : last <:+ back
    · exact closes last isBack starts
    · exact passed last isLast isBack starts

/-- A script tag that begins in a text in front of an expression ends there too, or takes the
opening of the expression with it. -/
theorem IsScriptTag.endsIn_or_goesOn
    {rest : Text}
    (isTag : IsScriptTag tag)
    (shape : tag ++ '>' :: rest = front ++ ("<%=".toList ++ behind)) :
    (∃ back, front = tag ++ '>' :: back ∧ rest = back ++ ("<%=".toList ++ behind)) ∨
      '>' ∉ front ∧ front.length + 3 ≤ tag.length := by
  rcases List.append_eq_append_iff.mp shape with ⟨middle, rfl, restShape⟩ | ⟨middle, rfl, openShape⟩
  · cases middle with
    | nil =>
        cases restShape
    | cons char back =>
        cases restShape
        exact .inl ⟨back, rfl, rfl⟩
  · refine .inr ⟨fun member => isTag.whole (List.mem_append_left _ member), ?_⟩
    have openShape : ['<', '%', '='] ++ behind = middle ++ '>' :: rest := openShape
    match middle with
    | [] | [_] | [_, _] => simp at openShape
    | _ :: _ :: _ :: _ =>
        simp only [List.length_append, List.length_cons]
        omega

/-- A tag that begins in client markup and goes on behind it is not closed there. -/
theorem IsScriptTag.not_closesScriptTags
    {rest : Text}
    (isTag : IsScriptTag tag)
    (shape : tag ++ rest = front ++ ("<%=".toList ++ behind))
    (nonempty : front ≠ [])
    (absent : '>' ∉ front) :
    ¬ClosesScriptTags front := by
  intro closes
  have opened := Text.startsIgnoringCase_append rest isTag.opened
  rw [shape] at opened
  exact absent (closes front (List.suffix_refl front) (startsScript_of_append nonempty opened))

/-- A construct that begins in client markup in front of an expression and has no end is a script
that begins with a tag around the opening of the expression. -/
theorem IsUnterminated.not_closesScriptTags
    (endless : IsUnterminated (front ++ ("<%=".toList ++ behind)))
    (closed : '>' ∈ behind)
    (client : IsClientMarkup front)
    (nonempty : front ≠ []) :
    ¬ClosesScriptTags front := by
  have noInline : ¬"<%".toList <+: front ++ ("<%=".toList ++ behind) :=
    client.not_opens_append nonempty
  generalize shape : front ++ ("<%=".toList ++ behind) = rest at endless noInline
  cases endless with
  | comment opened => exact absurd ((List.prefix_append ['<', '%'] ['-', '-']).trans opened) noInline
  | inline => exact absurd (List.prefix_append _ _) noInline
  | tag _ endless =>
      rw [← shape] at endless
      exact absurd (by simp [closed]) endless
  | script isTag server =>
      rcases isTag.endsIn_or_goesOn shape.symm with ⟨back, rfl, -⟩ | ⟨absent, -⟩
      · cases server.symm.trans (client.isServerScript_eq_false (List.prefix_append _ _))
      · exact isTag.not_closesScriptTags shape.symm nonempty absent

/-- A turn in client markup in front of an expression stays in front of it and finds nothing, or
it takes a script tag that does not end there and the opening of the expression with it. -/
theorem Turn.staysIn_or_goesOn
    {item? : Option PageItem}
    (turn : Turn done piece later item?)
    (shape : piece ++ later = front ++ ("<%=".toList ++ behind))
    (client : IsClientMarkup front)
    (nonempty : front ≠ []) :
    (∃ back,
        front = piece ++ back ∧ later = back ++ ("<%=".toList ++ behind) ∧ item? = none ∧
          (ClosesScriptTags front ↔ ClosesScriptTags back)) ∨
      ¬ClosesScriptTags front ∧ front.length + 4 ≤ piece.length ∧
        ∀ block, item? = some (.block block) →
          done.length + (front.length + 4) ≤ block.anchor.offset := by
  have noInline : ¬"<%".toList <+: piece ++ later := by
    rw [shape]
    exact client.not_opens_append nonempty
  cases turn with
  | comment opened =>
      exact absurd (((List.prefix_append ['<', '%'] ['-', '-']).trans opened).trans
        (List.prefix_append _ _)) noInline
  | directive =>
      exact absurd ⟨_, rfl⟩ noInline
  | inline =>
      simp only [List.append_assoc] at noInline
      exact absurd (List.prefix_append _ _) noInline
  | @script tag code _ isTag server =>
      simp only [List.append_assoc, List.singleton_append] at shape
      rcases isTag.endsIn_or_goesOn shape with ⟨back, rfl, -⟩ | ⟨absent, long⟩
      · cases server.symm.trans (client.isServerScript_eq_false (List.prefix_append _ _))
      · refine .inr ⟨isTag.not_closesScriptTags shape nonempty absent, ?_, ?_⟩
        · simp only [List.length_append, List.length_singleton]
          omega
        · rintro block ⟨⟩
          simp only [Position.offset_advanceOver, List.length_append, List.length_singleton]
          omega
  | @tag tag _ isTag =>
      simp only [List.append_assoc, List.singleton_append] at shape
      rcases isTag.endsIn_or_goesOn shape with ⟨back, rfl, rfl⟩ | ⟨absent, long⟩
      · refine .inl ⟨back, by simp, rfl, rfl, ?_⟩
        rw [List.append_cons]
        refine ClosesScriptTags.iff_of_append _ fun last isLast notBack _ => ?_
        rcases List.suffix_or_suffix_of_suffix isLast (List.suffix_append (tag ++ ['>']) back) with
            isBack | ⟨opened, rfl⟩
        · exact absurd isBack notBack
        · obtain ⟨earlier, same⟩ := isLast
          rw [← List.append_assoc] at same
          have same := List.append_cancel_right same
          rcases List.eq_nil_or_concat opened with rfl | ⟨inner, letter, rfl⟩
          · exact absurd (List.suffix_refl back) notBack
          · rw [List.concat_eq_append, ← List.append_assoc] at same
            cases (List.append_inj' same rfl).2
            simp
      · refine .inr ⟨isTag.not_closesScriptTags shape nonempty absent, ?_, nofun⟩
        simp only [List.length_append, List.length_singleton]
        omega
  | @markup char _ _ noScript =>
      cases front with
      | nil =>
          exact absurd rfl nonempty
      | cons first back =>
          cases shape
          refine .inl ⟨back, rfl, rfl, rfl, ?_⟩
          refine ClosesScriptTags.iff_of_append [char] fun last isLast notBack starts => ?_
          rcases List.suffix_cons_iff.mp isLast with rfl | isBack
          · cases noScript.symm.trans (Text.startsIgnoringCase_append _ starts)
          · exact absurd isBack notBack

/-- An expression that the walk has come to is a block. -/
theorem Walk.exists_expression
    {code rest : Text}
    {items : List PageItem}
    (walk : Walk done rest items)
    (shape : rest = "<%=".toList ++ (code ++ ("%>".toList ++ later)))
    (whole : ¬"%>".toList <:+: code) :
    ∃ others,
      items =
        .block ⟨.expression, code, Position.start.advanceOver (done ++ "<%=".toList)⟩ ::
          others := by
  have shape : rest = '<' :: '%' :: '=' :: (code ++ '%' :: '>' :: later) := shape
  have opened : "<%".toList <+: rest := ⟨_, shape.symm⟩
  have noScript : Text.startsIgnoringCase "<script".toList rest = false := by
    rw [shape]
    rfl
  have noComment : ¬"<%--".toList <+: rest := by
    rw [shape]
    rintro ⟨_, same⟩
    cases same
  have noTag {tag : Text} (isTag : IsScriptTag tag) (isFront : tag <+: rest) : False := by
    obtain ⟨tail, rfl⟩ := isFront
    cases noScript.symm.trans (Text.startsIgnoringCase_append tail isTag.opened)
  have ends : "%>".toList <:+: code ++ '%' :: '>' :: later := ⟨code, later, by simp⟩
  cases walk with
  | finished =>
      cases shape
  | unterminated endless =>
      cases endless with
      | comment isComment => exact absurd isComment noComment
      | @inline marker behind marked _ endless =>
          have shape : marker ++ behind = '=' :: (code ++ '%' :: '>' :: later) := by
            simpa using shape
          simp only [List.mem_cons, List.not_mem_nil, or_false] at marked
          rcases marked with rfl | rfl | rfl | rfl | rfl
          · rw [List.nil_append] at shape
            rw [shape] at endless
            exact absurd (ends.trans (List.suffix_cons '=' _).isInfix) endless
          · cases shape
            exact absurd ends endless
          all_goals cases shape
      | tag isTag => cases noScript.symm.trans isTag
      | script isTag => exact (noTag isTag (List.prefix_append _ _)).elim
  | @turn _ _ after _ others _ here =>
      cases here with
      | comment isComment => exact absurd (isComment.trans (List.prefix_append _ _)) noComment
      | directive => cases shape
      | @inline kind written _ isInline plain wholeWritten =>
          have shape :
              kind.marker ++ (written ++ ("%>".toList ++ after)) =
                '=' :: (code ++ ("%>".toList ++ later)) := by
            simpa using shape
          cases kind with
          | expression =>
              have same :=
                Text.eq_of_append_pattern ['%'] (by decide) wholeWritten whole
                  (List.cons.inj shape).2
              subst same
              exact ⟨others, rfl⟩
          | statement =>
              exact absurd ⟨_, shape.symm⟩ (plain rfl ['='] List.mem_cons_self)
          | script => exact absurd rfl isInline
          | _ => cases shape
      | script isTag =>
          exact (noTag isTag (((List.prefix_append _ _).trans (List.prefix_append _ _)).trans
            (List.prefix_append _ _))).elim
      | tag isTag =>
          exact (noTag isTag ((List.prefix_append _ _).trans (List.prefix_append _ _))).elim
      | markup noConstruct => exact absurd opened noConstruct

/-- A walk that comes through client markup to an expression finds it first, unless the markup
ends inside of a script tag. -/
theorem Walk.head?_blocks_eq_iff
    {code rest : Text}
    {items : List PageItem}
    (walk : Walk done rest items)
    (shape : rest = front ++ ("<%=".toList ++ (code ++ ("%>".toList ++ later))))
    (client : IsClientMarkup front)
    (whole : ¬"%>".toList <:+: code) :
    (items.filterMap PageItem.block?).head? =
        some ⟨.expression, code, Position.start.advanceOver (done ++ (front ++ "<%=".toList))⟩ ↔
      ClosesScriptTags front := by
  have closesNil : ClosesScriptTags [] := by
    intro back isBack starts
    rw [List.suffix_nil.mp isBack] at starts
    cases starts
  induction walk generalizing front with
  | finished =>
      cases front <;> cases shape
  | unterminated endless =>
      by_cases nonempty : front = []
      · subst nonempty
        obtain ⟨_, same⟩ := (@Walk.unterminated [] _ endless).exists_expression shape whole
        cases same
      · rw [shape] at endless
        refine iff_of_false nofun (endless.not_closesScriptTags ?_ client nonempty)
        simp
  | @turn done piece after item? items filled here further inductionHypothesis =>
      by_cases nonempty : front = []
      · subst nonempty
        obtain ⟨others, same⟩ := (Walk.turn filled here further).exists_expression shape whole
        rw [same]
        exact iff_of_true rfl closesNil
      · rcases here.staysIn_or_goesOn shape client nonempty with
            ⟨back, rfl, rfl, rfl, closes⟩ | ⟨unclosed, long, anchored⟩
        · have behindPiece :=
            inductionHypothesis rfl (client.of_suffix (List.suffix_append piece back))
          rw [List.append_assoc, ← List.append_assoc piece] at behindPiece
          exact behindPiece.trans closes.symm
        · refine iff_of_false (fun first => ?_) unclosed
          have member := List.mem_of_mem_head? first
          rw [List.filterMap_append, List.mem_append] at member
          have anchor :
              (Position.start.advanceOver (done ++ (front ++ "<%=".toList))).offset =
                done.length + (front.length + 3) := by
            simp [Position.offset_advanceOver, Position.start]
          rcases member with isHere | isFurther
          · obtain ⟨item, memberItem, isBlock⟩ := List.mem_filterMap.mp isHere
            cases item with
            | directive => cases isBlock
            | block =>
                cases isBlock
                have beyond := anchored _ (Option.mem_toList.mp memberItem)
                rw [anchor] at beyond
                omega
          · have beyond := further.pairwise_blocks.1 _ isFurther
            rw [anchor, List.length_append] at beyond
            omega

end Fronts

/-- An expression behind client markup is the first block of its page, with its code and the
position behind its opening, exactly if every script tag that begins in the markup ends there. -/
theorem head?_blocks_expression
    (front code later : Text)
    (client : IsClientMarkup front)
    (whole : ¬"%>".toList <:+: code) :
    let content := front ++ "<%=".toList ++ code ++ "%>".toList ++ later
    (Page.ofText content).blocks.head? =
        some ⟨.expression, code, Position.start.advanceOver (content.take (front.length + 3))⟩ ↔
      ClosesScriptTags front := by
  intro content
  have shape : content = front ++ ("<%=".toList ++ (code ++ ("%>".toList ++ later))) := by
    simp [content]
  have taken : content.take (front.length + 3) = front ++ "<%=".toList := by
    rw [shape, ← List.append_assoc]
    exact List.take_left' (by simp)
  rw [taken]
  exact (walk_itemsFrom [] content).head?_blocks_eq_iff shape client whole

/-- An expression in the body of a script that runs in the browser, behind its closed tag. -/
theorem head?_blocks_expression_clientScript :
    let front := "<SCRIPT src='x.js'>\nvar a = \"".toList
    let content := front ++ "<%=".toList ++ "a > b".toList ++ "%>".toList ++ "\"</SCRIPT>".toList
    IsClientMarkup front ∧ ¬"%>".toList <:+: "a > b".toList ∧
      (Page.ofText content).blocks.head? = some ⟨.expression, "a > b".toList, ⟨2, 13, 32⟩⟩ := by
  have client : IsClientMarkup "<SCRIPT src='x.js'>\nvar a = \"".toList := by decide +kernel
  have whole : ¬"%>".toList <:+: "a > b".toList := by decide +kernel
  have closes : ClosesScriptTags "<SCRIPT src='x.js'>\nvar a = \"".toList := by decide +kernel
  exact ⟨client, whole, (head?_blocks_expression _ _ "\"</SCRIPT>".toList client whole).mpr closes⟩

/-- An expression in the tag of a script is passed over with the tag. -/
theorem head?_blocks_scriptTag :
    let front := "<script src=\"".toList
    let content := front ++ "<%=".toList ++ "U".toList ++ "%>".toList ++ "\"></script>".toList
    IsClientMarkup front ∧ ¬"%>".toList <:+: "U".toList ∧ (Page.ofText content).blocks = [] := by
  decide +kernel

end Markup

end LocalizationScan
