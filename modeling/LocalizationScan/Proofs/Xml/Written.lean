import LocalizationScan.Proofs.Text.Search
import LocalizationScan.Proofs.Xml.References
import LocalizationScan.Xml.Token

namespace LocalizationScan.Xml

/-!
# Written markup

Tags, text, CDATA sections and comments as they are written, with references
for the characters that mean something.  Each of them is the next token of the
document that goes on with it, and a tag gives back its name and its attributes.
-/

/-- Whether a character can stand in a name; all characters of the names of XML can. -/
def isNameChar (char : Char) : Bool :=
  !isTagBlank char && !"<>/=\"'!?".toList.contains char

/-- The name of an element or of an attribute. -/
structure Name where
  text : Text
  nonempty : text ≠ []
  plain : text.all isNameChar = true

/-- An attribute and its value. -/
structure Field where
  name : Name
  value : Text

/-- What stands between the angle brackets of a start tag. -/
structure Tag where
  name : Name
  fields : List Field

/-- What stands between tags. -/
inductive Piece where
  | text (content : Text)
  | cdata (content : Text) (whole : ¬"]]>".toList <:+: content)
  | comment (content : Text) (whole : ¬"-->".toList <:+: content)

/-- The attribute of a field, as it is read. -/
def Field.attribute (field : Field) : Attribute :=
  ⟨field.name.text, escape field.value⟩

@[simp]
theorem Field.name_attribute (field : Field) : field.attribute.name = field.name.text := rfl

def Field.render (field : Field) : Text :=
  ' ' :: (field.name.text ++ '=' :: '"' :: (escape field.value ++ ['"']))

namespace Tag

/-- The text of a tag between its angle brackets. -/
def inner (tag : Tag) : Text :=
  tag.name.text ++ tag.fields.flatMap Field.render

def render (tag : Tag) : Text :=
  '<' :: (tag.inner ++ ['>'])

/-- The end tag of a start tag. -/
def renderEnd (tag : Tag) : Text :=
  '<' :: '/' :: (tag.name.text ++ ['>'])

end Tag

namespace Piece

def render : Piece → Text
  | .text content => escape content
  | .cdata content _ => "<![CDATA[".toList ++ content ++ "]]>".toList
  | .comment content _ => "<!--".toList ++ content ++ "-->".toList

/-- What a piece adds to the text of its element. -/
def content : Piece → Text
  | .text content | .cdata content _ => content
  | .comment _ _ => []

theorem render_cdata_append
    {content : Text}
    (whole : ¬"]]>".toList <:+: content)
    (rest : Text) :
    (cdata content whole).render ++ rest =
      '<' :: ("![CDATA[".toList ++ (content ++ ("]]>".toList ++ rest))) := by
  change "<![CDATA[".toList ++ content ++ "]]>".toList ++ rest = _
  rw [List.append_assoc, List.append_assoc]
  rfl

theorem render_comment_append
    {content : Text}
    (whole : ¬"-->".toList <:+: content)
    (rest : Text) :
    (comment content whole).render ++ rest =
      '<' :: ("!--".toList ++ (content ++ ("-->".toList ++ rest))) := by
  change "<!--".toList ++ content ++ "-->".toList ++ rest = _
  rw [List.append_assoc, List.append_assoc]
  rfl

end Piece

namespace Name

theorem ne_of_mem
    (name : Name)
    {char mark : Char}
    (member : char ∈ name.text)
    (noName : isNameChar mark = false) :
    char ≠ mark := by
  rintro rfl
  cases noName.symm.trans (List.all_eq_true.mp name.plain char member)

theorem not_mem
    (name : Name)
    {mark : Char}
    (noName : isNameChar mark = false) :
    mark ∉ name.text :=
  fun member => name.ne_of_mem member noName rfl

theorem isTagBlank_of_mem
    (name : Name)
    {char : Char}
    (member : char ∈ name.text) :
    isTagBlank char = false := by
  have plain := List.all_eq_true.mp name.plain char member
  simp only [isNameChar, Bool.and_eq_true, Bool.not_eq_true'] at plain
  exact plain.1

/-- What stops a name is not part of it. -/
theorem takeWhile_append
    (name : Name)
    {test : Char → Bool}
    {rest : Text}
    (goesOn : ∀ char ∈ name.text, test char = true)
    (stops : ∀ first ∈ rest.head?, test first = false) :
    (name.text ++ rest).takeWhile test = name.text := by
  rw [List.takeWhile_append_of_pos goesOn]
  cases rest with
  | nil => simp
  | cons first rest => simp [stops first rfl]

end Name

section Scanning

variable {text rest : Text}

/-- Text without quotes and without `>` is passed over in a tag. -/
theorem splitTag?_plain
    (plain : ∀ char ∈ text, char ≠ '"' ∧ char ≠ '\'' ∧ char ≠ '>')
    (rest : Text) :
    splitTag? none (text ++ rest) =
      (splitTag? none rest).map fun (tag, behind) => (text ++ tag, behind) := by
  induction text with
  | nil =>
      simp
  | cons char text inductionHypothesis =>
      obtain ⟨⟨noQuote, noApostrophe, noEnd⟩, plainRest⟩ := List.forall_mem_cons.mp plain
      rw [List.cons_append, splitTag?, if_neg (by simp [noQuote, noApostrophe]),
        inductionHypothesis plainRest, Option.map_map]
      · rfl
      · exact noEnd

/-- A quoted text without its quote is passed over in a tag, whatever it holds. -/
theorem splitTag?_quoted
    {quote : Char}
    (whole : quote ∉ text)
    (rest : Text) :
    splitTag? (some quote) (text ++ quote :: rest) =
      (splitTag? none rest).map fun (tag, behind) => (text ++ quote :: tag, behind) := by
  induction text with
  | nil =>
      simp [splitTag?]
  | cons char text inductionHypothesis =>
      obtain ⟨noQuote, wholeRest⟩ := not_or.mp (mt List.mem_cons.mpr whole)
      rw [List.cons_append, splitTag?, if_neg (Ne.symm noQuote), inductionHypothesis wholeRest,
        Option.map_map]
      rfl

theorem Name.splitTag?_append (name : Name) (rest : Text) :
    splitTag? none (name.text ++ rest) =
      (splitTag? none rest).map fun (tag, behind) => (name.text ++ tag, behind) :=
  splitTag?_plain
    (fun _ member =>
      ⟨name.ne_of_mem member (by decide), name.ne_of_mem member (by decide),
        name.ne_of_mem member (by decide)⟩)
    rest

theorem Field.splitTag?_append (field : Field) (rest : Text) :
    splitTag? none (field.render ++ rest) =
      (splitTag? none rest).map fun (tag, behind) => (field.render ++ tag, behind) := by
  have value := splitTag?_quoted (not_mem_escape (.inr rfl) field.value) rest
  have shape :
      field.render ++ rest =
        [' '] ++ (field.name.text ++ (['='] ++ '"' :: (escape field.value ++ '"' :: rest))) := by
    simp [render]
  have opened :
      splitTag? none ('"' :: (escape field.value ++ '"' :: rest)) =
        (splitTag? none rest).map
          fun (tag, behind) => ('"' :: (escape field.value ++ '"' :: tag), behind) := by
    simp [splitTag?, value]
    rfl
  rw [shape, splitTag?_plain (by simp), field.name.splitTag?_append,
    splitTag?_plain (by simp), opened]
  simp only [Option.map_map]
  congr
  funext ⟨tag, behind⟩
  simp [render]

theorem splitTag?_fields (fields : List Field) (rest : Text) :
    splitTag? none (fields.flatMap Field.render ++ '>' :: rest) =
      some (fields.flatMap Field.render, rest) := by
  induction fields with
  | nil => rfl
  | cons field fields inductionHypothesis =>
      rw [List.flatMap_cons, List.append_assoc, field.splitTag?_append, inductionHypothesis]
      rfl

theorem Tag.splitTag?_inner (tag : Tag) (rest : Text) :
    splitTag? none (tag.inner ++ '>' :: rest) = some (tag.inner, rest) := by
  rw [inner, List.append_assoc, tag.name.splitTag?_append, splitTag?_fields]
  rfl

end Scanning

section Attributes

theorem Tag.tagName_inner (tag : Tag) : tagName tag.inner = tag.name.text := by
  refine tag.name.takeWhile_append (fun char member => ?_) fun first begins => ?_
  · simp [tag.name.isTagBlank_of_mem member]
  · cases fields : tag.fields with
    | nil => simp [fields] at begins
    | cons field fields' =>
        rw [fields] at begins
        cases begins
        rfl

variable {seen : List (Text × Nat)}

theorem Field.dropWhile_render (field : Field) (rest : Text) :
    (field.render ++ rest).dropWhile isTagBlank =
      field.name.text ++ ('=' :: '"' :: (escape field.value ++ '"' :: rest)) := by
  obtain ⟨⟨text, nonempty, plain⟩, value⟩ := field
  cases text with
  | nil => exact absurd rfl nonempty
  | cons first text =>
      have solid := Name.isTagBlank_of_mem ⟨first :: text, nonempty, plain⟩ List.mem_cons_self
      have blank : isTagBlank ' ' = true := by decide
      simp [render, blank, solid]

theorem Field.takeAttribute_render
    (field : Field)
    (fresh : seen.lookup field.name.text = none)
    (total : Nat)
    (rest : Text) :
    takeAttribute total seen
        (field.name.text ++ '=' :: '"' :: (escape field.value ++ '"' :: rest)) =
      .ok (field.attribute, rest) := by
  obtain ⟨name, value⟩ := field
  have goesOn : ∀ char ∈ name.text, (!(char == '=' || isTagBlank char)) = true := by
    intro char member
    have noEquals : char ≠ '=' := name.ne_of_mem member (by decide)
    simp [noEquals, name.isTagBlank_of_mem member]
  have behind :
      afterEquals total ('=' :: '"' :: (escape value ++ '"' :: rest)) =
        .ok ('"' :: (escape value ++ '"' :: rest)) := rfl
  have isValue :
      quotedValue total ('"' :: (escape value ++ '"' :: rest)) = .ok (escape value, rest) := by
    have cut := Text.splitFirst?_append (not_mem_escape (.inr rfl) value) rest
    have begins :
        ('"' :: (escape value ++ '"' :: rest)).dropWhile isTagBlank =
          '"' :: (escape value ++ '"' :: rest) := rfl
    rw [quotedValue, begins]
    simp only [true_or, ↓reduceIte, cut]
  obtain ⟨_ | ⟨first, text⟩, nonempty, plain⟩ := name
  · exact absurd rfl nonempty
  · have isName :
        (text ++ '=' :: '"' :: (escape value ++ '"' :: rest)).takeWhile
            (fun char => !(char == '=' || isTagBlank char)) =
          text := by
      rw [List.takeWhile_append_of_pos fun char member =>
        goesOn char (List.mem_cons_of_mem first member)]
      simp
    have dropped :
        (first :: (text ++ '=' :: '"' :: (escape value ++ '"' :: rest))).drop
            (first :: text).length =
          '=' :: '"' :: (escape value ++ '"' :: rest) :=
      List.drop_left
    dsimp only [Field.attribute] at fresh ⊢
    rw [List.cons_append, takeAttribute, isName, dropped, behind]
    simp only [fresh, isValue, bind, Except.bind, pure, Except.pure]

/-- The attributes of a written tag are its fields, when no name of theirs is met twice. -/
theorem attributesFrom_fields
    {fields : List Field}
    (distinct : (fields.map fun field => field.name.text).Nodup)
    (fresh : ∀ field ∈ fields, seen.lookup field.name.text = none)
    (total : Nat) :
    attributesFrom total seen (fields.flatMap Field.render) =
      (fields.map Field.attribute, none) := by
  induction fields generalizing seen with
  | nil =>
      rw [attributesFrom]
      rfl
  | cons field fields inductionHypothesis =>
      rw [List.map_cons, List.nodup_cons] at distinct
      obtain ⟨freshHere, freshLater⟩ := List.forall_mem_cons.mp fresh
      have begins := field.dropWhile_render (fields.flatMap Field.render)
      have taken := field.takeAttribute_render freshHere total (fields.flatMap Field.render)
      rw [List.flatMap_cons, attributesFrom]
      split
      · next empty =>
          rw [begins] at empty
          exact absurd (List.append_eq_nil_iff.mp empty).1 field.name.nonempty
      · next first inner shape =>
          rw [begins] at shape
          rw [shape] at taken
          split
          · next read => cases taken.symm.trans read
          · next read =>
              cases taken.symm.trans read
              dsimp only
              rw [inductionHypothesis distinct.2]
              · rfl
              · intro later member
                have differs : later.name.text ≠ field.name.text := fun same =>
                  distinct.1 (same ▸ List.mem_map_of_mem member)
                simp [List.lookup_cons, Field.attribute, beq_eq_false_iff_ne.mpr differs,
                  freshLater later member]

theorem Tag.attributes_inner
    (tag : Tag)
    (distinct : (tag.fields.map fun field => field.name.text).Nodup) :
    attributes tag.inner = (tag.fields.map Field.attribute, none) := by
  rw [attributes, tag.tagName_inner, inner, List.drop_left]
  exact attributesFrom_fields distinct (fun _ _ => rfl) _

end Attributes

section Tokens

theorem Name.markupOf_append (name : Name) (rest : Text) :
    markupOf (name.text ++ rest) = startTagMarkup (name.text ++ rest) := by
  obtain ⟨text, nonempty, plain⟩ := name
  cases text with
  | nil => exact absurd rfl nonempty
  | cons first text =>
      have apart {mark : Char} (noName : isNameChar mark = false) : first ≠ mark :=
        Name.ne_of_mem ⟨first :: text, nonempty, plain⟩ List.mem_cons_self noName
      have noBang : first ≠ '!' := apart (by decide)
      have noQuestion : first ≠ '?' := apart (by decide)
      have noSlash : first ≠ '/' := apart (by decide)
      unfold markupOf
      split <;> simp_all

/-- A written tag does not end as an empty element does. -/
theorem Tag.getLast?_inner (tag : Tag) : tag.inner.getLast? ≠ some '/' := by
  have noSlash : '/' ∉ tag.name.text := tag.name.not_mem (by decide)
  rw [inner]
  rcases List.eq_nil_or_concat tag.fields with none | ⟨fields, field, shape⟩
  · rw [none, List.flatMap_nil, List.append_nil]
    exact fun last => noSlash (List.mem_of_getLast? last)
  · have ends : field.render.getLast? = some '"' := by
      simp [Field.render, List.getLast?_cons, List.getLast?_append]
    rw [shape, List.concat_eq_append, List.flatMap_append, List.flatMap_singleton,
      List.getLast?_append, List.getLast?_append, ends]
    simp

theorem nextToken_tag (total : Nat) (tag : Tag) (rest : Text) :
    nextToken total '<' (tag.inner ++ '>' :: rest) = .ok (.startTag tag.inner, rest) := by
  have isTag : markupOf (tag.inner ++ '>' :: rest) = .token (.startTag tag.inner) rest := by
    have shape := tag.splitTag?_inner rest
    rw [Tag.inner, List.append_assoc] at shape ⊢
    rw [tag.name.markupOf_append, startTagMarkup, shape]
    exact if_neg tag.getLast?_inner
  rw [nextToken, if_pos rfl, isTag]

theorem Name.endTagName_text (name : Name) : endTagName name.text = name.text := by
  have kept : name.text.reverse.dropWhile isTagBlank = name.text.reverse := by
    cases shape : name.text.reverse with
    | nil => rfl
    | cons last front =>
        have member : last ∈ name.text := by
          rw [← List.mem_reverse, shape]
          exact List.mem_cons_self
        rw [List.dropWhile_cons_of_neg (by simp [name.isTagBlank_of_mem member])]
  rw [endTagName, kept, List.reverse_reverse]
  split
  · next empty => exact absurd empty name.nonempty
  · rfl

theorem nextToken_endTag (total : Nat) (name : Name) (rest : Text) :
    nextToken total '<' ('/' :: (name.text ++ '>' :: rest)) = .ok (.endTag name.text, rest) := by
  have shape : splitTag? none (name.text ++ '>' :: rest) = some (name.text, rest) := by
    rw [name.splitTag?_append]
    simp [splitTag?]
  have isTag :
      markupOf ('/' :: (name.text ++ '>' :: rest)) = .token (.endTag name.text) rest := by
    change endTagMarkup _ = _
    rw [endTagMarkup, shape]
    dsimp only
    rw [name.endTagName_text]
  rw [nextToken, if_pos rfl, isTag]

theorem nextToken_cdata
    {content : Text}
    (whole : ¬"]]>".toList <:+: content)
    (total : Nat)
    (rest : Text) :
    nextToken total '<' ("![CDATA[".toList ++ (content ++ ("]]>".toList ++ rest))) =
      .ok (.cdata content, rest) := by
  have absent : ¬"]]".toList ++ ['>'] <:+: "[CDATA[".toList ++ content := fun holds =>
    whole (Text.isInfix_of_isInfix_append (by decide) holds)
  have opened : Text.after? "[CDATA[".toList ("[CDATA[".toList ++ content) = some content := rfl
  have isSection :
      markupOf ("![CDATA[".toList ++ (content ++ ("]]>".toList ++ rest))) =
        .token (.cdata content) rest := by
    have split :
        Text.splitBefore? "]]>".toList
            ("[CDATA[".toList ++ (content ++ ("]]>".toList ++ rest))) =
          some ("[CDATA[".toList ++ content, "]]>".toList ++ rest) := by
      rw [← List.append_assoc]
      exact Text.splitBefore?_append (by decide) absent rest
    change cdataMarkup ("[CDATA[".toList ++ (content ++ ("]]>".toList ++ rest))) = _
    rw [cdataMarkup, split]
    dsimp only
    rw [opened]
    rfl
  rw [nextToken, if_pos rfl, isSection]

theorem nextToken_comment
    {content : Text}
    (whole : ¬"-->".toList <:+: content)
    (total : Nat)
    (rest : Text) :
    nextToken total '<' ("!--".toList ++ (content ++ ("-->".toList ++ rest))) =
      .ok (.other, rest) := by
  have isComment :
      markupOf ("!--".toList ++ (content ++ ("-->".toList ++ rest))) = .token .other rest := by
    have split :
        Text.splitBefore? "-->".toList (content ++ ("-->".toList ++ rest)) =
          some (content, "-->".toList ++ rest) :=
      @Text.splitBefore?_append content "--".toList '>' (by decide) whole rest
    change commentMarkup ("--".toList ++ (content ++ ("-->".toList ++ rest))) = _
    have inside :
        ("--".toList ++ (content ++ ("-->".toList ++ rest))).drop 2 =
          content ++ ("-->".toList ++ rest) := rfl
    rw [commentMarkup, inside, split]
    rfl
  rw [nextToken, if_pos rfl, isComment]

end Tokens

end LocalizationScan.Xml
