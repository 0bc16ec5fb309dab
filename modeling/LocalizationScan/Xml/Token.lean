import LocalizationScan.Xml.Attribute

namespace LocalizationScan.Xml

/-!
# Tokens of XML

A document is read as a flat list of tokens: tags, text, CDATA sections and
the rest.  End tags must match the start tags that are open; start tags may
stay open at the end.  A document that cannot be read on gives the tokens up to
there and the error.  Places are bytes of the UTF-8 form; a byte order mark at
the start is not counted.
-/

/-- What a token is. -/
inductive TokenKind where
  /-- A start tag, with the text between `<` and `>`. -/
  | startTag (tag : Text)
  /-- An end tag, with the name between `</` and `>`. -/
  | endTag (name : Text)
  /-- Text with its references as written. -/
  | text (raw : Text)
  /-- The content of a CDATA section. -/
  | cdata (content : Text)
  /-- An empty element, a comment, an instruction or a document type. -/
  | other
  deriving Repr, DecidableEq

/-- A token and the place right behind it. -/
structure Token where
  kind : TokenKind
  stop : Nat
  deriving Repr, DecidableEq

/-- Why a document or a part of it cannot be read. -/
inductive Fault where
  | tagNotClosed
  | unknownMarkup
  | commentNotClosed
  | cdataNotClosed
  | doctypeNotClosed
  | instructionNotClosed
  | doctypeWithoutName
  | mismatchedEnd (expected found : Text)
  | unmatchedEnd (found : Text)
  | badAttribute (error : AttributeError)
  | badReference (error : EscapeError)
  deriving Repr, DecidableEq

/-- The wording of a fault. -/
def Fault.message : Fault → Text
  | .tagNotClosed => "syntax error: tag not closed: `>` not found before end of input".toList
  | .unknownMarkup => "syntax error: unknown or missed symbol in markup".toList
  | .commentNotClosed =>
      "syntax error: comment not closed: `-->` not found before end of input".toList
  | .cdataNotClosed =>
      "syntax error: CDATA not closed: `]]>` not found before end of input".toList
  | .doctypeNotClosed =>
      "syntax error: DOCTYPE not closed: `>` not found before end of input".toList
  | .instructionNotClosed =>
      ("syntax error: processing instruction or xml declaration not closed: ".toList ++
        "`?>` not found before end of input".toList)
  | .doctypeWithoutName =>
      ("ill-formed document: `<!DOCTYPE>` declaration does not contain ".toList ++
        "a name of a document type".toList)
  | .mismatchedEnd expected found =>
      "ill-formed document: expected `</".toList ++ expected ++ ">`, but `</".toList ++
        found ++ ">` was found".toList
  | .unmatchedEnd found =>
      "ill-formed document: close tag `</".toList ++ found ++
        ">` does not match any open tag".toList
  | .badAttribute error => error.message
  | .badReference error => error.message

/-- A fault and the place where it is reported. -/
structure ReadError where
  place : Nat
  fault : Fault
  deriving Repr, DecidableEq

/-- The text of a tag and what follows its `>`, which is the first one outside quotes;
`quote?` is the quote that is open. -/
def splitTag? : Option Char → Text → Option (Text × Text)
  | _, [] => none
  | none, '>' :: rest => some ([], rest)
  | none, char :: rest =>
      (splitTag? (if char = '"' ∨ char = '\'' then some char else none) rest).map
        fun (tag, rest) => (char :: tag, rest)
  | some quote, char :: rest =>
      (splitTag? (if char = quote then none else some quote) rest).map
        fun (tag, rest) => (char :: tag, rest)

/-- The text of a document type and what follows the `>` that closes it; `depth` counts the
`<` that are open inside. -/
def splitDoctype? : Nat → Text → Option (Text × Text)
  | _, [] => none
  | 0, '>' :: rest => some ([], rest)
  | depth + 1, '>' :: rest =>
      (splitDoctype? depth rest).map fun (inner, rest) => ('>' :: inner, rest)
  | depth, char :: rest =>
      (splitDoctype? (if char = '<' then depth + 1 else depth) rest).map
        fun (inner, rest) => (char :: inner, rest)

/-- The name of an end tag: its text without the blanks at the end, unless there is
nothing else. -/
def endTagName (tag : Text) : Text :=
  match (tag.reverse.dropWhile isTagBlank).reverse with
  | [] => tag
  | name => name

/-- What the text behind a `<` starts with, and what follows it; end tags are not yet
matched. -/
inductive Markup where
  | token (kind : TokenKind) (rest : Text)
  | fault (fault : Fault)
  /-- A document type without a name; the rest starts behind its `>`. -/
  | namelessDoctype (rest : Text)
  deriving Repr, DecidableEq

/-- The comment that the text behind `<!` starts with. -/
def commentMarkup (inner : Text) : Markup :=
  match Text.splitBefore? "-->".toList (inner.drop 2) with
  | some (_, found) =>
      if (Text.after? "--".toList inner).isSome then .token .other (found.drop 3)
      else .fault .commentNotClosed
  | none => .fault .commentNotClosed

/-- The CDATA section that the text behind `<!` starts with. -/
def cdataMarkup (inner : Text) : Markup :=
  match Text.splitBefore? "]]>".toList inner with
  | some (opened, found) =>
      match Text.after? "[CDATA[".toList opened with
      | some content => .token (.cdata content) (found.drop 3)
      | none => .fault .cdataNotClosed
  | none => .fault .cdataNotClosed

/-- The document type that the text behind `<!` starts with. -/
def doctypeMarkup (inner : Text) : Markup :=
  match splitDoctype? 0 inner with
  | some (text, rest) =>
      if Text.startsIgnoringCase "DOCTYPE".toList text then
        if (text.drop 7).all isTagBlank then .namelessDoctype rest
        else .token .other rest
      else .fault .doctypeNotClosed
  | none => .fault .doctypeNotClosed

/-- The instruction that the text behind `<?` starts with. -/
def instructionMarkup (inner : Text) : Markup :=
  match inner with
  | '>' :: _ => .fault .instructionNotClosed
  | _ =>
      match Text.splitBefore? "?>".toList inner with
      | some (_, found) => .token .other (found.drop 2)
      | none => .fault .instructionNotClosed

/-- The start tag or empty element that the text behind `<` starts with. -/
def startTagMarkup (inner : Text) : Markup :=
  match splitTag? none inner with
  | some (tag, rest) =>
      if tag.getLast? = some '/' then .token .other rest else .token (.startTag tag) rest
  | none => .fault .tagNotClosed

/-- The end tag that the text behind `</` starts with. -/
def endTagMarkup (inner : Text) : Markup :=
  match splitTag? none inner with
  | some (tag, rest) => .token (.endTag (endTagName tag)) rest
  | none => .fault .tagNotClosed

/-- What the text behind a `<` starts with. -/
def markupOf (inner : Text) : Markup :=
  match inner with
  | [] => .fault .tagNotClosed
  | '!' :: '-' :: _ => commentMarkup (inner.drop 1)
  | '!' :: '[' :: _ => cdataMarkup (inner.drop 1)
  | '!' :: 'D' :: _ | '!' :: 'd' :: _ => doctypeMarkup (inner.drop 1)
  | '!' :: _ => .fault .unknownMarkup
  | '?' :: rest => instructionMarkup rest
  | '/' :: rest => endTagMarkup rest
  | _ => startTagMarkup inner

/-- The names of the open start tags behind a token, the last one first; an end tag must
match the first of them. -/
def nextOpened (opened : List Text) : TokenKind → Except Fault (List Text)
  | .startTag tag => .ok (tagName tag :: opened)
  | .endTag name =>
      match opened with
      | [] => .error (.unmatchedEnd name)
      | expected :: outer =>
          if expected = name then .ok outer else .error (.mismatchedEnd expected name)
  | .text _ | .cdata _ | .other => .ok opened

/-- The token that a non-empty rest of a document of `total` bytes starts with, and what
follows it. -/
def nextToken (total : Nat) (first : Char) (inner : Text) : Except ReadError (TokenKind × Text) :=
  if first = '<' then
    match markupOf inner with
    | .token kind rest => .ok (kind, rest)
    | .fault fault => .error ⟨total - Text.byteLength (first :: inner), fault⟩
    | .namelessDoctype rest => .error ⟨total - Text.byteLength rest - 1, .doctypeWithoutName⟩
  else
    .ok (.text (first :: inner.takeWhile (· ≠ '<')), inner.dropWhile (· ≠ '<'))

/-- A text that holds a tag is the text of the tag, a `>`, and the rest. -/
theorem eq_append_of_splitTag?
    {quote? : Option Char}
    {text tag rest : Text}
    (split : splitTag? quote? text = some (tag, rest)) :
    text = tag ++ '>' :: rest := by
  fun_induction splitTag? quote? text generalizing tag with
  | case1 => simp at split
  | case2 => simp_all
  | case3 char later _ inductionHypothesis =>
      obtain ⟨⟨inner, behind⟩, innerSplit, shape⟩ := Option.map_eq_some_iff.mp split
      simp only [Prod.mk.injEq] at shape
      obtain ⟨rfl, rfl⟩ := shape
      simp [inductionHypothesis innerSplit]
  | case4 quote char later inductionHypothesis =>
      obtain ⟨⟨inner, behind⟩, innerSplit, shape⟩ := Option.map_eq_some_iff.mp split
      simp only [Prod.mk.injEq] at shape
      obtain ⟨rfl, rfl⟩ := shape
      simp [inductionHypothesis innerSplit]

/-- A text that holds a document type is the text of it, a `>`, and the rest. -/
theorem eq_append_of_splitDoctype?
    {depth : Nat}
    {text inner rest : Text}
    (split : splitDoctype? depth text = some (inner, rest)) :
    text = inner ++ '>' :: rest := by
  fun_induction splitDoctype? depth text generalizing inner with
  | case1 => simp at split
  | case2 => simp_all
  | case3 depth later inductionHypothesis =>
      obtain ⟨⟨first, behind⟩, innerSplit, shape⟩ := Option.map_eq_some_iff.mp split
      simp only [Prod.mk.injEq] at shape
      obtain ⟨rfl, rfl⟩ := shape
      simp [inductionHypothesis innerSplit]
  | case4 depth char later _ _ inductionHypothesis =>
      obtain ⟨⟨first, behind⟩, innerSplit, shape⟩ := Option.map_eq_some_iff.mp split
      simp only [Prod.mk.injEq] at shape
      obtain ⟨rfl, rfl⟩ := shape
      simp [inductionHypothesis innerSplit]

/-- The rest that a construct of markup leaves. -/
def Markup.rest? : Markup → Option Text
  | .token _ rest | .namelessDoctype rest => some rest
  | .fault _ => none

/-- What follows a comment is no longer than the text that held it. -/
theorem length_commentMarkup_le
    {inner rest : Text}
    (read : (commentMarkup inner).rest? = some rest) :
    rest.length ≤ inner.length := by
  unfold commentMarkup at read
  split at read
  · rename_i before found split
    have whole := congrArg List.length (Text.append_of_splitWhere? split)
    simp only [List.length_drop, List.length_append] at whole
    split at read
    · obtain rfl := Option.some.inj read
      simp only [List.length_drop]
      omega
    · simp [Markup.rest?] at read
  · simp [Markup.rest?] at read

/-- What follows a CDATA section is no longer than the text that held it. -/
theorem length_cdataMarkup_le
    {inner rest : Text}
    (read : (cdataMarkup inner).rest? = some rest) :
    rest.length ≤ inner.length := by
  unfold cdataMarkup at read
  split at read
  · rename_i opened found split
    have whole := congrArg List.length (Text.append_of_splitWhere? split)
    simp only [List.length_append] at whole
    split at read
    · obtain rfl := Option.some.inj read
      simp only [List.length_drop]
      omega
    · simp [Markup.rest?] at read
  · simp [Markup.rest?] at read

/-- What follows a document type is no longer than the text that held it. -/
theorem length_doctypeMarkup_le
    {inner rest : Text}
    (read : (doctypeMarkup inner).rest? = some rest) :
    rest.length ≤ inner.length := by
  unfold doctypeMarkup at read
  split at read
  · rename_i text behind split
    have whole := congrArg List.length (eq_append_of_splitDoctype? split)
    simp only [List.length_append, List.length_cons] at whole
    split at read
    · split at read <;> obtain rfl := Option.some.inj read <;> omega
    · simp [Markup.rest?] at read
  · simp [Markup.rest?] at read

/-- What follows an instruction is no longer than the text that held it. -/
theorem length_instructionMarkup_le
    {inner rest : Text}
    (read : (instructionMarkup inner).rest? = some rest) :
    rest.length ≤ inner.length := by
  unfold instructionMarkup at read
  split at read
  · simp [Markup.rest?] at read
  · split at read
    · rename_i before found split
      have whole := congrArg List.length (Text.append_of_splitWhere? split)
      simp only [List.length_append] at whole
      obtain rfl := Option.some.inj read
      simp only [List.length_drop]
      omega
    · simp [Markup.rest?] at read

/-- What follows a start tag is no longer than the text that held it. -/
theorem length_startTagMarkup_le
    {inner rest : Text}
    (read : (startTagMarkup inner).rest? = some rest) :
    rest.length ≤ inner.length := by
  unfold startTagMarkup at read
  split at read
  · rename_i tag behind split
    have whole := congrArg List.length (eq_append_of_splitTag? split)
    simp only [List.length_append, List.length_cons] at whole
    split at read <;> obtain rfl := Option.some.inj read <;> omega
  · simp [Markup.rest?] at read

/-- What follows an end tag is no longer than the text that held it. -/
theorem length_endTagMarkup_le
    {inner rest : Text}
    (read : (endTagMarkup inner).rest? = some rest) :
    rest.length ≤ inner.length := by
  unfold endTagMarkup at read
  split at read
  · rename_i tag behind split
    have whole := congrArg List.length (eq_append_of_splitTag? split)
    simp only [List.length_append, List.length_cons] at whole
    obtain rfl := Option.some.inj read
    omega
  · simp [Markup.rest?] at read

/-- What follows a construct of markup is no longer than the text behind its `<`. -/
theorem length_markupOf_le
    {inner rest : Text}
    (read : (markupOf inner).rest? = some rest) :
    rest.length ≤ inner.length := by
  unfold markupOf at read
  split at read
  · simp [Markup.rest?] at read
  · have bound := length_commentMarkup_le read
    simp only [List.length_drop] at bound
    omega
  · have bound := length_cdataMarkup_le read
    simp only [List.length_drop] at bound
    omega
  · have bound := length_doctypeMarkup_le read
    simp only [List.length_drop] at bound
    omega
  · have bound := length_doctypeMarkup_le read
    simp only [List.length_drop] at bound
    omega
  · simp [Markup.rest?] at read
  · exact Nat.le_succ_of_le (length_instructionMarkup_le read)
  · exact Nat.le_succ_of_le (length_endTagMarkup_le read)
  · exact length_startTagMarkup_le read

/-- What follows a token is shorter than the text that starts with it. -/
theorem length_nextToken_le
    {total : Nat}
    {first : Char}
    {inner rest : Text}
    {kind : TokenKind}
    (read : nextToken total first inner = .ok (kind, rest)) :
    rest.length ≤ inner.length := by
  unfold nextToken at read
  split at read
  · split at read
    · rename_i found
      simp only [Except.ok.injEq, Prod.mk.injEq] at read
      obtain ⟨rfl, rfl⟩ := read
      exact length_markupOf_le (by simp [found, Markup.rest?])
    · simp at read
    · simp at read
  · simp only [Except.ok.injEq, Prod.mk.injEq] at read
    obtain ⟨_, rfl⟩ := read
    exact (List.dropWhile_sublist _).length_le

/-- The tokens in the rest of a document of `total` bytes up to where it cannot be read on,
and the error there; `opened` holds the names of the open start tags. -/
def tokensFrom (total : Nat) (opened : List Text) (text : Text) : List Token × Option ReadError :=
  match text with
  | [] => ([], none)
  | first :: inner =>
      match _ : nextToken total first inner with
      | .error error => ([], some error)
      | .ok (kind, rest) =>
          match nextOpened opened kind with
          | .error fault => ([], some ⟨total - Text.byteLength (first :: inner), fault⟩)
          | .ok opened =>
              let (later, error) := tokensFrom total opened rest
              (⟨kind, total - Text.byteLength rest⟩ :: later, error)
termination_by text.length
decreasing_by exact Nat.lt_succ_of_le (length_nextToken_le ‹_›)

/-- The tokens of a document up to where it cannot be read on, and the error there. -/
def tokens (document : Text) : List Token × Option ReadError :=
  let content := (Text.after? ['\uFEFF'] document).getD document
  tokensFrom (Text.byteLength content) [] content

end LocalizationScan.Xml
