import LocalizationScan.Proofs.Reference.Walking

namespace LocalizationScan

/-!
# Dotted texts

A text of identifiers with single dots between them is scanned as one chain,
whose segments are the identifiers.  What is found in such a text is therefore
what this chain stands for.
-/

/-- The marks of a text of which every character is code. -/
def codeMarks (position : Position) : Text → List Mark
  | [] => []
  | char :: rest => .ofChar char position :: codeMarks (position.advance char) rest

theorem codeMarks_append (position : Position) (first second : Text) :
    codeMarks position (first ++ second) =
      codeMarks position first ++ codeMarks (position.advanceOver first) second := by
  induction first generalizing position with
  | nil =>
      rfl
  | cons char rest inductionHypothesis =>
      simp [codeMarks, inductionHypothesis]

section Scanning

variable {marker : Text} {char : Char}

theorem CSharp.classifyCode_of_dotted
    (rest : Text)
    (dotted : Text.isIdentifierChar char = true ∨ char = '.') :
    classifyCode (char :: rest) = .stay := by
  have others :
      (['/', '"', '\'', '@', '$'].any fun other => Text.isIdentifierChar other || other == '.') =
        false := by
    decide
  refine classifyCode_of_not_mem (fun member => ?_) rest
  exact List.any_eq_false.mp others char member (by simpa using dotted)

/-- Identifiers and dots are code, character by character. -/
theorem filterMap_mark?_events
    (marker : Text)
    (anchor : Position)
    (done text : Text)
    (dotted : ∀ char ∈ text, Text.isIdentifierChar char = true ∨ char = '.') :
    (Scan.events (.csharp marker) ⟨.initial, .between anchor done text⟩).filterMap Event.mark? =
      codeMarks (anchor.advanceOver done) text := by
  induction text generalizing done with
  | nil =>
      rw [Scan.events_between_nil]
      rfl
  | cons char rest inductionHypothesis =>
      obtain ⟨here, later⟩ := List.forall_mem_cons.mp dotted
      have stays :
          (Dialect.csharp marker).classify Control.initial.lexicalState done.getLast?
              ([char] ++ rest) =
            .stay :=
        CSharp.classifyCode_of_dotted rest here
      have covers : Transition.stay.covered ([char] ++ rest) = [char].length :=
        Transition.covered_of_length (by simp) rfl
      have stepped :=
        @Scan.events_eq_react anchor _ _ _ _ (.csharp marker) [char] _ rest rfl stays covers
      have position :
          anchor.advanceOver (done ++ [char]) = (anchor.advanceOver done).advance char := by
        rw [Position.advanceOver_append]
        rfl
      rw [List.singleton_append] at stepped
      rw [stepped, List.filterMap_append]
      show _ ++ (Scan.events _ ⟨.initial, _⟩).filterMap _ = _
      rw [inductionHypothesis (done ++ [char]) later, position]
      rfl

end Scanning

section Links

/-- The characters of a name make up one segment. -/
theorem exists_segment_of_codeMarks
    (position : Position)
    {name : Text}
    {marks : List Mark}
    (nonempty : name ≠ [])
    (isIdentifier : ∀ char ∈ name, Text.isIdentifierChar char = true)
    (ends : goesOn marks = false) :
    ∃ segment : Segment,
      segment.text = name ∧ segment.start = position ∧
        segment.stop = position.advanceOver name ∧
        linksOf (codeMarks position name ++ marks) = ⟨[], segment⟩ :: linksOf marks := by
  induction name generalizing position with
  | nil =>
      exact absurd rfl nonempty
  | cons char rest inductionHypothesis =>
      obtain ⟨here, later⟩ := List.forall_mem_cons.mp isIdentifier
      have mark : Mark.ofChar char position = .identifier char position here := by
        simp [Mark.ofChar, here]
      cases rest with
      | nil =>
          refine ⟨.single char position here, rfl, rfl, rfl, ?_⟩
          simp only [codeMarks, mark, List.singleton_append]
          exact linksOf_identifier ends
      | cons next rest =>
          obtain ⟨segment, text, -, stop, links⟩ :=
            inductionHypothesis (position.advance char) (by simp) later
          refine ⟨segment.push char position here, by simp [Segment.push, text], rfl, stop, ?_⟩
          rw [codeMarks, mark, List.cons_append, linksOf, links]

/-- The names of a dotted text are segments that join each other. -/
theorem exists_links_of_joinWith
    (position : Position)
    {names : List Text}
    (nonempty : names ≠ [])
    (proper : ∀ name ∈ names, Text.isIdentifierSegment name = true) :
    ∃ segment links,
      linksOf (codeMarks position (Text.joinWith ['.'] names)) = ⟨[], segment⟩ :: links ∧
        (∀ link ∈ links, link.joins = true) ∧
        (segment :: links.map Link.segment).map Segment.text = names ∧
        Segment.spanOf (segment :: links.map Link.segment) =
          ⟨position, position.advanceOver (Text.joinWith ['.'] names)⟩ := by
  induction names generalizing position with
  | nil =>
      exact absurd rfl nonempty
  | cons name names inductionHypothesis =>
      obtain ⟨properHere, properLater⟩ := List.forall_mem_cons.mp proper
      have nameNonempty := Text.ne_nil_of_isIdentifierSegment properHere
      have isIdentifier :
          ∀ char ∈ name, Text.isIdentifierChar char = true := by
        intro char member
        exact Text.isIdentifierChar_of_mem_segment properHere member
      cases names with
      | nil =>
          obtain ⟨segment, text, start, stop, links⟩ :=
            exists_segment_of_codeMarks position nameNonempty isIdentifier
              (show goesOn [] = false from rfl)
          rw [List.append_nil] at links
          refine ⟨segment, [], links, ?_, by simp [text], ?_⟩
          · intro link member
            cases member
          · simp [Segment.spanOf, start, stop, Text.joinWith]
      | cons next names =>
          obtain ⟨later, laterShape⟩ :
              ∃ later, Text.joinWith ['.'] (next :: names) = later := ⟨_, rfl⟩
          have joined : Text.joinWith ['.'] (name :: next :: names) = name ++ '.' :: later := by
            simp [Text.joinWith, laterShape]
          obtain ⟨second, links, behind, joins, texts, span⟩ :=
            inductionHypothesis ((position.advanceOver name).advance '.') (by simp) properLater
          rw [laterShape] at behind span
          have dot : Mark.ofChar '.' (position.advanceOver name) = .separator .dot := by
            simp [Mark.ofChar, Text.isIdentifierChar_dot]
          have ends :
              goesOn (codeMarks (position.advanceOver name) ('.' :: later)) = false := by
            rw [codeMarks, dot]
            rfl
          obtain ⟨segment, text, start, stop, here⟩ :=
            exists_segment_of_codeMarks position nameNonempty isIdentifier ends
          have dotted :
              linksOf (codeMarks (position.advanceOver name) ('.' :: later)) =
                ⟨[.dot], second⟩ :: links := by
            rw [codeMarks, dot, linksOf, behind]
          rw [joined, codeMarks_append, here, dotted]
          refine ⟨segment, ⟨[.dot], second⟩ :: links, rfl, ?_, ?_, ?_⟩
          · exact List.forall_mem_cons.mpr ⟨rfl, joins⟩
          · simpa [text] using texts
          · have stop : (Segment.spanOf (second :: links.map Link.segment)).stop =
                position.advanceOver (name ++ '.' :: later) := by
              rw [span, Position.advanceOver_append]
              rfl
            rw [← stop]
            simp [Segment.spanOf, start, List.getLast?_cons_cons]

/-- Links that all join make up one chain. -/
theorem chainsOf_of_joins
    (link : Link)
    {links : List Link}
    (joins : ∀ link ∈ links, link.joins = true) :
    chainsOf (link :: links) = [link.segment :: links.map Link.segment] := by
  have taken := @List.takeWhile_append_of_pos _ Link.joins links [] joins
  have dropped := @List.dropWhile_append_of_pos _ Link.joins links [] joins
  rw [List.append_nil] at taken dropped
  rw [chainsOf, taken, dropped]
  simp [chainsOf]

end Links

/-- A dotted text is one chain. -/
theorem exists_chain_of_joinWith
    (marker : Text)
    (anchor : Position)
    {names : List Text}
    (nonempty : names ≠ [])
    (proper : ∀ name ∈ names, Text.isIdentifierSegment name = true) :
    ∃ chain,
      (Dialect.csharp marker).chains anchor (Text.joinWith ['.'] names) = [chain] ∧
        chain.map Segment.text = names ∧
        Segment.spanOf chain = ⟨anchor, anchor.advanceOver (Text.joinWith ['.'] names)⟩ := by
  obtain ⟨segment, links, linked, joins, texts, span⟩ :=
    exists_links_of_joinWith anchor nonempty proper
  refine ⟨segment :: links.map Link.segment, ?_, texts, span⟩
  have dotted :
      ∀ char ∈ Text.joinWith ['.'] names, Text.isIdentifierChar char = true ∨ char = '.' := by
    apply Text.forall_mem_joinWith
    · intro char member
      exact .inr (List.mem_singleton.mp member)
    · intro name memberName char member
      exact .inl (Text.isIdentifierChar_of_mem_segment (proper name memberName) member)
  have marks := filterMap_mark?_events marker anchor [] (Text.joinWith ['.'] names) dotted
  have chains := chainsOf_of_joins ⟨[], segment⟩ joins
  rw [← linked] at chains
  rw [← chains]
  exact congrArg (fun marks => chainsOf (linksOf marks)) marks

section Search

variable {error item found : Type}

/-- A search that finds nothing before the last item goes on to it. -/
theorem findSomeM?_concat
    {search : item → Except error (Option found)}
    {items : List item}
    (last : item)
    (quiet : ∀ item ∈ items, search item = .ok none) :
    (items ++ [last]).findSomeM? search = search last := by
  induction items with
  | nil =>
      rw [List.nil_append, List.findSomeM?_cons]
      cases search last with
      | error error =>
          rfl
      | ok found? =>
          cases found? <;> rfl
  | cons first items inductionHypothesis =>
      obtain ⟨here, later⟩ := List.forall_mem_cons.mp quiet
      rw [List.cons_append, List.findSomeM?_cons, here]
      exact inductionHypothesis later

end Search

section References

variable {entries : List Entry} {scope : Scope} {preferred? : Option Origin} {flags : ItemFlags}

/-- A chain of which no shorter start stands for a reference stands for its own. -/
theorem chainReference?_of_quiet
    {chain : List Segment}
    (long : 2 ≤ chain.length)
    (quiet :
      ∀ count, 2 ≤ count → count < chain.length →
        segmentReference? entries scope preferred? flags (chain.take count) = .ok none) :
    chainReference? entries scope preferred? flags chain =
      segmentReference? entries scope preferred? flags chain := by
  obtain ⟨more, length⟩ := Nat.exists_eq_add_of_le long
  have counts :
      List.range' 2 (chain.length - 1) = List.range' 2 more ++ [chain.length] := by
    have last : chain.length - 1 = more + 1 := by
      rw [length, Nat.add_comm 2 more]
      rfl
    rw [last, List.range'_concat, Nat.one_mul, length]
  have quietBefore :
      ∀ count ∈ List.range' 2 more,
        segmentReference? entries scope preferred? flags (chain.take count) = .ok none := by
    intro count member
    obtain ⟨least, most⟩ := List.mem_range'_1.mp member
    exact quiet count least (by rw [length]; exact most)
  rw [chainReference?, counts, findSomeM?_concat _ quietBefore, List.take_length]

/-- The reference to an entry that a whole text writes. -/
def Entry.referenceAt
    (entry : Entry)
    (flags : ItemFlags)
    (anchor : Position)
    (text : Text) :
    Reference where
  originalText := text
  fullText := entry.fullPath
  key := entry.key
  value := entry.value
  origin := entry.origin
  span := ⟨anchor, anchor.advanceOver text⟩
  flags := flags

theorem Reference.ofEntry_eq_referenceAt
    {dotted : DottedReference}
    {entry : Entry}
    {text : Text}
    (anchor : Position)
    (flags : ItemFlags)
    (cut : DottedReference.ofText? text = some dotted)
    (names : dotted.key = entry.propertyName) :
    ofEntry dotted entry ⟨anchor, anchor.advanceOver text⟩ flags =
      entry.referenceAt flags anchor text := by
  simp only [ofEntry, Entry.referenceAt, DottedReference.toText_of_ofText? cut, names,
    Entry.fullPath]

/-- What is found in a dotted text of which no shorter start stands for a reference. -/
theorem findReferences_joinWith
    (marker : Text)
    {anchor : Position}
    {names : List Text}
    (valid : anchor.asAnchor = .ok anchor)
    (long : 2 ≤ names.length)
    (proper : ∀ name ∈ names, Text.isIdentifierSegment name = true)
    (quiet :
      ∀ segments : List Segment, ∀ count,
        2 ≤ count → count < names.length → segments.map Segment.text = names.take count →
          segmentReference? entries scope preferred? flags segments = .ok none) :
    ∃ chain,
      chain.map Segment.text = names ∧
        Segment.spanOf chain = ⟨anchor, anchor.advanceOver (Text.joinWith ['.'] names)⟩ ∧
        findReferences (.csharp marker) ⟨.ofList entries, scope, preferred?⟩ flags anchor
            (Text.joinWith ['.'] names) =
          ((segmentReference? entries scope preferred? flags chain).map
            Option.toList).mapError .scope := by
  have nonempty : names ≠ [] := by
    rintro rfl
    cases long
  obtain ⟨chain, chains, texts, span⟩ := exists_chain_of_joinWith marker anchor nonempty proper
  have length : chain.length = names.length := by
    rw [← texts, List.length_map]
  refine ⟨chain, texts, span, ?_⟩
  have whole :
      chainReference? entries scope preferred? flags chain =
        segmentReference? entries scope preferred? flags chain := by
    apply chainReference?_of_quiet
    · rw [length]
      exact long
    · intro count least most
      apply quiet (chain.take count) count least
      · rw [← length]
        exact most
      · rw [List.map_take, texts]
  have alone :
      chainReferences entries scope preferred? flags [chain] =
        (chainReference? entries scope preferred? flags chain).map Option.toList := by
    rw [chainReferences_cons]
    cases chainReference? entries scope preferred? flags chain with
    | error error =>
        rfl
    | ok found =>
        cases found <;> rfl
  simp only [findReferences, valid]
  rw [Dialect.references_eq_chainReferences, chains, alone, whole]

end References

end LocalizationScan
