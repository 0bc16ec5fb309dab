import Mathlib
import LocalizationScan.Proofs.CSharp.Tokens

namespace LocalizationScan.CSharp

/-!
# Literals of printed code

Scanning the code that a token tree stands for finds the literals of the tree.
A scan and a tree are followed token by token: the code of a hole ends in the
state in which it began, with the string around it waiting on the stack, so a
string passes in one piece however deep its holes are nested.
-/

namespace Place

/-- The waiting strings at a place, when the innermost one waits in the given hole. -/
def holes (hole : Hole) (outer : List Hole) : Place → List Hole
  | .block => []
  | .hole depth => { hole with depth := depth } :: outer

/-- The place at which the code around a place has begun, and at which it ends. -/
def start : Place → Place
  | .block => .block
  | .hole _ => .hole 0

/-- What can follow the code around a place: nothing, or the end of the hole. -/
def Ends (later : Text) : Place → Prop
  | .block => later = []
  | .hole _ => later.head? = some '\x7d'

/-- Literals are found in the code of a block only. -/
def found (literals : List Literal) : Place → List Literal
  | .block => literals
  | .hole _ => []

theorem found_of_start_eq
    {place next : Place}
    (same : next.start = place.start)
    (literals : List Literal) :
    next.found literals = place.found literals := by
  cases place <;> cases next <;> simp_all [start, found]

theorem found_cons (literal : Literal) (literals : List Literal) (place : Place) :
    place.found (literal :: literals) = place.found [literal] ++ place.found literals := by
  cases place <;> rfl

/-- A string token is reported in the code of a block only. -/
theorem found_of_holes_isEmpty
    (hole : Hole)
    (outer : List Hole)
    (literal : Literal)
    (place : Place) :
    (if true && (place.holes hole outer).isEmpty then [literal] else []) =
      place.found [literal] := by
  cases place <;> rfl

theorem start_of_after?
    {place next : Place}
    {char : Char}
    (after : place.after? char = some next) :
    next.start = place.start := by
  cases place with
  | block =>
      cases after
      rfl
  | hole depth =>
      simp only [after?] at after
      split at after
      · cases after
        rfl
      · split at after
        · split at after
          · cases after
          · cases after
            rfl
        · cases after
          rfl

theorem ends_iff_of_start_eq
    {place next : Place}
    {later : Text}
    (same : next.start = place.start) :
    next.Ends later ↔ place.Ends later := by
  cases place <;> cases next <;> simp_all [start, Ends]

end Place

section Trees

variable {marker : Text} {flags : ItemFlags} {anchor : Position}
  {hole : Hole} {outer : List Hole} {place : Place} {done later : Text}

/-- An ordinary character takes a scan from a place to the next. -/
theorem literalsFrom_ordinary
    {char : Char}
    {next : Place}
    (ordinary : IsOrdinary char)
    (after : place.after? char = some next) :
    literalsFrom marker flags anchor ⟨.resting, place.holes hole outer⟩ done
        (char :: later) =
      literalsFrom marker flags anchor ⟨.resting, next.holes hole outer⟩
        (done ++ [char]) later := by
  obtain ⟨noQuote, noApostrophe, noSlash, noAt, noDollar⟩ := ordinary
  have stays : classifyCode (char :: later) = .stay :=
    classifyCode_of_not_mem (by simp [noQuote, noApostrophe, noSlash, noAt, noDollar]) later
  cases place with
  | block =>
      cases after
      exact literalsFrom_code stays
  | hole depth =>
      simp only [Place.after?] at after
      by_cases opens : char = '\x7b'
      · simp only [opens, ↓reduceIte, Option.some.injEq] at after ⊢
        subst after
        exact literalsFrom_openBrace
      · by_cases closes : char = '\x7d'
        · simp only [closes, Char.reduceEq, ↓reduceIte] at after ⊢
          split at after
          · cases after
          · rename_i matched
            cases after
            exact literalsFrom_closeBrace matched
        · simp only [opens, closes, ↓reduceIte, Option.some.injEq] at after
          subst after
          refine literalsFrom_code ?_
          simpa [classify, classifyHole, opens, closes, Control.lexicalState, Place.holes]
            using stays

/-- Where a line comment ends in a tree, its line or the block ends. -/
theorem lineEnd_print
    {rest : TokenTree}
    (stops : rest.StartsWith '\n' ∨ place = .block ∧ rest.print = [])
    (ends : place.Ends later) :
    rest.print ++ later = [] ∨ (rest.print ++ later).head? = some '\n' := by
  rcases stops with feed | ⟨rfl, empty⟩
  · exact .inr (by simpa [TokenTree.StartsWith] using .inl feed)
  · exact .inl (by simp [empty, show later = [] from ends])

/-- A tree that goes on without a quote is not followed by one. -/
theorem head?_print_ne_quote
    {rest : TokenTree}
    (separated : ¬rest.StartsWith '"')
    (ends : place.Ends later) :
    (rest.print ++ later).head? ≠ some '"' := by
  unfold TokenTree.StartsWith at separated
  cases shape : rest.print with
  | nil =>
      cases place with
      | block =>
          simp [show later = [] from ends]
      | hole depth =>
          simp [show later.head? = some '\x7d' from ends]
  | cons first others =>
      simpa [shape] using separated

/-- Text of an interpolated string that is no brace is that of its plain form. -/
theorem classifyString_of_not_brace
    (form : Interpolation)
    {char : Char}
    (rest : Text)
    (noOpening : char ≠ '\x7b')
    (noClosing : char ≠ '\x7d') :
    classifyString form.kind (char :: rest) =
      if form.isVerbatim then classifyVerbatim false (char :: rest)
      else classifyLineString '"' false (char :: rest) := by
  have noBrace : classifyBrace? (char :: rest) = none := by
    unfold classifyBrace?
    split <;> simp_all
  cases form <;> simp [classifyString, Interpolation.kind, Interpolation.isVerbatim, noBrace]

/-- The closing quote of a verbatim string is one that no quote follows. -/
theorem classifyVerbatim_quote
    {emit : Bool}
    (alone : later.head? ≠ some '"') :
    classifyVerbatim emit ('"' :: later) = .closeString 1 emit := by
  cases later with
  | nil =>
      rfl
  | cons second rest =>
      have different : second ≠ '"' := by simpa using alone
      simp [classifyVerbatim, different]

/-- The closing quote of an interpolated string, which no quote follows where it would be
doubled. -/
theorem classifyString_closingQuote
    (form : Interpolation)
    (alone : form.isVerbatim = true → later.head? ≠ some '"') :
    classifyString form.kind ('"' :: later) = .closeString 1 false := by
  rw [classifyString_of_not_brace form later (by decide) (by decide)]
  cases form with
  | line =>
      rfl
  | dollarAt | atDollar =>
      exact classifyVerbatim_quote (alone rfl)

/-- A single opening brace begins a hole. -/
theorem classifyString_openHole
    (form : Interpolation)
    {code : TokenTree}
    (alone : ¬code.StartsWith '\x7b') :
    classifyString form.kind ('\x7b' :: (code.print ++ '\x7d' :: later)) = .openHole := by
  have single : classifyBrace? ('\x7b' :: (code.print ++ '\x7d' :: later)) = some .openHole := by
    unfold TokenTree.StartsWith at alone
    cases shape : code.print with
    | nil =>
        rfl
    | cons first rest =>
        have different : first ≠ '\x7b' := by simpa [shape] using alone
        simp [classifyBrace?, different]
  cases form <;> simp [classifyString, Interpolation.kind, single]

/-- A unit of an interpolated string passes. -/
theorem literalsFrom_partUnit
    {unit : BodyUnit}
    {form : Interpolation}
    {token : OpenToken}
    {holes : List Hole}
    (leavesBraces : unit.LeavesBraces)
    (fits :
      if form.isVerbatim then ∃ char, unit = .plain char ∧ char ≠ '"'
      else unit.Fits '"') :
    literalsFrom marker flags anchor ⟨.inString form.kind token, holes⟩ done
        (unit.print ++ later) =
      literalsFrom marker flags anchor ⟨.inString form.kind token, holes⟩
        (done ++ unit.print) later := by
  cases unit with
  | plain char =>
      have classified :=
        classifyString_of_not_brace form later leavesBraces.1 leavesBraces.2
      by_cases verbatim : form.isVerbatim = true
      · simp only [verbatim, ↓reduceIte] at fits classified
        obtain ⟨other, same, noQuote⟩ := fits
        cases same
        exact literalsFrom_verbatimChar noQuote classified
      · simp only [verbatim, Bool.false_eq_true, ↓reduceIte] at fits classified
        exact literalsFrom_unit fits classified
  | escaped char =>
      have classified :=
        classifyString_of_not_brace form (char :: later)
          (show '\\' ≠ '\x7b' by decide) (show '\\' ≠ '\x7d' by decide)
      by_cases verbatim : form.isVerbatim = true
      · simp [verbatim] at fits
      · simp only [verbatim, Bool.false_eq_true, ↓reduceIte] at fits classified
        exact literalsFrom_unit fits classified

end Trees

namespace Interpolation

theorem exists_opening (form : Interpolation) :
    ∃ first others, form.opening = first :: others := by
  cases form <;> exact ⟨_, _, rfl⟩

end Interpolation

section Printed

variable {marker : Text} {flags : ItemFlags} {anchor : Position}

mutual

/-- Scanning printed code finds the literals of its tree and stops behind it, in a hole at
the brace that ends the hole. -/
theorem literalsFrom_tree
    (tree : TokenTree)
    (place : Place)
    (hole : Hole)
    (outer : List Hole)
    (done later : Text)
    (wellFormed : tree.WellFormed place)
    (separated : tree.Separated)
    (ends : place.Ends later) :
    literalsFrom marker flags anchor ⟨.resting, place.holes hole outer⟩ done
        (tree.print ++ later) =
      place.found
          (tree.literals { flags with markedUnlocalizable := false }
            (anchor.advanceOver done)) ++
        literalsFrom marker flags anchor ⟨.resting, place.start.holes hole outer⟩
          (done ++ tree.print) later := by
  match tree with
  | .done =>
      rcases wellFormed with rfl | rfl <;>
        simp [TokenTree.print, TokenTree.literals, Place.found, Place.start]
  | .plain char rest =>
      obtain ⟨ordinary, next, after, wellFormed⟩ := wellFormed
      -- Braces change the depth of the place, but not the code that it is in.
      have same := Place.start_of_after? after
      have behind :=
        literalsFrom_tree rest next hole outer (done ++ [char]) later wellFormed separated
          ((Place.ends_iff_of_start_eq same).mpr ends)
      rw [Place.found_of_start_eq same, same] at behind
      simp only [TokenTree.print, List.cons_append]
      rw [literalsFrom_ordinary ordinary after, behind]
      simp [TokenTree.literals, Position.advanceOver_append]
  | .lineComment body rest =>
      obtain ⟨inLine, stops, wellFormed⟩ := wellFormed
      have behind :=
        literalsFrom_tree rest place hole outer (done ++ '/' :: '/' :: body) later
          wellFormed separated ends
      have passes :
          literalsFrom marker flags anchor ⟨.resting, place.holes hole outer⟩ done
              ('/' :: '/' :: body ++ (rest.print ++ later)) = _ :=
        literalsFrom_lineComment inLine (lineEnd_print stops ends)
      rw [behind] at passes
      simpa [TokenTree.print, TokenTree.literals, Position.advanceOver_append] using passes
  | .blockComment body rest =>
      obtain ⟨isBody, wellFormed⟩ := wellFormed
      have behind :=
        literalsFrom_tree rest place hole outer
          (done ++ ('/' :: '*' :: body ++ ['*', '/'])) later wellFormed separated ends
      have passes :
          literalsFrom marker flags anchor ⟨.resting, place.holes hole outer⟩ done
              ('/' :: '*' :: body ++ ['*', '/'] ++ (rest.print ++ later)) = _ :=
        literalsFrom_blockComment isBody
      rw [behind] at passes
      simpa [TokenTree.print, TokenTree.literals, Position.advanceOver_append] using passes
  | .regular body rest =>
      obtain ⟨fits, wellFormed⟩ := wellFormed
      have behind :=
        literalsFrom_tree rest place hole outer
          (done ++ ('"' :: [] ++ printBody body ++ ['"'])) later wellFormed separated ends
      have passes :
          literalsFrom marker flags anchor ⟨.resting, place.holes hole outer⟩ done
              ('"' :: [] ++ printBody body ++ ['"'] ++ (rest.print ++ later)) = _ :=
        literalsFrom_string .regular true (by cases place <;> rfl)
          (fun _ => literalsFrom_body fits fun _ => rfl) rfl
      rw [Place.found_of_holes_isEmpty, behind] at passes
      rw [TokenTree.literals, Place.found_cons]
      simpa [TokenTree.print, Position.advanceOver_append] using passes
  | .charLiteral body rest =>
      obtain ⟨fits, wellFormed⟩ := wellFormed
      have behind :=
        literalsFrom_tree rest place hole outer
          (done ++ ('\'' :: [] ++ printBody body ++ ['\''])) later wellFormed separated ends
      have passes :
          literalsFrom marker flags anchor ⟨.resting, place.holes hole outer⟩ done
              ('\'' :: [] ++ printBody body ++ ['\''] ++ (rest.print ++ later)) = _ :=
        literalsFrom_string .char false (by cases place <;> rfl)
          (fun _ => literalsFrom_body fits fun _ => rfl) rfl
      rw [behind] at passes
      simpa [TokenTree.print, TokenTree.literals, Position.advanceOver_append] using passes
  | .verbatim text rest =>
      obtain ⟨alone, separated⟩ := separated
      have behind :=
        literalsFrom_tree rest place hole outer
          (done ++ ('@' :: ['"'] ++ doubleQuotes text ++ ['"'])) later wellFormed separated
          ends
      have passes :
          literalsFrom marker flags anchor ⟨.resting, place.holes hole outer⟩ done
              ('@' :: ['"'] ++ doubleQuotes text ++ ['"'] ++ (rest.print ++ later)) = _ :=
        literalsFrom_string .verbatim true (by cases place <;> rfl)
          (fun _ => literalsFrom_doubleQuotes fun _ => rfl)
          (classifyVerbatim_quote (head?_print_ne_quote alone ends))
      rw [Place.found_of_holes_isEmpty, behind] at passes
      rw [TokenTree.literals, Place.found_cons]
      simpa [TokenTree.print, Position.advanceOver_append] using passes
  | .interpolated form parts rest =>
      obtain ⟨wellFormedParts, wellFormed⟩ := wellFormed
      obtain ⟨alone, separatedParts, separated⟩ := separated
      have behind :=
        literalsFrom_tree rest place hole outer (done ++ (form.opening ++ parts.print ++ ['"']))
          later wellFormed separated ends
      obtain ⟨first, others, opening⟩ := form.exists_opening
      have passes :
          literalsFrom marker flags anchor ⟨.resting, place.holes hole outer⟩ done
              (first :: others ++ parts.print ++ ['"'] ++ (rest.print ++ later)) = _ :=
        literalsFrom_string form.kind false
          (by rw [← opening]; cases form <;> cases place <;> rfl)
          (fun token => literalsFrom_parts parts form token _ _ _ wellFormedParts separatedParts)
          (classifyString_closingQuote form fun verbatim =>
            head?_print_ne_quote (alone verbatim) ends)
      rw [← opening, behind] at passes
      simpa [TokenTree.print, TokenTree.literals, Position.advanceOver_append] using passes

/-- The parts of an interpolated string pass, whatever its holes hold. -/
theorem literalsFrom_parts
    (parts : StringParts)
    (form : Interpolation)
    (token : OpenToken)
    (holes : List Hole)
    (done later : Text)
    (wellFormed : parts.WellFormed form)
    (separated : parts.Separated) :
    literalsFrom marker flags anchor ⟨.inString form.kind token, holes⟩ done
        (parts.print ++ later) =
      literalsFrom marker flags anchor ⟨.inString form.kind token, holes⟩
        (done ++ parts.print) later := by
  match parts with
  | .done =>
      simp [StringParts.print]
  | .unit unit rest =>
      obtain ⟨leavesBraces, fits, wellFormed⟩ := wellFormed
      have behind :=
        literalsFrom_parts rest form token holes (done ++ unit.print) later wellFormed separated
      have passes :
          literalsFrom marker flags anchor ⟨.inString form.kind token, holes⟩ done
              (unit.print ++ (rest.print ++ later)) = _ :=
        literalsFrom_partUnit leavesBraces fits
      rw [behind] at passes
      simpa [StringParts.print] using passes
  | .quote rest =>
      obtain ⟨verbatim, wellFormed⟩ := wellFormed
      have behind :=
        literalsFrom_parts rest form token holes (done ++ ['"', '"']) later wellFormed separated
      have classified :
          classifyString form.kind ('"' :: '"' :: (rest.print ++ later)) = .escape 2 := by
        rw [classifyString_of_not_brace form _ (by decide) (by decide), verbatim]
        rfl
      have passes :
          literalsFrom marker flags anchor ⟨.inString form.kind token, holes⟩ done
              ('"' :: '"' :: (rest.print ++ later)) = _ :=
        literalsFrom_escape classified
      rw [behind] at passes
      simpa [StringParts.print] using passes
  | .brace opening rest =>
      have behind :=
        literalsFrom_parts rest form token holes
          (done ++ [braceChar opening, braceChar opening]) later wellFormed separated
      have classified :
          classifyString form.kind
              (braceChar opening :: braceChar opening :: (rest.print ++ later)) =
            .escape 2 := by
        cases form <;> cases opening <;> rfl
      have passes :
          literalsFrom marker flags anchor ⟨.inString form.kind token, holes⟩ done
              (braceChar opening :: braceChar opening :: (rest.print ++ later)) = _ :=
        literalsFrom_escape classified
      rw [behind] at passes
      simpa [StringParts.print] using passes
  | .hole code rest =>
      obtain ⟨wellFormedCode, wellFormed⟩ := wellFormed
      obtain ⟨alone, separatedCode, separated⟩ := separated
      -- The string waits on the stack while its hole is scanned as a tree of its own, of which
      -- nothing is found, and the closing brace of the hole takes the string up again.
      have inside :=
        literalsFrom_tree code (.hole 0) ⟨form.kind, token, 0⟩ holes (done ++ ['\x7b'])
          ('\x7d' :: (rest.print ++ later)) wellFormedCode separatedCode rfl
      have behind :=
        literalsFrom_parts rest form token holes (done ++ ['\x7b'] ++ code.print ++ ['\x7d'])
          later wellFormed separated
      have opens :
          literalsFrom marker flags anchor ⟨.inString form.kind token, holes⟩ done
              ('\x7b' :: (code.print ++ '\x7d' :: (rest.print ++ later))) = _ :=
        literalsFrom_openHole (classifyString_openHole form alone)
      have closes :
          literalsFrom marker flags anchor ⟨.resting, ⟨form.kind, token, 0⟩ :: holes⟩
              (done ++ ['\x7b'] ++ code.print) ('\x7d' :: (rest.print ++ later)) = _ :=
        literalsFrom_closeHole rfl
      simp only [Place.holes, Place.start, Place.found, List.nil_append] at inside
      rw [inside, closes, behind] at opens
      simpa [StringParts.print] using opens

end

end Printed

/-- The literals of a tree are as long as their texts. -/
theorem length_of_mem_literals
    {flags : ItemFlags}
    (tree : TokenTree)
    (position : Position)
    {literal : Literal}
    (member : literal ∈ tree.literals flags position) :
    literal.length = literal.text.length := by
  match tree with
  | .done =>
      cases member
  | .plain _ rest | .lineComment _ rest | .blockComment _ rest | .charLiteral _ rest
  | .interpolated _ _ rest =>
      exact length_of_mem_literals rest _ member
  | .regular _ rest | .verbatim _ rest =>
      rcases List.mem_cons.mp member with rfl | behind
      · exact Span.length_advanceOver ..
      · exact length_of_mem_literals rest _ behind

/-- Whether the literals that are found in the code of a tree, whatever marks them, are those
of the tree. -/
def TokenTree.IsScanned
    (marker : Text)
    (flags : ItemFlags)
    (anchor : Position)
    (tree : TokenTree) :
    Prop :=
  ∃ items,
    findLiterals (.csharp marker) flags anchor tree.print = .ok items ∧
      items.map Literal.unmarked =
        tree.literals { flags with markedUnlocalizable := false } anchor ∧
      ∀ item ∈ items, item.length = item.text.length

/-- The literals that are found in printed code are those of its tree. -/
theorem findLiterals_print
    (marker : Text)
    (flags : ItemFlags)
    (anchor : Position)
    (tree : TokenTree)
    (wellFormed : tree.WellFormed .block)
    (separated : tree.Separated)
    (validLine : 1 ≤ anchor.line)
    (validColumn : 1 ≤ anchor.column) :
    tree.IsScanned marker flags anchor := by
  have valid : anchor.asAnchor = .ok anchor := by
    simp [Position.asAnchor, Nat.ne_of_gt validLine, Nat.ne_of_gt validColumn]
  have scanned :
      literalsFrom marker flags anchor .initial [] tree.print =
        tree.literals { flags with markedUnlocalizable := false } anchor := by
    have whole :=
      @literalsFrom_tree marker flags anchor tree .block ⟨.regular, ⟨anchor, [], 0⟩, 0⟩ [] [] []
        wellFormed separated rfl
    rw [literalsFrom_nil] at whole
    simpa [Place.holes, Place.found, Control.initial] using whole
  have found :
      ((Dialect.csharp marker).literals flags anchor tree.print).map Literal.unmarked =
        tree.literals { flags with markedUnlocalizable := false } anchor := by
    rw [Dialect.literals, unmarked_literalsOfEvents, ← scanned]
    rfl
  refine ⟨_, by rw [findLiterals, valid]; rfl, found, ?_⟩
  intro item member
  have unmarked :
      item.unmarked ∈ tree.literals { flags with markedUnlocalizable := false } anchor := by
    rw [← found]
    exact List.mem_map_of_mem member
  show item.unmarked.length = item.unmarked.text.length
  exact length_of_mem_literals tree anchor unmarked

/-- Only the literals in the code of the block are found when strings and holes are nested,
and a comment, a character literal or an interpolated string is passed over. -/
theorem findLiterals_print_nested :
    ∃ items,
      findLiterals (.csharp defaultMarker) .none .start
          "f(\"a\\\"\",$@\"\x7b\x7b\"\"\x7bg('\"',$\"\x7b\"b\"\x7d\")\x7d\")/*\"*/@\"c\"\"\"".toList =
        .ok items ∧
        items.map Literal.value = [['a', '"'], ['c', '"']] := by
  have printed :=
    findLiterals_print defaultMarker .none .start
      (.plain 'f' <| .plain '(' <| .regular [.plain 'a', .escaped '"'] <| .plain ',' <|
        .interpolated .dollarAt
          (.brace true <| .quote <|
            .hole
              (.plain 'g' <| .plain '(' <| .charLiteral [.plain '"'] <| .plain ',' <|
                .interpolated .line (.hole (.regular [.plain 'b'] .done) .done) <|
                .plain ')' .done)
              .done) <|
        .plain ')' <| .blockComment ['"'] <| .verbatim ['c', '"'] .done)
      (by
        simp [TokenTree.WellFormed, StringParts.WellFormed, IsOrdinary, Place.after?,
          BodyUnit.Fits, Interpolation.isVerbatim, IsCommentBody]
        decide)
      (by
        simp [TokenTree.Separated, StringParts.Separated, TokenTree.StartsWith,
          TokenTree.print, Interpolation.isVerbatim])
      (by decide) (by decide)
  obtain ⟨items, found, literals, -⟩ := printed
  refine ⟨items, found, ?_⟩
  have values : items.map Literal.value = (items.map Literal.unmarked).map Literal.value := by
    rw [List.map_map]
    rfl
  rw [values, literals]
  cbv

/-- Neighbours that run together are scanned as other tokens than those of the tree: the
closing quote of a verbatim string with a quote behind it, and the opening brace of a hole
with a brace behind it. -/
theorem findLiterals_print_run_together :
    (TokenTree.WellFormed .block (.verbatim ['a'] (.regular [.plain 'b'] .done)) ∧
      ¬(TokenTree.verbatim ['a'] (.regular [.plain 'b'] .done)).IsScanned
        defaultMarker .none .start) ∧
    (TokenTree.WellFormed .block
        (.interpolated .dollarAt (.unit (.plain 'a') .done) (.regular [.plain 'b'] .done)) ∧
      ¬(TokenTree.interpolated .dollarAt (.unit (.plain 'a') .done)
          (.regular [.plain 'b'] .done)).IsScanned defaultMarker .none .start) ∧
    TokenTree.WellFormed .block
        (.interpolated .line
          (.hole (.plain '\x7b' <| .regular [.plain 'a'] <| .plain '\x7d' .done) .done) .done) ∧
      ¬(TokenTree.interpolated .line
          (.hole (.plain '\x7b' <| .regular [.plain 'a'] <| .plain '\x7d' .done) .done)
          .done).IsScanned defaultMarker .none .start := by
  have verbatim :
      findLiterals (.csharp defaultMarker) .none .start "@\"a\"\"b\"".toList =
        .ok [⟨"@\"a\"\"b\"".toList, ['a', '"', 'b'], ⟨⟨1, 1, 0⟩, ⟨1, 8, 7⟩⟩, true, .none⟩] := by
    cbv
  have interpolated :
      findLiterals (.csharp defaultMarker) .none .start "$@\"a\"\"b\"".toList = .ok [] := by
    cbv
  have hole :
      findLiterals (.csharp defaultMarker) .none .start "$\"\x7b\x7b\"a\"\x7d\x7d\"".toList =
        .ok [⟨"\"\x7d\x7d\"".toList, ['\x7d', '\x7d'], ⟨⟨1, 7, 6⟩, ⟨1, 11, 10⟩⟩, false, .none⟩] := by
    cbv
  refine ⟨⟨by simp [TokenTree.WellFormed, BodyUnit.Fits], ?_⟩,
    ⟨by simp [TokenTree.WellFormed, StringParts.WellFormed, BodyUnit.Fits,
        BodyUnit.LeavesBraces, Interpolation.isVerbatim], ?_⟩,
    by simp [TokenTree.WellFormed, StringParts.WellFormed, BodyUnit.Fits, IsOrdinary,
        Place.after?], ?_⟩
  · rintro ⟨items, found, literals, -⟩
    cases verbatim.symm.trans found
    revert literals
    decide
  · rintro ⟨items, found, literals, -⟩
    cases interpolated.symm.trans found
    revert literals
    decide
  · rintro ⟨items, found, literals, -⟩
    cases hole.symm.trans found
    revert literals
    decide

end LocalizationScan.CSharp
