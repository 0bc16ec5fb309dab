import LocalizationScan.Proofs.CSharp.TokenTree

namespace LocalizationScan.CSharp

/-!
# Escapes as the decoder takes them

Decoding takes a text piece by piece: a plain character, or a backslash with the
letter and the digits of its escape.  Between the quotes of a string the pieces
are made of whole units, so the decoder reads every escape from the backslash
with which a unit begins.
-/

/-- The digits of an escape whose letter stands in front of a text. -/
def escapeDigits (letter : Char) (rest : Text) : Text :=
  match simpleEscape? letter, codePointEscape? letter with
  | none, some (_, most) => leadingHexDigits most rest
  | _, _ => []

/-- The pieces of a text that are decoded one after the other. -/
def escapePieces : Text → List Text
  | [] => []
  | ['\\'] => [['\\']]
  | '\\' :: letter :: rest =>
      ('\\' :: letter :: escapeDigits letter rest) ::
        escapePieces (rest.drop (escapeDigits letter rest).length)
  | char :: rest => [char] :: escapePieces rest
termination_by text => text.length
decreasing_by
  all_goals simp only [List.length_drop, List.length_cons]
  all_goals omega

section Decoding

variable {char letter : Char} {digits rest : Text} {most : Nat}

theorem unescape_nil : unescape [] = [] := by
  rw [unescape]

theorem unescape_plain
    (noBackslash : char ≠ '\\')
    (rest : Text) :
    unescape (char :: rest) = char :: unescape rest := by
  rw [unescape]
  · exact fun same _ => noBackslash same
  · exact fun _ _ same _ => noBackslash same

theorem escapePieces_plain
    (noBackslash : char ≠ '\\')
    (rest : Text) :
    escapePieces (char :: rest) = [char] :: escapePieces rest := by
  rw [escapePieces]
  · exact fun same _ => noBackslash same
  · exact fun _ _ same _ => noBackslash same

/-- The leading digits of a text are its first characters. -/
theorem leadingHexDigits_append_drop (most : Nat) (rest : Text) :
    leadingHexDigits most rest ++ rest.drop (leadingHexDigits most rest).length = rest := by
  have isPrefix : leadingHexDigits most rest <+: rest :=
    (List.takeWhile_prefix _).trans (List.take_prefix _ _)
  exact (List.prefix_iff_eq_append.mp isPrefix)

theorem escapeDigits_append_drop (letter : Char) (rest : Text) :
    escapeDigits letter rest ++ rest.drop (escapeDigits letter rest).length = rest := by
  unfold escapeDigits
  split
  · exact leadingHexDigits_append_drop _ rest
  · rfl

theorem isSome_digit?_of_mem_escapeDigits
    (member : char ∈ escapeDigits letter rest) :
    (Text.digit? 16 char).isSome = true := by
  unfold escapeDigits at member
  split at member
  · exact List.all_eq_true.mp List.all_takeWhile char member
  · cases member

/-- Digits that a limit allows lead the text in which nothing but them stands. -/
theorem leadingHexDigits_self (most : Nat) (rest : Text) :
    leadingHexDigits most (leadingHexDigits most rest) = leadingHexDigits most rest := by
  have short : (leadingHexDigits most rest).length ≤ most := by
    refine Nat.le_trans (List.takeWhile_prefix _).length_le ?_
    exact List.length_take_le _ _
  conv => lhs; rw [leadingHexDigits, List.take_of_length_le short]
  rw [leadingHexDigits, List.takeWhile_takeWhile]
  simp

/-- An escape is decoded without regard to what follows its digits. -/
theorem unescape_escape (letter : Char) (rest : Text) :
    unescape ('\\' :: letter :: rest) =
      unescape ('\\' :: letter :: escapeDigits letter rest) ++
        unescape (rest.drop (escapeDigits letter rest).length) := by
  rw [unescape, unescape]
  unfold escapeDigits
  cases simpleEscape? letter with
  | some decoded =>
      simp [unescape_nil]
  | none =>
      cases codePointEscape? letter with
      | none =>
          simp [unescape_nil]
      | some range =>
          simp only [leadingHexDigits_self, List.drop_length, unescape_nil]
          split <;> simp

end Decoding

/-- The pieces are decoded one after the other. -/
theorem flatMap_unescape_escapePieces (text : Text) :
    (escapePieces text).flatMap unescape = unescape text := by
  fun_induction escapePieces text with
  | case1 =>
      rw [unescape]
      rfl
  | case2 =>
      simp
  | case3 letter rest inductionHypothesis =>
      rw [List.flatMap_cons, inductionHypothesis, ← unescape_escape]
  | case4 char rest noEnd noEscape inductionHypothesis =>
      have noBackslash : char ≠ '\\' := by
        rintro rfl
        cases rest with
        | nil => exact noEnd rfl rfl
        | cons letter rest => exact noEscape letter rest rfl rfl
      rw [List.flatMap_cons, inductionHypothesis, unescape_plain noBackslash,
        unescape_plain noBackslash, unescape_nil]
      rfl

section Units

variable {units : List BodyUnit} {quote : Char}

/-- Characters at the start of a body that are no backslashes are units of their own. -/
theorem exists_eq_append_of_prefix
    {characters behind : Text}
    (shape : characters ++ behind = printBody units)
    (noBackslash : '\\' ∉ characters) :
    ∃ earlier later,
      units = earlier ++ later ∧ printBody earlier = characters ∧ printBody later = behind := by
  induction characters generalizing units with
  | nil =>
      exact ⟨[], units, rfl, rfl, shape.symm⟩
  | cons char characters inductionHypothesis =>
      rw [List.mem_cons, not_or] at noBackslash
      cases units with
      | nil =>
          cases shape
      | cons unit units =>
          cases unit with
          | plain other =>
              obtain ⟨rfl, others⟩ := List.cons.inj shape
              obtain ⟨earlier, later, rfl, same, sameBehind⟩ :=
                inductionHypothesis others noBackslash.2
              exact ⟨.plain char :: earlier, later, rfl, congrArg (char :: ·) same, sameBehind⟩
          | escaped other =>
              exact absurd (List.cons.inj shape).1.symm noBackslash.1

/-- The decoder takes the body of a string in pieces of whole units. -/
theorem exists_escapePieces_printBody
    {quote : Char}
    (units : List BodyUnit)
    (fits : ∀ unit ∈ units, unit.Fits quote) :
    ∃ groups : List (List BodyUnit),
      groups.flatten = units ∧ escapePieces (printBody units) = groups.map printBody := by
  cases units with
  | nil =>
      exact ⟨[], rfl, by simp [printBody, escapePieces]⟩
  | cons unit units =>
      obtain ⟨here, fitsBehind⟩ := List.forall_mem_cons.mp fits
      cases unit with
      | plain char =>
          obtain ⟨groups, rfl, pieces⟩ := exists_escapePieces_printBody units fitsBehind
          refine ⟨[.plain char] :: groups, rfl, ?_⟩
          rw [List.map_cons, ← pieces]
          exact escapePieces_plain here.2.1 _
      | escaped letter =>
          have noBackslash : '\\' ∉ escapeDigits letter (printBody units) := fun member =>
            absurd (isSome_digit?_of_mem_escapeDigits member) (by decide)
          obtain ⟨digits, later, rfl, printed, behind⟩ :=
            exists_eq_append_of_prefix (escapeDigits_append_drop letter (printBody units))
              noBackslash
          have fitsLater : ∀ unit ∈ later, unit.Fits quote := fun unit member =>
            fitsBehind unit (List.mem_append_right digits member)
          obtain ⟨groups, rfl, pieces⟩ := exists_escapePieces_printBody later fitsLater
          refine ⟨(.escaped letter :: digits) :: groups, rfl, ?_⟩
          have taken :
              escapePieces ('\\' :: letter :: printBody (digits ++ groups.flatten)) =
                ('\\' :: letter :: printBody digits) :: groups.map printBody := by
            rw [escapePieces, ← behind, pieces, ← printed]
          exact taken
termination_by units.length

/-- A backslash that the decoder takes as the start of an escape is the first character of a
unit, so a character to escape stands behind it. -/
theorem exists_escaped_of_escapePieces
    {front behind : List Text}
    {piece : Text}
    (fits : ∀ unit ∈ units, unit.Fits quote)
    (pieces : escapePieces (printBody units) = front ++ ('\\' :: piece) :: behind) :
    ∃ earlier char later,
      units = earlier ++ .escaped char :: later ∧ printBody earlier = front.flatten ∧
        piece.head? = some char := by
  obtain ⟨groups, rfl, grouped⟩ := exists_escapePieces_printBody units fits
  rw [grouped] at pieces
  obtain ⟨groupsFront, groupsBehind, rfl, rfl, sameBehind⟩ := List.map_eq_append_iff.mp pieces
  obtain ⟨group, groupsLater, rfl, sameGroup, rfl⟩ := List.map_eq_cons_iff.mp sameBehind
  have flattened :
      ∀ groups : List (List BodyUnit),
        printBody groups.flatten = (groups.map printBody).flatten := by
    intro groups
    induction groups with
    | nil => rfl
    | cons group groups inductionHypothesis => simp_all [printBody]
  cases group with
  | nil =>
      cases sameGroup
  | cons unit group =>
      cases unit with
      | plain char =>
          -- A plain character of a body is no backslash.
          have fitsHere := fits (.plain char) (by simp)
          exact absurd (List.cons.inj sameGroup).1 fitsHere.2.1
      | escaped char =>
          refine ⟨groupsFront.flatten, char, group ++ groupsLater.flatten, by simp,
            flattened groupsFront, ?_⟩
          rw [← (List.cons.inj sameGroup).2]
          rfl

end Units

end LocalizationScan.CSharp
