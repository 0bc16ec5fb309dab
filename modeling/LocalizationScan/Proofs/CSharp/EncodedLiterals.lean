import Mathlib
import LocalizationScan.Literal
import LocalizationScan.Proofs.CSharp.Escapes
import LocalizationScan.Proofs.Scan.QuotedStrings

namespace LocalizationScan.CSharp

/-!
# Encodings of a text

Between the quotes of a regular string a character can be written in several
ways: as itself, with the letter of its escape, or with the digits of its code
point.  Whatever way is chosen for each character of a text, the encoding is one
literal, and its value is the text.
-/

/-- A hexadecimal digit, which is written in either case when it is a letter. -/
structure HexDigit where
  value : Fin 16
  isUpper : Bool
  deriving Repr, DecidableEq, Fintype

def HexDigit.char (digit : HexDigit) : Char :=
  let lower := Nat.digitChar digit.value
  if digit.isUpper then lower.toUpper else lower

/-- The number that digits write, the most significant one first. -/
def hexNumber (digits : List HexDigit) : Nat :=
  Nat.ofDigits 16 (digits.reverse.map fun digit => digit.value.val)

/-- The letters that stand for one character behind a backslash. -/
def simpleEscapes : List (Char × Char) :=
  [('n', '\n'), ('t', '\t'), ('r', '\r'), ('0', '\x00'), ('a', '\x07'), ('b', '\x08'),
    ('f', '\x0c'), ('v', '\x0b'), ('\\', '\\'), ('"', '"'), ('\'', '\'')]

/-- A way to write one character between the quotes of a regular string. -/
inductive Spelling where
  | itself (char : Char)
  | simple (letter : Char)
  /-- The code point with four digits behind a `u`. -/
  | fourDigits (digits : List HexDigit)
  /-- The code point with eight digits behind a `U`. -/
  | eightDigits (digits : List HexDigit)
  /-- The code point with one to four digits behind an `x`, as many as stand there. -/
  | fewDigits (digits : List HexDigit)
  deriving Repr, DecidableEq

namespace Spelling

def print : Spelling → Text
  | .itself char => [char]
  | .simple letter => ['\\', letter]
  | .fourDigits digits => '\\' :: 'u' :: digits.map HexDigit.char
  | .eightDigits digits => '\\' :: 'U' :: digits.map HexDigit.char
  | .fewDigits digits => '\\' :: 'x' :: digits.map HexDigit.char

/-- Whether a character can be written this way. -/
def IsOf (char : Char) : Spelling → Prop
  | .itself other => other = char ∧ char ≠ '"' ∧ char ≠ '\\' ∧ char ≠ '\r' ∧ char ≠ '\n'
  | .simple letter => (letter, char) ∈ simpleEscapes
  | .fourDigits digits => digits.length = 4 ∧ hexNumber digits = char.toNat
  | .eightDigits digits => digits.length = 8 ∧ hexNumber digits = char.toNat
  | .fewDigits digits =>
      1 ≤ digits.length ∧ digits.length ≤ 4 ∧ hexNumber digits = char.toNat

/-- Whether a text goes on with no digit that the escape in front of it would take. -/
def EndsBefore (later : Text) : Spelling → Prop
  | .fewDigits digits =>
      digits.length < 4 → ∀ digit : HexDigit, later.head? ≠ some digit.char
  | .itself _ | .simple _ | .fourDigits _ | .eightDigits _ => True

/-- Whether a way to write a character can stand in front of another. -/
def CanPrecede (spelling next : Spelling) : Prop :=
  spelling.EndsBefore next.print

end Spelling

section Digits

theorem digit?_hexDigit (digit : HexDigit) :
    Text.digit? 16 digit.char = some digit.value.val := by
  revert digit
  decide

/-- A character that is read as a hexadecimal digit is one. -/
theorem exists_hexDigit_of_isSome
    {char : Char}
    (isDigit : (Text.digit? 16 char).isSome = true) :
    ∃ digit : HexDigit, digit.char = char := by
  have inRange :
      0x30 ≤ char.toNat ∧ char.toNat ≤ 0x39 ∨ 0x41 ≤ char.toNat ∧ char.toNat ≤ 0x46 ∨
        0x61 ≤ char.toNat ∧ char.toNat ≤ 0x66 := by
    unfold Text.digit? at isDigit
    grind
  rw [← Char.ofNat_toNat char]
  generalize char.toNat = code at inRange
  rcases inRange with range | range | range
  all_goals
    obtain ⟨least, greatest⟩ := range
    interval_cases code <;> decide

theorem toNat?_hexDigits (digits : List HexDigit) :
    Text.toNat? 16 (digits.map HexDigit.char) = some (hexNumber digits) := by
  induction digits using List.reverseRecOn with
  | nil =>
      rfl
  | append_singleton digits digit inductionHypothesis =>
      have earlier := inductionHypothesis
      unfold Text.toNat? at earlier ⊢
      rw [List.map_append, List.foldl_append, earlier]
      simp [digit?_hexDigit, hexNumber, Nat.ofDigits_cons, Nat.add_comm]

/-- The digits of an escape lead what stands behind its letter, unless more digits follow. -/
theorem leadingHexDigits_hexDigits
    {most : Nat}
    {digits : List HexDigit}
    {later : Text}
    (allowed : digits.length ≤ most)
    (ends : digits.length < most → ∀ digit : HexDigit, later.head? ≠ some digit.char) :
    leadingHexDigits most (digits.map HexDigit.char ++ later) =
      digits.map HexDigit.char := by
  have areDigits :
      ∀ char ∈ digits.map HexDigit.char, (Text.digit? 16 char).isSome = true := by
    intro char member
    obtain ⟨digit, -, rfl⟩ := List.mem_map.mp member
    rw [digit?_hexDigit]
    rfl
  have stops :
      (later.take (most - digits.length)).takeWhile
          (fun char => (Text.digit? 16 char).isSome) =
        [] := by
    cases left : most - digits.length with
    | zero =>
        rfl
    | succ count =>
        have fewer : digits.length < most := by omega
        cases later with
        | nil =>
            rfl
        | cons char rest =>
            have noDigit : (Text.digit? 16 char).isSome = false := by
              rw [← Bool.not_eq_true]
              intro isDigit
              obtain ⟨digit, rfl⟩ := exists_hexDigit_of_isSome isDigit
              exact ends fewer digit rfl
            simp [noDigit]
  rw [leadingHexDigits, List.take_append, List.length_map,
    List.take_of_length_le (by simpa using allowed),
    List.takeWhile_append_of_pos areDigits, stops, List.append_nil]

theorem charOfCodePoint?_toNat (char : Char) :
    charOfCodePoint? char.toNat = some char := by
  have valid : char.toNat.isValidChar := char.valid
  have same := Char.ofNat_toNat char
  rw [Char.ofNat, dif_pos valid] at same
  rw [charOfCodePoint?, dif_pos valid, same]

/-- An escape with enough digits is the character whose code point they write. -/
theorem unescape_codePoint
    {letter char : Char}
    {least most : Nat}
    {digits : List HexDigit}
    {later : Text}
    (noSimple : simpleEscape? letter = none)
    (range : codePointEscape? letter = some (least, most))
    (enough : least ≤ digits.length)
    (allowed : digits.length ≤ most)
    (ends : digits.length < most → ∀ digit : HexDigit, later.head? ≠ some digit.char)
    (number : hexNumber digits = char.toNat) :
    unescape ('\\' :: letter :: (digits.map HexDigit.char ++ later)) =
      char :: unescape later := by
  have decoded : charOfDigits? least (digits.map HexDigit.char) = some char := by
    simp [charOfDigits?, enough, hexValue, toNat?_hexDigits, number, charOfCodePoint?_toNat]
  rw [unescape]
  simp only [noSimple, range, leadingHexDigits_hexDigits allowed ends, decoded, List.drop_left]

end Digits

section Spellings

variable {char : Char} {spelling : Spelling}

theorem simpleEscape?_of_mem
    {letter : Char}
    (member : (letter, char) ∈ simpleEscapes) :
    simpleEscape? letter = some char := by
  simp only [simpleEscapes, List.mem_cons, List.not_mem_nil, or_false, Prod.mk.injEq] at member
  rcases member with ⟨rfl, rfl⟩ | ⟨rfl, rfl⟩ | ⟨rfl, rfl⟩ | ⟨rfl, rfl⟩ | ⟨rfl, rfl⟩ |
    ⟨rfl, rfl⟩ | ⟨rfl, rfl⟩ | ⟨rfl, rfl⟩ | ⟨rfl, rfl⟩ | ⟨rfl, rfl⟩ | ⟨rfl, rfl⟩
  all_goals rfl

/-- Whatever way a character is written, it is decoded and what follows it is left. -/
theorem unescape_print
    {later : Text}
    (isOf : spelling.IsOf char)
    (ends : spelling.EndsBefore later) :
    unescape (spelling.print ++ later) = char :: unescape later := by
  cases spelling with
  | itself other =>
      obtain ⟨rfl, -, noBackslash, -⟩ := isOf
      exact unescape_plain noBackslash later
  | simple letter =>
      rw [Spelling.print, List.cons_append, List.singleton_append, unescape]
      simp only [simpleEscape?_of_mem isOf]
  | fourDigits digits =>
      obtain ⟨length, number⟩ := isOf
      exact unescape_codePoint rfl rfl (Nat.le_of_eq length.symm) (Nat.le_of_eq length)
        (fun fewer => absurd fewer (by omega)) number
  | eightDigits digits =>
      obtain ⟨length, number⟩ := isOf
      exact unescape_codePoint rfl rfl (Nat.le_of_eq length.symm) (Nat.le_of_eq length)
        (fun fewer => absurd fewer (by omega)) number
  | fewDigits digits =>
      obtain ⟨enough, allowed, number⟩ := isOf
      exact unescape_codePoint rfl rfl enough allowed ends number

/-- An escape with digits is a backslash with its letter, and its digits are plain. -/
theorem exists_printBody_eq_digits
    {letter : Char}
    (noReturn : letter ≠ '\r')
    (noFeed : letter ≠ '\n')
    (digits : List HexDigit) :
    ∃ units : List BodyUnit,
      (∀ unit ∈ units, unit.Fits '"') ∧
        printBody units = '\\' :: letter :: digits.map HexDigit.char := by
  have plainDigit : ∀ digit : HexDigit, (BodyUnit.plain digit.char).Fits '"' := by
    unfold BodyUnit.Fits
    decide
  refine ⟨.escaped letter :: digits.map fun digit => .plain digit.char, ?_, ?_⟩
  · refine List.forall_mem_cons.mpr ⟨⟨noReturn, noFeed⟩, fun unit member => ?_⟩
    obtain ⟨digit, -, rfl⟩ := List.mem_map.mp member
    exact plainDigit digit
  · rw [printBody, List.flatMap_cons, List.flatMap_map]
    simp only [BodyUnit.print, ← List.map_eq_flatMap]
    rfl

/-- What a character is written as is a sequence of units of the body of a string. -/
theorem exists_printBody_eq_print
    (isOf : spelling.IsOf char) :
    ∃ units, (∀ unit ∈ units, unit.Fits '"') ∧ printBody units = spelling.print := by
  cases spelling with
  | itself other =>
      obtain ⟨rfl, fits⟩ := isOf
      exact ⟨[.plain other], List.forall_mem_singleton.mpr fits, rfl⟩
  | simple letter =>
      refine ⟨[.escaped letter], List.forall_mem_singleton.mpr ?_, rfl⟩
      have escapes := simpleEscape?_of_mem isOf
      constructor
      all_goals
        rintro rfl
        cases escapes
  | fourDigits digits | eightDigits digits | fewDigits digits =>
      exact exists_printBody_eq_digits (by decide) (by decide) digits

end Spellings

section Encodings

variable {value : Text} {spellings : List Spelling}

/-- Decoding inverts every encoding of a text. -/
theorem unescape_flatMap_print
    (encodes : List.Forall₂ Spelling.IsOf value spellings)
    (apart : spellings.IsChain Spelling.CanPrecede) :
    unescape (spellings.flatMap Spelling.print) = value := by
  induction encodes with
  | nil =>
      exact unescape_nil
  | @cons char spelling value spellings isOf encodes inductionHypothesis =>
      have ends : spelling.EndsBefore (spellings.flatMap Spelling.print) := by
        cases spellings with
        | nil =>
            cases spelling <;> simp [Spelling.EndsBefore]
        | cons next others =>
            have endsBefore := (List.isChain_cons_cons.mp apart).1
            cases spelling <;> cases next <;>
              simp_all [Spelling.CanPrecede, Spelling.EndsBefore, Spelling.print]
      rw [List.flatMap_cons, unescape_print isOf ends, inductionHypothesis apart.tail]

/-- An encoding is a sequence of units of the body of a string. -/
theorem exists_printBody_eq_flatMap_print
    (encodes : List.Forall₂ Spelling.IsOf value spellings) :
    ∃ units,
      (∀ unit ∈ units, unit.Fits '"') ∧
        printBody units = spellings.flatMap Spelling.print := by
  induction encodes with
  | nil =>
      exact ⟨[], List.forall_mem_nil _, rfl⟩
  | cons isOf _ inductionHypothesis =>
      obtain ⟨units, fits, printed⟩ := exists_printBody_eq_print isOf
      obtain ⟨unitsBehind, fitsBehind, printedBehind⟩ := inductionHypothesis
      refine ⟨units ++ unitsBehind, List.forall_mem_append.mpr ⟨fits, fitsBehind⟩, ?_⟩
      rw [List.flatMap_cons, ← printed, ← printedBehind, printBody, List.flatMap_append]
      rfl

end Encodings

/-- A regular string and nothing else is one literal without a mark. -/
theorem literals_regular
    {units : List BodyUnit}
    (marker : Text)
    (flags : ItemFlags)
    (anchor : Position)
    (fits : ∀ unit ∈ units, unit.Fits '"') :
    (Dialect.csharp marker).literals flags anchor ('"' :: printBody units ++ ['"']) =
      [printedLiteral { flags with markedUnlocalizable := false } .regular ['"']
        (printBody units) '"' anchor] := by
  have scanned :=
    @Scan.events_string (.csharp marker) anchor [] .regular [] [] '"' true '"' [] (printBody units)
      rfl (fun token => Scan.events_body fits fun _ => rfl) (fun _ => rfl)
  rw [List.append_nil, Scan.events_between_nil] at scanned
  rw [Dialect.literals, Dialect.events]
  exact congrArg (literalsOfEvents _ flags .initial) scanned

/-- Whatever way each character of a text is written between quotes, one literal is found,
which spans the whole string and has the text as its value. -/
theorem findLiterals_encoded
    (marker : Text)
    (flags : ItemFlags)
    (anchor : Position)
    (value : Text)
    (spellings : List Spelling)
    (encodes : List.Forall₂ Spelling.IsOf value spellings)
    (apart : spellings.IsChain Spelling.CanPrecede)
    (validLine : 1 ≤ anchor.line)
    (validColumn : 1 ≤ anchor.column) :
    let text := '"' :: spellings.flatMap Spelling.print ++ ['"']
    findLiterals (.csharp marker) flags anchor text =
      .ok
        [⟨text, value, ⟨anchor, anchor.advanceOver text⟩, false,
          { flags with markedUnlocalizable := false }⟩] := by
  intro text
  obtain ⟨units, fits, printed⟩ := exists_printBody_eq_flatMap_print encodes
  have decoded : decode .regular (printBody units) = value := by
    rw [printed]
    exact unescape_flatMap_print encodes apart
  have found := literals_regular marker flags anchor fits
  rw [printedLiteral, decoded] at found
  rw [findLiterals, Position.asAnchor_of_one_le validLine validColumn, Except.map]
  simp only [text, ← printed]
  exact congrArg Except.ok found

/-- A short escape in front of a letter that is no digit, a quote with its escape, a pair of
digits that the escape before them does not take, and a character beyond the first plane. -/
theorem findLiterals_encoded_mixed :
    findLiterals (.csharp defaultMarker) .none .start
        "\"\\x9g\\\"\\x00412\\U0001f600\\u000A\"".toList =
      .ok
        [⟨"\"\\x9g\\\"\\x00412\\U0001f600\\u000A\"".toList,
          ['\t', 'g', '"', 'A', '2', '😀', '\n'],
          ⟨⟨1, 1, 0⟩, ⟨1, 32, 31⟩⟩, false, .none⟩] := by
  exact
    findLiterals_encoded defaultMarker .none .start
      ['\t', 'g', '"', 'A', '2', '😀', '\n']
      [.fewDigits [⟨9, false⟩], .itself 'g', .simple '"',
        .fewDigits [⟨0, false⟩, ⟨0, false⟩, ⟨4, false⟩, ⟨1, false⟩], .itself '2',
        .eightDigits
          [⟨0, false⟩, ⟨0, false⟩, ⟨0, false⟩, ⟨1, false⟩, ⟨15, false⟩, ⟨6, false⟩,
            ⟨0, false⟩, ⟨0, false⟩],
        .fourDigits [⟨0, false⟩, ⟨0, false⟩, ⟨0, false⟩, ⟨10, true⟩]]
      (by simp [Spelling.IsOf, simpleEscapes, hexNumber, Nat.ofDigits])
      (by
        simp only [List.isChain_cons_cons, List.isChain_singleton, Spelling.CanPrecede,
          Spelling.EndsBefore, Spelling.print]
        decide)
      (by decide) (by decide)

end LocalizationScan.CSharp
