namespace LocalizationScan

/-!
# Text

Text is a list of characters (Unicode scalar values), which is the unit of
every count, offset and column in this library.  This module holds the ways of
cutting, joining, comparing and searching text that the other modules share.
-/

/-- A text, character by character. -/
abbrev Text := List Char

namespace Text

/-- Lexicographic order by code point; a proper start of a text comes first. -/
def compare : Text → Text → Ordering
  | [], [] => .eq
  | [], _ :: _ => .lt
  | _ :: _, [] => .gt
  | first :: rest, other :: others =>
      if first.toNat < other.toNat then .lt
      else if other.toNat < first.toNat then .gt
      else compare rest others

/-- Put a text into an ascending list, unless it is there. -/
def insertOrdered (text : Text) : List Text → List Text
  | [] => [text]
  | first :: rest =>
      match compare text first with
      | .lt => text :: first :: rest
      | .eq => first :: rest
      | .gt => first :: insertOrdered text rest

/-- The members of a list in ascending order, each of them once. -/
def sortDistinct (texts : List Text) : List Text :=
  texts.foldr insertOrdered []

/-- Cut a text at every occurrence of a character; there is always at least one piece. -/
def splitOn (separator : Char) : Text → List Text
  | [] => [[]]
  | char :: rest =>
      if char = separator then
        [] :: splitOn separator rest
      else
        match splitOn separator rest with
        | [] => [[char]]
        | piece :: pieces => (char :: piece) :: pieces

/-- Put pieces together with a text between each two of them. -/
def joinWith (separator : Text) : List Text → Text
  | [] => []
  | [piece] => piece
  | piece :: next :: pieces =>
      piece ++ separator ++ joinWith separator (next :: pieces)

/-- The parts before and after the last occurrence of a character. -/
def splitLast? (separator : Char) : Text → Option (Text × Text)
  | [] => none
  | char :: rest =>
      match splitLast? separator rest with
      | some (before, after) => some (char :: before, after)
      | none => if char = separator then some ([], rest) else none

/-- The parts before and after the first occurrence of a character. -/
def splitFirst? (separator : Char) : Text → Option (Text × Text)
  | [] => none
  | char :: rest =>
      if char = separator then
        some ([], rest)
      else
        (splitFirst? separator rest).map fun (before, after) => (char :: before, after)

/-- What follows an opening text, when the text starts with it. -/
def after? : Text → Text → Option Text
  | [], text => some text
  | _ :: _, [] => none
  | char :: opening, other :: text =>
      if char = other then after? opening text else none

/-- Whether two characters are equal when the case of ASCII letters is ignored. -/
def sameIgnoringCase (first second : Char) : Bool :=
  first.toLower == second.toLower

/-- Whether a text starts with an opening, ignoring the case of ASCII letters. -/
def startsIgnoringCase : Text → Text → Bool
  | [], _ => true
  | _ :: _, [] => false
  | char :: opening, other :: text =>
      sameIgnoringCase char other && startsIgnoringCase opening text

/-- Whether two texts are equal when the case of ASCII letters is ignored. -/
def equalIgnoringCase (first second : Text) : Bool :=
  first.map Char.toLower == second.map Char.toLower

/-- The text before the first place that satisfies a test, and the text from there on. -/
def splitWhere? (test : Text → Bool) : Text → Option (Text × Text)
  | [] => if test [] then some ([], []) else none
  | char :: rest =>
      if test (char :: rest) then
        some ([], char :: rest)
      else
        (splitWhere? test rest).map fun (before, found) => (char :: before, found)

/-- The text before the first occurrence of a pattern, and the text from there on. -/
def splitBefore? (pattern : Text) (text : Text) : Option (Text × Text) :=
  splitWhere? (fun rest => (after? pattern rest).isSome) text

/-- A text without the given ending, when it ends with it. -/
def withoutEnding? (ending text : Text) : Option Text :=
  (after? ending.reverse text.reverse).map List.reverse

/-- The text itself, and what follows each of its characters. -/
def suffixes : Text → List Text
  | [] => [[]]
  | char :: rest => (char :: rest) :: suffixes rest

/-- Replace every two neighbouring quotes by one, from the left. -/
def halveQuotes : Text → Text
  | '"' :: '"' :: rest => '"' :: halveQuotes rest
  | char :: rest => char :: halveQuotes rest
  | [] => []

/-- Decimal digits of a number. -/
def ofNat (number : Nat) : Text :=
  Nat.toDigits 10 number

/-- The value of a digit in a radix of at most sixteen. -/
def digit? (radix : Nat) (char : Char) : Option Nat :=
  let code := char.toNat
  let value? :=
    if 0x30 ≤ code ∧ code ≤ 0x39 then some (code - 0x30)
    else if 0x41 ≤ code ∧ code ≤ 0x46 then some (code - 0x37)
    else if 0x61 ≤ code ∧ code ≤ 0x66 then some (code - 0x57)
    else none
  value?.filter (· < radix)

/-- The number that digits write in a radix of at most sixteen. -/
def toNat? (radix : Nat) (digits : Text) : Option Nat :=
  digits.foldl
    (fun value? char => value?.bind fun value => (digit? radix char).map (radix * value + ·))
    (some 0)

/-- Number of bytes of a text in UTF-8. -/
def byteLength (text : Text) : Nat :=
  text.foldr (fun char total => char.utf8Size + total) 0

/-- Spaces on the left up to a width in characters. -/
def padLeft (width : Nat) (text : Text) : Text :=
  List.replicate (width - text.length) ' ' ++ text

/-- The lines of a text, cut at line feeds; one carriage return before a line feed belongs to it. -/
def lines (text : Text) : List Text :=
  let pieces := splitOn '\n' text
  let ended := pieces.dropLast.map fun line => (withoutEnding? ['\r'] line).getD line
  match pieces.getLast? with
  | some (first :: rest) => ended ++ [first :: rest]
  | _ => ended

/-- A text without the separator is one piece. -/
theorem splitOn_of_not_mem
    {separator : Char}
    {text : Text}
    (absent : separator ∉ text) :
    splitOn separator text = [text] := by
  induction text with
  | nil => rfl
  | cons char rest inductionHypothesis =>
      simp only [List.mem_cons, not_or] at absent
      simp [splitOn, inductionHypothesis absent.2, Ne.symm absent.1]

/-- Cutting never yields an empty list of pieces. -/
theorem splitOn_ne_nil (separator : Char) (text : Text) :
    splitOn separator text ≠ [] := by
  induction text with
  | nil => simp [splitOn]
  | cons char rest inductionHypothesis =>
      unfold splitOn
      split
      · simp
      · split <;> simp

/-- Putting the pieces of a text together again gives the text. -/
theorem joinWith_splitOn (separator : Char) (text : Text) :
    joinWith [separator] (splitOn separator text) = text := by
  induction text with
  | nil => rfl
  | cons char rest inductionHypothesis =>
      unfold splitOn
      cases cut : splitOn separator rest with
      | nil => exact absurd cut (splitOn_ne_nil separator rest)
      | cons piece pieces =>
          rw [cut] at inductionHypothesis
          split
          · rename_i same
            simp [joinWith, inductionHypothesis, same]
          · cases pieces <;> simp_all [joinWith]

/-- Joining two lists of pieces puts the separator between them. -/
theorem joinWith_append
    (separator : Text)
    {first second : List Text}
    (first_ne_nil : first ≠ [])
    (second_ne_nil : second ≠ []) :
    joinWith separator (first ++ second) =
      joinWith separator first ++ separator ++ joinWith separator second := by
  induction first with
  | nil => exact absurd rfl first_ne_nil
  | cons piece pieces inductionHypothesis =>
      cases pieces with
      | nil =>
          cases second with
          | nil => exact absurd rfl second_ne_nil
          | cons next others => simp [joinWith]
      | cons next others =>
          have := inductionHypothesis (by simp)
          simp only [List.cons_append] at this
          simp [joinWith, this]

/-- A text is the two parts around the last separator, with the separator between. -/
theorem eq_append_of_splitLast?
    {separator : Char}
    {text before after : Text}
    (split : splitLast? separator text = some (before, after)) :
    text = before ++ separator :: after := by
  induction text generalizing before with
  | nil => simp [splitLast?] at split
  | cons char rest inductionHypothesis =>
      unfold splitLast? at split
      split at split
      · rename_i earlier later restSplit
        simp only [Option.some.injEq, Prod.mk.injEq] at split
        obtain ⟨rfl, rfl⟩ := split
        simp [inductionHypothesis restSplit]
      · split at split
        · simp_all
        · simp at split

/-- A text is the two parts around the first separator, with the separator between. -/
theorem eq_append_of_splitFirst?
    {separator : Char}
    {text before after : Text}
    (split : splitFirst? separator text = some (before, after)) :
    text = before ++ separator :: after := by
  induction text generalizing before with
  | nil => simp [splitFirst?] at split
  | cons char rest inductionHypothesis =>
      unfold splitFirst? at split
      split at split
      · simp_all
      · simp only [Option.map_eq_some_iff, Prod.mk.injEq, Prod.exists] at split
        obtain ⟨earlier, later, restSplit, rfl, rfl⟩ := split
        simp [inductionHypothesis restSplit]

/-- The part before the last separator is shorter than the text. -/
theorem length_splitLast?_lt
    {separator : Char}
    {text before after : Text}
    (split : splitLast? separator text = some (before, after)) :
    before.length < text.length := by
  rw [eq_append_of_splitLast? split]
  simp

/-- A text starts with the opening that was taken off it. -/
theorem eq_append_of_after?
    {opening text rest : Text}
    (found : after? opening text = some rest) :
    text = opening ++ rest := by
  induction opening generalizing text with
  | nil => simpa [after?] using found
  | cons char opening inductionHypothesis =>
      cases text with
      | nil => simp [after?] at found
      | cons other text =>
          by_cases same : char = other
          · simp only [after?, same, ↓reduceIte] at found
            simp [same, inductionHypothesis found]
          · simp [after?, same] at found

/-- The two parts of a search make up the searched text. -/
theorem append_of_splitWhere?
    {test : Text → Bool}
    {text before found : Text}
    (split : splitWhere? test text = some (before, found)) :
    text = before ++ found := by
  induction text generalizing before with
  | nil =>
      unfold splitWhere? at split
      split at split <;> simp_all
  | cons char rest inductionHypothesis =>
      unfold splitWhere? at split
      split at split
      · simp_all
      · simp only [Option.map_eq_some_iff, Prod.mk.injEq, Prod.exists] at split
        obtain ⟨earlier, later, later_split, rfl, rfl⟩ := split
        simp [inductionHypothesis later_split]

/-- More text takes no opening away. -/
theorem startsIgnoringCase_append
    {opening text : Text}
    (later : Text)
    (starts : startsIgnoringCase opening text = true) :
    startsIgnoringCase opening (text ++ later) = true := by
  induction opening generalizing text with
  | nil =>
      cases text <;> rfl
  | cons letter opening inductionHypothesis =>
      cases text with
      | nil =>
          cases starts
      | cons char text =>
          simp only [startsIgnoringCase, List.cons_append, Bool.and_eq_true] at starts ⊢
          exact starts.imp_right inductionHypothesis

end Text

end LocalizationScan
