import LocalizationScan.Text.Basic

namespace LocalizationScan.Glob

/-!
# Glob patterns

A pattern is a text with wildcards.  `?` stands for one character, `*` for any
text, a class in brackets for one of its characters, and `**`, which has to be
a whole path component, for any run of directories.  A pattern matches a path
when it matches the whole of it; the separator is a character like any other.
-/

/-- Whether a text holds a wildcard; one without is the path of a file or directory. -/
def isWildcard (text : Text) : Bool :=
  text.contains '*' || text.contains '?'

/-- The characters from one to another; none if they stand in the wrong order. -/
structure CharRange where
  first : Char
  last : Char
  deriving Repr, DecidableEq

/-- Whether a character lies in a range. -/
def CharRange.includes (range : CharRange) (char : Char) : Bool :=
  range.first ≤ char && char ≤ range.last

/-- A piece of a pattern. -/
inductive Part where
  | char (char : Char)
  /-- One character, whichever. -/
  | anyChar
  /-- Any text, also an empty one. -/
  | anyText
  /-- Any run of directories: nothing, a text that ends in a separator, or all that is left. -/
  | anyDirectories
  | oneOf (ranges : List CharRange)
  | noneOf (ranges : List CharRange)
  deriving Repr, DecidableEq

/-- What is wrong with a pattern. -/
inductive PatternFault where
  /-- Three or more stars in a row. -/
  | tooManyStars
  /-- Two stars beside other characters. -/
  | partialComponent
  /-- A class that does not end. -/
  | openClass
  deriving Repr, DecidableEq

/-- The wording of a fault. -/
def PatternFault.message : PatternFault → Text
  | .tooManyStars => "wildcards are either regular `*` or recursive `**`".toList
  | .partialComponent => "recursive wildcards must form a single path component".toList
  | .openClass => "invalid range pattern".toList

/-- A fault and the character at which it shows, counted from zero. -/
structure PatternError where
  position : Nat
  fault : PatternFault
  deriving Repr, DecidableEq

/-- The wording of an error. -/
def PatternError.message (error : PatternError) : Text :=
  "Pattern syntax error near position ".toList ++ Text.ofNat error.position ++
    ": ".toList ++ error.fault.message

/-- A pattern, piece by piece. -/
abbrev Pattern := List Part

/-- The ranges that the text of a class lists; a `-` between two characters spans them. -/
def rangesOfText : Text → List CharRange
  | first :: '-' :: last :: rest => ⟨first, last⟩ :: rangesOfText rest
  | char :: rest => ⟨char, char⟩ :: rangesOfText rest
  | [] => []

/-- The text of a class behind its opening bracket, and what follows the closing one.  The
first character of a class never closes it. -/
def splitClass? : Text → Option (Text × Text)
  | [] => none
  | first :: rest =>
      (Text.splitFirst? ']' rest).map fun (inside, after) => (first :: inside, after)

/-- The class behind an opening bracket, and what follows the closing one. -/
def readClass? : Text → Option (Part × Text)
  | '!' :: rest =>
      (splitClass? rest).map fun (inside, after) => (.noneOf (rangesOfText inside), after)
  | rest =>
      (splitClass? rest).map fun (inside, after) => (.oneOf (rangesOfText inside), after)

theorem length_splitClass?_lt
    {text inside after : Text}
    (split : splitClass? text = some (inside, after)) :
    after.length < text.length := by
  cases text with
  | nil => simp [splitClass?] at split
  | cons first rest =>
      simp only [splitClass?, Option.map_eq_some_iff, Prod.exists, Prod.mk.injEq] at split
      obtain ⟨earlier, later, found, -, rfl⟩ := split
      rw [Text.eq_append_of_splitFirst? found]
      simp only [List.length_cons, List.length_append]
      omega

theorem length_readClass?_lt
    {text after : Text}
    {part : Part}
    (read : readClass? text = some (part, after)) :
    after.length < text.length := by
  unfold readClass? at read
  split at read
  all_goals
    simp only [Option.map_eq_some_iff, Prod.exists, Prod.mk.injEq] at read
    obtain ⟨inside, later, split, -, rfl⟩ := read
    have := length_splitClass?_lt split
    grind

/-- What can be left of a text behind a run of directories: the text itself, what follows
one of its separators, or nothing. -/
def afterDirectories (text : Text) : List Text :=
  text :: afterSeparators text
where
  /-- What follows the separators, and the empty end. -/
  afterSeparators : Text → List Text
    | [] => [[]]
    | char :: rest =>
        if char = '/' then rest :: afterSeparators rest else afterSeparators rest

namespace Pattern

/-- Read the rest of a pattern, which starts at a position; `fresh` says that a path
component starts there. -/
def ofTextFrom (position : Nat) (fresh : Bool) : Text → Except PatternError Pattern
  | [] => .ok []
  | '*' :: '*' :: '*' :: _ => .error ⟨position + 2, .tooManyStars⟩
  | ['*', '*'] => if fresh then .ok [.anyDirectories] else .error ⟨position - 1, .partialComponent⟩
  | '*' :: '*' :: char :: rest =>
      if !fresh then .error ⟨position - 1, .partialComponent⟩
      else if char = '/' then (ofTextFrom (position + 3) true rest).map (.anyDirectories :: ·)
      else .error ⟨position + 2, .partialComponent⟩
  | '*' :: rest => (ofTextFrom (position + 1) false rest).map (.anyText :: ·)
  | '?' :: rest => (ofTextFrom (position + 1) false rest).map (.anyChar :: ·)
  | '[' :: rest =>
      match _ : readClass? rest with
      | some (part, after) =>
          (ofTextFrom (position + 1 + (rest.length - after.length)) false after).map (part :: ·)
      | none => .error ⟨position, .openClass⟩
  | char :: rest => (ofTextFrom (position + 1) (char == '/') rest).map (.char char :: ·)
termination_by text => text.length
decreasing_by
  all_goals simp only [List.length_cons]
  all_goals try omega
  have := length_readClass?_lt ‹_›
  omega

/-- The pattern that a text writes. -/
def ofText (text : Text) : Except PatternError Pattern :=
  ofTextFrom 0 true text

/-- Whether a pattern matches the whole of a text. -/
def isMatch : Pattern → Text → Bool
  | [], text => text.isEmpty
  | .char expected :: parts, char :: rest => expected == char && isMatch parts rest
  | .anyChar :: parts, _ :: rest => isMatch parts rest
  | .oneOf ranges :: parts, char :: rest =>
      ranges.any (·.includes char) && isMatch parts rest
  | .noneOf ranges :: parts, char :: rest =>
      !ranges.any (·.includes char) && isMatch parts rest
  | .anyText :: parts, text => (Text.suffixes text).any (isMatch parts)
  | .anyDirectories :: parts, text => (afterDirectories text).any (isMatch parts)
  | _ :: _, [] => false

end Pattern

end LocalizationScan.Glob
