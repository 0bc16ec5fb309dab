import LocalizationScan.Json.Token

namespace LocalizationScan.Json

/-!
# Reading JSON values

Readers take a value of a known kind off the tokens of a document and give
back the tokens behind it.  They go from left to right and report the first
failure that they meet; a value that nobody needs is passed over.
-/

/-- The failure of a reader that needs a value of another kind than the one that starts with
a token. -/
def Token.refusal : Token → Failure
  | .fault reason _ => reason.needed
  | .number failure => failure
  | .string (.error failure) => failure
  | .string (.ok _) | .boolean _ | .null | .openArray | .openObject => .mismatched
  | .closeArray | .closeObject | .comma | .colon => .malformed

/-- The failure of a reader that needs another value than the one that comes. -/
def refuse : List Token → Failure
  | [] => .unfinished
  | token :: _ => token.refusal

/-- The failure of a reader that needs a mark of the structure where another token comes. -/
def misplaced : List Token → Failure
  | [] => .unfinished
  | _ :: _ => .malformed

/-- A value, and the tokens behind it. -/
abbrev Reading (α : Type) := Except Failure (α × List Token)

/-- What is made of a value that has been read. -/
def Reading.mapValue {α β : Type} (make : α → β) (reading : Reading α) : Reading β :=
  reading.map fun (value, rest) => (make value, rest)

/-- Read a text. -/
def readText : List Token → Reading Text
  | .string (.ok text) :: rest => .ok (text, rest)
  | tokens => .error (refuse tokens)

/-- Read a truth value. -/
def readBoolean : List Token → Reading Bool
  | .boolean value :: rest => .ok (value, rest)
  | tokens => .error (refuse tokens)

/-- Read the texts that follow in an array, each behind a comma. -/
def readMoreTexts : List Token → Reading (List Text)
  | .closeArray :: rest => .ok ([], rest)
  | .comma :: .string (.ok text) :: rest =>
      (readMoreTexts rest).mapValue (text :: ·)
  | .comma :: tokens => .error (refuse tokens)
  | tokens => .error (misplaced tokens)

/-- Read an array of texts. -/
def readTexts : List Token → Reading (List Text)
  | .openArray :: .closeArray :: rest => .ok ([], rest)
  | .openArray :: rest => readMoreTexts (.comma :: rest)
  | tokens => .error (refuse tokens)

/-- What a reader that passes over a value waits for. -/
inductive Skipping where
  | value
  /-- The first element of an array, or its end. -/
  | element
  /-- The first member of an object, or its end. -/
  | member
  | name
  | colon
  /-- A comma, or the end of the innermost array or object. -/
  | more
  deriving Repr, DecidableEq

/-- An array or an object that is open. -/
inductive Enclosure where
  | array
  | object
  deriving Repr, DecidableEq

/-- What a token leads to while a value is passed over, given the open arrays and objects
from the innermost one on. -/
def Skipping.step :
    Skipping → List Enclosure → Token → Except Failure (Skipping × List Enclosure)
  | .element, .array :: outer, .closeArray => .ok (.more, outer)
  | .member, .object :: outer, .closeObject => .ok (.more, outer)
  | .more, .array :: outer, .closeArray => .ok (.more, outer)
  | .more, .object :: outer, .closeObject => .ok (.more, outer)
  | .more, .array :: outer, .comma => .ok (.value, .array :: outer)
  | .more, .object :: outer, .comma => .ok (.name, .object :: outer)
  | .value, open_, .openArray | .element, open_, .openArray => .ok (.element, .array :: open_)
  | .value, open_, .openObject | .element, open_, .openObject => .ok (.member, .object :: open_)
  | .value, open_, .string _ | .element, open_, .string _ => .ok (.more, open_)
  | .value, open_, .number _ | .element, open_, .number _ => .ok (.more, open_)
  | .value, open_, .boolean _ | .element, open_, .boolean _ => .ok (.more, open_)
  | .value, open_, .null | .element, open_, .null => .ok (.more, open_)
  | .value, _, .fault reason _ | .element, _, .fault reason _ => .error reason.skipped
  | .name, open_, .string _ | .member, open_, .string _ => .ok (.colon, open_)
  | .name, _, .fault reason true | .member, _, .fault reason true => .error reason.skipped
  | .colon, open_, .colon => .ok (.value, open_)
  | _, _, _ => .error .malformed

/-- Pass over tokens until no array or object is open; gives the tokens behind. -/
def skip : Skipping → List Enclosure → List Token → Except Failure (List Token)
  | .more, [], tokens => .ok tokens
  | _, _, [] => .error .unfinished
  | waiting, enclosures, token :: tokens =>
      match waiting.step enclosures token with
      | .ok (waiting, enclosures) => skip waiting enclosures tokens
      | .error failure => .error failure

/-- Pass over a value. -/
def skipValue (tokens : List Token) : Except Failure (List Token) :=
  skip .value [] tokens

theorem length_skip_le
    {waiting : Skipping}
    {enclosures : List Enclosure}
    {tokens rest : List Token}
    (skipped : skip waiting enclosures tokens = .ok rest) :
    rest.length ≤ tokens.length := by
  fun_induction skip waiting enclosures tokens <;> grind

/-- A value that is made of a read one leaves the same tokens. -/
theorem eq_ok_of_mapValue
    {α β : Type}
    {make : α → β}
    {reading : Reading α}
    {value : β}
    {rest : List Token}
    (read : reading.mapValue make = .ok (value, rest)) :
    ∃ inner, reading = .ok (inner, rest) := by
  cases reading with
  | error failure => simp [Reading.mapValue, Except.map] at read
  | ok pair =>
      simp only [Reading.mapValue, Except.map, Except.ok.injEq, Prod.mk.injEq] at read
      exact ⟨pair.1, by simp [← read.2]⟩

theorem length_readText_lt
    {tokens rest : List Token}
    {text : Text}
    (read : readText tokens = .ok (text, rest)) :
    rest.length < tokens.length := by
  unfold readText at read
  split at read <;> grind

theorem length_readBoolean_lt
    {tokens rest : List Token}
    {value : Bool}
    (read : readBoolean tokens = .ok (value, rest)) :
    rest.length < tokens.length := by
  unfold readBoolean at read
  split at read <;> grind

theorem length_readMoreTexts_lt
    {tokens rest : List Token}
    {texts : List Text}
    (read : readMoreTexts tokens = .ok (texts, rest)) :
    rest.length < tokens.length := by
  fun_induction readMoreTexts tokens generalizing texts with
  | case1 => grind
  | case2 text later inductionHypothesis =>
      obtain ⟨others, tail⟩ := eq_ok_of_mapValue read
      have := inductionHypothesis tail
      simp only [List.length_cons]
      omega
  | case3 => grind
  | case4 => grind

theorem length_readTexts_lt
    {tokens rest : List Token}
    {texts : List Text}
    (read : readTexts tokens = .ok (texts, rest)) :
    rest.length < tokens.length := by
  unfold readTexts at read
  split at read
  · grind
  · have := length_readMoreTexts_lt read
    grind
  · grind

end LocalizationScan.Json
