import LocalizationScan.Json.Number
import LocalizationScan.Text.Basic

namespace LocalizationScan.Json

/-!
# JSON tokens

A document is cut into tokens before its structure is looked at.  Some faults
show only to a reader that needs a value and not to one that skips it: a
string with half of a surrogate pair, or a number beyond the range of a
floating point number.  A token therefore says what both readers make of it.
-/

/-- Why a text is not the document that is asked for. -/
inductive Failure where
  /-- The text breaks the grammar. -/
  | malformed
  /-- A value is of another kind than the one that is asked for. -/
  | mismatched
  /-- The text ends too early. -/
  | unfinished
  deriving Repr, DecidableEq

/-- The wording of a failure. -/
def Failure.message : Failure → Text
  | .malformed => "malformed JSON".toList
  | .mismatched => "unexpected kind of value".toList
  | .unfinished => "unexpected end of JSON".toList

/-- What is wrong with a token that does not end. -/
structure Fault where
  /-- To a reader that needs the value. -/
  needed : Failure
  /-- To a reader that skips the value. -/
  skipped : Failure
  deriving Repr, DecidableEq

/-- The fault of a text that breaks the grammar for every reader. -/
def Fault.malformed : Fault := ⟨.malformed, .malformed⟩

/-- The fault of a text that ends too early for every reader. -/
def Fault.unfinished : Fault := ⟨.unfinished, .unfinished⟩

/-- The fault of a number: a reader that skips it never looks beyond the end of the text. -/
def Fault.ofNumber (rest : Text) : Fault :=
  ⟨if rest.isEmpty then .unfinished else .malformed, .malformed⟩

/-- A piece of a document. -/
inductive Token where
  | openArray
  | closeArray
  | openObject
  | closeObject
  | comma
  | colon
  /-- A string, with its content if that is a text. -/
  | string (content : Except Failure Text)
  /-- A number, with the failure of a reader that needs a value of another kind. -/
  | number (failure : Failure)
  | boolean (value : Bool)
  | null
  /-- A fault, which ends the document; `quoted` says that a quote stands before it. -/
  | fault (fault : Fault) (quoted : Bool)

/-! ## Strings -/

/-- What follows an opening quote. -/
structure Quoted where
  /-- The content, if it is a text. -/
  content : Except Failure Text
  /-- What follows the closing quote, if there is one. -/
  rest : Except Failure Text

namespace Quoted

/-- The string ends in a fault. -/
def fault (failure : Failure) : Quoted := ⟨.error failure, .error failure⟩

/-- The content goes on to the left with a character. -/
def push (char : Char) (quoted : Quoted) : Quoted :=
  { quoted with content := quoted.content.map (char :: ·) }

/-- The content is no text, whatever comes behind. -/
def broken (quoted : Quoted) : Quoted :=
  { quoted with content := .error .malformed }

end Quoted

/-- Whether a code unit is the first half of a surrogate pair. -/
def isHighSurrogate (unit : Nat) : Bool := 0xD800 ≤ unit && unit ≤ 0xDBFF

/-- Whether a code unit is the second half of a surrogate pair. -/
def isLowSurrogate (unit : Nat) : Bool := 0xDC00 ≤ unit && unit ≤ 0xDFFF

/-- The character of a surrogate pair. -/
def charOfPair (high low : Nat) : Char :=
  Char.ofNat (0x10000 + (high - 0xD800) * 0x400 + (low - 0xDC00))

/-- The character that an escape of two characters stands for. -/
def escaped? (char : Char) : Option Char :=
  if char = '"' ∨ char = '\\' ∨ char = '/' then some char
  else if char = 'b' then some '\x08'
  else if char = 'f' then some '\x0c'
  else if char = 'n' then some '\n'
  else if char = 'r' then some '\r'
  else if char = 't' then some '\t'
  else none

/-- Go on behind a character; a first half that waits for its second one breaks the content. -/
def Quoted.after (high? : Option Nat) (char : Char) (quoted : Quoted) : Quoted :=
  if high?.isSome then quoted.broken else quoted.push char

/-- Read a string behind its opening quote; `high?` is the first half of a surrogate pair
that was read right before. -/
def unquote (high? : Option Nat) : Text → Quoted
  | [] => .fault .unfinished
  | '\\' :: 'u' :: first :: second :: third :: fourth :: rest =>
      match Text.toNat? 16 [first, second, third, fourth] with
      | none => .fault .malformed
      | some unit =>
          match high? with
          | some high =>
              if isLowSurrogate unit then (unquote none rest).push (charOfPair high unit)
              else (unquote none rest).broken
          | none =>
              if isLowSurrogate unit then (unquote none rest).broken
              else if isHighSurrogate unit then unquote (some unit) rest
              else (unquote none rest).push (Char.ofNat unit)
  | '\\' :: 'u' :: rest =>
      .fault (if 4 ≤ Text.byteLength rest then .malformed else .unfinished)
  | ['\\'] => .fault .unfinished
  | '\\' :: char :: rest =>
      match escaped? char with
      | some char => (unquote none rest).after high? char
      | none => .fault .malformed
  | char :: rest =>
      if char = '"' then ⟨if high?.isSome then .error .malformed else .ok [], .ok rest⟩
      else if char.toNat < 0x20 then .fault .malformed
      else (unquote none rest).after high? char

/-! ## Numbers -/

/-- A run of digits that must not be empty. -/
def readDigits (text : Text) : Except Fault (Text × Text) :=
  match text.takeWhile Char.isDigit with
  | [] => .error (.ofNumber text)
  | digits => .ok (digits, text.dropWhile Char.isDigit)

/-- The digits before the point; a leading zero stands alone. -/
def readWhole : Text → Except Fault (Text × Text)
  | '0' :: rest =>
      if rest.head?.any Char.isDigit then .error .malformed else .ok (['0'], rest)
  | text => readDigits text

/-- The digits behind the point, if there is one. -/
def readFraction : Text → Except Fault (Text × Text)
  | '.' :: rest => readDigits rest
  | text => .ok ([], text)

/-- The value of an exponent behind its sign. -/
def readPower (negative : Bool) (text : Text) : Except Fault (Int × Text) := do
  let (digits, rest) ← readDigits text
  let power : Int := natOfDigits digits
  return (if negative then -power else power, rest)

/-- The exponent, if there is one. -/
def readExponent : Text → Except Fault (Int × Text)
  | mark :: rest =>
      if mark = 'e' ∨ mark = 'E' then
        match rest with
        | '-' :: power => readPower true power
        | '+' :: power => readPower false power
        | power => readPower false power
      else .ok (0, mark :: rest)
  | [] => .ok (0, [])

/-- A number without its sign, and what follows it. -/
def readNumber (text : Text) : Except Fault (Decimal × Text) := do
  let (whole, text) ← readWhole text
  let (fraction, text) ← readFraction text
  let (exponent, text) ← readExponent text
  return (⟨whole, fraction, exponent⟩, text)

/-! ## Tokens -/

/-- What follows the rest of a word. -/
def afterWord : Text → Text → Except Failure Text
  | [], text => .ok text
  | _ :: _, [] => .error .unfinished
  | char :: word, other :: text =>
      if char = other then afterWord word text else .error .malformed

/-- The token of a word, and what follows it. -/
def readWord (token : Token) (word text : Text) : Token × Text :=
  match afterWord word text with
  | .ok rest => (token, rest)
  | .error failure => (.fault ⟨failure, failure⟩ false, [])

/-- The token of a string behind its opening quote, and what follows it. -/
def readString (text : Text) : Token × Text :=
  let quoted := unquote none text
  match quoted.rest with
  | .ok rest => (.string quoted.content, rest)
  | .error failure =>
      let needed := match quoted.content with
        | .ok _ => failure
        | .error earlier => earlier
      (.fault ⟨needed, failure⟩ true, [])

/-- The token of a number without its sign, and what follows it. -/
def readNumberToken (text : Text) : Token × Text :=
  match readNumber text with
  | .ok (decimal, rest) =>
      (.number (if decimal.isOutOfRange then .malformed else .mismatched), rest)
  | .error fault => (.fault fault false, [])

/-- The token that a mark of the structure is. -/
def mark? (char : Char) : Option Token :=
  if char = '[' then some .openArray
  else if char = ']' then some .closeArray
  else if char = '\x7b' then some .openObject
  else if char = '\x7d' then some .closeObject
  else if char = ',' then some .comma
  else if char = ':' then some .colon
  else none

/-- The token that starts with a character, and what follows it. -/
def readToken (char : Char) (rest : Text) : Token × Text :=
  match mark? char with
  | some token => (token, rest)
  | none =>
      match char with
      | '"' => readString rest
      | '-' => readNumberToken rest
      | 't' => readWord (.boolean true) ['r', 'u', 'e'] rest
      | 'f' => readWord (.boolean false) ['a', 'l', 's', 'e'] rest
      | 'n' => readWord .null ['u', 'l', 'l'] rest
      | char =>
          if char.isDigit then readNumberToken (char :: rest)
          else (.fault .malformed false, [])

/-- Whether a character may stand between tokens. -/
def isSpace (char : Char) : Bool :=
  char == ' ' || char == '\n' || char == '\t' || char == '\r'

/-! ## The tokens of a document -/

theorem length_rest_unquote
    {high? : Option Nat}
    {text rest : Text}
    (ended : (unquote high? text).rest = .ok rest) :
    rest.length < text.length := by
  fun_induction unquote high? text <;>
    simp_all [Quoted.fault, Quoted.push, Quoted.broken, Quoted.after] <;>
    grind

theorem length_readDigits_lt
    {text digits rest : Text}
    (read : readDigits text = .ok (digits, rest)) :
    rest.length < text.length := by
  unfold readDigits at read
  split at read
  · simp at read
  · rename_i nonempty
    simp only [Except.ok.injEq, Prod.mk.injEq] at read
    have cut := List.takeWhile_append_dropWhile (p := Char.isDigit) (l := text)
    have := congrArg List.length cut
    rw [List.length_append, read.2] at this
    have := List.length_pos_iff.2 nonempty
    omega

theorem length_afterWord_le
    {word text rest : Text}
    (read : afterWord word text = .ok rest) :
    rest.length ≤ text.length := by
  fun_induction afterWord word text <;> grind

theorem length_readWhole_lt
    {text digits rest : Text}
    (read : readWhole text = .ok (digits, rest)) :
    rest.length < text.length := by
  unfold readWhole at read
  split at read
  · split at read <;> grind
  · exact length_readDigits_lt read

theorem length_readFraction_le
    {text digits rest : Text}
    (read : readFraction text = .ok (digits, rest)) :
    rest.length ≤ text.length := by
  unfold readFraction at read
  split at read
  · have := length_readDigits_lt read
    grind
  · grind

theorem length_readPower_lt
    {negative : Bool}
    {text rest : Text}
    {exponent : Int}
    (read : readPower negative text = .ok (exponent, rest)) :
    rest.length < text.length := by
  unfold readPower at read
  cases taken : readDigits text with
  | error fault => simp [taken, bind, Except.bind] at read
  | ok pair =>
      simp only [taken, bind, Except.bind, pure, Except.pure, Except.ok.injEq,
        Prod.mk.injEq] at read
      exact read.2 ▸ @length_readDigits_lt _ pair.1 _ taken

theorem length_readExponent_le
    {text rest : Text}
    {exponent : Int}
    (read : readExponent text = .ok (exponent, rest)) :
    rest.length ≤ text.length := by
  unfold readExponent at read
  split at read
  · split at read
    · split at read
      all_goals
        have := length_readPower_lt read
        grind
    · grind
  · grind

theorem length_readNumber_lt
    {text rest : Text}
    {decimal : Decimal}
    (read : readNumber text = .ok (decimal, rest)) :
    rest.length < text.length := by
  unfold readNumber at read
  simp only [bind, Except.bind, pure, Except.pure] at read
  split at read
  · simp at read
  · rename_i whole_read
    split at read
    · simp at read
    · rename_i fraction_read
      split at read
      · simp at read
      · rename_i exponent_read
        have := length_readWhole_lt whole_read
        have := length_readFraction_le fraction_read
        have := length_readExponent_le exponent_read
        grind

theorem length_readString_le (text : Text) :
    (readString text).2.length ≤ text.length := by
  unfold readString
  dsimp only
  split
  · rename_i ended
    exact Nat.le_of_lt (length_rest_unquote ended)
  · simp

theorem length_readNumberToken_le (char : Char) (rest : Text) :
    (readNumberToken (char :: rest)).2.length ≤ rest.length := by
  unfold readNumberToken
  split
  · rename_i read
    have := length_readNumber_lt read
    grind
  · simp

theorem length_readNegativeToken_le (text : Text) :
    (readNumberToken text).2.length ≤ text.length := by
  unfold readNumberToken
  split
  · rename_i read
    exact Nat.le_of_lt (length_readNumber_lt read)
  · simp

theorem length_readWord_le (token : Token) (word text : Text) :
    (readWord token word text).2.length ≤ text.length := by
  unfold readWord
  split
  · rename_i read
    exact length_afterWord_le read
  · simp

/-- A token never takes more than what follows its first character. -/
theorem length_readToken_le (char : Char) (rest : Text) :
    (readToken char rest).2.length ≤ rest.length := by
  unfold readToken
  split
  · exact Nat.le_refl _
  · split
    · exact length_readString_le rest
    · exact length_readNegativeToken_le rest
    · exact length_readWord_le ..
    · exact length_readWord_le ..
    · exact length_readWord_le ..
    · split
      · exact length_readNumberToken_le ..
      · exact Nat.zero_le _

/-- The tokens of a document, up to its first fault. -/
def tokens : Text → List Token
  | [] => []
  | char :: rest =>
      if isSpace char then tokens rest
      else (readToken char rest).1 :: tokens (readToken char rest).2
termination_by text => text.length
decreasing_by
  · simp
  · have := length_readToken_le char rest
    simp
    omega

end LocalizationScan.Json
