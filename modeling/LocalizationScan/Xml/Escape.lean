import LocalizationScan.Text.Basic

namespace LocalizationScan.Xml

/-!
# References in XML text

`&name;` and `&#number;` stand for characters.  Only the five predefined names
are known.  Places are counted in bytes of the UTF-8 form, from the start of
the text that holds the reference.
-/

/-- Why a number names no character. -/
inductive NumberError where
  | sign
  | empty
  | digit
  | tooLarge
  | zero
  | noScalar (code : Nat)
  deriving Repr, DecidableEq

/-- Why a reference cannot be replaced. -/
inductive EscapeError where
  | unknownName (name : Text) (start stop : Nat)
  | unterminated (start stop : Nat)
  | number (error : NumberError)
  deriving Repr, DecidableEq

/-- The wording of a number error. -/
def NumberError.message : NumberError → Text
  | .sign => "unexpected number sign".toList
  | .empty => "cannot parse integer from empty string".toList
  | .digit => "invalid digit found in string".toList
  | .tooLarge => "number too large to fit in target type".toList
  | .zero => "0x0 character is not permitted in XML".toList
  | .noScalar code => '`' :: Text.ofNat code ++ "` is not a valid codepoint".toList

/-- The wording of an escape error. -/
def EscapeError.message : EscapeError → Text
  | .unknownName name start stop =>
      "at ".toList ++ Text.ofNat start ++ "..".toList ++ Text.ofNat stop ++
        ": unrecognized entity `".toList ++ name ++ ['`']
  | .unterminated start stop =>
      "Error while escaping character at range ".toList ++ Text.ofNat start ++ "..".toList ++
        Text.ofNat stop ++ ": Cannot find ';' after '&'".toList
  | .number error => "invalid character reference: ".toList ++ error.message

/-- The number of 32 bits that digits write, read on from a value. -/
def readDigits (radix : Nat) : Nat → Text → Except NumberError Nat
  | value, [] => .ok value
  | value, char :: rest =>
      match Text.digit? radix char with
      | none => .error .digit
      | some digit =>
          let next := radix * value + digit
          if next < 2 ^ 32 then readDigits radix next rest else .error .tooLarge

/-- The number of 32 bits that a text without a sign writes. -/
def readNumber (radix : Nat) : Text → Except NumberError Nat
  | [] => .error .empty
  | '+' :: _ | '-' :: _ => .error .sign
  | digits => readDigits radix 0 digits

/-- The character that the number of a reference names. -/
def numberedChar (number : Text) : Except NumberError Char := do
  let code ←
    match number with
    | 'x' :: digits => readNumber 16 digits
    | digits => readNumber 10 digits
  if code = 0 then .error .zero
  else if valid : code.isValidChar then .ok (Char.ofNatAux code valid)
  else .error (.noScalar code)

/-- The character of a predefined name. -/
def namedChar? (name : Text) : Option Char :=
  [("lt", '<'), ("gt", '>'), ("amp", '&'), ("apos", '\''), ("quot", '"')].findSome?
    fun (known, char) => if known.toList = name then some char else none

/-- The character that the text between `&` and `;` stands for, where `start` is the place
right behind the `&`. -/
def referencedChar (start : Nat) (name : Text) : Except EscapeError Char :=
  match name with
  | '#' :: number => (numberedChar number).mapError .number
  | _ =>
      match namedChar? name with
      | some char => .ok char
      | none => .error (.unknownName name start (start + Text.byteLength name))

/-- Whether a character begins or ends a reference. -/
def isReferenceMark (char : Char) : Bool :=
  char == '&' || char == ';'

/-- Replace the references in the rest of a text whose whole length is `total` bytes. -/
def unescapeFrom (total : Nat) : Text → Except EscapeError Text
  | [] => .ok []
  | '&' :: rest =>
      let name := rest.takeWhile fun char => !isReferenceMark char
      match rest.drop name.length with
      | ';' :: later => do
          let char ← referencedChar (total - Text.byteLength rest) name
          return char :: (← unescapeFrom total (rest.drop (name.length + 1)))
      | _ => .error (.unterminated (total - Text.byteLength rest - 1) total)
  | char :: rest => do return char :: (← unescapeFrom total rest)
termination_by text => text.length
decreasing_by
  all_goals simp only [List.length_drop, List.length_cons]
  all_goals omega

/-- A text with its references replaced. -/
def unescape (text : Text) : Except EscapeError Text :=
  unescapeFrom (Text.byteLength text) text

/-- A character as it is written in text and in attribute values. -/
def escapeChar : Char → Text
  | '<' => "&lt;".toList
  | '>' => "&gt;".toList
  | '&' => "&amp;".toList
  | '\'' => "&apos;".toList
  | '"' => "&quot;".toList
  | char => [char]

/-- A text as it is written in text and in attribute values. -/
def escape (text : Text) : Text :=
  text.flatMap escapeChar

end LocalizationScan.Xml
