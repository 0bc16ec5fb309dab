import LocalizationScan.Lexical.Basic

namespace LocalizationScan.CSharp

/-!
# Lexical rules of C#

Code holds line comments, block comments, character literals and five forms of
strings.  Strings of the regular form end at a line break at the latest;
verbatim ones do not.  The escapes of regular strings are decoded from left to
right, and what is no escape is kept as written.
-/

/-- The transition that code begins. -/
def classifyCode : Text → Transition
  | '/' :: '/' :: _ => .lineComment
  | '/' :: '*' :: _ => .openComment 2
  | '"' :: _ => .openString .regular 1
  | '\'' :: _ => .openString .char 1
  | '@' :: '"' :: _ => .openString .verbatim 2
  | '@' :: '$' :: '"' :: _ => .openString .interpolatedVerbatim 3
  | '$' :: '@' :: '"' :: _ => .openString .interpolatedVerbatim 3
  | '$' :: '"' :: _ => .openString .interpolated 2
  | _ => .stay

/-- The transition that code in a hole begins. -/
def classifyHole : Text → Transition
  | '\x7b' :: _ => .brace true
  | '\x7d' :: _ => .brace false
  | rest => classifyCode rest

/-- The transition inside a string that ends at its line, with the given closing quote. -/
def classifyLineString (quote : Char) (emit : Bool) : Text → Transition
  | [] => .stay
  | '\\' :: '\r' :: _ => .abandon
  | '\\' :: '\n' :: _ => .abandon
  | '\\' :: _ => .escape 2
  | '\r' :: _ => .abandon
  | '\n' :: _ => .abandon
  | char :: _ => if char = quote then .closeString 1 emit else .stay

/-- The transition inside a string in which only the doubled quote is an escape. -/
def classifyVerbatim (emit : Bool) : Text → Transition
  | '"' :: '"' :: _ => .escape 2
  | '"' :: _ => .closeString 1 emit
  | _ => .stay

/-- The transition that braces begin in the text of an interpolated string. -/
def classifyBrace? : Text → Option Transition
  | '\x7b' :: '\x7b' :: _ => some (.escape 2)
  | '\x7d' :: '\x7d' :: _ => some (.escape 2)
  | '\x7b' :: _ => some .openHole
  | _ => none

/-- The transition inside a string.  Only regular and verbatim strings are reported. -/
def classifyString (kind : StringKind) (rest : Text) : Transition :=
  match kind with
  | .regular => classifyLineString '"' true rest
  | .char => classifyLineString '\'' false rest
  | .verbatim => classifyVerbatim true rest
  | .interpolated => (classifyBrace? rest).getD (classifyLineString '"' false rest)
  | .interpolatedVerbatim => (classifyBrace? rest).getD (classifyVerbatim false rest)

/-- The transition inside a block comment. -/
def classifyComment : Text → Transition
  | '*' :: '/' :: _ => .closeComment 2
  | _ => .stay

/-- The transition that the rest of a text begins in a given state. -/
def classify (state : LexicalState) (rest : Text) : Transition :=
  match state with
  | .code => classifyCode rest
  | .hole => classifyHole rest
  | .string kind => classifyString kind rest
  | .comment => classifyComment rest

/-- The character of an escape that is a single character after the backslash. -/
def simpleEscape? : Char → Option Char
  | 'n' => some '\n'
  | 't' => some '\t'
  | 'r' => some '\r'
  | '0' => some '\x00'
  | 'a' => some '\x07'
  | 'b' => some '\x08'
  | 'f' => some '\x0c'
  | 'v' => some '\x0b'
  | '\\' => some '\\'
  | '"' => some '"'
  | '\'' => some '\''
  | _ => none

/-- Least and greatest number of digits of an escape that names a code point. -/
def codePointEscape? : Char → Option (Nat × Nat)
  | 'u' => some (4, 4)
  | 'U' => some (8, 8)
  | 'x' => some (1, 4)
  | _ => none

/-- The hexadecimal digits at the start of a text, at most as many as given. -/
def leadingHexDigits (most : Nat) (text : Text) : Text :=
  (text.take most).takeWhile fun char => (Text.digit? 16 char).isSome

/-- The number that hexadecimal digits write. -/
def hexValue (digits : Text) : Nat :=
  (Text.toNat? 16 digits).getD 0

/-- The character with a given code point, unless it is a surrogate or too large. -/
def charOfCodePoint? (code : Nat) : Option Char :=
  if valid : code.isValidChar then some (Char.ofNatAux code valid) else none

/-- The character that the digits of an escape name, when there are enough of them. -/
def charOfDigits? (least : Nat) (digits : Text) : Option Char :=
  if least ≤ digits.length then charOfCodePoint? (hexValue digits) else none

/-- Decode the escapes of a regular string or a character literal. -/
def unescape : Text → Text
  | [] => []
  | ['\\'] => ['\\']
  | '\\' :: escape :: rest =>
      match simpleEscape? escape, codePointEscape? escape with
      | some char, _ => char :: unescape rest
      | none, none => '\\' :: escape :: unescape rest
      | none, some (least, most) =>
          let digits := leadingHexDigits most rest
          match charOfDigits? least digits with
          | some char => char :: unescape (rest.drop digits.length)
          | none => '\\' :: escape :: digits ++ unescape (rest.drop digits.length)
  | char :: rest => char :: unescape rest
termination_by text => text.length
decreasing_by
  all_goals simp only [List.length_drop, List.length_cons]
  all_goals omega

/-- The value of a string token with the given body. -/
def decode (kind : StringKind) (body : Text) : Text :=
  match kind with
  | .regular | .char => unescape body
  | .verbatim => Text.halveQuotes body
  | .interpolated | .interpolatedVerbatim => body

end LocalizationScan.CSharp
