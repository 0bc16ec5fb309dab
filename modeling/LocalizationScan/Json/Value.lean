import LocalizationScan.Text.Basic

namespace LocalizationScan.Json

/-!
# JSON values

The values that configuration files and reports are made of, and their written
form: one member or element per line, two spaces deeper than what encloses it.
-/

/-- A JSON value; the numbers of this library are counts and places. -/
inductive Value where
  | null
  | boolean (value : Bool)
  | number (value : Nat)
  | string (text : Text)
  | array (elements : List Value)
  /-- The members stand in the order in which they are written. -/
  | object (members : List (Text × Value))

namespace Value

/-- The text of an optional value, or null. -/
def optional (text? : Option Text) : Value :=
  match text? with
  | some text => .string text
  | none => .null

/-- An array of texts. -/
def strings (texts : List Text) : Value :=
  .array (texts.map .string)

end Value

/-- A code as two digits to the base sixteen. -/
def hexPair (code : Nat) : Text :=
  [Nat.digitChar (code / 16), Nat.digitChar (code % 16)]

/-- A character inside quotes: quotes, backslashes and control characters are escaped. -/
def escapeChar (char : Char) : Text :=
  if char = '"' then ['\\', '"']
  else if char = '\\' then ['\\', '\\']
  else if char = '\x08' then ['\\', 'b']
  else if char = '\x0c' then ['\\', 'f']
  else if char = '\n' then ['\\', 'n']
  else if char = '\r' then ['\\', 'r']
  else if char = '\t' then ['\\', 't']
  else if char.toNat < 0x20 then ['\\', 'u', '0', '0'] ++ hexPair char.toNat
  else [char]

/-- A text in quotes. -/
def quote (text : Text) : Text :=
  '"' :: text.flatMap escapeChar ++ ['"']

/-- A line break, and the indentation of a depth. -/
def newLine (depth : Nat) : Text :=
  '\n' :: List.replicate (2 * depth) ' '

mutual

/-- The written form of a value that stands at a depth. -/
def Value.render (depth : Nat) : Value → Text
  | .null => "null".toList
  | .boolean true => "true".toList
  | .boolean false => "false".toList
  | .number value => Text.ofNat value
  | .string text => quote text
  | .array [] => "[]".toList
  | .array (first :: rest) =>
      '[' :: newLine (depth + 1) ++ first.render (depth + 1) ++
        renderElements (depth + 1) rest ++ newLine depth ++ [']']
  | .object [] => ['\x7b', '\x7d']
  | .object ((name, first) :: rest) =>
      '\x7b' :: newLine (depth + 1) ++ quote name ++ [':', ' '] ++ first.render (depth + 1) ++
        renderMembers (depth + 1) rest ++ newLine depth ++ ['\x7d']

/-- The elements behind the first one, each on its line. -/
def renderElements (depth : Nat) : List Value → Text
  | [] => []
  | value :: rest =>
      ',' :: newLine depth ++ value.render depth ++ renderElements depth rest

/-- The members behind the first one, each on its line. -/
def renderMembers (depth : Nat) : List (Text × Value) → Text
  | [] => []
  | (name, value) :: rest =>
      ',' :: newLine depth ++ quote name ++ [':', ' '] ++ value.render depth ++
        renderMembers depth rest

end

/-- The written form of a document. -/
def Value.toText (value : Value) : Text :=
  value.render 0

end LocalizationScan.Json
