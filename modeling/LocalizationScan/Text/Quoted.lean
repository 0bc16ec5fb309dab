import LocalizationScan.Text.Basic
import LocalizationScan.Text.ExtenderRanges
import LocalizationScan.Text.Ranges
import LocalizationScan.Text.UnprintableRanges

namespace LocalizationScan.Text

/-!
# Quoted text

Paths stand in messages between double quotes, on one line and with nothing
invisible: double quotes, backslashes, characters that are not printed and
characters that extend the one before them are escaped.
-/

/-- Whether a character extends the one before it. -/
def isExtender (char : Char) : Bool :=
  inRanges char.toNat extenderRanges

/-- Whether a character shows when it is printed. -/
def isPrintable (char : Char) : Bool :=
  !(char.toNat < 0x20 || char.toNat == 0x7F || inRanges char.toNat unprintableRanges)

/-- A character between quotes. -/
def quoteChar (char : Char) : Text :=
  if char = '\x00' then ['\\', '0']
  else if char = '\t' then ['\\', 't']
  else if char = '\n' then ['\\', 'n']
  else if char = '\r' then ['\\', 'r']
  else if char = '"' ∨ char = '\\' then ['\\', char]
  else if isExtender char || !isPrintable char then
    ['\\', 'u', '\x7b'] ++ Nat.toDigits 16 char.toNat ++ ['\x7d']
  else [char]

/-- A text between quotes. -/
def quoted (text : Text) : Text :=
  '"' :: text.flatMap quoteChar ++ ['"']

end LocalizationScan.Text
