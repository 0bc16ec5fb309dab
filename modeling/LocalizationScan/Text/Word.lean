import LocalizationScan.Text.Ranges
import LocalizationScan.Text.WordRanges

namespace LocalizationScan.Text

/-!
# Words

Word characters are the alphabetic ones, marks, decimal digits, connectors and
the two joiners.  The ASCII ones are letters, digits and the underscore.  A few
alphabetic characters are too young to be word characters.
-/

/-- Whether a character belongs to a word. -/
def isWordChar (char : Char) : Bool :=
  char.isAlphanum || char == '_' || inRanges char.toNat wordRanges

/-- Whether a character is alphabetic. -/
def isAlphabetic (char : Char) : Bool :=
  char.isAlpha ||
    (inRanges char.toNat wordRanges && !inRanges char.toNat unalphabeticWordRanges) ||
    inRanges char.toNat alphabeticOnlyRanges

/-- Whether a text has an alphabetic character. -/
def containsAlphabetic (text : List Char) : Bool :=
  text.any isAlphabetic

end LocalizationScan.Text
