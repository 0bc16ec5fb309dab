import LocalizationScan.Text.Quoted
import LocalizationScan.Text.WidthRanges

namespace LocalizationScan.Text

/-!
# Width of characters

Columns that a character takes by itself in a terminal with a fixed width font,
and the kinds of characters that take other columns next to each other.
-/

/-- Columns of a character by itself. -/
def charWidth (char : Char) : Nat :=
  let code := char.toNat
  if code < 0x80 then 1
  else if code = 0x17D8 then 3
  else if code = 0x2D7F then 1
  else if isExtender char || inRanges code weightlessRanges then 0
  else if inRanges code wideRanges then 2
  else 1

/-- The selector that asks for emoji. -/
def emojiSelector : Char := '\ufe0f'

/-- The selector that asks for text. -/
def textSelector : Char := '\ufe0e'

/-- The selector that asks for wide quotation marks. -/
def wideQuoteSelector : Char := '\ufe01'

/-- The joiner between the parts of an emoji or of a ligature. -/
def joiner : Char := '\u200d'

/-- Whether a character is shown as emoji unless a selector asks for text. -/
def isEmoji (char : Char) : Bool :=
  inRanges char.toNat emojiRanges

/-- Whether a selector behind a character turns it into emoji or into text. -/
def isSelectable (char : Char) : Bool :=
  char.isDigit || char == '#' || char == '*' || inRanges char.toNat selectableRanges

/-- Whether a character is an emoji that is narrow as text; enclosed ideographs stay wide. -/
def isNarrowAsText (char : Char) : Bool :=
  isEmoji char && isSelectable char && !inRanges char.toNat [(0x1F200, 0x1F2FF)]

/-- Whether a character is a quotation mark that can be wide. -/
def isCurlyQuote (char : Char) : Bool :=
  ['\u2018', '\u2019', '\u201c', '\u201d'].contains char

/-- Whether a character is a skin tone. -/
def isSkinTone (char : Char) : Bool :=
  inRanges char.toNat [(0x1F3FB, 0x1F3FF)]

/-- Whether a skin tone behind a character becomes part of it. -/
def takesSkinTone (char : Char) : Bool :=
  inRanges char.toNat tonedEmojiRanges

/-- Whether a character is one of the two letters of a flag. -/
def isFlagLetter (char : Char) : Bool :=
  inRanges char.toNat [(0x1F1E6, 0x1F1FF)]

/-- Whether a character is a letter of the tag behind a flag. -/
def isTagLetter (char : Char) : Bool :=
  inRanges char.toNat [(0xE0061, 0xE007A)]

/-- Whether a character is a digit of the tag behind a flag. -/
def isTagDigit (char : Char) : Bool :=
  inRanges char.toNat [(0xE0030, 0xE0039)]

/-- Whether a character is a mark that a ligature ignores. -/
def isIgnoredMark (char : Char) : Bool :=
  inRanges char.toNat [(0x34F, 0x34F), (0x17B4, 0x17B5), (0x180B, 0x180D), (0x180F, 0x180F),
    (0xFE00, 0xFE0F), (0xE0100, 0xE01EF)]

/-- Whether a character is a form of the Arabic letter lam. -/
def isLam (char : Char) : Bool :=
  inRanges char.toNat [(0x644, 0x644), (0x6B5, 0x6B8), (0x76A, 0x76A), (0x8A6, 0x8A6),
    (0x8C7, 0x8C7)]

/-- Whether a character is a form of the Arabic letter alef. -/
def isAlef (char : Char) : Bool :=
  inRanges char.toNat [(0x622, 0x623), (0x625, 0x625), (0x627, 0x627), (0x671, 0x673),
    (0x675, 0x675), (0x773, 0x774), (0x870, 0x882)]

/-- Whether a character stands between lam and alef without parting them. -/
def isJoinedAcross (char : Char) : Bool :=
  charWidth char == 0 && !inRanges char.toNat unjoinedRanges

/-- Whether a character is a Khmer letter that can stand below the one before it. -/
def isKhmerLetter (char : Char) : Bool :=
  inRanges char.toNat [(0x1780, 0x1782), (0x1784, 0x1787), (0x1789, 0x178C), (0x178E, 0x1793),
    (0x1795, 0x1798), (0x179B, 0x179D), (0x17A0, 0x17A0), (0x17A2, 0x17A2), (0x17A7, 0x17A7),
    (0x17AB, 0x17AC), (0x17AF, 0x17AF)]

/-- Whether a character is a Tifinagh consonant. -/
def isTifinaghConsonant (char : Char) : Bool :=
  inRanges char.toNat [(0x2D31, 0x2D65), (0x2D6F, 0x2D6F)]

/-- Whether a character is the first mark of a Lisu tone. -/
def isLisuTone (char : Char) : Bool :=
  inRanges char.toNat [(0xA4F8, 0xA4FB)]

/-- Whether a character is the second mark of a Lisu tone. -/
def isLisuToneEnd (char : Char) : Bool :=
  inRanges char.toNat [(0xA4FC, 0xA4FD)]

/-- A Khmer letter has a column to give back when it is put below the one before. -/
theorem charWidth_pos_of_isKhmerLetter
    {char : Char}
    (letter : isKhmerLetter char = true) :
    0 < charWidth char := by
  have visible :
      ∀ index < 0x30,
        inRanges (0x1780 + index) extenderRanges = false ∧
          inRanges (0x1780 + index) weightlessRanges = false := by
    decide +kernel
  obtain ⟨range, member, low, high⟩ := exists_mem_of_inRanges letter
  have block : 0x1780 ≤ range.1 ∧ range.2 < 0x17B0 := by
    simp only [List.mem_cons, List.not_mem_nil, or_false] at member
    rcases member with rfl | rfl | rfl | rfl | rfl | rfl | rfl | rfl | rfl | rfl | rfl <;> decide
  have ⟨extends_, ignorable⟩ := visible (char.toNat - 0x1780) (by omega)
  rw [show 0x1780 + (char.toNat - 0x1780) = char.toNat by omega] at extends_ ignorable
  unfold charWidth isExtender
  simp only [extends_, ignorable]
  grind

end LocalizationScan.Text
