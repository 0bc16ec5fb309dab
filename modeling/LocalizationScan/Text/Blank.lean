import LocalizationScan.Text.Basic

namespace LocalizationScan.Text

/-!
# Blank characters

The characters with the Unicode property `White_Space`, and what is decided by
them: trimming.
-/

/-- Whether a character is white space. -/
def isBlank (char : Char) : Bool :=
  let code := char.toNat
  code == 0x20 || (0x09 ≤ code && code ≤ 0x0D) || code == 0x85 || code == 0xA0 ||
    code == 0x1680 || (0x2000 ≤ code && code ≤ 0x200A) || code == 0x2028 ||
    code == 0x2029 || code == 0x202F || code == 0x205F || code == 0x3000

/-- A text without the white space at its start. -/
def trimLeft (text : Text) : Text :=
  text.dropWhile isBlank

/-- A text without the white space at its end. -/
def trimRight (text : Text) : Text :=
  (text.reverse.dropWhile isBlank).reverse

/-- A text without the white space at either end. -/
def trim (text : Text) : Text :=
  trimRight (trimLeft text)

/-- The code points of white space. -/
def blankCodes : List Nat :=
  [0x20, 0x85, 0xA0, 0x1680, 0x2028, 0x2029, 0x202F, 0x205F, 0x3000] ++
    List.range' 0x09 5 ++ List.range' 0x2000 11

theorem exists_code_of_isBlank
    {char : Char}
    (blank : isBlank char = true) :
    ∃ code ∈ blankCodes, char = Char.ofNat code := by
  refine ⟨char.toNat, ?_, (Char.ofNat_toNat char).symm⟩
  simp only [isBlank, Bool.or_eq_true, Bool.and_eq_true, decide_eq_true_eq, beq_iff_eq] at blank
  simp only [blankCodes, List.mem_append, List.mem_cons, List.not_mem_nil, List.mem_range'_1]
  omega

end LocalizationScan.Text
