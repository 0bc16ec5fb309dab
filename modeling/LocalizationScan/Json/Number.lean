import LocalizationScan.Text.Basic

namespace LocalizationScan.Json

/-!
# Range of numbers

A number that is read as a value has to fit into a floating point number of 64
bits.  As many digits as fit into a whole number of 64 bits make up its
significand and the rest of them only count; the significand and a power of
ten are rounded before they are multiplied.  A number just below the largest
one can therefore be out of range, and one just above it in range.
-/

/-- The written parts of a number without its sign. -/
structure Decimal where
  whole : Text
  fraction : Text
  exponent : Int

/-- The number that a run of digits writes. -/
def natOfDigits (digits : Text) : Nat :=
  (Text.toNat? 10 digits).getD 0

/-- The least number that does not fit into a significand. -/
def significandLimit : Nat := Nat.pow 2 64

/-- A significand with digits behind it as long as it fits, and the number of digits from the
first one for which it does not. -/
def appendDigits (significand : Nat) : Text → Nat × Nat
  | [] => (significand, 0)
  | digit :: rest =>
      let longer := significand * 10 + natOfDigits [digit]
      if longer < significandLimit then appendDigits longer rest
      else (significand, rest.length + 1)

/-- A significand, and the exponent of the power of ten that it counts. -/
structure Scaled where
  significand : Nat
  exponent : Int
  deriving Repr, DecidableEq

/-- The scaled significand of a number.  Digits of the whole part that do not fit raise the
exponent, digits of the fraction that fit lower it. -/
def Decimal.scaled (decimal : Decimal) : Scaled :=
  let (whole, uncounted) := appendDigits 0 decimal.whole
  let (significand, unread) := appendDigits whole decimal.fraction
  ⟨significand, decimal.exponent + uncounted - (decimal.fraction.length - unread)⟩

/-- The nearest number with 53 significant bits; of two the one whose last bit is zero. -/
def nearest (value : Nat) : Nat :=
  let unit := Nat.pow 2 (value.log2 - 52)
  let count := value / unit
  let rest := value % unit
  if unit < 2 * rest ∨ (2 * rest = unit ∧ count % 2 = 1) then (count + 1) * unit
  else count * unit

/-- Half a unit beyond the largest floating point number: from here on there is no nearest one. -/
def rangeLimit : Nat := Nat.pow 2 1024 - Nat.pow 2 970

/-- Whether a number is out of range.  A negative exponent only makes a significand smaller,
and the largest power of ten in range has the exponent 308. -/
def Decimal.isOutOfRange (decimal : Decimal) : Bool :=
  let ⟨significand, exponent⟩ := decimal.scaled
  if significand = 0 ∨ exponent < 0 then false
  else if 308 < exponent then true
  else decide (rangeLimit ≤ nearest significand * nearest (Nat.pow 10 exponent.toNat))

end LocalizationScan.Json
