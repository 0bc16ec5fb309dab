import LocalizationScan.Text.Basic

namespace LocalizationScan

/-!
# Dotted references

A dotted reference is a chain of at least two non-empty segments joined by
single dots.  The last segment names a key, the one before it a class, and what
comes earlier qualifies the class.
-/

/-- A chain of segments cut into its parts. -/
structure DottedReference where
  /-- The segments before the class, if there are any. -/
  qualifier? : Option Text
  className : Text
  key : Text
  deriving Repr, DecidableEq

namespace DottedReference

/-- Cut a chain into its parts; none if a segment is empty or there is only one. -/
def ofText? (text : Text) : Option DottedReference :=
  if (Text.splitOn '.' text).any List.isEmpty then
    none
  else
    match Text.splitLast? '.' text with
    | none => none
    | some (rest, key) =>
        match Text.splitLast? '.' rest with
        | some (qualifier, className) => some ⟨some qualifier, className, key⟩
        | none => some ⟨none, rest, key⟩

/-- The chain that was cut. -/
def toText (reference : DottedReference) : Text :=
  let short := reference.className ++ '.' :: reference.key
  match reference.qualifier? with
  | some qualifier => qualifier ++ '.' :: short
  | none => short

end DottedReference

end LocalizationScan
