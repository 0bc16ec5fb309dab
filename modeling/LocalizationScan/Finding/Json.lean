import LocalizationScan.Finding.Basic
import LocalizationScan.Json.Value

namespace LocalizationScan

/-!
# Findings as JSON

The members of the JSON form of a finding and of the items that it carries.
-/

/-- A position as JSON. -/
def Position.toJson (position : Position) : Json.Value :=
  .object [("line".toList, .number position.line), ("column".toList, .number position.column),
    ("offset".toList, .number position.offset)]

/-- A span as JSON. -/
def Span.toJson (span : Span) : Json.Value :=
  .object [("start".toList, span.start.toJson), ("end".toList, span.stop.toJson)]

/-- Flags as JSON. -/
def ItemFlags.toJson (flags : ItemFlags) : Json.Value :=
  .object [("withinNoLocalizeScope".toList, .boolean flags.withinNoLocalizeScope),
    ("markedUnlocalizable".toList, .boolean flags.markedUnlocalizable),
    ("fromGeneratedSource".toList, .boolean flags.fromGeneratedSource)]

/-- An origin as JSON. -/
def Origin.toJson (origin : Origin) : Json.Value :=
  .object [("namespace".toList, .string origin.scope), ("class".toList, .string origin.className),
    ("culture".toList, .optional origin.culture?), ("path".toList, .string origin.path)]

/-- A literal as JSON. -/
def Literal.toJson (literal : Literal) : Json.Value :=
  .object [("text".toList, .string literal.text), ("value".toList, .string literal.value),
    ("span".toList, literal.span.toJson), ("offset".toList, .number literal.offset),
    ("length".toList, .number literal.length), ("verbatim".toList, .boolean literal.verbatim),
    ("flags".toList, literal.flags.toJson)]

/-- A reference as JSON. -/
def Reference.toJson (reference : Reference) : Json.Value :=
  .object [("originalText".toList, .string reference.originalText),
    ("fullText".toList, .string reference.fullText), ("key".toList, .string reference.key),
    ("value".toList, .string reference.value), ("origin".toList, reference.origin.toJson),
    ("span".toList, reference.span.toJson), ("offset".toList, .number reference.offset),
    ("length".toList, .number reference.length), ("flags".toList, reference.flags.toJson)]

/-- A place in a source file as JSON. -/
def SourceContext.toJson (context : SourceContext) : Json.Value :=
  .object [("filePath".toList, .string context.path), ("line".toList, .number context.line),
    ("col".toList, .number context.column), ("sourceLine".toList, .string context.sourceLine)]

/-- The members of a finding that depend on what it is about. -/
def Finding.members : Finding → List (Text × Json.Value)
  | .literal context item =>
      [("context".toList, context.toJson), ("literal".toList, item.toJson)]
  | .reference context item =>
      [("context".toList, context.toJson), ("reference".toList, item.toJson)]
  | .fileError path message =>
      [("filePath".toList, .string path), ("error".toList, .string message)]

/-- A finding of a report as JSON: what it is about and how much it matters come first. -/
def Finding.toJson (finding : Finding) : Json.Value :=
  .object (("rule".toList, .string finding.rule.name) ::
    ("severity".toList, .string finding.severity.name) :: finding.members)

end LocalizationScan
