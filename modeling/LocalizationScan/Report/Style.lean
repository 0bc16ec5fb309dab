import LocalizationScan.Project

namespace LocalizationScan

/-!
# Coloured text

Pieces of a report can be put in ink on a terminal.  Without colours a piece is
its plain text.
-/

/-- A colour of a terminal. -/
inductive Colour where
  | red
  | green
  | yellow
  | blue
  | cyan
  deriving Repr, DecidableEq

/-- The code of a colour. -/
def Colour.code : Colour → Text
  | .red => "31".toList
  | .green => "32".toList
  | .yellow => "33".toList
  | .blue => "34".toList
  | .cyan => "36".toList

/-- How a piece stands out besides its colour. -/
inductive Emphasis where
  | bold
  | dimmed
  deriving Repr, DecidableEq

/-- The code of an emphasis. -/
def Emphasis.code : Emphasis → Text
  | .bold => ['1']
  | .dimmed => ['2']

/-- How a piece of text is shown. -/
structure Ink where
  emphasis? : Option Emphasis
  colour? : Option Colour
  deriving Repr, DecidableEq

namespace Ink

/-- A colour without emphasis. -/
def plain (colour : Colour) : Ink := ⟨none, some colour⟩

/-- A bold colour. -/
def bold (colour : Colour) : Ink := ⟨some .bold, some colour⟩

/-- The codes of an ink, the emphasis first. -/
def codes (ink : Ink) : Text :=
  Text.joinWith [';']
    ((ink.emphasis?.map Emphasis.code).toList ++ (ink.colour?.map Colour.code).toList)

end Ink

/-- Whether colours are used. -/
inductive Palette where
  | plain
  | coloured
  deriving Repr, DecidableEq

namespace Palette

/-- The character that starts a control sequence. -/
def escape : Char := '\x1b'

/-- A text in an ink. -/
def paint (palette : Palette) (ink : Ink) (text : Text) : Text :=
  match palette with
  | .plain => text
  | .coloured => escape :: '[' :: ink.codes ++ 'm' :: text ++ escape :: "[0m".toList

/-- The label of a warning. -/
def warningLabel (palette : Palette) : Text :=
  palette.paint (.bold .yellow) "warning:".toList

/-- The label of an error. -/
def errorLabel (palette : Palette) : Text :=
  palette.paint (.bold .red) "error:".toList

end Palette

/-- The line that says a notice. -/
def Notice.render (palette : Palette) : Notice → Text
  | .defaultConfig =>
      "Note: No ".toList ++ Config.fileName ++ " found, using default configuration\n".toList
  | .warning message => palette.warningLabel ++ ' ' :: message ++ ['\n']

/-- The lines that say some notices. -/
def Notice.renderAll (palette : Palette) (notices : List Notice) : Text :=
  notices.flatMap (Notice.render palette)

end LocalizationScan
