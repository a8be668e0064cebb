/-!
# Styled text

Text for a terminal that can show it bold, dim or in a colour. Where styles are switched off, a
styled text is the text itself.

* `Style.apply` writes a text in a style.
-/

namespace EditorInsight.Cli

/-- The weight of a text. -/
inductive Weight where
  | bold
  | dim
deriving DecidableEq, Repr

/-- The colour of a text. -/
inductive Color where
  | red
  | green
  | yellow
  | cyan
deriving DecidableEq, Repr

/-- How a text is shown. -/
structure Style where
  /-- The weight, if it is not the usual one. -/
  weight : Option Weight := none
  /-- The colour, if it is not the usual one. -/
  color : Option Color := none
deriving DecidableEq, Repr

namespace Style

/-- The code of a weight. -/
def weightCode : Weight → String
  | .bold => "1"
  | .dim => "2"

/-- The code of a colour. -/
def colorCode : Color → String
  | .red => "31"
  | .green => "32"
  | .yellow => "33"
  | .cyan => "36"

/-- The codes of a style, the weight first. -/
def codes (s : Style) : List String :=
  (s.weight.map weightCode).toList ++ (s.color.map colorCode).toList

/-- The sequence that switches a style on. -/
def on (s : Style) : String := "\x1b[" ++ ";".intercalate s.codes ++ "m"

/-- The sequence that switches every style off. -/
def off : String := "\x1b[0m"

/-- The text with the style switched on again wherever the text itself switches styles off. -/
def restored (s : Style) (text : String) : String := (off ++ s.on).intercalate (text.splitOn off)

/-- A text in a style, if styles are shown at all. -/
def apply (s : Style) (shown : Bool) (text : String) : String :=
  if shown then s.on ++ s.restored text ++ off else text

/-- Bold text. -/
def bold : Style := { weight := some .bold }

/-- Dim text. -/
def dim : Style := { weight := some .dim }

/-- Red text. -/
def red : Style := { color := some .red }

/-- Green text. -/
def green : Style := { color := some .green }

/-- Yellow text. -/
def yellow : Style := { color := some .yellow }

/-- Cyan text. -/
def cyan : Style := { color := some .cyan }

/-- Bold green text. -/
def boldGreen : Style := { weight := some .bold, color := some .green }

/-- Bold yellow text. -/
def boldYellow : Style := { weight := some .bold, color := some .yellow }

end Style

end EditorInsight.Cli
