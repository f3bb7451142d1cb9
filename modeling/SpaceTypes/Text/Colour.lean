/-!
# Coloured text

Reports mark their keywords with terminal colours. A coloured text is wrapped in the escape
sequence that selects the colour and the one that restores the default foreground.
-/

namespace SpaceTypes.Text

/-- The foreground colours of reports. -/
inductive Colour where
  | red
  | green
  | purple
deriving DecidableEq, Repr

/-- The number that selects the colour in an escape sequence. -/
def Colour.code : Colour → String
  | .red => "31"
  | .green => "32"
  | .purple => "35"

/-- The text between the sequence that selects the colour and the one that resets it. -/
def Colour.paint (colour : Colour) (text : String) : String :=
  "\x1b[" ++ colour.code ++ "m" ++ text ++ "\x1b[39m"

end SpaceTypes.Text
