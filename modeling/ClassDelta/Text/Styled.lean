/-!
# Styled text

A `StyledText` is text with changes of style in it.  `plain` drops the styles,
and `ansi` writes them as terminal control sequences.
-/

namespace ClassDelta

/-- The colours a report uses. -/
inductive Colour
  | red
  | green
  | yellow
  | magenta
deriving DecidableEq

/-- How text looks. -/
inductive Style
  | coloured (colour : Colour)
  | bold
  | dimmed
deriving DecidableEq

/-- A piece of text, or a change to how the text behind it looks. -/
inductive StyledPiece
  | text (content : String)
  | start (style : Style)
  /-- Back to how text looks by default. -/
  | reset
deriving DecidableEq

abbrev StyledText := List StyledPiece

namespace Colour

/-- The number of the colour in control sequences. -/
def code : Colour → Nat
  | red => 31
  | green => 32
  | yellow => 33
  | magenta => 35

end Colour

namespace Style

/-- The number of the style in control sequences. -/
def code : Style → Nat
  | coloured colour => colour.code
  | bold => 1
  | dimmed => 2

end Style

namespace StyledPiece

/-- A control sequence that sets one property. -/
def control (code : Nat) : String := "\x1b[" ++ code.repr ++ "m"

/-- The piece without styles. -/
def plain : StyledPiece → String
  | text content => content
  | start _ | reset => ""

/-- The piece with its style as control sequences.  A style starts from the
default look. -/
def ansi : StyledPiece → String
  | text content => content
  | start style => control 0 ++ control style.code
  | reset => control 0

end StyledPiece

namespace StyledText

/-- Text in a style, and the default look behind it. -/
def styled (style : Style) (content : String) : StyledText :=
  [.start style, .text content, .reset]

def plain (content : StyledText) : String := String.join (content.map StyledPiece.plain)

def ansi (content : StyledText) : String := String.join (content.map StyledPiece.ansi)

/-- The text with or without control sequences. -/
def render (colours : Bool) (content : StyledText) : String :=
  if colours then content.ansi else content.plain

end StyledText

end ClassDelta
