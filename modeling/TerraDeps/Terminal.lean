/-!
# Styles of terminal text

A style is switched on by an escape sequence and off by the reset sequence. A reset within painted
text would end the style early, so the style follows it again.
-/

set_option autoImplicit false

namespace TerraDeps

/-- A way to paint text. -/
inductive Style where
  | boldCyan
  | dimmed
  | boldRed
  | yellow
  | green
  deriving DecidableEq, Repr

namespace Style

/-- The parameters by which a terminal knows the style. -/
def code : Style → String
  | boldCyan => "1;36"
  | dimmed => "2"
  | boldRed => "1;31"
  | yellow => "33"
  | green => "32"

/-- The sequence that ends every style. -/
def reset : String := "\x1b[0m"

/-- The sequence that begins the style. -/
def start (style : Style) : String :=
  "\x1b[" ++ style.code ++ "m"

/-- The text in the style, or as it is if there are no colors. -/
def paint (style : Style) (color : Bool) (text : String) : String :=
  if color then
    style.start ++ (reset ++ style.start).intercalate (text.splitOn reset) ++ reset
  else text

end Style

end TerraDeps
