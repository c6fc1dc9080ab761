import Clipboard.Pattern.Forms
import Clipboard.Text.Case
import Clipboard.Text.Split

/-!
Colours as they are written in style sheets: hexadecimal, `rgb()`, `hsl()` and by name.
-/

namespace Clipboard

inductive ColorFormat
  | hex | rgb | hsl | named
  deriving DecidableEq, Repr

def ColorFormat.name : ColorFormat → String
  | hex => "hex"
  | rgb => "rgb"
  | hsl => "hsl"
  | named => "named"

/-- A colour literal in lower case and without blanks. -/
structure Color where
  format : ColorFormat
  value : String
  deriving DecidableEq, Repr

namespace Color

open Pattern Text

def isHexDigit (c : Char) : Bool :=
  c.isDigit || ('a' ≤ c && c ≤ 'f') || ('A' ≤ c && c ≤ 'F')

def hexForm : Pattern :=
  "#" ++ oneOf [counted isHexDigit 3 1, counted isHexDigit 6 0, counted isHexDigit 8 0] ++ textEnd

/-- One to three digits and perhaps a fraction. -/
def number : Pattern :=
  optional "-" ++ counted isDigit 1 2 ++ optional ("." ++ someOf isDigit)

def component : Pattern := spaces ++ number ++ optional "%" ++ spaces

def opacity : Pattern :=
  spaces ++ oneOf ["0", "1", optional "0" ++ "." ++ someOf isDigit, counted isDigit 1 2 ++ "%"]
    ++ spaces

def lastComponents : Pattern :=
  "," ++ component ++ "," ++ component ++ optional ("," ++ opacity) ++ ")" ++ textEnd

def rgbForm : Pattern :=
  anyCase "rgb" ++ optional (anyCase "a") ++ "(" ++ component ++ lastComponents

def hslForm : Pattern :=
  anyCase "hsl" ++ optional (anyCase "a") ++ "(" ++ spaces ++ number ++ optional (anyCase "deg")
    ++ spaces ++ lastComponents

def names : List String := [
  "aliceblue", "antiquewhite", "aqua", "aquamarine", "azure", "beige", "bisque", "black",
  "blanchedalmond", "blue", "blueviolet", "brown", "burlywood", "cadetblue", "chartreuse",
  "chocolate", "coral", "cornflowerblue", "cornsilk", "crimson", "cyan", "darkblue", "darkcyan",
  "darkgoldenrod", "darkgray", "darkgreen", "darkgrey", "darkkhaki", "darkmagenta",
  "darkolivegreen", "darkorange", "darkorchid", "darkred", "darksalmon", "darkseagreen",
  "darkslateblue", "darkslategray", "darkslategrey", "darkturquoise", "darkviolet", "deeppink",
  "deepskyblue", "dimgray", "dimgrey", "dodgerblue", "firebrick", "floralwhite", "forestgreen",
  "fuchsia", "gainsboro", "ghostwhite", "gold", "goldenrod", "gray", "green", "greenyellow",
  "grey", "honeydew", "hotpink", "indianred", "indigo", "ivory", "khaki", "lavender",
  "lavenderblush", "lawngreen", "lemonchiffon", "lightblue", "lightcoral", "lightcyan",
  "lightgoldenrodyellow", "lightgray", "lightgreen", "lightgrey", "lightpink", "lightsalmon",
  "lightseagreen", "lightskyblue", "lightslategray", "lightslategrey", "lightsteelblue",
  "lightyellow", "lime", "limegreen", "linen", "magenta", "maroon", "mediumaquamarine",
  "mediumblue", "mediumorchid", "mediumpurple", "mediumseagreen", "mediumslateblue",
  "mediumspringgreen", "mediumturquoise", "mediumvioletred", "midnightblue", "mintcream",
  "mistyrose", "moccasin", "navajowhite", "navy", "oldlace", "olive", "olivedrab", "orange",
  "orangered", "orchid", "palegoldenrod", "palegreen", "paleturquoise", "palevioletred",
  "papayawhip", "peachpuff", "peru", "pink", "plum", "powderblue", "purple", "rebeccapurple",
  "red", "rosybrown", "royalblue", "saddlebrown", "salmon", "sandybrown", "seagreen",
  "seashell", "sienna", "silver", "skyblue", "slateblue", "slategray", "slategrey", "snow",
  "springgreen", "steelblue", "tan", "teal", "thistle", "tomato", "turquoise", "violet",
  "wheat", "white", "whitesmoke", "yellow", "yellowgreen"]

/-- The colour that the whole text is, blanks around it apart. -/
def ofText? (text : List Char) : Option Color :=
  let cs := trim text
  let lowered := lower cs
  if cs.isEmpty then none
  else if hexForm.starts cs then some ⟨.hex, .ofList lowered⟩
  else if rgbForm.starts cs then some ⟨.rgb, .ofList (lowered.filter (!isSpace ·))⟩
  else if hslForm.starts cs then some ⟨.hsl, .ofList (lowered.filter (!isSpace ·))⟩
  else if names.contains (.ofList lowered) then some ⟨.named, .ofList lowered⟩
  else none

end Color

end Clipboard
