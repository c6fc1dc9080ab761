import Clipboard.Pattern.Forms
import Clipboard.Text.Split

/-!
Web addresses: a text that is one as a whole, and the first one inside a text.
-/

namespace Clipboard.Link

open Pattern Text

/-- How an address begins. -/
def opening : Pattern :=
  oneOf [
    oneOf [anyCase "http" ++ optional (anyCase "s"), anyCase "ftp"] ++ "://",
    anyCase "www."]

/-- A text that is one address. Text that merely contains one is not a link. -/
def whole : Pattern :=
  opening ++ one (fun c => !isSpace c && noneOf "/$.?#" c) ++ many (!isSpace ·) ++ textEnd

/-- An address within a text. -/
def part : Pattern :=
  opening ++ someOf fun c => !isSpace c && noneOf "<>\"'" c

def isLink (cs : List Char) : Bool := whole.starts (trim cs)

def containsLink (cs : List Char) : Bool := part.found cs

/-- The first address in the text. -/
def first? (cs : List Char) : Option (List Char) := part.firstText? cs

end Clipboard.Link
