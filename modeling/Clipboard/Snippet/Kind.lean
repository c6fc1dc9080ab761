/-!
What a snippet is.
-/

namespace Clipboard

inductive Kind
  | code | link | color | message | quote | tweet | text
  deriving DecidableEq, Repr

namespace Kind

def all : List Kind := [code, link, color, message, quote, tweet, text]

def name : Kind → String
  | code => "code"
  | link => "link"
  | color => "color"
  | message => "message"
  | quote => "quote"
  | tweet => "tweet"
  | text => "text"

def ofName? (s : String) : Option Kind := all.find? (·.name == s)

end Kind

end Clipboard
