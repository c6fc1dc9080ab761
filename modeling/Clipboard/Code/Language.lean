import Clipboard.Text.Case
import Clipboard.Text.Split

/-!
The programming languages that are told apart, their names and their short names.
-/

namespace Clipboard

/-- In the order in which signatures are tried. -/
inductive Language
  | python | javascript | typescript | html | css | java | cpp | csharp | rust | go | sql | php
  | ruby | bash
  deriving DecidableEq, Repr

namespace Language

open Text

def all : List Language :=
  [python, javascript, typescript, html, css, java, cpp, csharp, rust, go, sql, php, ruby, bash]

def name : Language → String
  | python => "python"
  | javascript => "javascript"
  | typescript => "typescript"
  | html => "html"
  | css => "css"
  | java => "java"
  | cpp => "cpp"
  | csharp => "csharp"
  | rust => "rust"
  | go => "go"
  | sql => "sql"
  | php => "php"
  | ruby => "ruby"
  | bash => "bash"

/-- The language with this name. -/
def ofName? (s : String) : Option Language := all.find? (·.name == s)

/-- Other names in use. -/
def aliases : List (String × Language) := [
  ("js", javascript), ("node", javascript), ("nodejs", javascript), ("py", python),
  ("python3", python), ("ts", typescript), ("c++", cpp), ("cplusplus", cpp), ("c#", csharp),
  ("cs", csharp), ("golang", go), ("sh", bash), ("shell", bash), ("zsh", bash), ("rb", ruby),
  ("htm", html), ("postgres", sql), ("mysql", sql)]

def ofAlias? (s : String) : Option Language := aliases.lookup s

/-- The language with this name or other name. -/
def named? (s : String) : Option Language := ofName? s <|> ofAlias? s

/-- The usual name for a language as a person writes it; an unknown name is only lowered. -/
def normalize (s : String) : String :=
  let key := lowerString (trimString s)
  ((ofAlias? key).map name).getD key

/-- Whether a wanted language agrees with a detected one. One name inside the other is enough, so
`java` also finds `javascript`. -/
def agrees (wanted : String) (detected : Option String) : Bool :=
  match detected with
  | none => false
  | some d =>
    if d.isEmpty then false
    else
      let a := (normalize wanted).toList
      let b := (normalize d).toList
      a.isEmpty || hasPart a b || hasPart b a

/-- Characters of a language's name within a phrase. -/
def isNameChar (c : Char) : Bool := c.isLower || c.isDigit || c == '+' || c == '#'

/-- The first language that the text names. -/
def mentioned? (s : String) : Option Language :=
  (pieces (!isNameChar ·) (lower s.toList)).findSome? fun w => named? (.ofList w)

end Language

end Clipboard
