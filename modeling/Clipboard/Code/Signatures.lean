import Clipboard.Pattern.Forms
import Clipboard.Code.Language

/-!
What gives a language away: for each language the patterns that only its source is likely to
match. The languages are tried in their order and the first hit decides.
-/

namespace Clipboard.Language

open Pattern Text

/-- The start of a line and the blanks that follow. -/
def indent : Pattern := lineStart ++ spaces

/-- Blanks up to the end of a line. -/
def toLineEnd : Pattern := spaces ++ lineEnd

def quote : Pattern := one (among "'\"")

def declared : Pattern := wordEdge ++ oneOf ["const", "let", "var"] ++ someSpaces

def pythonSignatures : List Pattern := [
  indent ++ "def " ++ wordChars ++ "(" ++ many onLine ++ ")" ++ spaces
    ++ optional ("->" ++ spaces ++ someOf (fun c => isWord c || among "[], ." c)) ++ ":"
    ++ toLineEnd,
  indent ++ "from " ++ someOf (fun c => isWord c || c == '.') ++ " import "
    ++ someOf (fun c => isWord c || among "*, ()" c) ++ toLineEnd,
  indent ++ "import " ++ someOf (fun c => isWord c || c == '.')
    ++ optional (" as " ++ wordChars) ++ toLineEnd,
  indent ++ "class " ++ wordChars
    ++ optional ("(" ++ many (fun c => isWord c || among "., " c) ++ ")") ++ ":" ++ toLineEnd,
  indent ++ "elif " ++ someOf onLine ++ ":" ++ toLineEnd,
  wordEdge ++ "self." ++ wordChars,
  "if __name__ == " ++ quote ++ "__main__" ++ quote,
  indent ++ "print(" ++ many onLine ++ ")" ++ toLineEnd]

def javascriptSignatures : List Pattern := [
  declared ++ someOf (fun c => isWord c || c == '$') ++ spaces ++ "=" ++ notBefore "=",
  wordEdge ++ "function" ++ spaces ++ many (fun c => isWord c || c == '$') ++ spaces ++ "("
    ++ many (· != ')') ++ ")" ++ spaces ++ "\x7b",
  "(" ++ many (noneOf "()") ++ ")" ++ spaces ++ "=>",
  wordEdge ++ "console." ++ oneOf ["log", "error", "warn"] ++ "(",
  wordEdge ++ "document." ++ wordChars,
  wordEdge ++ "require(" ++ quote,
  indent ++ "import " ++ someOf onLine ++ " from " ++ quote,
  indent ++ "export " ++ oneOf ["default", "const", "function", "class"] ++ wordEdge]

def typescriptSignatures : List Pattern := [
  declared ++ wordChars ++ spaces ++ ":" ++ spaces ++ wordChars,
  ":" ++ spaces ++ oneOf ["string", "number", "boolean", "any", "void", "unknown", "never"]
    ++ wordEdge,
  indent ++ optional ("export" ++ someSpaces) ++ "interface " ++ wordChars ++ spaces
    ++ optional ("extends " ++ someOf (fun c => isWord c || c == ',' || c == ' ')) ++ "\x7b",
  indent ++ optional ("export" ++ someSpaces) ++ "type " ++ wordChars ++ spaces ++ "=",
  wordEdge ++ "as const" ++ wordEdge]

def htmlSignatures : List Pattern := [
  anyCase "<!DOCTYPE html",
  "<" ++ anyCaseOf ["html", "head", "body", "div", "span", "p", "a", "ul", "ol", "li", "script",
    "style", "section", "nav", "img", "form", "input", "button", "table"] ++ wordEdge
    ++ many (· != '>') ++ ">"]

def cssSignatures : List Pattern :=
  let dashed := someOf (fun c => isWord c || c == '-')
  [ indent ++ optional (one (among ".#")) ++ dashed
      ++ star (one (fun c => isSpace c || among ">+~.#:" c) ++ dashed) ++ spaces ++ "\x7b"
      ++ many (· != '\x7d') ++ dashed ++ spaces ++ ":" ++ spaces
      ++ someOf (noneOf ";\x7b\x7d") ++ ";",
    indent ++ "@" ++ oneOf ["media", "import", "keyframes", "font-face"] ++ wordEdge]

def javaSignatures : List Pattern := [
  wordEdge ++ "public" ++ someSpaces ++ optional ("static" ++ someSpaces)
    ++ optional ("final" ++ someSpaces) ++ oneOf ["class", "void", "int", "String", "boolean"]
    ++ wordEdge,
  wordEdge ++ "System.out.print",
  indent ++ "import java.",
  indent ++ "package " ++ someOf (fun c => isWord c || c == '.') ++ ";"]

def cppSignatures : List Pattern := [
  indent ++ "#include" ++ spaces ++ one (among "<\""),
  wordEdge ++ "std::" ++ wordChars,
  wordEdge ++ "cout" ++ spaces ++ "<<",
  wordEdge ++ "template" ++ spaces ++ "<"]

def csharpSignatures : List Pattern := [
  indent ++ "using System" ++ optional ("." ++ someOf (fun c => isWord c || c == '.')) ++ ";",
  indent ++ "namespace " ++ someOf (fun c => isWord c || c == '.'),
  wordEdge ++ "Console.Write" ++ optional "Line" ++ "(",
  "\x7b" ++ spaces ++ "get;" ++ spaces ++ "set;" ++ spaces ++ "\x7d"]

def rustSignatures : List Pattern := [
  wordEdge ++ "fn " ++ wordChars ++ spaces ++ optional ("<" ++ many (· != '>') ++ ">") ++ "(",
  wordEdge ++ "let mut " ++ wordChars,
  wordEdge ++ "println!(",
  indent ++ "impl" ++ wordEdge,
  indent ++ "use " ++ oneOf ["std", "crate"] ++ "::"]

def goSignatures : List Pattern := [
  indent ++ "package " ++ wordChars ++ toLineEnd,
  wordEdge ++ "func " ++ optional ("(" ++ many (· != ')') ++ ")" ++ spaces) ++ wordChars ++ "(",
  wordEdge ++ "fmt." ++ wordChars ++ "(",
  wordChars ++ spaces ++ ":=" ++ spaces]

def sqlSignatures : List Pattern := [
  wordEdge ++ anyCase "SELECT" ++ wordEdge ++ one (fun _ => true) ++ fewest (fun _ => true)
    ++ wordEdge ++ anyCase "FROM" ++ wordEdge,
  wordEdge ++ anyCase "INSERT" ++ someSpaces ++ anyCase "INTO" ++ wordEdge,
  wordEdge ++ anyCase "UPDATE" ++ someSpaces ++ wordChars ++ someSpaces ++ anyCase "SET"
    ++ wordEdge,
  wordEdge ++ anyCase "CREATE" ++ someSpaces ++ anyCaseOf ["TABLE", "INDEX", "VIEW"] ++ wordEdge,
  wordEdge ++ anyCase "DELETE" ++ someSpaces ++ anyCase "FROM" ++ wordEdge]

def phpSignatures : List Pattern := [
  "<?php",
  "$" ++ wordChars ++ spaces ++ "=" ++ spaces ++ one (· != '='),
  "$this->" ++ wordChars,
  indent ++ "echo" ++ someSpaces ++ one (among "'\"$")]

def rubySignatures : List Pattern := [
  indent ++ "def " ++ wordChars ++ optional (one (among "?!"))
    ++ optional ("(" ++ many onLine ++ ")") ++ toLineEnd,
  indent ++ "puts" ++ one isSpace,
  ".each" ++ optional "_with_index" ++ " do |",
  indent ++ "require " ++ quote,
  indent ++ "end" ++ toLineEnd]

def bashSignatures : List Pattern := [
  lineStart ++ "#!/" ++ optional "usr/" ++ "bin/" ++ optional ("env" ++ someSpaces)
    ++ optional (oneOf ["ba", "z"]) ++ "sh",
  indent ++ oneOf [anyCase "sudo", anyCase "apt" ++ optional (anyCase "-get"),
    anyCaseOf ["brew", "npm", "yarn", "pip", "git", "cd", "ls", "echo", "export", "curl", "wget",
      "chmod", "mkdir", "rm", "docker"]] ++ one isSpace,
  indent ++ oneOf ["fi", "done", "esac"] ++ toLineEnd]

def signatures : Language → List Pattern
  | python => pythonSignatures
  | javascript => javascriptSignatures
  | typescript => typescriptSignatures
  | html => htmlSignatures
  | css => cssSignatures
  | java => javaSignatures
  | cpp => cppSignatures
  | csharp => csharpSignatures
  | rust => rustSignatures
  | go => goSignatures
  | sql => sqlSignatures
  | php => phpSignatures
  | ruby => rubySignatures
  | bash => bashSignatures

/-- The first language with a signature in the text. -/
def ofMarkers? (cs : List Char) : Option Language :=
  all.find? fun l => l.signatures.any (·.found cs)

end Clipboard.Language
