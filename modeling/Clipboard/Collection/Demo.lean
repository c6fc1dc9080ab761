import Clipboard.Collection.Basic

/-!
Snippets to try the program with, the newest first.
-/

namespace Clipboard

open Calendar (Moment)

/-- What a demo snippet is about. -/
structure Sample where
  content : String
  source : String
  /-- Whether the source is a known program. -/
  isApp : Bool := false
  moment : Moment
  tags : List String
  variant : Variant
  tags_ne_nil : tags ≠ [] := by decide

namespace Sample

def fetchUser : String := "\n".intercalate [
  "const fetchUserData = async (userId) => \x7b",
  "  try \x7b",
  "    const response = await api.get(\x60/users/$\x7buserId\x7d\x60);",
  "    return response.data;",
  "  \x7d catch (error) \x7b",
  "    console.error('Error fetching user data:', error);",
  "    return null;",
  "  \x7d",
  "\x7d;"]

def code : Sample where
  content := fetchUser
  source := "VS Code"
  isApp := true
  moment := ⟨⟨2025, 5, 2, by decide, by decide, by decide⟩, ⟨14, 34, 0, 0, none, by decide⟩⟩
  tags := ["typescript", "api"]
  variant := .code (.text "src/utils/api.ts")

def tweet : Sample where
  content := "Just launched our new design system! Check out how we're using Figma and "
    ++ "React to create a seamless workflow between design and development. "
    ++ "#designsystem #frontend"
  source := "Twitter"
  moment := ⟨⟨2025, 5, 2, by decide, by decide, by decide⟩, ⟨13, 15, 0, 0, none, by decide⟩⟩
  tags := ["design", "announcement"]
  variant := .tweet (.text "@designer")

def quote : Sample where
  content := "The best way to predict the future is to invent it. The future is not laid "
    ++ "out on a track. It is something that we can decide, and to the extent that "
    ++ "we do not violate any known laws of the universe, we can probably make it "
    ++ "work the way that we want to."
  source := "Medium"
  moment := ⟨⟨2025, 5, 1, by decide, by decide, by decide⟩, ⟨11, 22, 0, 0, none, by decide⟩⟩
  tags := ["inspiration", "quote"]
  variant := .quote (.text "Alan Kay")

def groceries : Sample where
  content := "Pick up groceries: eggs, milk, bread, avocados, chicken, pasta"
  source := "Notes"
  isApp := true
  moment := ⟨⟨2025, 5, 1, by decide, by decide, by decide⟩, ⟨9, 42, 0, 0, none, by decide⟩⟩
  tags := ["todo", "text"]
  variant := .text

def reference : Sample where
  content := "https://react.dev/reference/react"
  source := "Browser"
  moment := ⟨⟨2025, 4, 30, by decide, by decide, by decide⟩, ⟨16, 18, 0, 0, none, by decide⟩⟩
  tags := ["resource", "reference"]
  variant := .link (.text "React Documentation")

def message : Sample where
  content := "Hey, can you send me the latest design mockups for the dashboard? "
    ++ "I need to implement those changes by Friday."
  source := "iMessage"
  isApp := true
  moment := ⟨⟨2025, 4, 30, by decide, by decide, by decide⟩, ⟨13, 35, 0, 0, none, by decide⟩⟩
  tags := ["work", "design"]
  variant := .message (.text "Alex Chen")

def all : List Sample := [code, tweet, quote, groceries, reference, message]

/-- The snippet for a sample. -/
def toSnippet (s : Sample) (id : String) : Snippet where
  id := .text id
  content := .text s.content
  source := .text s.source
  app := if s.isApp then some ⟨.text s.source, none⟩ else none
  moment := s.moment
  tags := s.tags.map .text
  variant := s.variant
  tags_ne_nil := by simpa using s.tags_ne_nil

end Sample

namespace Collection

/-- Adds the samples that are not there yet. Each sample draws an identifier, added or not. -/
def addDemo (newId : Nat → String) (c : Collection) : Outcome (List Snippet) :=
  let samples := Sample.all.mapIdx fun i s => s.toSnippet (newId (c.drawn + i))
  { c with drawn := c.drawn + samples.length }.add (samples.map .own)

end Collection

end Clipboard
