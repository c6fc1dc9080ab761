import Clipboard.Text.Case
import Clipboard.Text.Split

/-!
Who provides a model, and the variable of the environment that has to hold the key for it.
-/

namespace Clipboard.Remote

/-- Variables of the environment with their values. -/
abbrev Environment := List (String × String)

/-- The provider that a model's name begins with. -/
def providerOf (model : String) : String :=
  match Text.cutAt '/' model.toList with
  | (provider, some _) => .ofList (Text.lower provider)
  | (_, none) => "openai"

/-- Providers that run on the same machine and need no key. -/
def localProviders : List String := ["ollama", "ollama_chat"]

/-- The variable for a provider's key; local providers need none. -/
def keyVariable? (provider : String) : Option String :=
  if localProviders.contains provider then none
  else if provider == "together_ai" then some "TOGETHERAI_API_KEY"
  else some (.ofList (Text.upper provider.toList) ++ "_API_KEY")

structure MissingKey where
  provider : String
  keyName : String

def MissingKey.message (m : MissingKey) : String :=
  "API key not found for provider '" ++ m.provider ++ "'. Set the " ++ m.keyName
    ++ " environment variable."

/-- Whether the key for a model is there and not empty. -/
def checkKey (env : Environment) (model : String) : Except MissingKey Unit :=
  let provider := providerOf model
  match keyVariable? provider with
  | none => .ok ()
  | some v => if (env.lookup v).any (!·.isEmpty) then .ok () else .error ⟨provider, v⟩

end Clipboard.Remote
