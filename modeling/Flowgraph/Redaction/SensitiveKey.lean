import Flowgraph.Json.Basic
import Flowgraph.Redaction.Credential
import Flowgraph.Text.Occurrence

/-!
# Sensitive keys

A key is sensitive when one of a few words stands anywhere in it, in any case.
-/
namespace Flowgraph.SensitiveKey

def words : List (List Char) :=
  ["token", "password", "secret", "apikey", "api_key", "api-key", "authorization"].map
    String.toList

def isSensitive (key : String) : Bool :=
  words.any (Text.occursIn · (key.toList.map Credential.fold))

/-- Whether a value is a text that is sensitive as a key. -/
def isSensitiveValue : Json → Bool
  | .str s => isSensitive s
  | _ => false

end Flowgraph.SensitiveKey
