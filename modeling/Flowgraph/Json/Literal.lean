import Flowgraph.Json.Basic
import Flowgraph.Text.Quoted

/-!
# Values in messages

The literal form of a value: texts are quoted, null is `None`, the truth values have a
capital, arrays stand in brackets and objects in braces. `Json.display` leaves a text
that stands by itself unquoted.
-/
namespace Flowgraph

def Binary64.display (x : Binary64) : List Char :=
  x.write "inf".toList "nan".toList

namespace Json

def commaSeparated : List (List Char) → List Char
  | [] => []
  | [s] => s
  | s :: rest => s ++ ',' :: ' ' :: commaSeparated rest

mutual

def literalChars : Json → List Char
  | null => "None".toList
  | bool b => (if b then "True" else "False").toList
  | int i => (toString i).toList
  | float x => x.display
  | str s => Text.quoted s.toList
  | arr items => '[' :: (commaSeparated (literalItems items) ++ [']'])
  | obj fields => Char.ofNat 123 :: (commaSeparated (literalFields fields) ++ [Char.ofNat 125])

def literalItems : List Json → List (List Char)
  | [] => []
  | v :: rest => literalChars v :: literalItems rest

def literalFields : List (String × Json) → List (List Char)
  | [] => []
  | (k, v) :: rest =>
    (Text.quoted k.toList ++ ':' :: ' ' :: literalChars v) :: literalFields rest

end

def literal (v : Json) : String :=
  String.ofList v.literalChars

def display : Json → String
  | str s => s
  | v => v.literal

end Json
end Flowgraph
