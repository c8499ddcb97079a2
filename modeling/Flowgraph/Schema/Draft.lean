import Flowgraph.Fault
import Flowgraph.Json.Literal

/-!
# Schema drafts

The editions of the schema language. A schema names its draft by an address, which may
end in an empty fragment. Any other text, and none, means the latest draft.
-/
namespace Flowgraph

inductive Draft where
  | draft4
  | draft6
  | draft7
  | draft2019
  | draft2020
deriving DecidableEq, Repr

namespace Draft

def all : List Draft := [draft4, draft6, draft7, draft2019, draft2020]

def latest : Draft := draft2020

/-- The place of a draft in time. -/
def age : Draft → Nat
  | draft4 => 4
  | draft6 => 6
  | draft7 => 7
  | draft2019 => 8
  | draft2020 => 9

def site (path : String) : String :=
  "://json-schema.org/" ++ path

def address : Draft → String
  | draft4 => "http" ++ site "draft-04/schema"
  | draft6 => "http" ++ site "draft-06/schema"
  | draft7 => "http" ++ site "draft-07/schema"
  | draft2019 => "https" ++ site "draft/2019-09/schema"
  | draft2020 => "https" ++ site "draft/2020-12/schema"

def dropEmptyFragment (s : String) : String :=
  if s.toList.getLast? = some '#' then String.ofList s.toList.dropLast else s

def ofAddress? (s : String) : Option Draft :=
  all.find? (·.address == dropEmptyFragment s)

/-- The draft that a schema names; `default` where it names none. -/
def ofSchema (default : Draft) (schema : Json) : Except Fault Draft :=
  match schema with
  | .obj fields =>
    match fields.lookup "$schema" with
    | some (.str s) => .ok ((ofAddress? s).getD default)
    | some (.arr _) => .error (.unhashable "list")
    | some (.obj _) => .error (.unhashable "dict")
    | some v => if v.truthy then .error (.noAttribute v.kind "decode") else .ok default
    | none => .ok default
  | _ => .ok default

/-- In the oldest draft a floating-point number is no integer. -/
def isInteger (d : Draft) : Json → Bool
  | .int _ => true
  | .float x => d != draft4 && x.toInt?.isSome
  | _ => false

def isNumber : Json → Bool
  | .int _ | .float _ => true
  | _ => false

/-- Whether a value has the type of a name. -/
def hasType (d : Draft) (v : Json) (name : String) : Bool :=
  match v with
  | .null => name == "null"
  | .bool _ => name == "boolean"
  | .str _ => name == "string"
  | .arr _ => name == "array"
  | .obj _ => name == "object"
  | v => isNumber v && (name == "number" || (name == "integer" && d.isInteger v))

end Draft
end Flowgraph
