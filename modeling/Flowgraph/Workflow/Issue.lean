import Flowgraph.Json.Access

/-!
# Issues of a document

What is wrong with a document, and where. A check goes on after an issue, so that all
of them are reported: `Checked.ap` joins the issues of two parts in order.
-/
namespace Flowgraph

/-- One step of the way to a place in a document. -/
inductive Place where
  | field (name : String)
  | index (i : Nat)
deriving DecidableEq, Repr

inductive IssueKind where
  | missing
  | notText
  | emptyText
  | longText (limit : Nat)
  | notChoice (choices : List String)
  | notObject
  | notArray
  | notRecord (record : String)
  | notBody
  | longArray (limit actual : Nat)
  | duplicateNode (id : String)
  | notNumber
  | unreadableNumber
  | notInteger
  | unreadableInteger
  | fraction
  | notFinite
  | oversized
  | notPositive
  | notTruth
  | unreadableTruth
  | brokenJson
deriving DecidableEq, Repr

namespace IssueKind

def code : IssueKind → String
  | missing => "missing"
  | notText => "string_type"
  | emptyText => "string_too_short"
  | longText _ => "string_too_long"
  | notChoice _ => "enum"
  | notObject => "dict_type"
  | notArray => "list_type"
  | notRecord _ => "model_type"
  | notBody => "model_attributes_type"
  | longArray .. => "too_long"
  | duplicateNode _ => "value_error"
  | notNumber => "float_type"
  | unreadableNumber => "float_parsing"
  | notInteger => "int_type"
  | unreadableInteger => "int_parsing"
  | fraction => "int_from_float"
  | notFinite => "finite_number"
  | oversized => "int_parsing_size"
  | notPositive => "greater_than"
  | notTruth => "bool_type"
  | unreadableTruth => "bool_parsing"
  | brokenJson => "json_invalid"

/-- Names in single quotes, the last one after "or". -/
def alternatives : List String → String
  | [] => ""
  | [a] => "'" ++ a ++ "'"
  | [a, b] => "'" ++ a ++ "' or '" ++ b ++ "'"
  | a :: rest => "'" ++ a ++ "', " ++ alternatives rest

def message : IssueKind → String
  | missing => "Field required"
  | notText => "Input should be a valid string"
  | emptyText => "String should have at least 1 character"
  | longText limit => "String should have at most " ++ toString limit ++ " characters"
  | notChoice choices => "Input should be " ++ alternatives choices
  | notObject => "Input should be a valid dictionary"
  | notArray => "Input should be a valid list"
  | notRecord record => "Input should be a valid dictionary or instance of " ++ record
  | notBody => "Input should be a valid dictionary or object to extract fields from"
  | longArray limit actual =>
    "List should have at most " ++ toString limit ++ " items after validation, not " ++
      toString actual
  | duplicateNode id => "Value error, Duplicate node id: " ++ id
  | notNumber => "Input should be a valid number"
  | unreadableNumber => "Input should be a valid number, unable to parse string as a number"
  | notInteger => "Input should be a valid integer"
  | unreadableInteger => "Input should be a valid integer, unable to parse string as an integer"
  | fraction => "Input should be a valid integer, got a number with a fractional part"
  | notFinite => "Input should be a finite number"
  | oversized => "Unable to parse input string as an integer, exceeded maximum size"
  | notPositive => "Input should be greater than 0"
  | notTruth => "Input should be a valid boolean"
  | unreadableTruth => "Input should be a valid boolean, unable to interpret input"
  | brokenJson => "JSON decode error"

end IssueKind

structure Issue where
  kind : IssueKind
  place : List Place
deriving DecidableEq, Repr

abbrev Checked (α : Type) := Except (List Issue) α

namespace Checked

def issue {α : Type} (kind : IssueKind) : Checked α :=
  .error [⟨kind, []⟩]

/-- Applies a checked function to a checked value, reporting the issues of both. -/
def ap {α β : Type} (f : Checked (α → β)) (x : Checked α) : Checked β :=
  match f, x with
  | .ok f, .ok a => .ok (f a)
  | .ok _, .error e => .error e
  | .error e, .ok _ => .error e
  | .error e, .error e' => .error (e ++ e')

/-- Puts the issues of a part under the part's place. -/
def under {α : Type} (place : Place) (x : Checked α) : Checked α :=
  x.mapError (·.map fun i => { i with place := place :: i.place })

theorem ap_eq_ok {α β : Type} {f : Checked (α → β)} {x : Checked α} {b : β} :
    ap f x = .ok b ↔ ∃ g a, f = .ok g ∧ x = .ok a ∧ g a = b := by
  cases f <;> cases x <;> simp [ap]

theorem under_eq_ok {α : Type} {place : Place} {x : Checked α} {a : α} :
    under place x = .ok a ↔ x = .ok a := by
  cases x with
  | ok b => exact Iff.rfl
  | error e => exact ⟨nofun, nofun⟩

/-- Checks the members of a list, the first of which has a given index. -/
def itemsFrom {α : Type} (check : Json → Checked α) (index : Nat) : List Json → Checked (List α)
  | [] => .ok []
  | v :: rest =>
    ap (ap (.ok List.cons) (under (.index index) (check v))) (itemsFrom check (index + 1) rest)

end Checked
end Flowgraph
