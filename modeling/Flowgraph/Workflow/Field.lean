import Flowgraph.Text.Blank
import Flowgraph.Text.Case
import Flowgraph.Text.Numeral
import Flowgraph.Workflow.Issue

/-!
# Checking fields

The checks of single values, and how a record finds its fields. A field with two
spellings is looked up under the first one, then under the second; a field that is
missing takes its default, which is not checked. Fields of other names are ignored.
-/
namespace Flowgraph

/-- Where a document comes from: a value at hand, or the body of a request. -/
inductive Intake where
  | value
  | body
deriving DecidableEq, Repr

/-- What is said of something that should be a record and is no object. -/
def Intake.recordIssue : Intake → String → IssueKind
  | value, record => .notRecord record
  | body, _ => .notBody

namespace Checked

def record {α : Type} (intake : Intake) (name : String) (check : Fields → Checked α) :
    Json → Checked α
  | .obj fields => check fields
  | _ => issue (intake.recordIssue name)

/-- A field under its name or, failing that, under its other name. -/
def fieldOr {α : Type} (fields : Fields) (name other : String) (default : Option α)
    (check : Json → Checked α) : Checked α :=
  match fields.get? name, fields.get? other with
  | some v, _ => under (.field name) (check v)
  | none, some v => under (.field other) (check v)
  | none, none =>
    match default with
    | some a => .ok a
    | none => under (.field name) (issue .missing)

def field {α : Type} (fields : Fields) (name : String) (default : Option α)
    (check : Json → Checked α) : Checked α :=
  fieldOr fields name name default check

def text : Json → Checked String
  | .str s => .ok s
  | _ => issue .notText

def nonemptyText (v : Json) : Checked String :=
  match text v with
  | .ok s => if s.isEmpty then issue .emptyText else .ok s
  | e => e

def optional {α : Type} (check : Json → Checked α) : Json → Checked (Option α)
  | .null => .ok none
  | v => (check v).map some

def object : Json → Checked Fields
  | .obj fields => .ok fields
  | _ => issue .notObject

def choice {α : Type} (named : String → Option α) (names : List String) (v : Json) : Checked α :=
  match v with
  | .str s =>
    match named s with
    | some a => .ok a
    | none => issue (.notChoice names)
  | _ => issue (.notChoice names)

/-- A number, a truth value or a text that states a number. -/
def number : Json → Checked Binary64
  | .float x => .ok x
  | .bool b => .ok (Binary64.ofInt (if b then 1 else 0))
  | .int i => if (Binary64.ofInt i).isFinite then .ok (Binary64.ofInt i) else issue .notNumber
  | .str s =>
    match Numeral.float? s with
    | some x => .ok x
    | none => issue .unreadableNumber
  | _ => issue .notNumber

/-- A whole number that is written as a decimal is less than this in size, `2 ^ 63`. -/
def wordBound : Nat := 9223372036854775808

/-- A whole number, a truth value or a text that states a whole number. -/
def integer : Json → Checked Int
  | .int i => .ok i
  | .bool b => .ok (if b then 1 else 0)
  | .float x =>
    if !x.isFinite then issue .notFinite
    else match x.toInt? with
      | some i => if i.natAbs < wordBound then .ok i else issue .oversized
      | none => issue .fraction
  | .str s =>
    match Numeral.integer? s with
    | some i => .ok i
    | none => issue .unreadableInteger
  | _ => issue .notInteger

def positive (v : Json) : Checked Int :=
  match integer v with
  | .ok i => if i ≤ 0 then issue .notPositive else .ok i
  | e => e

/-- A truth value, zero or one, or a word for one of the two. -/
def truth : Json → Checked Bool
  | .bool b => .ok b
  | .int 0 => .ok false
  | .int 1 => .ok true
  | .int _ => issue .unreadableTruth
  | .float x =>
    match x.toInt? with
    | some 0 => .ok false
    | some 1 => .ok true
    | _ => issue .notTruth
  | .str s =>
    let word := String.ofList (Text.lower s.toList)
    if ["0", "off", "f", "false", "n", "no"].contains word then .ok false
    else if ["1", "on", "t", "true", "y", "yes"].contains word then .ok true
    else issue .unreadableTruth
  | _ => issue .notTruth

end Checked

end Flowgraph
