import Flowgraph.Workflow.Basic
import Flowgraph.Workflow.Field

/-!
# Reading workflow documents

A document is checked field by field in the order of its declaration. Node ids must
differ; that is looked at only when every node is valid by itself.
-/
namespace Flowgraph

open Checked

def Position.check (intake : Intake) : Json → Checked Position :=
  record intake "NodePosition" fun fields =>
    ap (ap (.ok Position.mk)
      (field fields "x" (some .zero) number))
      (field fields "y" (some .zero) number)

def Node.check (intake : Intake) : Json → Checked Node :=
  record intake "WorkflowNode" fun fields =>
    ap (ap (ap (ap (ap (.ok Node.mk)
      (field fields "id" none nonemptyText))
      (field fields "type" none (choice NodeType.ofName? (NodeType.all.map NodeType.name))))
      (field fields "label" (some "") text))
      (field fields "position" (some {}) (Position.check intake)))
      (field fields "config" (some []) object)

def Edge.check (intake : Intake) : Json → Checked Edge :=
  record intake "WorkflowEdge" fun fields =>
    ap (ap (ap (ap (ap (.ok Edge.mk)
      (field fields "id" none text))
      (field fields "source" none text))
      (field fields "target" none text))
      (fieldOr fields "sourceHandle" "source_handle" (some none) (optional text)))
      (fieldOr fields "targetHandle" "target_handle" (some none) (optional text))

namespace Workflow

/-- The first id that an earlier node has. -/
def repeatedId? (seen : List String) : List Node → Option String
  | [] => none
  | n :: rest => if seen.contains n.id then some n.id else repeatedId? (n.id :: seen) rest

def checkDistinct (nodes : List Node) : Checked (List Node) :=
  match repeatedId? [] nodes with
  | some id => issue (.duplicateNode id)
  | none => .ok nodes

def checkCount {α : Type} (items : List α) : Checked Unit :=
  if nodeLimit < items.length then issue (.longArray nodeLimit items.length) else .ok ()

def checkNodes (intake : Intake) : Json → Checked (List Node)
  | .arr items => do
    checkCount items
    let nodes ← itemsFrom (Node.check intake) 0 items
    checkDistinct nodes
  | _ => issue .notArray

def checkEdges (intake : Intake) : Json → Checked (List Edge)
  | .arr items => itemsFrom (Edge.check intake) 0 items
  | _ => issue .notArray

def checkName (v : Json) : Checked String :=
  match nonemptyText v with
  | .ok s => if nameLimit < s.length then issue (.longText nameLimit) else .ok s
  | e => e

def checkFields (intake : Intake) (now : String) (fields : Fields) : Checked Workflow :=
  ap (ap (ap (ap (ap (ap (ap (ap (ap (.ok Workflow.mk)
    (field fields "id" none nonemptyText))
    (field fields "name" none checkName))
    (field fields "description" (some none) (optional text)))
    (field fields "version" (some formatVersion) text))
    (fieldOr fields "createdAt" "created_at" (some now) text))
    (fieldOr fields "updatedAt" "updated_at" (some now) text))
    (field fields "nodes" (some []) (checkNodes intake)))
    (field fields "edges" (some []) (checkEdges intake)))
    (field fields "metadata" (some none) (optional object))

/-- The workflow that a document describes; its dates are `now` where it has none. -/
def check (intake : Intake) (now : String) : Json → Checked Workflow :=
  record intake "WorkflowDocument" (checkFields intake now)

end Workflow
end Flowgraph
