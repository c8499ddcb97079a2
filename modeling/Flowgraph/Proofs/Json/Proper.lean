import Flowgraph.Json.Basic
import Flowgraph.Proofs.Decimal.Rounding

/-!
# Proper values

The data types have room for values that never come about: an object with a key twice, or
a number in a form that no rounding yields. The proper values are the others.
-/
namespace Flowgraph

namespace Json

mutual

/-- No object has a key twice, and every number is in its one form. -/
def Proper : Json → Prop
  | float x => x.Canonical
  | arr items => ItemsProper items
  | obj fields => (fields.map (·.1)).Nodup ∧ FieldsProper fields
  | _ => True

def ItemsProper : List Json → Prop
  | [] => True
  | v :: rest => Proper v ∧ ItemsProper rest

def FieldsProper : List (String × Json) → Prop
  | [] => True
  | (_, v) :: rest => Proper v ∧ FieldsProper rest

end

theorem itemsProper_iff {items : List Json} : ItemsProper items ↔ ∀ v ∈ items, v.Proper := by
  induction items with
  | nil => exact ⟨fun _ _ member => False.elim (List.not_mem_nil member), fun _ => trivial⟩
  | cons v items ih => rw [ItemsProper, ih, List.forall_mem_cons]

theorem fieldsProper_iff {fields : List (String × Json)} :
    FieldsProper fields ↔ ∀ f ∈ fields, f.2.Proper := by
  induction fields with
  | nil => exact ⟨fun _ _ member => False.elim (List.not_mem_nil member), fun _ => trivial⟩
  | cons f fields ih => rw [FieldsProper, ih, List.forall_mem_cons]

end Json
end Flowgraph
