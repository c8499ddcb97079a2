import Flowgraph.Proofs.Json.Proper
import Flowgraph.Proofs.Sequencing
import Flowgraph.Workflow.Reader

/-!
# What the checks accept

A check succeeds with a record exactly if the check of each field succeeds with the field of
the record. A document that is accepted is therefore `Workflow.Valid`: its ids and its name
are written, it is within the limits, and no two nodes have one id. If it comes from a proper
value, it is `Workflow.WellTyped` as well.
-/
namespace Flowgraph

namespace Checked

variable {α : Type} {fields : Fields} {name other s : String} {default : Option α}
  {check : Json → Checked α} {v : Json} {a : α}

/-! ## Fields -/

/-- The value under the first of the two names of a field that is there. -/
def given (fields : Fields) (name other : String) : Option Json :=
  (fields.get? name).or (fields.get? other)

theorem fieldOr_eq_ok : fieldOr fields name other default check = .ok a ↔
    (∃ v, given fields name other = some v ∧ check v = .ok a) ∨
      given fields name other = none ∧ default = some a := by
  unfold fieldOr given
  cases fields.get? name with
  | some v => simp [under_eq_ok]
  | none =>
    cases fields.get? other with
    | some v => simp [under_eq_ok]
    | none =>
      cases default with
      | some b => simp
      | none => simp [under_eq_ok, issue]

theorem field_eq_ok : field fields name default check = .ok a ↔
    (∃ v, fields.get? name = some v ∧ check v = .ok a) ∨
      fields.get? name = none ∧ default = some a := by
  rw [field, fieldOr_eq_ok, given, Option.or_self]

/-- A field without a default is there. -/
theorem field_required : field fields name none check = .ok a ↔
    ∃ v, fields.get? name = some v ∧ check v = .ok a := by
  rw [field_eq_ok]
  simp

theorem record_eq_ok {intake : Intake} {check : Fields → Checked α} :
    record intake name check v = .ok a ↔ ∃ fields, v = .obj fields ∧ check fields = .ok a := by
  cases v <;> simp [record, issue]

/-! ## Single values -/

theorem text_eq_ok : text v = .ok s ↔ v = .str s := by
  cases v <;> simp [text, issue]

theorem nonemptyText_eq_ok : nonemptyText v = .ok s ↔ v = .str s ∧ s ≠ "" := by
  cases v with
  | str t =>
    simp only [nonemptyText, text, String.isEmpty_iff, Json.str.injEq]
    split
    · rename_i empty
      exact ⟨nofun, fun ⟨same, written⟩ => absurd (same ▸ empty) written⟩
    · rename_i written
      exact ⟨fun h => ⟨Except.ok.inj h, Except.ok.inj h ▸ written⟩, fun ⟨same, _⟩ => same ▸ rfl⟩
  | null | bool | int | float | arr | obj => simp [nonemptyText, text, issue]

theorem object_eq_ok {found : Fields} : object v = .ok found ↔ v = .obj found := by
  cases v <;> simp [object, issue]

theorem choice_eq_ok {named : String → Option α} {names : List String} :
    choice named names v = .ok a ↔ ∃ s, v = .str s ∧ named s = some a := by
  cases v with
  | str s =>
    simp only [choice]
    cases found : named s with
    | none => simp [issue, found]
    | some b => simp [found]
  | null | bool | int | float | arr | obj => simp [choice, issue]

theorem optional_eq_ok {found : Option α} : optional check v = .ok found ↔
    v = .null ∧ found = none ∨ v ≠ .null ∧ ∃ a, check v = .ok a ∧ found = some a := by
  cases v with
  | null => simp [optional, eq_comm]
  | bool | int | float | str | arr | obj =>
    simp only [optional, reduceCtorEq, false_and, ne_eq, not_false_eq_true, true_and, false_or]
    cases check _ <;> simp [Except.map, eq_comm]

theorem itemsFrom_eq_ok {index : Nat} {items : List Json} {found : List α} :
    itemsFrom check index items = .ok found ↔
      List.Forall₂ (fun v a => check v = .ok a) items found := by
  induction items generalizing index found with
  | nil => simp [itemsFrom, eq_comm]
  | cons v items ih =>
    simp only [itemsFrom, ap_eq_ok, under_eq_ok, ih, List.forall₂_cons_left_iff, Except.ok.injEq,
      ↓existsAndEq, true_and, and_true]
    constructor
    · rintro ⟨rest, a, checked, others, rfl⟩
      exact ⟨a, rest, checked, others, rfl⟩
    · rintro ⟨a, rest, checked, others, rfl⟩
      exact ⟨rest, a, checked, others, rfl⟩

end Checked

open Checked

/-! ## Records -/

variable {intake : Intake} {now : String} {v : Json}

theorem Position.check_eq_ok {p : Position} : Position.check intake v = .ok p ↔
    ∃ fields, v = .obj fields ∧
      field fields "x" (some .zero) number = .ok p.x ∧
      field fields "y" (some .zero) number = .ok p.y := by
  cases p
  simp only [check, record_eq_ok, ap_eq_ok, Except.ok.injEq, ↓existsAndEq, true_and, and_true,
    Position.mk.injEq]

theorem Node.check_eq_ok {n : Node} : Node.check intake v = .ok n ↔
    ∃ fields, v = .obj fields ∧
      field fields "id" none nonemptyText = .ok n.id ∧
      field fields "type" none
        (choice NodeType.ofName? (NodeType.all.map NodeType.name)) = .ok n.type ∧
      field fields "label" (some "") text = .ok n.label ∧
      field fields "position" (some {}) (Position.check intake) = .ok n.position ∧
      field fields "config" (some []) object = .ok n.config := by
  cases n
  simp only [check, record_eq_ok, ap_eq_ok, Except.ok.injEq, ↓existsAndEq, true_and, and_true,
    and_assoc, Node.mk.injEq]

/-- A node of which every field is given. -/
theorem Node.check_full_eq_ok {id type label position config : Json} {n : Node} :
    Node.check intake (.obj [("id", id), ("type", type), ("label", label),
        ("position", position), ("config", config)]) = .ok n ↔
      nonemptyText id = .ok n.id ∧
      choice NodeType.ofName? (NodeType.all.map NodeType.name) type = .ok n.type ∧
      text label = .ok n.label ∧ Position.check intake position = .ok n.position ∧
      object config = .ok n.config := by
  simp [Node.check_eq_ok, field_eq_ok, Fields.get?_cons]

theorem Edge.check_eq_ok {e : Edge} : Edge.check intake v = .ok e ↔
    ∃ fields, v = .obj fields ∧
      field fields "id" none text = .ok e.id ∧
      field fields "source" none text = .ok e.source ∧
      field fields "target" none text = .ok e.target ∧
      fieldOr fields "sourceHandle" "source_handle" (some none) (optional text) =
        .ok e.sourceHandle ∧
      fieldOr fields "targetHandle" "target_handle" (some none) (optional text) =
        .ok e.targetHandle := by
  cases e
  simp only [check, record_eq_ok, ap_eq_ok, Except.ok.injEq, ↓existsAndEq, true_and, and_true,
    and_assoc, Edge.mk.injEq]

namespace Workflow

theorem repeatedId?_eq_none {seen : List String} {nodes : List Node} :
    repeatedId? seen nodes = none ↔
      (nodes.map (·.id)).Nodup ∧ ∀ n ∈ nodes, n.id ∉ seen := by
  induction nodes generalizing seen with
  | nil => simp [repeatedId?]
  | cons n nodes ih =>
    by_cases known : n.id ∈ seen
    · simp [repeatedId?, known]
    · rw [List.forall_mem_cons]
      simp only [repeatedId?, List.contains_iff_mem, known, ↓reduceIte, ih, List.map_cons,
        List.nodup_cons, List.mem_map, List.mem_cons, not_or, not_false_eq_true, true_and,
        not_exists, not_and]
      constructor
      · rintro ⟨distinct, fresh⟩
        exact ⟨⟨fun m member => (fresh m member).1, distinct⟩,
          fun m member => (fresh m member).2⟩
      · rintro ⟨⟨apart, distinct⟩, fresh⟩
        exact ⟨distinct, fun m member => ⟨apart m member, fresh m member⟩⟩

theorem checkDistinct_eq_ok {nodes kept : List Node} : checkDistinct nodes = .ok kept ↔
    kept = nodes ∧ (nodes.map (·.id)).Nodup := by
  unfold checkDistinct
  cases repeated : repeatedId? [] nodes with
  | none =>
    have distinct := (repeatedId?_eq_none.mp repeated).1
    exact ⟨fun h => ⟨(Except.ok.inj h).symm, distinct⟩, fun ⟨same, _⟩ => same ▸ rfl⟩
  | some id =>
    refine ⟨nofun, fun ⟨_, distinct⟩ => ?_⟩
    rw [repeatedId?_eq_none.mpr ⟨distinct, fun _ _ => List.not_mem_nil⟩] at repeated
    cases repeated

theorem checkNodes_eq_ok {nodes : List Node} : checkNodes intake v = .ok nodes ↔
    ∃ items, v = .arr items ∧ items.length ≤ nodeLimit ∧
      List.Forall₂ (fun v n => Node.check intake v = .ok n) items nodes ∧
      (nodes.map (·.id)).Nodup := by
  cases v with
  | arr items =>
    have checked : itemsFrom (Node.check intake) 0 items = .ok nodes ↔ _ := itemsFrom_eq_ok
    simp only [checkNodes, checkCount, Json.arr.injEq, exists_eq_left', ← checked]
    by_cases many : nodeLimit < items.length
    · simp [many, issue, bind, Except.bind]
    · simp only [many, ↓reduceIte, bind_eq_ok, checkDistinct_eq_ok, not_lt.mp many, true_and]
      constructor
      · rintro ⟨-, others, found, rfl, distinct⟩
        exact ⟨found, distinct⟩
      · rintro ⟨found, distinct⟩
        exact ⟨(), nodes, found, rfl, distinct⟩
  | null | bool | int | float | str | obj => simp [checkNodes, issue]

theorem checkEdges_eq_ok {edges : List Edge} : checkEdges intake v = .ok edges ↔
    ∃ items, v = .arr items ∧
      List.Forall₂ (fun v e => Edge.check intake v = .ok e) items edges := by
  cases v <;> simp [checkEdges, issue, itemsFrom_eq_ok]

theorem checkName_eq_ok {s : String} : checkName v = .ok s ↔
    v = .str s ∧ s ≠ "" ∧ s.length ≤ nameLimit := by
  unfold checkName
  cases found : nonemptyText v with
  | ok t =>
    obtain ⟨rfl, written⟩ := nonemptyText_eq_ok.mp found
    by_cases long : nameLimit < t.length
    · simp only [long, ↓reduceIte, issue, reduceCtorEq, Json.str.injEq, false_iff, not_and]
      rintro rfl _
      omega
    · simp only [long, ↓reduceIte, Except.ok.injEq, Json.str.injEq]
      exact ⟨fun same => ⟨same, same ▸ written, same ▸ not_lt.mp long⟩, And.left⟩
  | error e =>
    refine ⟨nofun, fun ⟨same, written, _⟩ => ?_⟩
    rw [nonemptyText_eq_ok.mpr ⟨same, written⟩] at found
    cases found

theorem check_eq_ok {w : Workflow} : check intake now v = .ok w ↔
    ∃ fields, v = .obj fields ∧
      field fields "id" none nonemptyText = .ok w.id ∧
      field fields "name" none checkName = .ok w.name ∧
      field fields "description" (some none) (optional text) = .ok w.description ∧
      field fields "version" (some formatVersion) text = .ok w.version ∧
      fieldOr fields "createdAt" "created_at" (some now) text = .ok w.createdAt ∧
      fieldOr fields "updatedAt" "updated_at" (some now) text = .ok w.updatedAt ∧
      field fields "nodes" (some []) (checkNodes intake) = .ok w.nodes ∧
      field fields "edges" (some []) (checkEdges intake) = .ok w.edges ∧
      field fields "metadata" (some none) (optional object) = .ok w.metadata := by
  cases w
  simp only [check, checkFields, record_eq_ok, ap_eq_ok, Except.ok.injEq, ↓existsAndEq, true_and,
    and_true, and_assoc, Workflow.mk.injEq]

end Workflow

/-! ## Where the parts of a record come from -/

section Parts

variable {fields : Fields}

theorem Node.config_given {n : Node} (checked : Node.check intake (.obj fields) = .ok n) :
    fields.get? "config" = some (.obj n.config) ∨
      fields.get? "config" = none ∧ n.config = [] := by
  obtain ⟨_, ⟨⟩, -, -, -, -, config⟩ := Node.check_eq_ok.mp checked
  rcases field_eq_ok.mp config with ⟨given, found, checked⟩ | ⟨missing, none⟩
  · exact .inl (object_eq_ok.mp checked ▸ found)
  · exact .inr ⟨missing, (Option.some.inj none).symm⟩

namespace Workflow

variable {w : Workflow} (accepted : check intake now (.obj fields) = .ok w)
include accepted

theorem nodes_given : fields.get? "nodes" = none ∧ w.nodes = [] ∨
    ∃ items, fields.get? "nodes" = some (.arr items) ∧
      List.Forall₂ (fun v n => Node.check intake v = .ok n) items w.nodes := by
  obtain ⟨_, ⟨⟩, -, -, -, -, -, -, nodes, -, -⟩ := check_eq_ok.mp accepted
  rcases field_eq_ok.mp nodes with ⟨given, found, checked⟩ | ⟨missing, none⟩
  · obtain ⟨items, rfl, -, checked, -⟩ := checkNodes_eq_ok.mp checked
    exact .inr ⟨items, found, checked⟩
  · exact .inl ⟨missing, (Option.some.inj none).symm⟩

theorem node_given {n : Node} (member : n ∈ w.nodes) :
    ∃ items, fields.get? "nodes" = some (.arr items) ∧
      ∃ v ∈ items, Node.check intake v = .ok n := by
  rcases nodes_given accepted with ⟨-, empty⟩ | ⟨items, found, checked⟩
  · rw [empty] at member
    cases member
  · exact ⟨items, found, forall₂_exists_left checked member⟩

theorem metadata_given : (∃ m, fields.get? "metadata" = some (.obj m) ∧ w.metadata = some m) ∨
    (fields.get? "metadata" = some .null ∨ fields.get? "metadata" = none) ∧
      w.metadata = none := by
  obtain ⟨_, ⟨⟩, -, -, -, -, -, -, -, -, metadata⟩ := check_eq_ok.mp accepted
  rcases field_eq_ok.mp metadata with ⟨given, found, checked⟩ | ⟨missing, none⟩
  · rcases optional_eq_ok.mp checked with ⟨rfl, none⟩ | ⟨-, m, object, some⟩
    · exact .inr ⟨.inl found, none⟩
    · exact .inl ⟨m, object_eq_ok.mp object ▸ found, some⟩
  · exact .inr ⟨.inr missing, (Option.some.inj none).symm⟩

end Workflow

end Parts

/-! ## Accepted documents -/

namespace Workflow

structure Valid (w : Workflow) : Prop where
  id : w.id ≠ ""
  name : w.name ≠ ""
  short : w.name.length ≤ nameLimit
  few : w.nodes.length ≤ nodeLimit
  named : ∀ n ∈ w.nodes, n.id ≠ ""
  distinct : (w.nodes.map (·.id)).Nodup

theorem valid_of_check {w : Workflow} (accepted : check intake now v = .ok w) : w.Valid := by
  obtain ⟨fields, -, id, name, -, -, -, -, nodes, -, -⟩ := check_eq_ok.mp accepted
  obtain ⟨_, -, id⟩ := field_required.mp id
  obtain ⟨_, -, name⟩ := field_required.mp name
  obtain ⟨-, id⟩ := nonemptyText_eq_ok.mp id
  obtain ⟨-, name, short⟩ := checkName_eq_ok.mp name
  rcases field_eq_ok.mp nodes with ⟨_, -, nodes⟩ | ⟨-, none⟩
  · obtain ⟨items, -, few, checked, distinct⟩ := checkNodes_eq_ok.mp nodes
    refine ⟨id, name, short, checked.length_eq ▸ few, fun n member => ?_, distinct⟩
    obtain ⟨item, -, checked⟩ := forall₂_exists_left checked member
    obtain ⟨fields, -, id, -⟩ := Node.check_eq_ok.mp checked
    obtain ⟨_, -, id⟩ := field_required.mp id
    exact (nonemptyText_eq_ok.mp id).2
  · have empty : w.nodes = [] := (Option.some.inj none).symm
    exact ⟨id, name, short, by simp [empty], by simp [empty], by simp [empty]⟩

end Workflow

/-! ## Documents from proper values -/

structure Node.WellTyped (n : Node) : Prop where
  x : n.position.x.Canonical
  y : n.position.y.Canonical
  config : (Json.obj n.config).Proper

structure Workflow.WellTyped (w : Workflow) : Prop where
  nodes : ∀ n ∈ w.nodes, n.WellTyped
  metadata : ∀ fields ∈ w.metadata, (Json.obj fields).Proper

theorem Fields.proper_get? {fields : Fields} {name : String} (proper : (Json.obj fields).Proper)
    (found : fields.get? name = some v) : v.Proper := by
  obtain ⟨before, after, rfl, -⟩ := List.lookup_eq_some_iff.mp found
  exact Json.fieldsProper_iff.mp proper.2 (name, v) (by simp)

theorem Numeral.canonical_unsigned? {negative : Bool} {s : List Char} {x : Binary64}
    (stated : unsigned? negative s = some x) : x.Canonical := by
  simp only [unsigned?] at stated
  split at stated
  · cases stated
    trivial
  split at stated
  · cases stated
    trivial
  -- with a fraction and without one
  split at stated
  all_goals
    split at stated
    · cases stated
    · obtain ⟨power, -, rfl⟩ := Option.map_eq_some_iff.mp stated
      exact Binary64.canonical_ofDecimal _ _ _

theorem Numeral.canonical_float? {s : String} {x : Binary64} (stated : float? s = some x) :
    x.Canonical := by
  unfold float? at stated
  split at stated
  · rename_i found
    cases stated
    exact canonical_unsigned? found
  · obtain ⟨t, -, found⟩ := Option.bind_eq_some_iff.mp stated
    exact canonical_unsigned? found

theorem Checked.canonical_number {x : Binary64} (proper : v.Proper) (checked : number v = .ok x) :
    x.Canonical := by
  cases v with
  | float y =>
    cases checked
    exact proper
  | bool b =>
    cases checked
    exact Binary64.canonical_ofInt _
  | int i =>
    simp only [number] at checked
    split at checked
    · cases checked
      exact Binary64.canonical_ofInt _
    · cases checked
  | str s =>
    simp only [number] at checked
    split at checked
    · rename_i stated
      cases checked
      exact Numeral.canonical_float? stated
    · cases checked
  | null | arr | obj => cases checked

theorem Position.canonical_of_check {p : Position} (proper : v.Proper)
    (checked : Position.check intake v = .ok p) : p.x.Canonical ∧ p.y.Canonical := by
  obtain ⟨fields, rfl, x, y⟩ := Position.check_eq_ok.mp checked
  have coordinate {name : String} {c : Binary64}
      (checked : field fields name (some .zero) number = .ok c) : c.Canonical := by
    rcases field_eq_ok.mp checked with ⟨given, found, checked⟩ | ⟨-, none⟩
    · exact canonical_number (Fields.proper_get? proper found) checked
    · cases none
      decide
  exact ⟨coordinate x, coordinate y⟩

theorem Node.wellTyped_of_check {n : Node} (proper : v.Proper)
    (checked : Node.check intake v = .ok n) : n.WellTyped := by
  obtain ⟨fields, rfl, -, -, -, position, -⟩ := Node.check_eq_ok.mp checked
  have canonical : n.position.x.Canonical ∧ n.position.y.Canonical := by
    rcases field_eq_ok.mp position with ⟨given, found, checked⟩ | ⟨-, none⟩
    · exact Position.canonical_of_check (Fields.proper_get? proper found) checked
    · rw [← Option.some.inj none]
      decide
  refine ⟨canonical.1, canonical.2, ?_⟩
  rcases Node.config_given checked with found | ⟨-, empty⟩
  · exact Fields.proper_get? proper found
  · rw [empty]
    exact ⟨List.nodup_nil, trivial⟩

namespace Workflow

theorem wellTyped_of_check {w : Workflow} (proper : v.Proper)
    (accepted : check intake now v = .ok w) : w.WellTyped := by
  obtain ⟨fields, rfl, -⟩ := check_eq_ok.mp accepted
  constructor
  · intro n member
    obtain ⟨items, found, item, listed, checked⟩ := node_given accepted member
    have items := Json.itemsProper_iff.mp (Fields.proper_get? proper found)
    exact Node.wellTyped_of_check (items item listed) checked
  · intro m set
    rcases metadata_given accepted with ⟨own, found, some⟩ | ⟨-, none⟩
    · obtain rfl := Option.some.inj (set.symm.trans some)
      exact Fields.proper_get? proper found
    · rw [none] at set
      cases set

end Workflow
end Flowgraph
