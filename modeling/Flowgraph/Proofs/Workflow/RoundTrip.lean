import Flowgraph.Program.Writer
import Flowgraph.Proofs.Program.RoundTrip
import Flowgraph.Proofs.Workflow.Checking
import Flowgraph.Workflow.Writer

/-!
# The document form loses nothing

The form in which a workflow is written is accepted as this workflow, whatever document it
was read from. What is not set is left out of the form at every level, and the two open
maps, the metadata and the configuration of a node, are written as they were given.
-/
namespace Flowgraph

open Checked

variable {α : Type} {fields : Fields} {name other : String} {v : Json} {a : α}

/-! ## Written fields -/

namespace Checked

variable {default : Option α} {check : Json → Checked α}

theorem field_written (found : fields.get? name = some v) (checked : check v = .ok a) :
    field fields name default check = .ok a :=
  field_eq_ok.mpr (.inl ⟨v, found, checked⟩)

theorem fieldOr_written (found : fields.get? name = some v) (checked : check v = .ok a) :
    fieldOr fields name other default check = .ok a :=
  fieldOr_eq_ok.mpr (.inl ⟨v, by rw [given, found, Option.some_or], checked⟩)

/-- A field that is left out where it is not set comes back as it was. -/
theorem fieldOr_optional (write : α → Json) {set : Option α}
    (found : given fields name other = set.map write)
    (written : ∀ b, write b ≠ .null ∧ check (write b) = .ok b) :
    fieldOr fields name other (some none) (optional check) = .ok set := by
  rw [fieldOr_eq_ok, found]
  cases set with
  | none => exact .inr ⟨rfl, rfl⟩
  | some b =>
    exact .inl ⟨write b, rfl, optional_eq_ok.mpr (.inr ⟨(written b).1, b, (written b).2, rfl⟩)⟩

theorem field_optional (write : α → Json) {set : Option α}
    (found : fields.get? name = set.map write)
    (written : ∀ b, write b ≠ .null ∧ check (write b) = .ok b) :
    field fields name (some none) (optional check) = .ok set :=
  fieldOr_optional write (by rw [given, Option.or_self, found]) written

end Checked

theorem optionalField_map (name : String) (write : α → Json) (set : Option α) :
    optionalField false name (set.map write) = setField name write set := by
  cases set <;> rfl

theorem Fields.get?_append (front back : Fields) (key : String) :
    get? (front ++ back) key = (front.get? key).or (back.get? key) :=
  List.lookup_append

theorem Fields.get?_setField (name : String) (write : α → Json) (set : Option α) (key : String) :
    get? (setField name write set) key = if key == name then set.map write else none := by
  cases set with
  | none => simp [setField]
  | some b => simp [setField, get?_cons]

/-! ## Written records -/

variable (intake : Intake)

theorem Position.check_toJson (p : Position) : Position.check intake p.toJson = .ok p :=
  Position.check_eq_ok.mpr ⟨_, rfl, field_written rfl rfl, field_written rfl rfl⟩

theorem Node.check_toJson {n : Node} (named : n.id ≠ "") :
    Node.check intake n.toJson = .ok n :=
  Node.check_full_eq_ok.mpr ⟨nonemptyText_eq_ok.mpr ⟨rfl, named⟩,
    choice_eq_ok.mpr ⟨_, rfl, n.type.ofName?_name⟩, rfl, n.position.check_toJson intake, rfl⟩

theorem Edge.check_toJson (e : Edge) : Edge.check intake (e.write false) = .ok e := by
  refine Edge.check_eq_ok.mpr ⟨_, rfl, field_written rfl rfl, field_written rfl rfl,
    field_written rfl rfl, fieldOr_optional .str ?_ fun _ => ⟨nofun, rfl⟩,
    fieldOr_optional .str ?_ fun _ => ⟨nofun, rfl⟩⟩
  all_goals simp [given, optionalField_map, Fields.get?_append, Fields.get?_cons,
    Fields.get?_setField]

namespace Workflow

theorem toJson_eq (w : Workflow) : w.toJson =
    .obj ([("id", .str w.id), ("name", .str w.name)] ++ setField "description" .str w.description ++
      [("version", .str w.version), ("createdAt", .str w.createdAt),
        ("updatedAt", .str w.updatedAt), ("nodes", .arr (w.nodes.map Node.toJson)),
        ("edges", .arr (w.edges.map (Edge.write false)))] ++
      setField "metadata" .obj w.metadata) := by
  rw [toJson, write, optionalField_map, optionalField_map]

/-- The form of a valid workflow is accepted as this workflow. -/
theorem check_toJson {w : Workflow} (valid : w.Valid) (now : String) :
    check intake now w.toJson = .ok w := by
  have nodes : checkNodes intake (.arr (w.nodes.map Node.toJson)) = .ok w.nodes := by
    refine checkNodes_eq_ok.mpr ⟨_, rfl, (w.nodes.length_map _).trans_le valid.few, ?_,
      valid.distinct⟩
    rw [List.forall₂_map_left_iff, List.forall₂_same]
    exact fun n member => Node.check_toJson intake (valid.named n member)
  have edges : checkEdges intake (.arr (w.edges.map (Edge.write false))) = .ok w.edges := by
    refine checkEdges_eq_ok.mpr ⟨_, rfl, ?_⟩
    rw [List.forall₂_map_left_iff, List.forall₂_same]
    exact fun e _ => e.check_toJson intake
  rw [toJson_eq]
  refine check_eq_ok.mpr ⟨_, rfl,
    field_written ?_ (nonemptyText_eq_ok.mpr ⟨rfl, valid.id⟩),
    field_written ?_ (checkName_eq_ok.mpr ⟨rfl, valid.name, valid.short⟩),
    field_optional .str ?_ fun _ => ⟨nofun, rfl⟩, field_written ?_ (text_eq_ok.mpr rfl),
    fieldOr_written ?_ (text_eq_ok.mpr rfl), fieldOr_written ?_ (text_eq_ok.mpr rfl),
    field_written ?_ nodes,
    field_written ?_ edges, field_optional .obj ?_ fun _ => ⟨nofun, rfl⟩⟩
  all_goals simp [Fields.get?_append, Fields.get?_cons, Fields.get?_setField]

end Workflow

variable {intake}

/-! ## Proper forms -/

theorem Node.proper_toJson {n : Node} (typed : n.WellTyped) : n.toJson.Proper := by
  have position : n.position.toJson.Proper :=
    ⟨by simp, Json.fieldsProper_iff.mpr (by simpa using ⟨typed.x, typed.y⟩)⟩
  refine ⟨by simp, Json.fieldsProper_iff.mpr ?_⟩
  simpa [Json.Proper] using ⟨position, typed.config⟩

theorem Edge.proper_toJson (e : Edge) : (e.write false).Proper := by
  rw [Edge.write, optionalField_map, optionalField_map]
  refine Fields.proper_obj ["id", "source", "target", "sourceHandle", "targetHandle"] ?_
    (by decide) ?_
  · simp only [List.map_append]
    exact ((List.Sublist.refl ["id", "source", "target"]).append
      (Fields.keys_setField _ _ _)).append (Fields.keys_setField _ _ _)
  · simp only [List.forall_mem_append]
    exact ⟨⟨by simp [Json.Proper], Fields.proper_setField _ fun _ _ => trivial⟩,
      Fields.proper_setField _ fun _ _ => trivial⟩

theorem Workflow.proper_toJson {w : Workflow} (typed : w.WellTyped) : w.toJson.Proper := by
  have nodes : (Json.arr (w.nodes.map Node.toJson)).Proper := by
    refine Json.itemsProper_iff.mpr (List.forall_mem_map.mpr fun n member => ?_)
    exact Node.proper_toJson (typed.nodes n member)
  have edges : (Json.arr (w.edges.map (Edge.write false))).Proper :=
    Json.itemsProper_iff.mpr (List.forall_mem_map.mpr fun e _ => e.proper_toJson)
  rw [toJson_eq]
  refine Fields.proper_obj ["id", "name", "description", "version", "createdAt", "updatedAt",
    "nodes", "edges", "metadata"] ?_ (by decide) ?_
  · simp only [List.map_append]
    exact (((List.Sublist.refl ["id", "name"]).append (Fields.keys_setField _ _ _)).append
      (List.Sublist.refl ["version", "createdAt", "updatedAt", "nodes", "edges"])).append
      (Fields.keys_setField _ _ _)
  · simp only [List.forall_mem_append]
    refine ⟨⟨⟨by simp [Json.Proper], Fields.proper_setField _ fun _ _ => trivial⟩, ?_⟩,
      Fields.proper_setField _ typed.metadata⟩
    simpa [Json.Proper] using ⟨nodes, edges⟩

namespace Workflow

/-- A workflow that a check accepts from a proper document. -/
def Accepted (w : Workflow) : Prop :=
  ∃ (intake : Intake) (now : String) (document : Json),
    document.Proper ∧ check intake now document = .ok w

theorem accepted_iff {w : Workflow} : w.Accepted ↔ w.Valid ∧ w.WellTyped := by
  constructor
  · rintro ⟨intake, now, document, proper, accepted⟩
    exact ⟨valid_of_check accepted, wellTyped_of_check proper accepted⟩
  · rintro ⟨valid, typed⟩
    exact ⟨.value, "", w.toJson, proper_toJson typed, check_toJson .value valid ""⟩

end Workflow

/-! ## Nesting -/

namespace Json

theorem nesting_arr_le {items : List Json} {depth : Nat} :
    (arr items).nesting ≤ depth + 1 ↔ ∀ v ∈ items, v.nesting ≤ depth := by
  rw [nesting, Nat.add_le_add_iff_right]
  induction items with
  | nil => simp [itemsNesting]
  | cons v items ih => rw [itemsNesting, max_le_iff, ih, List.forall_mem_cons]

theorem nesting_obj_le {fields : List (String × Json)} {depth : Nat} :
    (obj fields).nesting ≤ depth + 1 ↔ ∀ f ∈ fields, f.2.nesting ≤ depth := by
  rw [nesting, Nat.add_le_add_iff_right]
  induction fields with
  | nil => simp [fieldsNesting]
  | cons f fields ih => rw [fieldsNesting, max_le_iff, ih, List.forall_mem_cons]

theorem nesting_get? {fields : Fields} {name : String} {depth : Nat}
    (shallow : (obj fields).nesting ≤ depth + 1) (found : fields.get? name = some v) :
    v.nesting ≤ depth := by
  obtain ⟨before, after, rfl, -⟩ := List.lookup_eq_some_iff.mp found
  exact nesting_obj_le.mp shallow (name, v) (by simp)

end Json

theorem nesting_setField {name : String} {write : α → Json} {set : Option α} {depth : Nat}
    (shallow : ∀ a ∈ set, (write a).nesting ≤ depth) :
    ∀ f ∈ setField name write set, f.2.nesting ≤ depth := by
  cases set with
  | none => simp [setField]
  | some a => simpa [setField] using shallow a

theorem Node.nesting_toJson {n : Node} {depth : Nat} (checked : Node.check intake v = .ok n)
    (shallow : v.nesting ≤ depth + 2) : n.toJson.nesting ≤ depth + 2 := by
  obtain ⟨fields, rfl, -⟩ := Node.check_eq_ok.mp checked
  have config : (Json.obj n.config).nesting ≤ depth + 1 := by
    rcases Node.config_given checked with found | ⟨-, empty⟩
    · exact Json.nesting_get? shallow found
    · rw [empty]
      exact Json.nesting_obj_le.mpr nofun
  have position : n.position.toJson.nesting ≤ depth + 1 :=
    Json.nesting_obj_le.mpr (by simp [Json.nesting])
  rw [Node.toJson, Json.nesting_obj_le]
  simp only [List.forall_mem_cons]
  exact ⟨Nat.zero_le _, Nat.zero_le _, Nat.zero_le _, position, config, nofun⟩

theorem Edge.nesting_write (e : Edge) (depth : Nat) : (e.write false).nesting ≤ depth + 2 := by
  rw [Edge.write, optionalField_map, optionalField_map, Json.nesting_obj_le]
  simp only [List.forall_mem_append]
  exact ⟨⟨by simp [Json.nesting], nesting_setField fun _ _ => Nat.zero_le _⟩,
    nesting_setField fun _ _ => Nat.zero_le _⟩

/-- The form of an accepted document nests no deeper than the document, or four times. -/
theorem Workflow.nesting_toJson {now : String} {w : Workflow} {depth : Nat}
    (accepted : check intake now v = .ok w) (shallow : v.nesting ≤ depth + 4) :
    w.toJson.nesting ≤ depth + 4 := by
  obtain ⟨fields, rfl, -⟩ := check_eq_ok.mp accepted
  have node : ∀ n ∈ w.nodes, n.toJson.nesting ≤ depth + 2 := by
    intro n member
    obtain ⟨items, found, item, listed, checked⟩ := node_given accepted member
    have items := Json.nesting_arr_le.mp (Json.nesting_get? shallow found)
    exact Node.nesting_toJson checked (items item listed)
  have nodes : (Json.arr (w.nodes.map Node.toJson)).nesting ≤ depth + 3 :=
    Json.nesting_arr_le.mpr (List.forall_mem_map.mpr node)
  have edges : (Json.arr (w.edges.map (Edge.write false))).nesting ≤ depth + 3 :=
    Json.nesting_arr_le.mpr (List.forall_mem_map.mpr fun e _ => e.nesting_write depth)
  have metadata : ∀ m ∈ w.metadata, (Json.obj m).nesting ≤ depth + 3 := by
    intro m set
    rcases metadata_given accepted with ⟨own, found, some⟩ | ⟨-, none⟩
    · obtain rfl := Option.some.inj (set.symm.trans some)
      exact Json.nesting_get? shallow found
    · rw [none] at set
      cases set
  rw [toJson_eq, Json.nesting_obj_le]
  simp only [List.forall_mem_append, List.forall_mem_cons]
  exact ⟨⟨⟨⟨Nat.zero_le _, Nat.zero_le _, nofun⟩, nesting_setField fun _ _ => Nat.zero_le _⟩,
    Nat.zero_le _, Nat.zero_le _, Nat.zero_le _, nodes, edges, nofun⟩, nesting_setField metadata⟩

/-! ## The encoding -/

namespace Json

/-- The value of a field that is set: it is there, and it is not null. -/
def set? (record : Json) (name : String) : Option Json :=
  match record with
  | obj fields =>
    match Fields.get? fields name with
    | some null => none
    | found => found
  | _ => none

/-- The members of an array field that is set. -/
def listed (record : Json) (name : String) : List Json :=
  match record.set? name with
  | some (.arr items) => items
  | _ => []

/-- The records of a document: the document, its nodes with their positions, and its edges.
The open maps inside them are no records. -/
def records (document : Json) : List Json :=
  document :: (document.listed "nodes").flatMap (fun n => n :: (n.set? "position").toList) ++
    document.listed "edges"

/-- What is not set in a record is left out. -/
def LeavesOutUnset (record : Json) : Prop :=
  ∃ fields, record = obj fields ∧ ∀ f ∈ fields, f.2 ≠ null

theorem set?_of_get? {fields : Fields} {name : String} (found : fields.get? name = some v)
    (present : v ≠ null) : (obj fields).set? name = some v := by
  cases v with
  | null => exact absurd rfl present
  | bool | int | float | str | arr | obj => simp only [set?, found]

theorem set?_null {fields : Fields} {name : String} (found : fields.get? name = some null) :
    (obj fields).set? name = none := by
  simp only [set?, found]

theorem set?_of_get?_none {fields : Fields} {name : String} (missing : fields.get? name = none) :
    (obj fields).set? name = none := by
  simp only [set?, missing]

theorem set?_of_get?_map {α : Type} {fields : Fields} {name : String} (write : α → Json)
    {set : Option α} (found : fields.get? name = set.map write) (present : ∀ a, write a ≠ null) :
    (obj fields).set? name = set.map write := by
  cases set with
  | none => exact set?_of_get?_none found
  | some a => exact set?_of_get? found (present a)

end Json

namespace Workflow

theorem set?_metadata (w : Workflow) : w.toJson.set? "metadata" = w.metadata.map .obj := by
  rw [toJson_eq]
  refine Json.set?_of_get?_map .obj ?_ nofun
  simp [Fields.get?_append, Fields.get?_cons, Fields.get?_setField]

theorem listed_nodes (w : Workflow) : w.toJson.listed "nodes" = w.nodes.map Node.toJson := by
  have found : w.toJson.set? "nodes" = some (.arr (w.nodes.map Node.toJson)) := by
    rw [toJson_eq]
    refine Json.set?_of_get? ?_ nofun
    simp [Fields.get?_append, Fields.get?_cons, Fields.get?_setField]
  rw [Json.listed, found]

theorem listed_edges (w : Workflow) : w.toJson.listed "edges" = w.edges.map (Edge.write false) := by
  have found : w.toJson.set? "edges" = some (.arr (w.edges.map (Edge.write false))) := by
    rw [toJson_eq]
    refine Json.set?_of_get? ?_ nofun
    simp [Fields.get?_append, Fields.get?_cons, Fields.get?_setField]
  rw [Json.listed, found]

/-- Every record of a document form leaves out what is not set. -/
theorem leavesOutUnset_toJson (w : Workflow) : ∀ r ∈ w.toJson.records, r.LeavesOutUnset := by
  have set {α : Type} (name : String) {write : α → Json} (a : Option α)
      (present : ∀ a, write a ≠ .null) : ∀ f ∈ setField name write a, f.2 ≠ .null := by
    cases a <;> simp [setField, present]
  intro r member
  rw [Json.records, listed_nodes, listed_edges, List.cons_append, List.mem_cons, List.mem_append,
    List.mem_flatMap, List.mem_map] at member
  rcases member with rfl | ⟨_, listed, member⟩ | ⟨e, -, rfl⟩
  · refine ⟨_, w.toJson_eq, ?_⟩
    simp only [List.forall_mem_append]
    exact ⟨⟨⟨by simp, set _ _ (by simp)⟩, by simp⟩, set _ _ (by simp)⟩
  · obtain ⟨n, -, rfl⟩ := List.mem_map.mp listed
    rcases List.mem_cons.mp member with rfl | position
    · exact ⟨_, rfl, by simp [Position.toJson]⟩
    · have written : n.toJson.set? "position" = some n.position.toJson := rfl
      rw [written, Option.toList_some, List.mem_singleton] at position
      subst position
      exact ⟨_, rfl, by simp⟩
  · refine ⟨_, rfl, ?_⟩
    rw [optionalField_map, optionalField_map]
    simp only [List.forall_mem_append]
    exact ⟨⟨by simp, set _ _ (by simp)⟩, set _ _ (by simp)⟩

/-- The configuration of an accepted node is written as it was given. -/
theorem config_kept {n : Node} (checked : Node.check intake v = .ok n) :
    n.toJson.set? "config" = some ((v.set? "config").getD (.obj [])) := by
  obtain ⟨fields, rfl, -⟩ := Node.check_eq_ok.mp checked
  have written : n.toJson.set? "config" = some (.obj n.config) := rfl
  rw [written]
  rcases Node.config_given checked with found | ⟨missing, empty⟩
  · rw [Json.set?_of_get? found nofun]
    rfl
  · rw [Json.set?_of_get?_none missing, empty]
    rfl

/-- The metadata of an accepted document are written as they were given. -/
theorem metadata_kept {now : String} {w : Workflow} (accepted : check intake now v = .ok w) :
    w.toJson.set? "metadata" = v.set? "metadata" := by
  obtain ⟨fields, rfl, -⟩ := check_eq_ok.mp accepted
  rw [set?_metadata]
  rcases metadata_given accepted with ⟨m, found, some⟩ | ⟨found | missing, none⟩
  · rw [some, Json.set?_of_get? found nofun]
    rfl
  · rw [none, Json.set?_null found]
    rfl
  · rw [none, Json.set?_of_get?_none missing]
    rfl

/-- The nodes of an accepted document correspond to those that the document lists. -/
theorem nodes_kept {now : String} {w : Workflow} (accepted : check intake now v = .ok w) :
    List.Forall₂ (fun given n => Node.check intake given = .ok n) (v.listed "nodes") w.nodes := by
  obtain ⟨fields, rfl, -⟩ := check_eq_ok.mp accepted
  rw [Json.listed]
  rcases nodes_given accepted with ⟨missing, empty⟩ | ⟨items, found, checked⟩
  · rw [Json.set?_of_get?_none missing, empty]
    exact .nil
  · rw [Json.set?_of_get? found nofun]
    exact checked

/-- The form of an accepted document is accepted in every setting as the same workflow, which
is written in the same form. In the form, a record has no field that is null, while metadata
and configurations are those that the document gives, with every null in them. -/
theorem document_form_lossless {now : String} {d : Json} {w : Workflow}
    (accepted : check intake now d = .ok w) :
    (∀ (intake' : Intake) (now' : String), ∃ again, check intake' now' w.toJson = .ok again ∧
      again = w ∧ again.toJson = w.toJson) ∧
    (∀ r ∈ w.toJson.records, r.LeavesOutUnset) ∧
    w.toJson.set? "metadata" = d.set? "metadata" ∧
    List.Forall₂ (fun given written =>
        written.set? "config" = some ((given.set? "config").getD (.obj [])))
      (d.listed "nodes") (w.toJson.listed "nodes") := by
  have valid := valid_of_check accepted
  refine ⟨fun intake' now' => ⟨w, check_toJson intake' valid now', rfl, rfl⟩,
    leavesOutUnset_toJson w, metadata_kept accepted, ?_⟩
  rw [listed_nodes, List.forall₂_map_right_iff]
  exact (nodes_kept accepted).imp fun _ _ checked => config_kept checked

/-- A document with fields in their second spelling, with nulls inside and outside of open
maps, and with a position that is given in words. -/
def sketchDocument : Json :=
  .obj [("id", .str "w"), ("name", .str "Sketch"), ("description", .null),
    ("created_at", .str "2024-01-01"),
    ("nodes", .arr
      [.obj [("id", .str "a"), ("type", .str "start"),
        ("position", .obj [("x", .str " 1.5"), ("y", .int 2)]), ("config", .obj [("k", .null)])],
      .obj [("id", .str "b"), ("type", .str "end"), ("extra", .null)]]),
    ("edges", .arr [.obj [("id", .str "e"), ("source", .str "a"), ("target", .str "b"),
      ("source_handle", .str "out"), ("targetHandle", .null)]]),
    ("metadata", .obj [("m", .null)])]

def sketch : Workflow where
  id := "w"
  name := "Sketch"
  version := formatVersion
  createdAt := "2024-01-01"
  updatedAt := "2025-01-01"
  nodes :=
    [{ id := "a", type := .start, config := [("k", .null)],
       position := { x := .finite false 6755399441055744 (-52),
                     y := .finite false 4503599627370496 (-51) } },
     { id := "b", type := .stop }]
  edges := [{ id := "e", source := "a", target := "b", sourceHandle := some "out" }]
  metadata := some [("m", .null)]

theorem sketch_accepted : check .body "2025-01-01" sketchDocument = .ok sketch := by
  rfl

theorem accepted_sketch : sketch.Accepted := by
  refine ⟨.body, "2025-01-01", sketchDocument, ?_, sketch_accepted⟩
  simp [sketchDocument, Json.Proper, Json.FieldsProper, Json.ItemsProper]

theorem sketch_form_lossless : check .body "2025-01-01" sketchDocument = .ok sketch ∧
    (∃ again, check .value "2026-01-01" sketch.toJson = .ok again ∧
      again = sketch ∧ again.toJson = sketch.toJson) ∧
    sketch.toJson.set? "metadata" = some (.obj [("m", .null)]) := by
  obtain ⟨again, -, metadata, -⟩ := document_form_lossless sketch_accepted
  exact ⟨sketch_accepted, again .value "2026-01-01", metadata⟩

end Workflow

end Flowgraph
