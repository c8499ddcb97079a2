import Flowgraph.Proofs.Sequencing
import Flowgraph.Proofs.Workflow.Checking
import Flowgraph.Workflow.Legacy

/-!
# What a migration keeps, and how it fails

A migrated workflow has one node for each entry of `nodes` and one edge for each entry of
`connections`, in their order, with their ids, types, configurations, ends and ports. A
migration that fails says what is wrong with the document, except in one case: an entry of
`nodes` that is no object is asked for a field, after a node was made of every entry before it.

Nothing is said of labels and positions, and of the fields of a document besides these two.
-/
namespace Flowgraph

open Checked

/-! ## Failures that say what is wrong -/

/-- A failure that says what is wrong with the input. A value that is asked for a field and is no
object does not. -/
def Failure.Foreseen : Failure → Prop
  | .fault (.noAttribute ..) => False
  | .fault _ | .invalid _ => True
  | .rejected _ => False

/-- If it fails, then with a failure that is foreseen. -/
def FailsForeseen {α : Type} (x : Attempt α) : Prop :=
  ∀ e, x = .error e → e.Foreseen

section Attempts

variable {α β : Type}

theorem ofFault_eq_ok {x : Except Fault α} {a : α} : ofFault x = .ok a ↔ x = .ok a := by
  cases x <;> simp [ofFault, Except.mapError]

theorem ofChecked_eq_ok {x : Checked α} {a : α} : ofChecked x = .ok a ↔ x = .ok a := by
  cases x <;> simp [ofChecked, Except.mapError]

theorem Remarked.result_bind (x : Remarked α) (f : α → Remarked β) :
    (x >>= f).result = x.result >>= fun a => (f a).result := by
  change (Remarked.bind x f).result = _
  unfold Remarked.bind
  cases x.result <;> rfl

theorem FailsForeseen.ok (a : α) : FailsForeseen (.ok a) := nofun

theorem FailsForeseen.bind {x : Attempt α} {f : α → Attempt β} (first : FailsForeseen x)
    (next : ∀ a, x = .ok a → FailsForeseen (f a)) : FailsForeseen (x >>= f) := by
  cases x with
  | ok a => exact next a rfl
  | error e => exact fun e' fails => first e' (by cases fails; rfl)

theorem FailsForeseen.ofChecked (x : Checked α) : FailsForeseen (ofChecked x) := by
  cases x with
  | ok a => exact .ok a
  | error issues =>
    rintro _ ⟨⟩
    trivial

theorem FailsForeseen.mapM {f : β → Attempt α} {xs : List β}
    (each : ∀ x ∈ xs, FailsForeseen (f x)) : FailsForeseen (xs.mapM f) := by
  intro e fails
  obtain ⟨x, member, fails⟩ := mapM_error fails
  exact each x member e fails

theorem FailsForeseen.item (v : Json) (key : String) : FailsForeseen (ofFault (v.item key)) := by
  cases v with
  | obj fields =>
    simp only [Json.item]
    cases fields.lookup key with
    | some w => exact .ok w
    | none =>
      rintro _ ⟨⟩
      trivial
  | null | bool | int | float | str | arr =>
    rintro _ ⟨⟩
    trivial

theorem FailsForeseen.members (v : Json) : FailsForeseen (ofFault v.members) := by
  cases v with
  | str | arr | obj => exact .ok _
  | null | bool | int | float =>
    rintro _ ⟨⟩
    trivial

end Attempts

/-! ## Unchecked fields -/

theorem Json.item_eq_ok {v w : Json} {key : String} :
    v.item key = .ok w ↔ ∃ fields, v = .obj fields ∧ Fields.get? fields key = some w := by
  cases v with
  | obj fields =>
    simp only [item, obj.injEq, exists_eq_left', Fields.get?]
    cases fields.lookup key <;> simp
  | null | bool | int | float | str | arr => simp [item]

theorem Json.findD_eq_getD (fields : Fields) (key : String) :
    (obj fields).findD key = .ok (fields.getD key) := by
  rw [findD_obj, Fields.getD, Fields.get?]
  cases fields.lookup key <;> rfl

theorem Fields.get?_of_getD {fields : Fields} {key : String} {v : Json}
    (value : fields.getD key = v) (set : v ≠ .null) : fields.get? key = some v := by
  rw [getD] at value
  cases found : fields.get? key with
  | some w =>
    rw [found] at value
    rw [← value, Option.getD_some]
  | none =>
    rw [found] at value
    exact absurd value.symm set

namespace Legacy

/-! ## Entries -/

/-- The objects that stand under a key, none where the value counts as absent. -/
inductive Lists (fields : Fields) (key : String) : List Fields → Prop
  | absent (empty : (fields.getD key).truthy = false) : Lists fields key []
  | listed (entries : List Fields) (found : fields.get? key = some (.arr (entries.map .obj))) :
      Lists fields key entries

theorem membersOf_obj (fields : Fields) (key : String) :
    membersOf (.obj fields) key = (orElse (fields.getD key) (.arr [])).members := by
  rw [membersOf, Json.findD_eq_getD]
  rfl

/-- The keys of an object and the characters of a text are no objects. -/
theorem lists_of_membersOf {fields : Fields} {key : String} {entries : List Fields}
    (members : membersOf (.obj fields) key = .ok (entries.map .obj)) :
    Lists fields key entries := by
  rw [membersOf_obj, orElse] at members
  by_cases present : (fields.getD key).truthy
  · rw [if_pos present] at members
    cases value : fields.getD key with
    | arr items =>
      rw [value] at members
      cases members
      exact .listed entries (Fields.get?_of_getD value nofun)
    | obj inner =>
      rw [value] at members present
      cases inner <;> cases entries <;> simp [Json.members, Json.truthy] at members present
    | str s =>
      rw [value] at members present
      have written : s.toList ≠ [] := by simpa [Json.truthy] using present
      cases chars : s.toList <;> cases entries <;>
        simp [Json.members, Json.charText, chars] at members written
    | null | bool | int | float =>
      rw [value] at members
      cases members
  · rw [if_neg present] at members
    have none : entries = [] := List.map_eq_nil_iff.mp (Except.ok.inj members).symm
    rw [none]
    exact .absent (Bool.eq_false_iff.mpr present)

theorem failsForeseen_membersOf (fields : Fields) (key : String) :
    FailsForeseen (ofFault (membersOf (.obj fields) key)) := by
  rw [membersOf_obj]
  exact .members _

/-! ## Nodes -/

/-- What a node has from its entry. -/
structure NodeOf (entry : Fields) (n : Node) : Prop where
  id : entry.get? "id" = some (.str n.id)
  type : (normalizeType (entry.getD "type")).result = .ok n.type
  config : n.config = objectOrEmpty (entry.getD "data")

/-- The fields that are checked to be those of a node. -/
def nodeFields (entry : Fields) (id : Json) (type : NodeType) : Fields :=
  let config := objectOrEmpty (entry.getD "data")
  [("id", id), ("type", .str type.name), ("label", labelOf config id),
    ("position", orElse (entry.getD "position") (.obj [("x", .int 0), ("y", .int 0)])),
    ("config", .obj config)]

theorem migrateNode_result (entry : Fields) : (migrateNode (.obj entry)).result = (do
    let id ← ofFault ((Json.obj entry).item "id")
    let type ← (normalizeType (entry.getD "type")).result
    ofChecked (Node.check .value (.obj (nodeFields entry id type)))) := by
  simp only [migrateNode, Remarked.result_bind, Json.findD_eq_getD]
  rfl

theorem migrateNode_eq_error {raw : Json} (other : ∀ entry, raw ≠ .obj entry) :
    (migrateNode raw).result = .error (.fault (.noAttribute raw.kind "get")) := by
  cases raw with
  | obj entry => exact absurd rfl (other entry)
  | null | bool | int | float | str | arr => rfl

theorem nodeOf_of_migrateNode {raw : Json} {n : Node} (made : (migrateNode raw).result = .ok n) :
    ∃ entry, raw = .obj entry ∧ NodeOf entry n := by
  cases raw with
  | obj entry =>
    rw [migrateNode_result] at made
    obtain ⟨id, found, made⟩ := bind_eq_ok.mp made
    obtain ⟨type, normal, made⟩ := bind_eq_ok.mp made
    obtain ⟨checkedId, checkedType, -, -, checkedConfig⟩ :=
      Node.check_full_eq_ok.mp (ofChecked_eq_ok.mp made)
    obtain ⟨_, ⟨⟩, found⟩ := Json.item_eq_ok.mp (ofFault_eq_ok.mp found)
    obtain ⟨_, ⟨⟩, named⟩ := choice_eq_ok.mp checkedType
    have sameId : id = .str n.id := (nonemptyText_eq_ok.mp checkedId).1
    have sameType : type = n.type := Option.some.inj (type.ofName?_name.symm.trans named)
    have sameConfig : objectOrEmpty (Fields.getD entry "data") = n.config :=
      Json.obj.inj (object_eq_ok.mp checkedConfig)
    exact ⟨entry, rfl, ⟨sameId ▸ found, sameType ▸ normal, sameConfig.symm⟩⟩
  | null | bool | int | float | str | arr => cases made

theorem failsForeseen_normalizeType (v : Json) : FailsForeseen (normalizeType v).result := by
  unfold normalizeType
  split
  · exact .ok _
  · cases v with
    | str s =>
      dsimp only
      split
      · exact .ok _
      · split
        · exact .ok _
        · exact .ok _
    | arr | obj =>
      rintro _ ⟨⟩
      trivial
    | null | bool | int | float => exact .ok _

theorem failsForeseen_migrateNode (entry : Fields) :
    FailsForeseen (migrateNode (.obj entry)).result := by
  rw [migrateNode_result]
  exact .bind (.item _ _) fun id _ => .bind (failsForeseen_normalizeType _) fun type _ =>
    .ofChecked _

/-! ## Edges -/

/-- What an edge has from its entry. -/
structure EdgeOf (entry : Fields) (e : Edge) : Prop where
  id : entry.get? "id" = some (.str e.id)
  source : entry.get? "from" = some (.str e.source)
  target : entry.get? "to" = some (.str e.target)
  sourceHandle : entry.getD "fromPort" = Json.ofText? e.sourceHandle
  targetHandle : entry.getD "toPort" = Json.ofText? e.targetHandle

/-- An edge of which every field is given, the handles under their other names. -/
theorem check_edge_eq_ok {intake : Intake} {id source target sourceHandle targetHandle : Json}
    {e : Edge} : Edge.check intake (.obj [("id", id), ("source", source), ("target", target),
        ("source_handle", sourceHandle), ("target_handle", targetHandle)]) = .ok e ↔
      text id = .ok e.id ∧ text source = .ok e.source ∧ text target = .ok e.target ∧
      optional text sourceHandle = .ok e.sourceHandle ∧
      optional text targetHandle = .ok e.targetHandle := by
  simp [Edge.check_eq_ok, field_eq_ok, fieldOr_eq_ok, given, Fields.get?_cons]

/-- A port is a text, or null where the edge has none. -/
theorem ofText?_of_optional {v : Json} {handle : Option String}
    (checked : optional text v = .ok handle) : v = Json.ofText? handle := by
  rcases optional_eq_ok.mp checked with ⟨rfl, rfl⟩ | ⟨-, s, written, rfl⟩
  · rfl
  · exact text_eq_ok.mp written

theorem migrateEdge_eq (entry : Fields) : migrateEdge (.obj entry) = (do
    let id ← ofFault ((Json.obj entry).item "id")
    let source ← ofFault ((Json.obj entry).item "from")
    let target ← ofFault ((Json.obj entry).item "to")
    ofChecked (Edge.check .value (.obj
      [("id", id), ("source", source), ("target", target),
        ("source_handle", entry.getD "fromPort"), ("target_handle", entry.getD "toPort")]))) := by
  simp only [migrateEdge, Json.findD_eq_getD]
  rfl

theorem edgeOf_of_migrateEdge {raw : Json} {e : Edge} (made : migrateEdge raw = .ok e) :
    ∃ entry, raw = .obj entry ∧ EdgeOf entry e := by
  cases raw with
  | obj entry =>
    rw [migrateEdge_eq] at made
    obtain ⟨id, foundId, made⟩ := bind_eq_ok.mp made
    obtain ⟨source, foundSource, made⟩ := bind_eq_ok.mp made
    obtain ⟨target, foundTarget, made⟩ := bind_eq_ok.mp made
    obtain ⟨checkedId, checkedSource, checkedTarget, sourceHandle, targetHandle⟩ :=
      check_edge_eq_ok.mp (ofChecked_eq_ok.mp made)
    have own {key s : String} {v : Json} (found : ofFault ((Json.obj entry).item key) = .ok v)
        (checked : text v = .ok s) : Fields.get? entry key = some (.str s) := by
      obtain ⟨_, ⟨⟩, found⟩ := Json.item_eq_ok.mp (ofFault_eq_ok.mp found)
      rw [found, text_eq_ok.mp checked]
    exact ⟨entry, rfl, {
      id := own foundId checkedId
      source := own foundSource checkedSource
      target := own foundTarget checkedTarget
      sourceHandle := ofText?_of_optional sourceHandle
      targetHandle := ofText?_of_optional targetHandle }⟩
  | null | bool | int | float | str | arr => cases made

theorem failsForeseen_migrateEdge (raw : Json) : FailsForeseen (migrateEdge raw) := by
  cases raw with
  | obj entry =>
    rw [migrateEdge_eq]
    exact .bind (.item _ _) fun id _ => .bind (.item _ _) fun source _ =>
      .bind (.item _ _) fun target _ => .ofChecked _
  | null | bool | int | float | str | arr =>
    rintro _ ⟨⟩
    trivial

/-! ## Documents -/

/-- The nodes and edges of a migrated workflow, each with the entry that it is made of. -/
structure CarriesOver (fields : Fields) (w : Workflow) : Prop where
  nodes : ∃ entries, Lists fields "nodes" entries ∧ List.Forall₂ NodeOf entries w.nodes
  edges : ∃ entries, Lists fields "connections" entries ∧ List.Forall₂ EdgeOf entries w.edges

/-- The first entry of `nodes` of which no node is made is no object. -/
def Stumbles (fields : Fields) : Prop :=
  ∃ before raw after, membersOf (.obj fields) "nodes" = .ok (before ++ raw :: after) ∧
    (∀ entry ∈ before, ∃ n, (migrateNode entry).result = .ok n) ∧ ∀ entry, raw ≠ .obj entry

theorem migrateNodes_result (raws : List Json) :
    (migrateNodes raws).result = raws.mapM fun raw => (migrateNode raw).result := by
  induction raws with
  | nil => rfl
  | cons raw raws ih =>
    rw [List.mapM_cons, ← ih]
    simp only [migrateNodes, Remarked.result_bind]
    rfl

section Migration

variable {clock : Clock} {fields : Fields} {w : Workflow}

theorem parts_of_assemble {id name description : Json} {nodes : List Node} {edges : List Edge}
    (assembled : assemble clock id name description nodes edges = .ok w) :
    w.nodes = nodes ∧ w.edges = edges ∧ w.metadata = none := by
  simp only [assemble, ap_eq_ok, under_eq_ok, Except.ok.injEq] at assembled
  obtain ⟨_, _, ⟨_, _, ⟨_, _, ⟨_, _, rfl, -, rfl⟩, -, rfl⟩, -, rfl⟩, distinct, rfl⟩ := assembled
  obtain ⟨_, -, distinct⟩ := bind_eq_ok.mp distinct
  exact ⟨(Workflow.checkDistinct_eq_ok.mp distinct).1, rfl, rfl⟩

theorem migrate_result (clock : Clock) (fields : Fields) :
    (migrate clock (.obj fields)).result = (do
      let raws ← ofFault (membersOf (.obj fields) "nodes")
      let nodes ← raws.mapM fun raw => (migrateNode raw).result
      let connections ← ofFault (membersOf (.obj fields) "connections")
      let edges ← connections.mapM migrateEdge
      let id := orElse (fields.getD "id") (.str ("workflow_" ++ toString clock.milliseconds))
      let name := orElse (fields.getD "name") (.str "Untitled Workflow")
      ofChecked (assemble clock id name (fields.getD "description") nodes edges)) := by
  simp only [migrate, Remarked.result_bind, migrateNodes_result, Json.findD_eq_getD]
  rfl

theorem carriesOver_of_migrate (migrated : (migrate clock (.obj fields)).result = .ok w) :
    CarriesOver fields w ∧ w.metadata = none := by
  rw [migrate_result] at migrated
  obtain ⟨raws, members, migrated⟩ := bind_eq_ok.mp migrated
  obtain ⟨nodes, made, migrated⟩ := bind_eq_ok.mp migrated
  obtain ⟨connections, joined, migrated⟩ := bind_eq_ok.mp migrated
  obtain ⟨edges, drawn, migrated⟩ := bind_eq_ok.mp migrated
  obtain ⟨rfl, rfl, none⟩ := parts_of_assemble (ofChecked_eq_ok.mp migrated)
  obtain ⟨entries, rfl, ofNodes⟩ :=
    forall₂_of_image (((mapM_eq_ok_iff _ _ _).mp made).imp fun _ _ => nodeOf_of_migrateNode)
  obtain ⟨links, rfl, ofEdges⟩ :=
    forall₂_of_image (((mapM_eq_ok_iff _ _ _).mp drawn).imp fun _ _ => edgeOf_of_migrateEdge)
  exact ⟨⟨⟨entries, lists_of_membersOf (ofFault_eq_ok.mp members), ofNodes⟩,
    ⟨links, lists_of_membersOf (ofFault_eq_ok.mp joined), ofEdges⟩⟩, none⟩

/-- A migration fails with a failure that is not foreseen exactly when it comes to an entry of
`nodes` that is no object. -/
theorem failsForeseen_migrate_iff (clock : Clock) (fields : Fields) :
    FailsForeseen (migrate clock (.obj fields)).result ↔ ¬Stumbles fields := by
  rw [migrate_result]
  constructor
  · rintro foreseen ⟨before, raw, after, members, made, other⟩
    have fails : (before ++ raw :: after).mapM (fun raw => (migrateNode raw).result) =
        .error (.fault (.noAttribute raw.kind "get")) :=
      mapM_eq_error_iff.mpr ⟨before, raw, after, rfl, made, migrateNode_eq_error other⟩
    refine foreseen (.fault (.noAttribute raw.kind "get")) ?_
    rw [members]
    exact bind_eq_error fails _
  · intro steady
    refine .bind (failsForeseen_membersOf fields "nodes") fun raws members => ?_
    refine .bind ?_ fun nodes _ => ?_
    · intro e fails
      obtain ⟨before, raw, after, rfl, made, fails⟩ := mapM_eq_error_iff.mp fails
      have object : ∃ entry, raw = .obj entry := by
        by_contra other
        exact steady ⟨before, raw, after, ofFault_eq_ok.mp members, made, not_exists.mp other⟩
      obtain ⟨entry, rfl⟩ := object
      exact failsForeseen_migrateNode entry e fails
    · refine .bind (failsForeseen_membersOf fields "connections") fun connections _ => ?_
      exact .bind (.mapM fun raw _ => failsForeseen_migrateEdge raw) fun edges _ => .ofChecked _

end Migration

end Legacy
end Flowgraph
