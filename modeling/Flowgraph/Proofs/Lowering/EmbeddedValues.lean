import Flowgraph.Proofs.Lowering.StateAccess
import Flowgraph.Proofs.Lowering.Typed
import Flowgraph.Proofs.Workflow.RoundTrip

/-!
# Values that a program carries as text

A step that calls a tool of a server carries the configuration of its node as JSON text, and a
step that assigns a value carries either a reference or the JSON text of the value. The first
character tells which: a reference begins with a dollar sign, and no JSON text does. So each
configuration and each value can be recovered from the program, and different values are never
carried as the same text.

A text of a value is refused by readers with a lower limit than the value nests. The document of
the workflow nests deeper still, so a reader that takes the document takes the text as well.
-/
namespace Flowgraph

namespace Json

/-- From a text a value is read back, unless it nests deeper than the reader allows. -/
def ReadBack (text : String) (v : Json) : Prop :=
  ∀ limit, readWithin limit text = if v.nesting ≤ limit then .ok v else .error .tooDeep

/-- A text that stands for a value: a text that is a reference as it is, which is no JSON, or
JSON text from which the value is read back. -/
inductive Embedded (v : Json) (text : String) : Prop
  | reference (dollar : text.toList.head? = some '$') (same : v = .str text)
      (formed : StateRef.isRef v = true) (unreadable : ∀ limit w, readWithin limit text ≠ .ok w)
  | written (other : text.toList.head? ≠ some '$') (back : ReadBack text v)

theorem nesting_lt_arr {items : List Json} {v : Json} (item : v ∈ items) :
    v.nesting < (arr items).nesting :=
  Nat.lt_succ_of_le (nesting_arr_le.mp le_rfl v item)

theorem nesting_lt_obj (name : String) {fields : Fields} {v : Json} (field : (name, v) ∈ fields) :
    v.nesting < (obj fields).nesting :=
  Nat.lt_succ_of_le (nesting_obj_le.mp le_rfl (name, v) field)

theorem readBack_write {v : Json} (proper : v.Proper) : ReadBack (v.write .compact) v :=
  fun limit => readWithin_write airy_compact proper limit

theorem ReadBack.unique {text : String} {v w : Json} (back : ReadBack text v)
    (back' : ReadBack text w) : v = w := by
  have read := back (max v.nesting w.nesting)
  have read' := back' (max v.nesting w.nesting)
  rw [if_pos (le_max_left _ _)] at read
  rw [if_pos (le_max_right _ _)] at read'
  exact Except.ok.inj (read.symm.trans read')

/-- No JSON text begins with a dollar sign. -/
theorem readWithin_of_dollar {text : String} (dollar : text.toList.head? = some '$')
    (limit : Nat) (v : Json) : readWithin limit text ≠ .ok v := by
  obtain ⟨rest, split⟩ := List.head?_eq_some_iff.mp dollar
  have shown : skipBlanks ('$' :: rest) = '$' :: rest := skipBlanks_cons rfl rest
  have noScalar : readScalar ('$' :: rest) = none := rfl
  rw [readWithin, split, readChars, shown]
  simp [readValue, noScalar]

/-- A text tells which value it stands for. -/
theorem Embedded.unique {text : String} {v w : Json} (h : Embedded v text)
    (h' : Embedded w text) : v = w := by
  cases h with
  | reference dollar same =>
    cases h' with
    | reference _ same' => rw [same, same']
    | written other => exact absurd dollar other
  | written other back =>
    cases h' with
    | reference dollar => exact absurd dollar other
    | written _ back' => exact back.unique back'

end Json

theorem Fields.nesting_getD (fields : Fields) (key : String) :
    (fields.getD key).nesting < (Json.obj fields).nesting := by
  rw [getD]
  cases found : fields.get? key with
  | none => exact Nat.succ_pos _
  | some v => exact Nat.lt_succ_of_le (Json.nesting_get? le_rfl found)

namespace Lowerer

/-- What is assigned stands for the value of which it is made, where a text that begins with a
dollar sign is a reference. -/
theorem assigned_embedded {v : Json} (proper : v.Proper)
    (valid : startsWithDollar (assigned v) = true → StateRef.isRef (assigned v) = true) :
    ∃ text, assigned v = .str text ∧ Json.Embedded v text := by
  have written (made : assigned v = .str (v.write .compact)) :
      ∃ text, assigned v = .str text ∧ Json.Embedded v text := by
    have back := Json.readBack_write proper
    refine ⟨_, made, .written (fun dollar => ?_) back⟩
    exact Json.readWithin_of_dollar dollar v.nesting v ((back v.nesting).trans (if_pos le_rfl))
  cases v with
  | str s =>
    by_cases dollar : s.toList.head? = some '$'
    · have own : assigned (.str s) = .str s := if_pos (by simpa using dollar)
      rw [own] at valid
      have formed := valid (by simpa [startsWithDollar] using dollar)
      exact ⟨s, own, .reference dollar rfl formed (Json.readWithin_of_dollar dollar)⟩
    · exact written (if_neg (by simpa using dollar))
  | null | bool | int | float | arr | obj => exact written rfl

variable {l : Lowerer} {n : Node} {es : List Edge} {target value : Json}

theorem fragment_assigned (action : (l.fragment n es).step.action = .varSet target value) :
    value = assigned (n.config.getD "value") := by
  cases l with
  | variableStore =>
    simp only [fragment, variableStep] at action
    split at action
    · cases action
    · exact (Action.varSet.inj action).2.symm
  | _ => cases action

theorem fragment_varSet_iff :
    (∃ target value, (l.fragment n es).step.action = .varSet target value) ↔
      l = .variableStore ∧ n.configText "operation" "set" ≠ "get" := by
  cases l with
  | variableStore =>
    simp only [fragment, variableStep, true_and]
    by_cases get : n.configText "operation" "set" = "get"
    · simp [get]
    · rw [if_neg (by simpa using get)]
      exact ⟨fun _ => get, fun _ => ⟨_, _, rfl⟩⟩
  | _ =>
    constructor
    · rintro ⟨target, value, action⟩
      cases action
    · rintro ⟨own, -⟩
      cases own

end Lowerer

/-- A step carries the configuration of its node, or the value to assign, so that it can be
recovered from the step. -/
structure Step.Carries (s : Step) (n : Node) : Prop where
  id : s.id = .str n.id
  config (called : n.type = .mcp) : ∃ tool text,
    s.action = .toolCall tool (.obj [("config", .str text)]) ∧ Json.ReadBack text (.obj n.config)
  assigns : (∃ target value, s.action = .varSet target value) ↔
    n.type = .variableStore ∧ n.configText "operation" "set" ≠ "get"
  value {target value : Json} (assigned : s.action = .varSet target value) :
    ∃ text, value = .str text ∧ Json.Embedded (n.config.getD "value") text

namespace Workflow

variable {w : Workflow} {n : Node}

theorem LoweredAs.carries {table : LowererTable} {f : Fragment} (lowered : w.LoweredAs table n f)
    (valid : ∀ v, f.step.RefSlot v → StateRef.isRef v = true)
    (proper : (Json.obj n.config).Proper) : f.step.Carries n := by
  obtain ⟨l, -, type, rfl⟩ := lowered
  constructor
  case id => exact l.fragment_step_id n _
  case config =>
    intro called
    obtain rfl : l = .mcp := Lowerer.type_injective (type.trans called)
    exact ⟨_, _, rfl, Json.readBack_write proper⟩
  case assigns =>
    have same : l = .variableStore ↔ n.type = .variableStore :=
      ⟨fun here => type ▸ here ▸ rfl, fun here => Lowerer.type_injective (type.trans here)⟩
    rw [Lowerer.fragment_varSet_iff, same]
  case value =>
    intro target value assigned
    obtain rfl := Lowerer.fragment_assigned assigned
    exact Lowerer.assigned_embedded (Fields.proper_getD proper "value")
      fun dollar => valid _ (.copied assigned dollar)

/-- The configuration of a node nests less than the document of its workflow. -/
theorem nesting_config_lt (node : n ∈ w.nodes) :
    (Json.obj n.config).nesting < w.toJson.nesting := by
  calc (Json.obj n.config).nesting
    _ < n.toJson.nesting := Json.nesting_lt_obj "config" (by simp)
    _ < (Json.arr (w.nodes.map Node.toJson)).nesting :=
      Json.nesting_lt_arr (List.mem_map_of_mem node)
    _ < w.toJson.nesting := by
      rw [toJson_eq]
      exact Json.nesting_lt_obj "nodes" (by simp)

/-- In a program whose steps stand in the order of the nodes, the step of a node assigns a
value. -/
def Assigns (w : Workflow) (p : Program) (n : Node) (value : Json) : Prop :=
  ∃ s target, (n, s) ∈ w.nodes.zip p.steps ∧ s.action = .varSet target value

/-- A program carries the configuration of every node that calls a tool of a server and every
value that is assigned, so that they can be recovered. Readers that take the document of the
workflow take these texts as well, and different values are never carried as the same. -/
theorem embedded_values_recoverable {table : LowererTable} {version : String}
    {rejectCycles : Bool} {lowered : Lowered}
    (proper : ∀ n ∈ w.nodes, (Json.obj n.config).Proper)
    (h : w.lower table version rejectCycles = .ok lowered) :
    List.Forall₂ (fun n s => s.Carries n) w.nodes lowered.program.steps ∧
    (∀ n ∈ w.nodes, (Json.obj n.config).nesting < w.toJson.nesting ∧
      (n.config.getD "value").nesting < w.toJson.nesting) ∧
    ∀ n n' value value', w.Assigns lowered.program n value →
      w.Assigns lowered.program n' value' →
      n.config.getD "value" ≠ n'.config.getD "value" → value ≠ value' := by
  obtain ⟨entry, fragments, -, made, valid, rfl⟩ := lower_eq_ok h
  have carried : ∀ p ∈ w.nodes.zip (fragments.map (·.step)), p.2.Carries p.1 := by
    rw [List.zip_map_right, List.forall_mem_map]
    rintro ⟨n, f⟩ pair
    obtain ⟨node, fragment⟩ := List.of_mem_zip pair
    exact (List.forall₂_zip made pair).carries (valid f fragment) (proper n node)
  refine ⟨List.forall₂_iff_zip.mpr ⟨?_, fun pair => carried _ pair⟩, fun n node => ?_, ?_⟩
  · rw [assemble, List.length_map, made.length_eq]
  · have config := nesting_config_lt node
    exact ⟨config, (Fields.nesting_getD n.config "value").trans config⟩
  · rintro n n' value value' ⟨s, target, pair, assigned⟩ ⟨s', target', pair', assigned'⟩
      different same
    obtain ⟨text, own, embedded⟩ := (carried _ pair).value assigned
    obtain ⟨text', own', embedded'⟩ := (carried _ pair').value assigned'
    obtain rfl : text = text' := Json.str.inj (own.symm.trans (same.trans own'))
    exact different (embedded.unique embedded')

/-- Calls a tool with a quotation, a fraction, a null and characters beyond ASCII. -/
def searching : Node where
  id := "search"
  type := .mcp
  config := [("serverId", .str "library"), ("query", .str "\"naïve\" 😀"), ("page", .null),
    ("weights", .arr [.int 1, .float (.finite false Binary64.leastSignificand (-52)), .bool true])]

def assigning (id : String) (value : Json) : Node where
  id := id
  type := .variableStore
  config := [("value", value)]

/-- After a search, a text, a number and a part of the input are kept. -/
def errand : Workflow where
  id := "errand"
  name := "Errand"
  version := formatVersion
  createdAt := ""
  updatedAt := ""
  nodes :=
    [{ id := "begin", type := .start }, searching, assigning "digit" (.str "1"),
     assigning "count" (.int 1), assigning "copy" (.str "$in.text"), { id := "end", type := .stop }]
  edges :=
    [{ id := "1", source := "begin", target := "search" },
     { id := "2", source := "search", target := "digit" },
     { id := "3", source := "digit", target := "count" },
     { id := "4", source := "count", target := "copy" },
     { id := "5", source := "copy", target := "end" }]

theorem errand_values_recoverable : ∃ lowered,
    errand.lower .standard "0.1" true = .ok lowered ∧
    List.Forall₂ (fun n s => s.Carries n) errand.nodes lowered.program.steps ∧
    (errand.Assigns lowered.program (assigning "digit" (.str "1")) (.str "\"1\"") ∧
      errand.Assigns lowered.program (assigning "count" (.int 1)) (.str "1") ∧
      errand.Assigns lowered.program (assigning "copy" (.str "$in.text")) (.str "$in.text")) ∧
    Json.str "\"1\"" ≠ .str "1" := by
  have proper : ∀ n ∈ errand.nodes, (Json.obj n.config).Proper := by
    have exactOne : (Binary64.finite false Binary64.leastSignificand (-52)).Canonical := by decide
    have searched : (Json.obj searching.config).Proper := by
      simp [searching, Json.Proper, Json.FieldsProper, Json.ItemsProper, exactOne]
    have assigned (id : String) (v : Json) (own : v.Proper) :
        (Json.obj (assigning id v).config).Proper :=
      ⟨List.nodup_singleton _, own, trivial⟩
    have empty : (Json.obj []).Proper := ⟨List.nodup_nil, trivial⟩
    simp only [errand, List.forall_mem_cons]
    exact ⟨empty, searched, assigned _ (.str "1") trivial, assigned _ (.int 1) trivial,
      assigned _ (.str "$in.text") trivial, empty, List.forall_mem_nil _⟩
  obtain ⟨lowered, made, digit, count, copy⟩ : ∃ lowered,
      errand.lower .standard "0.1" true = .ok lowered ∧
      errand.Assigns lowered.program (assigning "digit" (.str "1")) (.str "\"1\"") ∧
      errand.Assigns lowered.program (assigning "count" (.int 1)) (.str "1") ∧
      errand.Assigns lowered.program (assigning "copy" (.str "$in.text")) (.str "$in.text") := by
    refine ⟨_, rfl, ⟨Lowerer.variableStep (assigning "digit" (.str "1")), _, ?_, rfl⟩,
      ⟨Lowerer.variableStep (assigning "count" (.int 1)), _, ?_, rfl⟩,
      ⟨Lowerer.variableStep (assigning "copy" (.str "$in.text")), _, ?_, rfl⟩⟩
    · exact List.mem_of_getElem? (i := 2) rfl
    · exact List.mem_of_getElem? (i := 3) rfl
    · exact List.mem_of_getElem? (i := 4) rfl
  obtain ⟨carried, -, different⟩ := embedded_values_recoverable proper made
  exact ⟨lowered, made, carried, ⟨digit, count, copy⟩,
    different _ _ _ _ digit count Json.noConfusion⟩

end Workflow

end Flowgraph
