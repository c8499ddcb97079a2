import Flowgraph.Proofs.Json.WrittenForms
import Flowgraph.Proofs.Lowering.ProgramGraph
import Flowgraph.Proofs.Routing

/-!
# The text of a branch value

The value of a branch becomes a text when the program is made, and the value that a branching
node evaluates becomes a text when an edge is chosen. The first is the value's literal form,
the second its form in a comparison. Here it is told for which values the two agree; for the
others an edge is not followed even where the node evaluates the very value of its branch.
-/
namespace Flowgraph

namespace Json

/-- A value has the same text when a program is made and when an edge is chosen. -/
def keepsText : Json → Bool
  | str _ | int _ => true
  | float x => x.toInt?.isNone
  | null | bool _ => false
  | arr items => (arr items).sameForms
  | obj fields => (obj fields).sameForms

theorem float_display_eq_iff (x : Binary64) :
    (float x).display = (float x).comparisonText ↔ x.toInt?.isNone = true := by
  cases whole : x.toInt? with
  | none => simp [display, literal, literalChars, comparisonText, whole]
  | some i =>
    have finite : ∃ negative m e, x = .finite negative m e := by
      cases x with
      | finite negative m e => exact ⟨negative, m, e, rfl⟩
      | infinity | nan => cases whole
    obtain ⟨negative, m, e, rfl⟩ := finite
    have point := Binary64.hasPoint_write negative m e "inf".toList "nan".toList
    have differ : (float (.finite negative m e)).display ≠ toString i := by
      intro same
      have text := congrArg String.toList same
      rw [show (float (.finite negative m e)).display.toList = _ from String.toList_ofList] at text
      exact not_hasPoint_int i (text ▸ point)
    have compared : (float (.finite negative m e)).comparisonText = toString i := by
      simp only [comparisonText, whole]
    rw [compared]
    simpa using differ

theorem display_eq_comparisonText_iff (v : Json) :
    v.display = v.comparisonText ↔ v.keepsText = true := by
  cases v with
  | null => decide
  | bool b => cases b <;> decide
  | int i => simp [display, literal, literalChars, comparisonText, keepsText]
  | float x => exact float_display_eq_iff x
  | str s => simp [comparisonText, keepsText]
  | arr items =>
    rw [keepsText, ← (literal_compared 0 (arr items)).eq_iff]
    exact String.ofList_inj
  | obj fields =>
    rw [keepsText, ← (literal_compared 0 (obj fields)).eq_iff]
    exact String.ofList_inj

/-- Only a text can be displayed as a reference. -/
theorem isRef_display {v : Json} (literal : StateRef.isRef v = false) :
    StateRef.isRef (.str v.display) = false := by
  by_contra ref
  obtain ⟨rest, dollar⟩ := StateRef.dollar_of_isWellFormed (Bool.of_not_eq_false ref)
  have other : ∀ w : Json, v = w → v.display = w.literal → False := by
    rintro w rfl shown
    obtain ⟨c, text, written, ne⟩ := v.literalChars_begins
    rw [shown, Json.literal, String.toList_ofList, written] at dollar
    exact ne (List.cons.inj dollar).1
  cases v with
  | str s => exact ref literal
  | null | bool | int | float | arr | obj => exact other _ rfl rfl

end Json

namespace Workflow

/-- An edge that is not the last one at a branching node has a branch with a value at its
place, and in a state the node evaluates that same value. -/
structure Meets (w : Workflow) (p : Program) (n : Node) (i : Nat) (e : ProgramEdge) (v : Json)
    (s : Store) : Prop where
  node : n ∈ w.nodes
  branches : n.type.Branches
  edge : (p.outgoing (.str n.id))[i]? = some e
  before : i + 1 < (p.outgoing (.str n.id)).length
  value : ∃ (l : Lowerer) (fields : Fields), l.type = n.type ∧
    (n.configList l.branchesKey)[i]? = some (.obj fields) ∧
    l.valueKeys.findSome? (fun key => Lowerer.notNull? (fields.getD key)) = some v
  literal : StateRef.isRef v = false
  stored : ∃ step target r, p.step? (.str n.id) = some step ∧
    step.inputs.item "evaluationTarget" = .ok target ∧ StateRef.read target = .ok r ∧
    s.read r .null = .ok v

theorem branchValue_eq {keys : List String} {branches : List Json} {i : Nat} {fields : Fields}
    {v : Json} (branch : branches[i]? = some (.obj fields))
    (value : keys.findSome? (fun key => Lowerer.notNull? (fields.getD key)) = some v) :
    Lowerer.branchValue keys branches i = v.display := by
  simp only [Lowerer.branchValue, branch, value]

/-- Where a branching node evaluates the very value of a branch, the condition of the branch's
edge holds exactly if that value has the same text in both places. -/
theorem branch_holds_iff_keepsText (table : LowererTable) (version : String)
    (rejectCycles : Bool) (w : Workflow) (lowered : Lowered)
    (distinct : (w.nodes.map (·.id)).Nodup)
    (h : w.lower table version rejectCycles = .ok lowered) (search : PatternSearch) {n : Node}
    {i : Nat} {e : ProgramEdge} {v : Json} {s : Store}
    (meets : w.Meets lowered.program n i e v s) :
    e.condition.holds search s = .ok v.keepsText := by
  obtain ⟨entry, fragments, _, made, _, rfl⟩ := lower_eq_ok h
  obtain ⟨f, hf, outgoing, fragmentStep⟩ := exists_fragment made distinct meets.node
  obtain ⟨l, target, ht, input, guards⟩ := hf.guarded meets.branches
  obtain ⟨l', fields, ht', branch, value⟩ := meets.value
  obtain rfl := Lowerer.type_injective (ht'.trans ht.symm)
  obtain ⟨step, target', r, hstep, input', ref, stored⟩ := meets.stored
  obtain rfl := Option.some.inj (fragmentStep.symm.trans hstep)
  obtain rfl := Except.ok.inj (input.symm.trans input')
  have edge := meets.edge
  have before := meets.before
  have count : f.edges.length = (w.leaving n.id).length := by
    simpa using congrArg List.length hf.ends
  rw [outgoing] at edge before
  have condition : e.condition = ⟨.eq, target, .str v.display⟩ := by
    rw [guards i e edge, Lowerer.guardAt, if_neg (by omega), branchValue_eq branch value]
  have left : Condition.operand s target = .ok v :=
    (Condition.operand_of_read ref s).trans stored
  have right : Condition.operand s (.str v.display) = .ok (.str v.display) := by
    rw [Condition.operand, Json.isRef_display meets.literal]
    rfl
  rw [condition, Condition.holds_eq search left right]
  congr 1
  rw [Bool.eq_iff_iff, ← Json.display_eq_comparisonText_iff, beq_iff_eq]
  exact eq_comm

/-- The state of a run in which the question of `triage` is answered with yes. -/
def answered : Store :=
  .start (.obj [("askUserQuestion", .obj [("ask", .str "yes")])]) .null

theorem triage_branch_followed : (triage.nodes.map (·.id)).Nodup ∧
    ∃ lowered n e, triage.lower .standard "0.1" true = .ok lowered ∧
      triage.Meets lowered.program n 0 e (.str "yes") answered ∧
      e.condition.holds (fun _ _ => .ok false) answered = .ok true :=
  have meets : triage.Meets _ _ 0 _ (.str "yes") answered := {
    node := List.mem_cons_of_mem _ List.mem_cons_self
    branches := Or.inr (Or.inr rfl)
    edge := rfl
    before := by decide
    value := ⟨.askUserQuestion, _, rfl, rfl, rfl⟩
    literal := rfl
    stored := ⟨_, _, _, rfl, rfl, rfl, rfl⟩ }
  ⟨by decide, _, _, _, rfl, meets,
    branch_holds_iff_keepsText .standard "0.1" true triage _ (by decide) rfl _ meets⟩

/-- A branch for a truth value, on which the text is written with a capital. -/
def flagged : Workflow where
  id := "flagged"
  name := "Flagged"
  version := formatVersion
  createdAt := ""
  updatedAt := ""
  nodes :=
    [{ id := "begin", type := .start },
     { id := "choose", type := .ifElse,
       config := [("branches", .arr [.obj [("value", .bool true)]]),
         ("evaluationTarget", .str "$in.flag")] },
     { id := "yes", type := .stop },
     { id := "no", type := .stop }]
  edges :=
    [{ id := "1", source := "begin", target := "choose" },
     { id := "2", source := "choose", target := "yes" },
     { id := "3", source := "choose", target := "no" }]

/-- The state of a run in which the flag is set. -/
def raised : Store :=
  .start (.obj [("flag", .bool true)]) .null

/-- The node evaluates the truth value of its branch, and the condition does not hold. -/
theorem flagged_branch_missed : ∃ lowered n e,
    flagged.lower .standard "0.1" true = .ok lowered ∧
      flagged.Meets lowered.program n 0 e (.bool true) raised ∧
      e.condition.holds (fun _ _ => .ok false) raised = .ok false :=
  have meets : flagged.Meets _ _ 0 _ (.bool true) raised := {
    node := List.mem_cons_of_mem _ List.mem_cons_self
    branches := Or.inl rfl
    edge := rfl
    before := by decide
    value := ⟨.ifElse, _, rfl, rfl, rfl⟩
    literal := rfl
    stored := ⟨_, _, _, rfl, rfl, rfl, rfl⟩ }
  ⟨_, _, _, rfl, meets, rfl⟩

end Workflow
end Flowgraph
