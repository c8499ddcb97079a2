import Flowgraph.Proofs.Program.RoundTrip

/-!
# Reading a program brings it into its form

What is read as a program may be given loosely: attempts as a text or a fraction, the inputs
of a step as a list of pairs, a list as the keys of an object, and much may be left out. What
is written of the program is in one form, which reads as a program that is written the same.

The program that comes back is not the one that was written where an object was given as a
list of its fields. So it is compared with a program that has the objects in their place: such
a program comes back, and is written as the other one is.
-/
namespace Flowgraph

/-! ## Slots that are written -/

/-- What is written of a slot is written of an object, or of a slot that is not set. -/
theorem objectField_settled {name : String} {v : Json} {fields : Fields}
    (written : objectField name v = .ok fields) :
    ∃ w : Json, w.IsSlot ∧ objectField name w = .ok fields := by
  have listed (own : v.fields?.map (fun fields => [(name, Json.obj fields)]) = .ok fields) :
      ∃ w : Json, w.IsSlot ∧ objectField name w = .ok fields := by
    cases found : v.fields? with
    | error fault =>
      rw [found] at own
      cases own
    | ok inner =>
      rw [found] at own
      exact ⟨.obj inner, .inr ⟨inner, rfl⟩, own⟩
  cases v with
  | null => exact ⟨.null, .inl rfl, written⟩
  | bool | int | float | str | arr | obj => exact listed written

theorem Action.settled {a : Action} {fields : Fields} (written : a.fields = .ok fields) :
    ∃ b : Action, b.Slotted ∧ b.op = a.op ∧ b.fields = .ok fields := by
  cases a with
  | toolCall tool args =>
    cases found : objectField "args" args with
    | error fault =>
      rw [Action.fields, found] at written
      cases written
    | ok inner =>
      obtain ⟨slot, settled, same⟩ := objectField_settled found
      refine ⟨.toolCall tool slot, settled, rfl, ?_⟩
      rw [Action.fields, same, ← found]
      exact written
  | start => exact ⟨.start, trivial, rfl, written⟩
  | stop => exact ⟨.stop, trivial, rfl, written⟩
  | llmWrite call => exact ⟨.llmWrite call, trivial, rfl, written⟩
  | switch => exact ⟨.switch, trivial, rfl, written⟩
  | varSet target value => exact ⟨.varSet target value, trivial, rfl, written⟩
  | varGet source => exact ⟨.varGet source, trivial, rfl, written⟩
  | transform kind expression => exact ⟨.transform kind expression, trivial, rfl, written⟩

theorem Step.settled {s : Step} {v : Json} (written : s.toJson = .ok v) :
    ∃ t : Step, t.Slotted ∧ t.toJson = .ok v := by
  obtain ⟨inputs, first, written⟩ := bind_eq_ok.mp written
  obtain ⟨outputs, second, written⟩ := bind_eq_ok.mp written
  obtain ⟨fields, third, written⟩ := bind_eq_ok.mp written
  obtain ⟨inSlot, inSettled, sameInputs⟩ := objectField_settled first
  obtain ⟨outSlot, outSettled, sameOutputs⟩ := objectField_settled second
  obtain ⟨action, actionSettled, op, sameFields⟩ := Action.settled third
  refine ⟨⟨s.id, inSlot, outSlot, action⟩, ⟨inSettled, outSettled, actionSettled⟩, ?_⟩
  simp only [toJson, sameInputs, sameOutputs, sameFields, op, bind, Except.bind]
  exact written

/-- What is written of a step reads as a step that is written the same. -/
theorem Step.exists_of_toJson {s : Step} {v : Json} (written : s.toJson = .ok v) :
    ∃ t : Step, ofJson v = .ok t ∧ t.toJson = .ok v := by
  obtain ⟨t, slotted, same⟩ := settled written
  obtain ⟨fields, _, form, back⟩ := exists_form slotted
  obtain rfl := Except.ok.inj (same.symm.trans form)
  exact ⟨t, back, same⟩

/-! ## Programs -/

namespace Program

theorem exists_of_toJson {p : Program} {e : Json} (written : p.toJson = .ok e) :
    ∃ q, ofJson e = .ok q ∧ q.toJson = .ok e := by
  obtain ⟨forms, each, written⟩ := bind_eq_ok.mp written
  obtain ⟨steps, back, same⟩ : ∃ steps, forms.mapM Step.ofJson = .ok steps ∧
      List.Forall₂ (fun s v => s.toJson = .ok v) steps forms := by
    refine exists_mapM_forall₂ fun v member => ?_
    obtain ⟨s, _, own⟩ := forall₂_exists_left ((mapM_eq_ok_iff _ _ _).mp each) member
    exact Step.exists_of_toJson own
  let q : Program := { p with steps }
  have again : q.steps.mapM Step.toJson = .ok forms := (mapM_eq_ok_iff _ _ _).mpr same
  obtain rfl : q.formOf forms = e := Except.ok.inj written
  exact ⟨q, ofJson_formOf back, toJson_formOf again⟩

/-- What is written of a program that was read, from whatever it was read, reads as a program
that is written the same. -/
theorem written_form_stable {d e : Json} (h : (ofJson d >>= toJson) = .ok e) :
    ∃ p, ofJson e = .ok p ∧ p.toJson = .ok e := by
  obtain ⟨p, _, written⟩ := bind_eq_ok.mp h
  exact exists_of_toJson written

/-- A program as it might be written by hand, with no edges and with keys of every kind. -/
def looseForm : Json :=
  .obj [("execir_version", .int 1), ("entry_node", .null), ("nodes", .arr [
    .obj [("op", .str "LLM_WRITE"), ("id", .str "tell"),
      ("inputs", .arr [.arr [.int 1, .str "a"], .arr [.bool true, .str "b"], .str "xy"]),
      ("model_class", .str "SMALL_EXEC"), ("prompt_template", .null), ("output_schema", .null),
      ("validators", .str ""), ("note", .str "not read"),
      ("retry_policy", .obj [("max_attempts", .str " 1_0 "), ("strategy", .str "FULL_RETRY")]),
      ("escalation", .obj [("on", .obj [("timeout", .null)]),
        ("to_model_class", .str "LARGE_JUDGE")])],
    .obj [("id", .str "keep"), ("op", .str "VAR_SET"), ("target", .arr [])]])]

/-- The form in which that program is written. -/
def settledForm : Json :=
  .obj [("execir_version", .int 1), ("entry_node", .null), ("nodes", .arr [
    .obj [("id", .str "tell"), ("op", .str "LLM_WRITE"),
      ("inputs", .obj [("1", .str "b"), ("x", .str "y")]),
      ("model_class", .str "SMALL_EXEC"), ("prompt_template", .null), ("output_schema", .null),
      ("validators", .arr []),
      ("retry_policy", .obj [("strategy", .str "FULL_RETRY"), ("max_attempts", .int 10)]),
      ("escalation", .obj [("on", .arr [.str "timeout"]),
        ("to_model_class", .str "LARGE_JUDGE")])],
    .obj [("id", .str "keep"), ("op", .str "VAR_SET"), ("target", .arr []), ("value", .null)]]),
    ("edges", .arr [])]

theorem looseForm_settles : (ofJson looseForm >>= toJson) = .ok settledForm ∧
    ∃ p, ofJson settledForm = .ok p ∧ p.toJson = .ok settledForm := by
  have written : (ofJson looseForm >>= toJson) = .ok settledForm := by rfl
  exact ⟨written, written_form_stable written⟩

end Program
end Flowgraph
