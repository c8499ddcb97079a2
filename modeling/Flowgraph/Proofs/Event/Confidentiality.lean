import Flowgraph.Proofs.Event.Numbering
import Flowgraph.Proofs.Event.Reading
import Mathlib.Data.List.Forall2

/-!
# Confidential payloads

Two sequences of provider events that differ only in what is hidden become the same events.
Hidden are prompts and the inputs of tools, and of the output of a tool the entries under
sensitive keys, the members of arrays and the values of objects within an object.

What is shown of an output, the beginnings of texts above all, may tell of it all the same.
-/
namespace Flowgraph

namespace Redaction

/-- Two entries of an object of which the same is shown under a key that is not sensitive. -/
inductive SameEntry : Json → Json → Prop
  | same (v : Json) : SameEntry v v
  | members {xs ys : List Json} : xs.length = ys.length → SameEntry (.arr xs) (.arr ys)
  | values {fs gs : Fields} : fs.map (·.1) = gs.map (·.1) → SameEntry (.obj fs) (.obj gs)

/-- Two fields of which the same is shown. -/
def SameField (f g : String × Json) : Prop :=
  f.1 = g.1 ∧ (SensitiveKey.isSensitive f.1 = true ∨ SameEntry f.2 g.2)

/-- Two outputs of a tool of which the same is shown. -/
inductive SameOutput : Json → Json → Prop
  | same (v : Json) : SameOutput v v
  | members {xs ys : List Json} : xs.length = ys.length → SameOutput (.arr xs) (.arr ys)
  | fields {fs gs : Fields} : List.Forall₂ SameField fs gs → SameOutput (.obj fs) (.obj gs)

theorem SameEntry.shown {v w : Json} (same : SameEntry v w) (limit : Int) :
    summarizeScrubbed limit v = summarizeScrubbed limit w ∧ hasCredential v = hasCredential w := by
  cases same with
  | same => exact ⟨rfl, rfl⟩
  | members lengths =>
    refine ⟨?_, rfl⟩
    simp only [summarizeScrubbed, summarize, lengths]
  | @values fs gs keys =>
    have lengths : fs.length = gs.length := by simpa using congrArg List.length keys
    refine ⟨?_, rfl⟩
    simp only [summarizeScrubbed, summarize, keys, lengths]

theorem SameField.shown {f g : String × Json} (same : SameField f g) (limit : Int) :
    (f.1, redactField limit f.1 f.2) = (g.1, redactField limit g.1 g.2) ∧
      hidesField f.1 f.2 = hidesField g.1 g.2 := by
  obtain ⟨key, v⟩ := f
  obtain ⟨key', w⟩ := g
  obtain ⟨rfl, hidden | entry⟩ := same
  · have hidden : SensitiveKey.isSensitive key = true := hidden
    simp only [redactField, hidesField, hidden, if_true, Bool.true_or, and_self]
  · obtain ⟨summary, credential⟩ := entry.shown limit
    have summary : summarizeScrubbed limit v = summarizeScrubbed limit w := summary
    have credential : hasCredential v = hasCredential w := credential
    simp only [redactField, hidesField, summary, credential, and_self]

theorem forall₂_shown {fs gs : Fields} (same : List.Forall₂ SameField fs gs) (limit : Int) :
    fs.map (fun f => (f.1, redactField limit f.1 f.2)) =
        gs.map (fun f => (f.1, redactField limit f.1 f.2)) ∧
      (fs.any fun f => hidesField f.1 f.2) = (gs.any fun f => hidesField f.1 f.2) ∧
      (fs.any fun f => !SensitiveKey.isSensitive f.1) =
        (gs.any fun f => !SensitiveKey.isSensitive f.1) := by
  induction same with
  | nil => exact ⟨rfl, rfl, rfl⟩
  | cons first _ ih =>
    obtain ⟨shown, hides, limited⟩ := ih
    obtain ⟨shown', hides'⟩ := first.shown limit
    refine ⟨?_, ?_, ?_⟩
    · rw [List.map_cons, List.map_cons, shown, shown']
    · rw [List.any_cons, List.any_cons, hides, hides']
    · rw [List.any_cons, List.any_cons, limited, first.1]

/-- What is shown of an output does not depend on what is hidden in it. -/
theorem SameOutput.shown {v w : Json} (same : SameOutput v w) (limit : Int)
    (level : RedactionLevel) (reason : Option String) :
    redact limit level reason v = redact limit level reason w ∧ needsLimit v = needsLimit w := by
  cases same with
  | same => exact ⟨rfl, rfl⟩
  | members lengths =>
    refine ⟨?_, rfl⟩
    simp only [redact, summarizeScrubbed, summarize, hasCredential, lengths]
  | fields members =>
    obtain ⟨shown, hides, limited⟩ := forall₂_shown members limit
    refine ⟨?_, limited⟩
    simp only [redact, hides, shown]

end Redaction

namespace EventMapper

open ProviderEvent Redaction

/-- Two provider events of which the same is shown. -/
inductive SameEvent : ProviderEvent → ProviderEvent → Prop
  | same (e : ProviderEvent) : SameEvent e e
  | prompt (stage model prompt prompt' : Json) :
      SameEvent (.stepStart stage model prompt) (.stepStart stage model prompt')
  | args (stage tool args args' : Json) :
      SameEvent (.toolCall stage tool args) (.toolCall stage tool args')
  | result (stage tool : Json) {result result' : Json} : SameOutput result result' →
      SameEvent (.toolResult stage tool result) (.toolResult stage tool result')

/-- Two objects agree on all keys but one. -/
def AgreeBut (key : String) (fields fields' : Fields) : Prop :=
  ∀ other, other ≠ key → fields.get? other = fields'.get? other

/-- Two provider events, given as such or written as objects, that are equal except for what
is hidden. -/
inductive SameGiven : Given → Given → Prop
  | same (g : Given) : SameGiven g g
  | event {e e' : ProviderEvent} : SameEvent e e' → SameGiven (.event e) (.event e')
  | prompt {fields fields' : Fields} : fields.get? "type" = some (.str "step-start") →
      AgreeBut "prompt" fields fields' →
      SameGiven (.written (.obj fields)) (.written (.obj fields'))
  | args {fields fields' : Fields} : fields.get? "type" = some (.str "tool-call") →
      AgreeBut "args" fields fields' →
      SameGiven (.written (.obj fields)) (.written (.obj fields'))
  | result {fields fields' : Fields} : fields.get? "type" = some (.str "tool-result") →
      AgreeBut "result" fields fields' →
      SameOutput (fields.getD "result") (fields'.getD "result") →
      SameGiven (.written (.obj fields)) (.written (.obj fields'))

/-- The texts of events. -/
def writeAll (events : SessionM (List Event)) : SessionM (List String) := do
  (← events).mapM fun e => (e.serialize : SessionM String)

theorem SameEvent.mapNext_eq {e e' : ProviderEvent} (same : SameEvent e e') (s : Sequencer) :
    mapNext s e = mapNext s e' := by
  cases same with
  | same => rfl
  | prompt => rfl
  | args => rfl
  | @result stage tool r r' same =>
    have limited : needsLimit (.toolResult stage tool r) = needsLimit (.toolResult stage tool r') :=
      (same.shown 0 .partly none).2
    have shown : ∀ limit, content limit (.toolResult stage tool r) =
        content limit (.toolResult stage tool r') := by
      intro limit
      rw [content, content, (same.shown limit .partly none).1]
    have mapped : ∀ limit, map limit s (.toolResult stage tool r) =
        map limit s (.toolResult stage tool r') := by
      intro limit
      rw [map, map, shown]
      rfl
    simp only [mapNext, limitAsked, limited, mapped]

section Agreement

variable {key : String} {fields fields' : Fields}

theorem AgreeBut.pick_eq (agree : AgreeBut key fields fields') {keys : List String}
    (apart : key ∉ keys) (default : Json) :
    pick fields keys default = pick fields' keys default := by
  have found : keys.findSome? fields.get? = keys.findSome? fields'.get? := by
    induction keys with
    | nil => rfl
    | cons first rest ih =>
      rw [List.mem_cons, not_or] at apart
      rw [List.findSome?_cons, List.findSome?_cons, agree first (Ne.symm apart.1), ih apart.2]
  rw [pick, pick, found]

theorem AgreeBut.typed (agree : AgreeBut key fields fields') (apart : "type" ≠ key)
    {type : String} (typed : fields.get? "type" = some (.str type)) :
    fields'.get? "type" = some (.str type) := by
  rw [← agree "type" apart]
  exact typed

end Agreement

/-- Events of which the same is shown are read, or both are refused. -/
theorem SameGiven.read {g g' : Given} (same : SameGiven g g') :
    g.read = g'.read ∨ ∃ e e', g.read = .ok e ∧ g'.read = .ok e' ∧ SameEvent e e' := by
  cases same with
  | same => exact .inl rfl
  | event same => exact .inr ⟨_, _, rfl, rfl, same⟩
  | @prompt fields fields' typed agree =>
    refine .inr ⟨_, _, ofFields_stepStart typed,
      ofFields_stepStart (agree.typed (by decide) typed), ?_⟩
    rw [stageField, stageField, agree.pick_eq (by decide), agree.pick_eq (by decide)]
    exact .prompt _ _ _ _
  | @args fields fields' typed agree =>
    refine .inr ⟨_, _, ofFields_toolCall typed,
      ofFields_toolCall (agree.typed (by decide) typed), ?_⟩
    rw [stageField, stageField, toolField, toolField, agree.pick_eq (by decide),
      agree.pick_eq (by decide)]
    exact .args _ _ _ _
  | @result fields fields' typed agree output =>
    refine .inr ⟨_, _, ofFields_toolResult typed,
      ofFields_toolResult (agree.typed (by decide) typed), ?_⟩
    rw [stageField, stageField, toolField, toolField, agree.pick_eq (by decide),
      agree.pick_eq (by decide)]
    exact .result _ _ output

/-- A mapper does not distinguish sequences that differ only in what is hidden. -/
theorem mapGiven_eq {given given' : List Given} (same : List.Forall₂ SameGiven given given')
    (s : Sequencer) : mapGiven s given = mapGiven s given' := by
  have settled : ∀ e : ProviderEvent,
      (liftM (Except.ok e : Except Fault ProviderEvent) : SessionM ProviderEvent) = pure e :=
    fun _ => rfl
  induction same generalizing s with
  | nil => rfl
  | cons first _ ih =>
    rw [mapGiven, mapGiven]
    rcases first.read with read | ⟨e, e', read, read', event⟩
    · simp only [read, ih]
    · simp only [read, read', settled, pure_bind, event.mapNext_eq, ih]

/-- What is hidden has no influence on the events that a sequence of provider events becomes
nor on the texts that are written of them, whatever the run, its first number, the settings
and the clock are. Where a sequence cannot be mapped the failure is the same, too. -/
theorem hidden_payloads_have_no_influence {given given' : List Given}
    (same : List.Forall₂ SameGiven given given') :
    (∀ s, mapGiven s given = mapGiven s given' ∧
      writeAll (mapGiven s given) = writeAll (mapGiven s given')) ∧
    ∀ runId clock, mapRun runId clock given = mapRun runId clock given' ∧
      writeAll (mapRun runId clock given) = writeAll (mapRun runId clock given') := by
  have events := mapGiven_eq same
  have run : ∀ runId clock, mapRun runId clock given = mapRun runId clock given' := by
    intro runId clock
    simp only [mapRun, events]
  constructor
  · intro s
    exact ⟨events s, congrArg writeAll (events s)⟩
  · intro runId clock
    exact ⟨run runId clock, congrArg writeAll (run runId clock)⟩

/-- A prompt, the input of a tool, and an output with a token, an array and an object. -/
def stepWith (prompt : Fields) (args token member value : Json) : List Given :=
  [.written (.obj ([("type", .str "step-start"), ("stageId", .str "s")] ++ prompt)),
    .event (.toolCall (.str "s") (.str "search") args),
    .event (.toolResult (.str "s") (.str "search") (.obj [("apiToken", token),
      ("found", .arr [member]), ("best", .obj [("name", value)]), ("count", .int 1)]))]

theorem hidden_step_same : ∃ given given' : List Given,
    given = stepWith [("prompt", .str "first")] .null (.str "t1") (.str "m1") (.int 1) ∧
    given' = stepWith [] (.str "args") (.arr []) (.obj []) (.str "v2") ∧
    List.Forall₂ SameGiven given given' ∧
    (∃ events, ((mapRun (.str "r") ⟨"", "now", 0⟩ given).run { source := [] }).1 = .ok events ∧
      events.length = 3) ∧
    writeAll (mapRun (.str "r") ⟨"", "now", 0⟩ given) =
      writeAll (mapRun (.str "r") ⟨"", "now", 0⟩ given') := by
  have same : List.Forall₂ SameGiven
      (stepWith [("prompt", .str "first")] .null (.str "t1") (.str "m1") (.int 1))
      (stepWith [] (.str "args") (.arr []) (.obj []) (.str "v2")) := by
    refine .cons (.prompt rfl ?_) (.cons (.event (.args _ _ _ _))
      (.cons (.event (.result _ _ (.fields ?_))) .nil))
    · intro other apart
      simp [Fields.get?, List.lookup_cons, List.lookup_nil, beq_false_of_ne apart]
    · refine .cons ⟨rfl, .inl (by decide)⟩ (.cons ⟨rfl, .inr (.members rfl)⟩
        (.cons ⟨rfl, .inr (.values rfl)⟩ (.cons ⟨rfl, .inr (.same _)⟩ .nil)))
  have hidden := (hidden_payloads_have_no_influence same).2 (.str "r") ⟨"", "now", 0⟩
  exact ⟨_, _, rfl, rfl, same, ⟨_, rfl, rfl⟩, hidden.2⟩

end EventMapper
end Flowgraph
