import Flowgraph.Proofs.Event.ToolOutput
import Flowgraph.Proofs.Redaction.Completeness

/-!
# The limit on summaries

A text of a tool's result is shown whole where it is not longer than the limit in the settings,
and by a beginning with an ellipsis where it is longer. What is shown keeps the limit as long as
the limit has room for the ellipsis. A smaller limit is kept by no text that is cut: the end of
its beginning is then counted from the end of the text, and what is shown grows with the text.
-/
namespace Flowgraph

namespace Redaction

open SensitiveKey (Sensitive)

/-- A text and what is shown of it: the text where it is short, else a beginning of it with an
ellipsis. -/
inductive Cut (limit : Int) (s : String) : String → Prop
  | whole (short : s.length ≤ limit) : Cut limit s s
  | beginning {kept : List Char} (long : limit < s.length)
      (head : List.IsPrefix kept s.toList) : Cut limit s (String.ofList (kept ++ ['.', '.', '.']))

theorem cut_shorten (limit : Int) (s : String) : Cut limit s (shorten limit s) := by
  unfold shorten
  split
  · rename_i long
    exact .beginning long (List.take_prefix _ _)
  · rename_i short
    exact .whole (Int.not_lt.mp short)

/-- How long a text is that was cut: the ellipsis and what its beginning has, which is counted
from the end where the limit leaves no room for an ellipsis. -/
theorem length_shorten {limit : Int} {s : String} (long : limit < s.length) :
    (shorten limit s).length =
      min (if limit < 3 then limit - 3 + s.length else limit - 3).toNat s.length + 3 := by
  have cut : shorten limit s =
      String.ofList (before s.toList (limit - 3) ++ "...".toList) := if_pos long
  have negative : limit - 3 < 0 ↔ limit < 3 := by omega
  rw [cut, String.length_ofList, List.length_append, before, List.length_take, String.length_toList]
  simp only [negative]
  rfl

/-- What is shown of a text keeps a limit that has room for the ellipsis, and every limit that
the text itself keeps, but no other. -/
theorem length_shorten_le_iff {limit : Int} (natural : 0 ≤ limit) {s : String} :
    ((shorten limit s).length : Int) ≤ limit ↔ 3 ≤ limit ∨ (s.length : Int) ≤ limit := by
  by_cases long : limit < s.length
  · have length := length_shorten long
    split at length <;> omega
  · have whole : shorten limit s = s := if_neg long
    rw [whole]
    omega

/-- A text that stands in a value as a whole, or in a field whose key is not sensitive. -/
inductive TextOf : Json → Option Nat → String → Prop
  | whole (s : String) : TextOf (.str s) none s
  | field {fields : Fields} {place : Nat} {key s : String}
      (there : fields[place]? = some (key, .str s)) (harmless : ¬Sensitive key) :
      TextOf (.obj fields) (some place) s

variable {v : Json} {place : Option Nat} {s : String}

theorem TextOf.needsLimit (text : TextOf v place s) : Redaction.needsLimit v = true := by
  cases text with
  | whole => rfl
  | field there harmless =>
    refine List.any_eq_true.mpr ⟨_, List.mem_of_getElem? there, ?_⟩
    simpa using mt SensitiveKey.isSensitive_iff.mp harmless

/-- For a text that stands in a value its scrubbed beginning is shown at the same place. -/
theorem TextOf.redact (text : TextOf v place s) (limit : Int) (level : RedactionLevel)
    (reason : Option String) :
    TextOf (Redaction.redact limit level reason v).value place
      (shorten limit (Credential.scrub s)) := by
  cases text with
  | whole =>
    have shown : (Redaction.redact limit level reason (.str s)).value =
        .str (shorten limit (Credential.scrub s)) := report_value _ _ _ _
    rw [shown]
    exact .whole _
  | @field fields place key s there harmless =>
    have shown : (Redaction.redact limit level reason (.obj fields)).value =
        .obj (fields.map fun f => (f.1, redactField limit f.1 f.2)) := report_value _ _ _ _
    have plain : SensitiveKey.isSensitive key = false := by
      simpa using mt SensitiveKey.isSensitive_iff.mp harmless
    have summary : redactField limit key (.str s) =
        .str (shorten limit (Credential.scrub s)) := by
      rw [redactField, plain]
      rfl
    rw [shown]
    refine .field ?_ harmless
    rw [List.getElem?_map, there, ← summary]
    rfl

end Redaction

namespace EventMapper

open Procedure ProviderEvent Redaction

/-- Where the settings can be read, a tool's result is always reported. -/
theorem toolResult_reported {s : Sequencer} (ready : s.Ready) {c : Call}
    (timed : c.time.truthy = true) {stageId toolName result : Json}
    (read : c.given.read = .ok (.toolResult stageId toolName result)) {settings : Settings}
    (loaded : Settings.load c.source = .ok settings) : ∃ e, (c.perform.run s).1 = .ok e := by
  obtain ⟨limit, limited⟩ : ∃ limit,
      limitFor c.source (.toolResult stageId toolName result) = .ok limit := by
    rw [limitFor, limitAsked, loaded]
    split <;> exact ⟨_, rfl⟩
  rw [perform_ready ready timed read, limited]
  exact ⟨_, rfl⟩

/-- A tool's result is reported, and for every text of it that may be shown, the output has a
text at the same place: the scrubbed text itself or, where it exceeds the limit, a beginning of it
with an ellipsis. It keeps the limit exactly where there is room for the ellipsis or nothing to
cut. -/
theorem summary_limit_kept_iff {s : Sequencer} {c : Call} {stageId toolName result : Json}
    (read : c.given.read = .ok (.toolResult stageId toolName result)) {settings : Settings}
    (loaded : Settings.load c.source = .ok settings) (natural : 0 ≤ settings.summaryLimit) :
    (s.Ready → c.time.truthy = true → ∃ e, (c.perform.run s).1 = .ok e) ∧
    ∀ e, (c.perform.run s).1 = .ok e → ∃ shown : Redacted,
      e.payload.find "output" = .ok (some shown.toJson) ∧
      ∀ place text, TextOf result place text → ∃ t, TextOf shown.value place t ∧
        Cut settings.summaryLimit (Credential.scrub text) t ∧
        ((t.length : Int) ≤ settings.summaryLimit ↔
          3 ≤ settings.summaryLimit ∨
            ((Credential.scrub text).length : Int) ≤ settings.summaryLimit) := by
  refine ⟨fun ready timed => toolResult_reported ready timed read loaded, fun e mapped => ?_⟩
  obtain ⟨limit, limited, output⟩ := output_of_mapped read mapped
  refine ⟨_, output, fun place text stands => ?_⟩
  have own : limit = settings.summaryLimit := by
    rw [limitFor, limitAsked, needsLimit, stands.needsLimit, if_pos rfl, loaded] at limited
    exact (Except.ok.inj limited).symm
  rw [← own] at natural ⊢
  exact ⟨_, stands.redact limit .partly none, cut_shorten limit _, length_shorten_le_iff natural⟩

/-- A call of a mapper that reports a result under a limit. -/
def limited (limit : String) (result : Json) : Call :=
  { reporting result with source := [("LATTICE_SUMMARY_MAX_CHARS", limit)] }

/-- A note with a credential in it, too long for ten characters. -/
def note : Json :=
  .obj [("token", .str "t"), ("note", .str "key sk-abcdefgh end")]

theorem scrubbed_note_cut : ∃ settings e,
    (limited "10" note).given.read = .ok (.toolResult (.str "s") (.str "t") note) ∧
      Settings.load (limited "10" note).source = .ok settings ∧ settings.summaryLimit = 10 ∧
      ((limited "10" note).perform.run firstOfRun).1 = .ok e ∧
      ∃ shown : Redacted, e.payload.find "output" = .ok (some shown.toJson) ∧
        ∃ t, TextOf shown.value (some 1) t ∧
          Cut 10 (Credential.scrub "key sk-abcdefgh end") t ∧ (t.length : Int) ≤ 10 := by
  obtain ⟨settings, loaded, ten⟩ : ∃ settings,
      Settings.load (limited "10" note).source = .ok settings ∧ settings.summaryLimit = 10 :=
    ⟨_, rfl, rfl⟩
  have read := reporting_read note
  have natural : 0 ≤ settings.summaryLimit := by omega
  obtain ⟨reported, outputs⟩ := summary_limit_kept_iff (s := firstOfRun) (c := limited "10" note)
    read loaded natural
  obtain ⟨e, mapped⟩ := reported firstOfRun_ready (by decide)
  obtain ⟨shown, output, texts⟩ := outputs e mapped
  have harmless : ¬SensitiveKey.Sensitive "note" := by
    rw [← SensitiveKey.isSensitive_iff]
    decide
  have stands : TextOf note (some 1) "key sk-abcdefgh end" := .field rfl harmless
  obtain ⟨t, there, cut, kept⟩ := texts _ _ stands
  rw [ten] at cut kept
  exact ⟨settings, e, read, loaded, ten, mapped, shown, output, t, there, cut,
    kept.mpr (.inl (by decide))⟩

/-- A text of six characters under a limit of two is shown as one of eight. -/
theorem narrow_limit_exceeded : ∃ settings e,
    (limited "2" (.str "abcdef")).given.read =
        .ok (.toolResult (.str "s") (.str "t") (.str "abcdef")) ∧
      Settings.load (limited "2" (.str "abcdef")).source = .ok settings ∧
      settings.summaryLimit = 2 ∧
      ((limited "2" (.str "abcdef")).perform.run firstOfRun).1 = .ok e ∧
      e.payload.find "output" = .ok (some (Redacted.mk (.str "abcde...") .none false none).toJson) ∧
      TextOf (.str "abcdef") none "abcdef" ∧ TextOf (.str "abcde...") none "abcde..." ∧
      ¬("abcde...".length : Int) ≤ settings.summaryLimit :=
  ⟨_, _, rfl, rfl, rfl, rfl, rfl, .whole _, .whole _, by decide⟩

end EventMapper
end Flowgraph
