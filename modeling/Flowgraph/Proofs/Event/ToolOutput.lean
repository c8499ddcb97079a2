import Flowgraph.Proofs.Event.Lenience
import Flowgraph.Proofs.Redaction.Credential

/-!
# What the output of a tool shows

In the output that an event reports stand keys of the result, which are shown as they are,
and otherwise only texts without a credential and their beginnings with an ellipsis. So a
credential leaves through the output of a tool exactly where it is spelled as a key: of the
result itself, or among the first keys of an object under a key that is not sensitive.

That an ellipsis can complete a credential, as in `bearer ...`, is not counted.
-/
namespace Flowgraph

namespace Json

mutual

/-- Every text in a value: the keys of its objects and the texts that stand in it. -/
def everyText : Json → List String
  | .str s => [s]
  | .arr items => everyTextOf items
  | .obj fields => everyTextUnder fields
  | _ => []

def everyTextOf : List Json → List String
  | [] => []
  | v :: rest => everyText v ++ everyTextOf rest

def everyTextUnder : List (String × Json) → List String
  | [] => []
  | (k, v) :: rest => k :: everyText v ++ everyTextUnder rest

end

theorem everyTextOf_map_str (keys : List String) : everyTextOf (keys.map str) = keys := by
  induction keys with
  | nil => rfl
  | cons k keys ih =>
    rw [List.map_cons, everyTextOf, everyText, ih, List.singleton_append]

theorem mem_everyTextUnder {t : String} {fields : List (String × Json)} :
    t ∈ everyTextUnder fields ↔ ∃ f ∈ fields, t = f.1 ∨ t ∈ f.2.everyText := by
  induction fields with
  | nil => simp [everyTextUnder]
  | cons f rest ih =>
    obtain ⟨k, v⟩ := f
    simp [everyTextUnder, ih, or_assoc]

end Json

namespace Redaction

/-- The keys in the summary of an object. -/
def summaryKeys : Json → List String
  | .obj fields => (fields.map (·.1)).take shownKeys
  | _ => []

/-- The keys of a result that are shown: its own, and those in the summaries of the objects
under them. -/
def plainKeys : Json → List String
  | .obj fields => fields.flatMap fun (k, v) =>
    k :: if SensitiveKey.isSensitive k then [] else summaryKeys v
  | _ => []

/-- A text without a credential, or an ellipsis after a beginning without one. -/
def Withheld (limit : Int) (t : String) : Prop :=
  Credential.occurs t = false ∨
    ∃ s : String, limit < Int.ofNat s.length ∧
      t = String.ofList (before s.toList (limit - 3) ++ "...".toList) ∧
      Credential.occurs (String.ofList (before s.toList (limit - 3))) = false

/-- Cutting a text does not bring a credential about. -/
theorem withheld_shorten (limit : Int) {s : String} (clean : Credential.occurs s = false) :
    Withheld limit (shorten limit s) := by
  unfold shorten
  split
  · rename_i long
    exact .inr ⟨s, long, rfl, Credential.occurs_of_isPrefix (List.take_prefix _ _) clean⟩
  · exact .inl clean

/-- The words of the summaries and of the report. -/
def fixedTexts : List String :=
  ["kind", "array", "length", "object", "keys", "keyCount", "[REDACTED]", "value",
    "redactionLevel", "none", "partial", "full", "isRedacted", "redactionReason", defaultReason]

theorem withheld_fixed (limit : Int) {words : List String} (fixed : ∀ t ∈ words, t ∈ fixedTexts) :
    ∀ t ∈ words, Withheld limit t := by
  have clean : ∀ t ∈ fixedTexts, Credential.occurs t = false := by decide
  exact fun t member => .inl (clean t (fixed t member))

/-- The summary of a value shows the keys of an object and beyond them no credential. -/
theorem summary_texts (limit : Int) (v : Json) :
    (∀ t ∈ (summarizeScrubbed limit v).everyText, t ∈ summaryKeys v ∨ Withheld limit t) ∧
      ∀ k ∈ summaryKeys v, k ∈ (summarizeScrubbed limit v).everyText := by
  cases v with
  | str s =>
    refine ⟨fun t member => .inr ?_, fun k member => absurd member List.not_mem_nil⟩
    obtain rfl : t = shorten limit (Credential.scrub s) := List.mem_singleton.mp member
    exact withheld_shorten limit (Credential.occurs_scrub s)
  | arr items =>
    have words : (summarizeScrubbed limit (.arr items)).everyText = ["kind", "array", "length"] :=
      rfl
    rw [words]
    have held := withheld_fixed limit
      (show ∀ t ∈ ["kind", "array", "length"], t ∈ fixedTexts by decide)
    exact ⟨fun t member => .inr (held t member), fun k member => absurd member List.not_mem_nil⟩
  | obj fields =>
    have words : (summarizeScrubbed limit (.obj fields)).everyText =
        ["kind", "object", "keys"] ++ summaryKeys (.obj fields) ++ ["keyCount"] := by
      rw [summaryKeys, ← Json.everyTextOf_map_str ((fields.map (·.1)).take shownKeys)]
      rfl
    rw [words]
    refine ⟨fun t member => ?_, fun k member => by simp [member]⟩
    simp only [List.mem_append, or_assoc] at member
    rcases member with before | key | behind
    · exact .inr (withheld_fixed limit (by decide) t before)
    · exact .inl key
    · exact .inr (withheld_fixed limit (by decide) t behind)
  | null | bool | int | float =>
    exact ⟨fun t member => absurd member List.not_mem_nil,
      fun k member => absurd member List.not_mem_nil⟩

/-- A field that is shown adds its key, and the keys in its summary where it is not hidden. -/
theorem field_texts (limit : Int) (key : String) (v : Json) :
    (∀ t ∈ (redactField limit key v).everyText,
      (SensitiveKey.isSensitive key = false ∧ t ∈ summaryKeys v) ∨ Withheld limit t) ∧
      (SensitiveKey.isSensitive key = false →
        ∀ k ∈ summaryKeys v, k ∈ (redactField limit key v).everyText) := by
  unfold redactField
  cases SensitiveKey.isSensitive key with
  | true =>
    have held := withheld_fixed limit (show ∀ t ∈ ["[REDACTED]"], t ∈ fixedTexts by decide)
    exact ⟨fun t member => .inr (held t member), nofun⟩
  | false =>
    obtain ⟨held, shown⟩ := summary_texts limit v
    exact ⟨fun t member => (held t member).imp_left fun key => ⟨rfl, key⟩, fun _ => shown⟩

theorem mem_plainKeys {k : String} {fields : Fields} : k ∈ plainKeys (.obj fields) ↔
    ∃ f ∈ fields, k = f.1 ∨ SensitiveKey.isSensitive f.1 = false ∧ k ∈ summaryKeys f.2 := by
  rw [plainKeys, List.mem_flatMap]
  refine exists_congr fun f => and_congr_right fun _ => ?_
  rw [List.mem_cons]
  cases SensitiveKey.isSensitive f.1 <;> simp

/-- The report names a value, and beside it only words of its own. -/
theorem report_texts (level : RedactionLevel) (hit : Bool) (v : Json) :
    (∀ t ∈ (report level none hit v).toJson.everyText, t ∈ v.everyText ∨ t ∈ fixedTexts) ∧
      ∀ t ∈ v.everyText, t ∈ (report level none hit v).toJson.everyText := by
  have words : ∃ others, (∀ t ∈ others, t ∈ fixedTexts) ∧
      (report level none hit v).toJson.everyText = "value" :: v.everyText ++ others := by
    cases hit with
    | false => exact ⟨["redactionLevel", "none", "isRedacted"], by decide, rfl⟩
    | true =>
      refine ⟨["redactionLevel", level.name, "isRedacted", "redactionReason", defaultReason],
        ?_, rfl⟩
      cases level <;> decide
  obtain ⟨others, fixed, words⟩ := words
  rw [words]
  refine ⟨fun t member => ?_, fun t member => by simp [member]⟩
  simp only [List.cons_append, List.mem_cons, List.mem_append] at member
  rcases member with rfl | value | other
  · exact .inr (by decide)
  · exact .inl value
  · exact .inr (fixed t other)

/-- An object whose fields are redacted one by one shows its keys and no credential. -/
theorem fields_texts (limit : Int) (fields : Fields) :
    (∀ t ∈ (Json.obj (fields.map fun (k, v) => (k, redactField limit k v))).everyText,
      t ∈ plainKeys (.obj fields) ∨ Withheld limit t) ∧
      ∀ k ∈ plainKeys (.obj fields),
        k ∈ (Json.obj (fields.map fun (k, v) => (k, redactField limit k v))).everyText := by
  have under (t : String) :
      t ∈ (Json.obj (fields.map fun (k, v) => (k, redactField limit k v))).everyText ↔
        ∃ f ∈ fields, t = f.1 ∨ t ∈ (redactField limit f.1 f.2).everyText := by
    simp [Json.everyText, Json.mem_everyTextUnder]
  simp only [under, mem_plainKeys]
  constructor
  · rintro t ⟨⟨key, v⟩, member, same | text⟩
    · exact .inl ⟨(key, v), member, .inl same⟩
    · rcases (field_texts limit key v).1 t text with ⟨plain, summary⟩ | held
      · exact .inl ⟨(key, v), member, .inr ⟨plain, summary⟩⟩
      · exact .inr held
  · rintro k ⟨⟨key, v⟩, member, same | ⟨plain, summary⟩⟩
    · exact ⟨(key, v), member, .inl same⟩
    · exact ⟨(key, v), member, .inr ((field_texts limit key v).2 plain k summary)⟩

/-- What a redacted result shows: its keys, and beyond them no credential. -/
theorem redact_texts (limit : Int) (level : RedactionLevel) (v : Json) :
    (∀ t ∈ (redact limit level none v).toJson.everyText, t ∈ plainKeys v ∨ Withheld limit t) ∧
      ∀ k ∈ plainKeys v, k ∈ (redact limit level none v).toJson.everyText := by
  obtain ⟨hit, shown, redacted, held, kept⟩ : ∃ hit shown,
      redact limit level none v = report level none hit shown ∧
        (∀ t ∈ shown.everyText, t ∈ plainKeys v ∨ Withheld limit t) ∧
        ∀ k ∈ plainKeys v, k ∈ shown.everyText := by
    cases v with
    | obj fields => exact ⟨_, _, rfl, fields_texts limit fields⟩
    | null | bool | int | float | str | arr => exact ⟨_, _, rfl, summary_texts limit _⟩
  rw [redacted]
  obtain ⟨only, all⟩ := report_texts level hit shown
  constructor
  · intro t member
    rcases only t member with value | fixed
    · exact held t value
    · exact .inr (withheld_fixed limit (fun _ => id) t fixed)
  · exact fun k member => all k (kept k member)

end Redaction

namespace EventMapper

open Procedure ProviderEvent

/-- The event of a tool result reports the redacted result. -/
theorem output_of_mapped {s : Sequencer} {c : Call} {stageId toolName result : Json}
    (read : c.given.read = .ok (.toolResult stageId toolName result)) {e : Event}
    (mapped : (c.perform.run s).1 = .ok e) :
    ∃ limit, limitFor c.source (.toolResult stageId toolName result) = .ok limit ∧
      e.payload.find "output" = .ok (some (Redaction.redact limit .partly none result).toJson) := by
  rw [Call.perform, run_bind_ok (run_change _ s), run_bind, run_check, read] at mapped
  dsimp only at mapped
  rw [perform_run] at mapped
  cases limited : limitFor c.source (.toolResult stageId toolName result) with
  | error f =>
    rw [limited] at mapped
    cases mapped
  | ok limit =>
    rw [limited] at mapped
    refine ⟨limit, rfl, ?_⟩
    have made : map limit { s with timestamp := c.time } (.toolResult stageId toolName result) =
        Sequencer.issue { s with timestamp := c.time } .toolResult (envelopeStage stageId)
          (.obj [("stageId", stageId), ("toolName", toolName), ("status", .str "success"),
            ("output", (Redaction.redact limit .partly none result).toJson)]) := rfl
    dsimp only [bind, Except.bind] at mapped
    rw [made] at mapped
    split at mapped
    · rename_i issued
      cases mapped
      rw [Sequencer.issue_payload issued]
      rfl
    · cases mapped

/-- No credential leaves through the output of a tool, unless it is spelled as a key. -/
theorem tool_output_withholds_credentials {s : Sequencer} {c : Call}
    {stageId toolName result : Json}
    (read : c.given.read = .ok (.toolResult stageId toolName result)) {e : Event}
    (mapped : (c.perform.run s).1 = .ok e) :
    ∃ limit output, limitFor c.source (.toolResult stageId toolName result) = .ok limit ∧
      e.payload.find "output" = .ok (some output) ∧
      (∀ t ∈ output.everyText, t ∈ Redaction.plainKeys result ∨ Redaction.Withheld limit t) ∧
      ∀ k ∈ Redaction.plainKeys result, k ∈ output.everyText := by
  obtain ⟨limit, limited, output⟩ := output_of_mapped read mapped
  exact ⟨limit, _, limited, output, Redaction.redact_texts limit .partly result⟩

/-- A call of a mapper that reports a result. -/
def reporting (result : Json) : Call :=
  ⟨.written (.obj [("type", .str "tool-result"), ("stageId", .str "s"), ("toolName", .str "t"),
    ("result", result)]), .str "now", []⟩

theorem reporting_read (result : Json) :
    (reporting result).given.read = .ok (.toolResult (.str "s") (.str "t") result) :=
  rfl

theorem reporting_mapped {result : Json} (limited : Redaction.needsLimit result = true) :
    ∃ e, ((reporting result).perform.run firstOfRun).1 = .ok e ∧
      e.payload.find "output" = .ok (some (Redaction.redact 120 .partly none result).toJson) := by
  have limit : limitFor [] (.toolResult (.str "s") (.str "t") result) = .ok 120 := by
    rw [limitFor, limitAsked, needsLimit, limited]
    rfl
  have performed := perform_ready firstOfRun_ready (show (Json.str "now").truthy = true by decide)
    (reporting_read result)
  rw [show (reporting result).source = [] from rfl, limit] at performed
  exact ⟨_, performed, rfl⟩

/-- A result with a credential in a text, a sensitive key and an object. -/
def headers : Json :=
  .obj [("header", .str "use Bearer abc.def.ghi"), ("apiKey", .str "k"),
    ("meta", .obj [("a", .int 1)])]

theorem headers_withheld : ∃ e output,
    (reporting headers).given.read = .ok (.toolResult (.str "s") (.str "t") headers) ∧
      ((reporting headers).perform.run firstOfRun).1 = .ok e ∧
      e.payload.find "output" = .ok (some output) ∧
      ∀ t ∈ output.everyText, Redaction.Withheld 120 t := by
  have read := reporting_read headers
  obtain ⟨e, mapped, -⟩ := reporting_mapped (show Redaction.needsLimit headers = true by decide)
  obtain ⟨limit, output, limited, reported, held, -⟩ :=
    tool_output_withholds_credentials read mapped
  have cut : limitFor (reporting headers).source (.toolResult (.str "s") (.str "t") headers) =
      .ok 120 := rfl
  obtain rfl : limit = 120 := Except.ok.inj (limited.symm.trans cut)
  refine ⟨e, output, read, mapped, reported, fun t member => ?_⟩
  rcases held t member with key | held
  · have plain : ∀ k ∈ Redaction.plainKeys headers, Credential.occurs k = false := by decide
    exact .inl (plain t key)
  · exact held

/-- A result that has a credential for a key. -/
def credentialAsKey : Json :=
  .obj [("Bearer abc.def.ghi", .int 1)]

/-- A credential that is spelled as a key is shown. -/
theorem credential_as_key_shown : ∃ e output,
    ((reporting credentialAsKey).perform.run firstOfRun).1 = .ok e ∧
      e.payload.find "output" = .ok (some output) ∧
      "Bearer abc.def.ghi" ∈ output.everyText ∧
      ¬Redaction.Withheld 120 "Bearer abc.def.ghi" := by
  obtain ⟨e, mapped, found⟩ :=
    reporting_mapped (show Redaction.needsLimit credentialAsKey = true by decide)
  refine ⟨e, _, mapped, found, ?_, ?_⟩
  · exact (Redaction.redact_texts 120 .partly credentialAsKey).2 _ List.mem_cons_self
  · rintro (clean | ⟨s, -, same, -⟩)
    · exact absurd clean (by decide)
    · have last : "Bearer abc.def.ghi".toList.getLast? = some '.' := by
        rw [same, String.toList_ofList, List.getLast?_append]
        rfl
      exact absurd last (by decide)

end EventMapper
end Flowgraph
