import Flowgraph.Proofs.Redaction.Scrubbing
import Flowgraph.Redaction.Basic

/-!
# Complete and honest redaction

What is shown of a value that is not hidden as a whole, told without the functions that make
it: of an object every key in its place, under the sensitive ones the mark, under the others a
summary; of any other value its summary. A summary is the scrubbed text, cut, or the shape of an
array or an object. The report says that something was hidden where a key is sensitive or a
credential stands in one of the texts that are shown, and only there.

The keys of objects are shown as they are, whatever is spelled in them.
-/
namespace Flowgraph

namespace SensitiveKey

/-- One of the words stands somewhere in a key, in any case. -/
def Sensitive (key : String) : Prop :=
  ∃ front found after, key.toList = front ++ found ++ after ∧ found.map Credential.fold ∈ words

theorem isSensitive_iff {key : String} : isSensitive key = true ↔ Sensitive key := by
  rw [isSensitive, List.any_eq_true]
  constructor
  · rintro ⟨word, listed, occurs⟩
    obtain ⟨before, behind, split⟩ := Text.occursIn_iff.mp occurs
    obtain ⟨part, after, whole, folded, rfl⟩ := List.map_eq_append_iff.mp split.symm
    obtain ⟨front, found, rfl, rfl, rfl⟩ := List.map_eq_append_iff.mp folded
    exact ⟨front, found, after, whole, listed⟩
  · rintro ⟨front, found, after, split, listed⟩
    refine ⟨_, listed, Text.occursIn_iff.mpr
      ⟨front.map Credential.fold, after.map Credential.fold, ?_⟩⟩
    rw [split, List.map_append, List.map_append]

end SensitiveKey

namespace Redaction

open SensitiveKey (Sensitive)

/-! ## What is shown -/

/-- A value and its summary. -/
inductive Summarized (limit : Int) : Json → Json → Prop
  | text {s t : String} (scrubbed : Credential.Scrubbed none s.toList t.toList) :
      Summarized limit (.str s) (.str (shorten limit t))
  | array (items : List Json) : Summarized limit (.arr items)
      (.obj [("kind", .str "array"), ("length", .nat items.length)])
  | object (fields : Fields) : Summarized limit (.obj fields)
      (.obj [("kind", .str "object"), ("keys", .texts (fields.keys.take 8)),
        ("keyCount", .nat fields.length)])
  | plain {v : Json} (noText : ∀ s, v ≠ .str s) (noArray : ∀ items, v ≠ .arr items)
      (noObject : ∀ fields, v ≠ .obj fields) : Summarized limit v v

/-- A field and what is shown of it, under the same key. -/
inductive FieldShown (limit : Int) : String × Json → String × Json → Prop
  | sensitive {key : String} (v : Json) (word : Sensitive key) :
      FieldShown limit (key, v) (key, .str "[REDACTED]")
  | summarized {key : String} {v shown : Json} (harmless : ¬Sensitive key)
      (summary : Summarized limit v shown) : FieldShown limit (key, v) (key, shown)

/-- A value and what is shown of it: the fields of an object in their order, and otherwise its
summary. -/
inductive Shown (limit : Int) : Json → Json → Prop
  | fields {fields shown : Fields} (each : List.Forall₂ (FieldShown limit) fields shown) :
      Shown limit (.obj fields) (.obj shown)
  | whole {v shown : Json} (noObject : ∀ fields, v ≠ .obj fields)
      (summary : Summarized limit v shown) : Shown limit v shown

theorem summarized_summarizeScrubbed (limit : Int) (v : Json) :
    Summarized limit v (summarizeScrubbed limit v) := by
  cases v with
  | str s =>
    refine .text (Credential.scrubbed_iff.mpr ?_)
    rw [Credential.scrub, String.toList_ofList]
  | arr items => exact .array items
  | obj fields => exact .object fields
  | null | bool | int | float => exact .plain (by simp) (by simp) (by simp)

theorem fieldShown_redactField (limit : Int) (key : String) (v : Json) :
    FieldShown limit (key, v) (key, redactField limit key v) := by
  unfold redactField
  split
  · rename_i word
    exact .sensitive v (SensitiveKey.isSensitive_iff.mp word)
  · rename_i harmless
    exact .summarized (mt SensitiveKey.isSensitive_iff.mpr harmless)
      (summarized_summarizeScrubbed limit v)

/-! ## What is reported -/

/-- Something of a value is to be hidden. -/
inductive Secret : Json → Prop
  | text {s : String} (credential : Credential.Holds none s.toList) : Secret (.str s)
  | key {fields : Fields} {key : String} {v : Json} (field : (key, v) ∈ fields)
      (word : Sensitive key) : Secret (.obj fields)
  | entry {fields : Fields} {key s : String} (field : (key, .str s) ∈ fields)
      (credential : Credential.Holds none s.toList) : Secret (.obj fields)

/-- The reason that is reported for one that is asked for: an empty one counts as missing. -/
inductive ReasonFor : Option String → String → Prop
  | own {s : String} (some : s ≠ "") : ReasonFor (.some s) s
  | empty : ReasonFor (some "") "sensitive-by-default"
  | missing : ReasonFor none "sensitive-by-default"

/-- A report tells whether something was hidden, and only then a level and a reason. -/
structure Honest (level : RedactionLevel) (reason : Option String) (v : Json) (r : Redacted) :
    Prop where
  flag : r.isRedacted = true ↔ Secret v
  hidden : r.isRedacted = true →
    r.level = level ∧ ∃ given, r.reason = some given ∧ ReasonFor reason given
  clear : r.isRedacted = false → r.level = .none ∧ r.reason = none

theorem hasCredential_iff {v : Json} :
    hasCredential v = true ↔ ∃ s, v = .str s ∧ Credential.Holds none s.toList := by
  cases v with
  | str s =>
    rw [hasCredential, Credential.occurs_iff]
    constructor
    · exact fun credential => ⟨s, rfl, credential⟩
    · rintro ⟨t, same, credential⟩
      obtain rfl := Json.str.inj same
      exact credential
  | null | bool | int | float | arr | obj => simp [hasCredential]

theorem hidesField_iff {key : String} {v : Json} : hidesField key v = true ↔
    Sensitive key ∨ ∃ s, v = .str s ∧ Credential.Holds none s.toList := by
  rw [hidesField, Bool.or_eq_true, SensitiveKey.isSensitive_iff, hasCredential_iff]

theorem any_hidesField_iff {fields : Fields} :
    (fields.any fun (k, v) => hidesField k v) = true ↔ Secret (.obj fields) := by
  rw [List.any_eq_true]
  constructor
  · rintro ⟨⟨key, v⟩, field, hides⟩
    rcases hidesField_iff.mp hides with word | ⟨s, rfl, credential⟩
    · exact .key field word
    · exact .entry field credential
  · rintro (_ | ⟨field, word⟩ | ⟨field, credential⟩)
    · exact ⟨_, field, hidesField_iff.mpr (.inl word)⟩
    · exact ⟨_, field, hidesField_iff.mpr (.inr ⟨_, rfl, credential⟩)⟩

theorem hasCredential_iff_secret {v : Json} (noObject : ∀ fields, v ≠ .obj fields) :
    hasCredential v = true ↔ Secret v := by
  rw [hasCredential_iff]
  constructor
  · rintro ⟨s, rfl, credential⟩
    exact .text credential
  · rintro (credential | ⟨field, word⟩ | ⟨field, credential⟩)
    · exact ⟨_, rfl, credential⟩
    · exact absurd rfl (noObject _)
    · exact absurd rfl (noObject _)

theorem reasonFor_givenReason (reason : Option String) :
    ReasonFor reason (givenReason reason) := by
  cases reason with
  | none => exact .missing
  | some s =>
    unfold givenReason
    dsimp only
    split
    · rename_i empty
      obtain rfl : s = "" := String.isEmpty_iff.mp empty
      exact .empty
    · rename_i nonempty
      exact .own fun empty => nonempty (String.isEmpty_iff.mpr empty)

theorem honest_report (level : RedactionLevel) (reason : Option String) {hit : Bool}
    {v : Json} (hides : hit = true ↔ Secret v) (shown : Json) :
    Honest level reason v (report level reason hit shown) := by
  cases hit with
  | true => exact ⟨hides, fun _ => ⟨rfl, _, rfl, reasonFor_givenReason reason⟩, nofun⟩
  | false => exact ⟨hides, nofun, fun _ => ⟨rfl, rfl⟩⟩

theorem report_value (level : RedactionLevel) (reason : Option String) (hit : Bool)
    (shown : Json) : (report level reason hit shown).value = shown := by
  cases hit <;> rfl

/-- A redaction reports whether it hides something, and shows what may be shown. -/
theorem redact_reports (limit : Int) (level : RedactionLevel) (reason : Option String)
    (v : Json) : ∃ hit shown, redact limit level reason v = report level reason hit shown ∧
      (hit = true ↔ Secret v) ∧ Shown limit v shown := by
  have whole (noObject : ∀ fields, v ≠ .obj fields) :
      (hasCredential v = true ↔ Secret v) ∧ Shown limit v (summarizeScrubbed limit v) :=
    ⟨hasCredential_iff_secret noObject, .whole noObject (summarized_summarizeScrubbed limit v)⟩
  cases v with
  | obj fields =>
    refine ⟨_, _, rfl, any_hidesField_iff, .fields ?_⟩
    rw [List.forall₂_map_right_iff, List.forall₂_same]
    exact fun (key, v) _ => fieldShown_redactField limit key v
  | null | bool | int | float | str | arr => exact ⟨_, _, rfl, whole nofun⟩

/-- Scrubbing replaces every credential from left to right, leaves none, and changes nothing when
it is done again. Redaction shows of every value only the mark, scrubbed texts and shapes, and
reports a level and a reason exactly where it hid something. -/
theorem redaction_complete_and_honest :
    (∀ s : String, Credential.Scrubbed none s.toList (Credential.scrub s).toList ∧
      ¬Credential.Holds none (Credential.scrub s).toList ∧
      Credential.scrub (Credential.scrub s) = Credential.scrub s) ∧
    ∀ (limit : Int) (level : RedactionLevel) (reason : Option String) (v : Json),
      Shown limit v (redact limit level reason v).value ∧
      Honest level reason v (redact limit level reason v) := by
  constructor
  · intro s
    refine ⟨Credential.scrubbed_iff.mpr ?_, ?_, Credential.scrub_scrub s⟩
    · rw [Credential.scrub, String.toList_ofList]
    · rw [← Credential.occurs_iff, Credential.occurs_scrub]
      exact Bool.false_ne_true
  · intro limit level reason v
    obtain ⟨hit, shown, redacted, hides, shows⟩ := redact_reports limit level reason v
    rw [redacted, report_value]
    exact ⟨shows, honest_report level reason hides shown⟩

end Redaction
end Flowgraph
