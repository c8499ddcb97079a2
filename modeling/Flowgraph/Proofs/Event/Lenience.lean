import Flowgraph.Proofs.Event.Numbering
import Flowgraph.Proofs.Event.Reading
import Flowgraph.Proofs.Text.Runs

/-!
# Lenient mapping

A provider event of a known type is mapped whatever its fields are, with two exceptions: a
failed step is refused for a provider that is neither a text nor absent, and for a status
text whose characters count as digits but make no number.

Every other field may hold any value. A counter that is no number counts as zero, and what
a failure cannot be classified by is passed over.
-/
namespace Flowgraph

namespace Text

/-- Digits without an underscore are read one by one. -/
theorem digitValues?_of_digits {s : List Char} (digits : ∀ c ∈ s, isDigit c = true)
    (nonempty : s ≠ []) : digitValues? s = s.mapM digitValue? := by
  induction s with
  | nil => exact False.elim (nonempty rfl)
  | cons c rest ih =>
    rw [List.forall_mem_cons] at digits
    cases rest with
    | nil => cases found : digitValue? c <;> simp [digitValues?, found]
    | cons next rest =>
      have plain : next ≠ '_' := by
        rintro rfl
        exact absurd (digits.2 '_' List.mem_cons_self) (by decide)
      rw [List.mapM_cons, ← ih digits.2 (List.cons_ne_nil next rest), digitValues?]
      exact plain

theorem exists_digits_iff (s : List Char) :
    (∃ ds, s.mapM digitValue? = some ds) ↔ ∀ c ∈ s, isDecimalDigit c = true := by
  constructor
  · rintro ⟨ds, read⟩ c hc
    obtain ⟨d, _, found⟩ := forall₂_exists_right ((mapM_eq_some_iff _ _ _).mp read) hc
    rw [isDecimalDigit, found]
    rfl
  · intro decimal
    refine ⟨s.map fun c => (digitValue? c).getD 0, ?_⟩
    rw [mapM_eq_some_iff, List.forall₂_map_right_iff, List.forall₂_same]
    intro c hc
    obtain ⟨d, found⟩ := Option.isSome_iff_exists.mp (decimal c hc)
    rw [found]
    rfl

/-- Digits make a number where all of them are decimal and there are not too many. -/
theorem exists_readInteger_iff {s : List Char} (digits : ∀ c ∈ s, isDigit c = true)
    (nonempty : s ≠ []) (trimmed : trimBy isWhiteSpace s = s) :
    (∃ n, readInteger s = .ok n) ↔
      (∀ c ∈ s, isDecimalDigit c = true) ∧ s.length ≤ integerDigitLimit := by
  have unsigned : splitSign s = (false, s) := by
    unfold splitSign
    split
    · exact absurd (digits '-' List.mem_cons_self) (by decide)
    · exact absurd (digits '+' List.mem_cons_self) (by decide)
    · rfl
  rw [← exists_digits_iff, readInteger, trimmed, unsigned]
  dsimp only
  rw [digitValues?_of_digits digits nonempty]
  cases read : s.mapM digitValue? with
  | none => simp
  | some ds =>
    have length : s.length = ds.length := ((mapM_eq_some_iff _ _ _).mp read).length_eq
    dsimp only
    rw [length]
    split
    · rename_i long
      constructor
      · rintro ⟨n, refused⟩
        cases refused
      · rintro ⟨_, short⟩
        omega
    · rename_i short
      constructor
      · intro _
        exact ⟨⟨ds, rfl⟩, Nat.le_of_not_lt short⟩
      · intro _
        exact ⟨_, rfl⟩

end Text

namespace ProviderFailure

/-- What is left of a status text without the blanks around it. -/
def statusText (s : String) : List Char :=
  Text.trimBy Text.isBlank s.toList

/-- A status text of digits that make no number: one is not decimal, or there are too many. -/
def Unreadable (status : Json) : Prop :=
  ∃ s, status = .str s ∧ statusText s ≠ [] ∧ (∀ c ∈ statusText s, Text.isDigit c = true) ∧
    ((∃ c ∈ statusText s, Text.isDecimalDigit c = false) ∨
      Text.integerDigitLimit < (statusText s).length)

/-- A status that is passed over: it is no integer and no text of digits. -/
def Unusable (status : Json) : Prop :=
  (∀ n, status ≠ .int n) ∧ ∀ s, status = .str s →
    statusText s = [] ∨ ∃ c ∈ statusText s, Text.isDigit c = false

theorem unusable_str {s : String}
    (other : ¬(statusText s ≠ [] ∧ ∀ c ∈ statusText s, Text.isDigit c = true)) :
    Unusable (.str s) := by
  constructor
  · intro n same
    cases same
  · intro s' same
    cases same
    by_contra neither
    rw [not_or] at neither
    refine other ⟨neither.1, fun c member => ?_⟩
    by_contra differs
    exact neither.2 ⟨c, member, Bool.of_not_eq_true differs⟩

theorem statusOf_of_unusable {status : Json} (unusable : Unusable status) :
    statusOf status = .ok none := by
  obtain ⟨number, text⟩ := unusable
  cases status with
  | int n => exact False.elim (number n rfl)
  | str s =>
    rw [statusOf, if_neg]
    intro digits
    simp only [Bool.and_eq_true, Bool.not_eq_true', List.isEmpty_eq_false_iff,
      List.all_eq_true] at digits
    rcases text s rfl with none | ⟨c, member, other⟩
    · exact digits.1 none
    · rw [digits.2 c member] at other
      cases other
  | null | bool | float | arr | obj => rfl

theorem statusOf_of_digits {s : String} (nonempty : statusText s ≠ [])
    (digits : ∀ c ∈ statusText s, Text.isDigit c = true) :
    statusOf (.str s) = (Json.readInteger (String.ofList (statusText s))).map some :=
  if_pos (show (!(statusText s).isEmpty && (statusText s).all Text.isDigit) = true by
    simpa [nonempty] using digits)

theorem statusOf_digits {s : String} (nonempty : statusText s ≠ [])
    (digits : ∀ c ∈ statusText s, Text.isDigit c = true) :
    (∃ r, statusOf (.str s) = .ok r) ↔ ∃ n, Text.readInteger (statusText s) = .ok n := by
  rw [statusOf_of_digits nonempty digits, Json.readInteger, String.toList_ofList]
  cases Text.readInteger (statusText s) with
  | ok n => simp [Except.map]
  | error e => cases e <;> simp [Except.map]

/-- Only a text of digits that make no number is refused as a status. -/
theorem exists_statusOf_iff (status : Json) :
    (∃ r, statusOf status = .ok r) ↔ ¬Unreadable status := by
  cases status with
  | str s =>
    by_cases digits : statusText s ≠ [] ∧ ∀ c ∈ statusText s, Text.isDigit c = true
    · obtain ⟨nonempty, all⟩ := digits
      have trimmed : Text.trimBy Text.isWhiteSpace (statusText s) = statusText s :=
        Text.trimBy_trimBy (fun c white => by simp [Text.isBlank, white]) _
      rw [statusOf_digits nonempty all, Text.exists_readInteger_iff all nonempty trimmed]
      constructor
      · rintro ⟨decimal, short⟩ ⟨_, same, _, _, unread⟩
        cases same
        rcases unread with ⟨c, member, other⟩ | long
        · rw [decimal c member] at other
          cases other
        · omega
      · intro readable
        constructor
        · intro c member
          by_contra other
          exact readable ⟨s, rfl, nonempty, all, .inl ⟨c, member, Bool.of_not_eq_true other⟩⟩
        · by_contra long
          exact readable ⟨s, rfl, nonempty, all, .inr (Nat.lt_of_not_le long)⟩
    · constructor
      · rintro _ ⟨_, same, nonempty, all, _⟩
        cases same
        exact digits ⟨nonempty, all⟩
      · intro _
        exact ⟨none, statusOf_of_unusable (unusable_str digits)⟩
  | null | bool | int | float | arr | obj => simp [statusOf, Unreadable]

theorem providerOf_no_text {provider : Json} (other : ∀ s, provider ≠ .str s) :
    providerOf provider =
      if provider.truthy then .error (.noAttribute provider.kind "lower") else .ok .unknown := by
  cases provider with
  | str s => exact False.elim (other s rfl)
  | null | bool | int | float | arr | obj => rfl

/-- A provider that is no text is passed over where it counts as absent, and refused
everywhere else. -/
theorem exists_providerOf_iff (provider : Json) :
    (∃ p, providerOf provider = .ok p) ↔
      (∃ s, provider = .str s) ∨ provider.truthy = false := by
  by_cases text : ∃ s, provider = .str s
  · obtain ⟨s, rfl⟩ := text
    exact ⟨fun _ => .inl ⟨s, rfl⟩, fun _ => ⟨_, rfl⟩⟩
  · rw [providerOf_no_text fun s same => text ⟨s, same⟩]
    cases absent : provider.truthy <;> simp [text]

/-- The status of a failed step was read before, so that it is not refused again. -/
theorem classify_read (status : Option Int) (code provider : Json) :
    classify (.ofOption (status.map .int)) code provider =
      (providerOf provider).map fun p => ⟨classOf status (codeOf code), p, status⟩ := by
  cases status <;> cases read : providerOf provider <;>
    simp [classify, statusOf, Json.ofOption, read, bind, Except.bind, Except.map, pure, Except.pure]

/-- The statuses by which a failure is classified without its code. -/
def tellingStatuses : List Int := [401, 403, 429, 408, 504]

/-- Neither a status nor a code that tells anything: the class of the failure is unknown. -/
theorem classOf_untold {status : Option Int} {code : Json}
    (untold : ∀ n ∈ tellingStatuses, status ≠ some n) (other : ∀ s, code ≠ .str s) :
    classOf status (codeOf code) = .unknown := by
  have empty : codeOf code = "" := by
    cases code with
    | str s => exact False.elim (other s rfl)
    | null | bool | int | float | arr | obj => rfl
  simp only [tellingStatuses, List.forall_mem_cons] at untold
  obtain ⟨h401, h403, h429, h408, h504, _⟩ := untold
  rw [empty, classOf]
  simp [h401, h403, h429, h408, h504, authCodes, rateLimitCodes, malformedCodes, Text.occursIn]

end ProviderFailure

open Procedure

/-- A sequencer of a named run with a natural number. -/
def Sequencer.Ready (s : Sequencer) : Prop :=
  (∃ r, s.runId = .str r ∧ r ≠ "") ∧ ∃ n : Int, s.next = .int n ∧ 0 ≤ n

theorem Sequencer.Ready.issue {s : Sequencer} (ready : s.Ready) (timed : s.timestamp.truthy = true)
    (type : EventType) (stageId : Json) (payload : Fields) :
    ∃ t, s.issue type stageId (.obj payload) = .ok
      ({ runId := s.runId, seq := s.next, timestamp := s.timestamp, type, stageId,
         payload := .obj payload }, t) := by
  obtain ⟨⟨r, run, named⟩, n, next, natural⟩ := ready
  have whole :
      (if (Json.obj payload).truthy then Json.obj payload else .obj []) = .obj payload := by
    cases payload <;> rfl
  have complete : Event.checkEnvelope
      { runId := s.runId, seq := s.next, timestamp := s.timestamp, type, stageId,
        payload := .obj payload } = .ok n := by
    rw [Event.checkEnvelope_eq_ok_iff]
    refine ⟨?_, next, natural, timed⟩
    rw [run]
    simpa [Json.truthy] using named
  refine ⟨{ s with next := .int (n + 1) }, ?_⟩
  unfold Sequencer.issue
  dsimp only
  rw [whole, complete]
  rfl

namespace EventMapper

open ProviderEvent ProviderFailure

/-- Where a provider event of a known type is mapped: the settings can be read if the output of
a tool is to be cut, and the provider and the status of a failed step are not refused. -/
structure Mappable (source : Settings.Source) (type : String) (fields : Fields) : Prop where
  settings : type = "tool-result" → Redaction.needsLimit (fields.getD "result") = true →
    ∃ settings, Settings.load source = .ok settings
  provider : type = "step-fail" →
    (∃ s, fields.getD "provider" = .str s) ∨ (fields.getD "provider").truthy = false
  status : type = "step-fail" → ¬Unreadable (statusField fields)

/-- What the event says: counters are integers, and a failed step is classified. -/
structure Described (type : String) (fields : Fields) (e : Event) : Prop where
  counters : type = "step-complete" → ∃ prompt completion : Int,
    e.payload.find "usage" =
      .ok (some (.obj [("promptTokens", .int prompt), ("completionTokens", .int completion)]))
  failure : type = "step-fail" → ∃ f : ProviderFailure,
    e.payload.find "providerFailure" = .ok (some f.toJson) ∧
      (Unusable (statusField fields) → f.status = none) ∧
      ((∀ s, fields.getD "provider" ≠ .str s) → f.provider = .unknown) ∧
      ((∀ n ∈ tellingStatuses, f.status ≠ some n) → (∀ s, fields.getD "code" ≠ .str s) →
        f.code = .unknown)

theorem mappable_of_other {source : Settings.Source} {type : String} (fields : Fields)
    (other : type ≠ "tool-result" ∧ type ≠ "step-fail") : Mappable source type fields :=
  ⟨fun same => absurd same other.1, fun same => absurd same other.2,
    fun same => absurd same other.2⟩

theorem described_of_other {type : String} (fields : Fields) (e : Event)
    (other : type ≠ "step-complete" ∧ type ≠ "step-fail") : Described type fields e :=
  ⟨fun same => absurd same other.1, fun same => absurd same other.2⟩

theorem exists_limitFor_iff (source : Settings.Source) (e : ProviderEvent) :
    (∃ limit, limitFor source e = .ok limit) ↔
      (needsLimit e = true → ∃ settings, Settings.load source = .ok settings) := by
  rw [limitFor, limitAsked]
  cases needsLimit e with
  | false => exact ⟨nofun, fun _ => ⟨0, rfl⟩⟩
  | true => cases Settings.load source <;> simp [Functor.map, Except.map]

/-- The event that a ready mapper makes of a content. -/
def eventOf (s : Sequencer) (time stageId : Json) (made : EventType × Fields) : Event :=
  { runId := s.runId, seq := s.next, timestamp := time, type := made.1,
    stageId := envelopeStage stageId, payload := .obj made.2 }

/-- A ready mapper fails only where the provider event or the settings cannot be read, or for
the content. -/
theorem perform_ready {s : Sequencer} (ready : s.Ready) {c : Call}
    (timed : c.time.truthy = true) {e : ProviderEvent} (read : c.given.read = .ok e) :
    (c.perform.run s).1 = limitFor c.source e >>= fun limit =>
      (content limit e).map (eventOf s c.time e.stageId) := by
  rw [Call.perform, run_bind_ok (run_change _ s), run_bind, run_check, read]
  dsimp only
  rw [perform_run]
  cases limitFor c.source e with
  | error f => rfl
  | ok limit =>
    dsimp only [bind, Except.bind]
    unfold map
    cases content limit e with
    | error f => rfl
    | ok made =>
      have ready' : Sequencer.Ready { s with timestamp := c.time } := ready
      obtain ⟨t, issued⟩ := ready'.issue timed made.1 (envelopeStage e.stageId) made.2
      dsimp only [bind, Except.bind]
      rw [issued]
      rfl

/-- What a mapper returns or raises for an event that is written as an object. -/
def returned (s : Sequencer) (time : Json) (source : Settings.Source) (fields : Fields) :
    Except Fault Event :=
  ((Call.mk (.written (.obj fields)) time source).perform.run s).1

section Types

variable {s : Sequencer} {time : Json} {source : Settings.Source} {fields : Fields}

theorem returned_eq (ready : s.Ready) (timed : time.truthy = true) {e : ProviderEvent}
    (read : ofFields fields = .ok e) : returned s time source fields =
      limitFor source e >>= fun limit => (content limit e).map (eventOf s time e.stageId) :=
  perform_ready ready (c := ⟨.written (.obj fields), time, source⟩) timed read

theorem returned_eq_ok (ready : s.Ready) (timed : time.truthy = true) {e : ProviderEvent}
    (read : ofFields fields = .ok e) {limit : Int} (limited : limitFor source e = .ok limit)
    {made : EventType × Fields} (content : content limit e = .ok made) :
    returned s time source fields = .ok (eventOf s time e.stageId made) := by
  rw [returned_eq ready timed read, limited]
  dsimp only [bind, Except.bind]
  rw [content]
  rfl

theorem returned_unread {f : Fault} (refused : ofFields fields = .error f) :
    returned s time source fields = .error f := by
  have read : Given.read (.written (.obj fields)) = .error f := refused
  rw [returned, Call.perform, run_bind_ok (run_change _ s), run_bind, run_check, read]

theorem content_stepFail (limit : Int) (stageId error status code provider : Json) :
    content limit (.stepFail stageId error status code provider) =
      (classify status code provider).map fun failure =>
        (.llmStepFailed, [("stageId", stageId), ("error", error),
          ("providerFailure", failure.toJson)]) := by
  rw [content]
  cases classify status code provider <;> rfl

/-- What is said of the events of one type. -/
def MappedWhere (s : Sequencer) (time : Json) (source : Settings.Source) (type : String)
    (fields : Fields) : Prop :=
  ((∃ e, returned s time source fields = .ok e) ↔ Mappable source type fields) ∧
    ∀ e, returned s time source fields = .ok e → Described type fields e

theorem mappedWhere_of_ok {type : String} {e : Event}
    (mapped : returned s time source fields = .ok e) (mappable : Mappable source type fields)
    (described : Described type fields e) : MappedWhere s time source type fields := by
  refine ⟨⟨fun _ => mappable, fun _ => ⟨e, mapped⟩⟩, ?_⟩
  intro e' mapped'
  exact Except.ok.inj (mapped.symm.trans mapped') ▸ described

theorem mappedWhere_of_error {type : String} {f : Fault}
    (refused : returned s time source fields = .error f)
    (unmappable : ¬Mappable source type fields) : MappedWhere s time source type fields := by
  constructor
  · constructor
    · rintro ⟨e, mapped⟩
      rw [refused] at mapped
      cases mapped
    · exact fun mappable => False.elim (unmappable mappable)
  · intro e mapped
    rw [refused] at mapped
    cases mapped

variable (ready : s.Ready) (timed : time.truthy = true)

include ready timed

theorem stepStart_mapped (typed : fields.get? "type" = some (.str "step-start")) :
    MappedWhere s time source "step-start" fields := by
  have read := ofFields_stepStart typed
  exact mappedWhere_of_ok (returned_eq_ok ready timed read rfl rfl)
    (mappable_of_other fields (by decide)) (described_of_other fields _ (by decide))

theorem toolCall_mapped (typed : fields.get? "type" = some (.str "tool-call")) :
    MappedWhere s time source "tool-call" fields := by
  have read := ofFields_toolCall typed
  exact mappedWhere_of_ok (returned_eq_ok ready timed read rfl rfl)
    (mappable_of_other fields (by decide)) (described_of_other fields _ (by decide))

theorem toolResult_mapped (typed : fields.get? "type" = some (.str "tool-result")) :
    MappedWhere s time source "tool-result" fields := by
  have read := ofFields_toolResult typed
  have described : ∀ e, Described "tool-result" fields e :=
    fun e => described_of_other fields e (by decide)
  have limits := exists_limitFor_iff source
    (.toolResult (stageField fields) (toolField fields) (fields.getD "result"))
  cases limited : limitFor source
      (.toolResult (stageField fields) (toolField fields) (fields.getD "result")) with
  | ok limit =>
    refine mappedWhere_of_ok (returned_eq_ok ready timed read limited rfl) ?_ (described _)
    exact ⟨fun _ => limits.mp ⟨limit, limited⟩, fun other => absurd other (by decide),
      fun other => absurd other (by decide)⟩
  | error f =>
    have refused : returned s time source fields = .error f := by
      rw [returned_eq ready timed read, limited]
      rfl
    refine mappedWhere_of_error refused ?_
    intro mappable
    obtain ⟨limit, fine⟩ := limits.mpr (mappable.settings rfl)
    rw [limited] at fine
    cases fine

theorem stepComplete_mapped (typed : fields.get? "type" = some (.str "step-complete")) :
    MappedWhere s time source "step-complete" fields := by
  have read := ofFields_stepComplete typed
  refine mappedWhere_of_ok (returned_eq_ok ready timed read rfl rfl)
    (mappable_of_other fields (by decide)) ?_
  constructor
  · intro _
    exact ⟨_, _, rfl⟩
  · intro other
    exact absurd other (by decide)

theorem stepFail_mapped (typed : fields.get? "type" = some (.str "step-fail")) :
    MappedWhere s time source "step-fail" fields := by
  have read := ofFields_stepFail typed
  have readable := exists_statusOf_iff (statusField fields)
  have provided := exists_providerOf_iff (fields.getD "provider")
  cases status : statusOf (statusField fields) with
  | error f =>
    rw [status] at read
    refine mappedWhere_of_error (returned_unread read) ?_
    intro mappable
    obtain ⟨r, fine⟩ := readable.mpr (mappable.status rfl)
    rw [status] at fine
    cases fine
  | ok n =>
    rw [status] at read
    have made := content_stepFail 0 (stageField fields) (errorField fields)
      (.ofOption (n.map .int)) (fields.getD "code") (fields.getD "provider")
    rw [classify_read] at made
    cases provider : providerOf (fields.getD "provider") with
    | error f =>
      rw [provider] at made
      have refused : returned s time source fields = .error f := by
        have limited : limitFor source (.stepFail (stageField fields) (errorField fields)
            (.ofOption (n.map .int)) (fields.getD "code") (fields.getD "provider")) = .ok 0 := rfl
        rw [returned_eq ready timed read, limited]
        dsimp only [bind, Except.bind]
        rw [made]
        rfl
      refine mappedWhere_of_error refused ?_
      intro mappable
      obtain ⟨p, fine⟩ := provided.mpr (mappable.provider rfl)
      rw [provider] at fine
      cases fine
    | ok p =>
      rw [provider] at made
      refine mappedWhere_of_ok (returned_eq_ok ready timed read rfl made) ?_ ?_
      · exact ⟨fun other => absurd other (by decide), fun _ => provided.mp ⟨p, provider⟩,
          fun _ => readable.mp ⟨n, status⟩⟩
      · constructor
        · intro other
          exact absurd other (by decide)
        · intro _
          refine ⟨_, rfl, ?_, ?_, ?_⟩
          · intro unusable
            rw [statusOf_of_unusable unusable] at status
            exact (Except.ok.inj status).symm
          · intro other
            rw [providerOf_no_text other] at provider
            split at provider
            · cases provider
            · exact (Except.ok.inj provider).symm
          · exact fun untold other => classOf_untold untold other

end Types

/-- A mapper returns an event for every provider event of a known type, unless one field of a
failed step is refused or the settings cannot be read. -/
theorem known_type_mapped_iff {s : Sequencer} (ready : s.Ready) {time : Json}
    (timed : time.truthy = true) (source : Settings.Source) {type : String}
    (known : type ∈ knownTypes) {fields : Fields}
    (typed : fields.get? "type" = some (.str type)) :
    ((∃ e, returned s time source fields = .ok e) ↔ Mappable source type fields) ∧
      ∀ e, returned s time source fields = .ok e → Described type fields e := by
  simp only [knownTypes, List.mem_cons, List.not_mem_nil, or_false] at known
  rcases known with rfl | rfl | rfl | rfl | rfl
  · exact stepStart_mapped ready timed typed
  · exact toolCall_mapped ready timed typed
  · exact toolResult_mapped ready timed typed
  · exact stepComplete_mapped ready timed typed
  · exact stepFail_mapped ready timed typed

def firstOfRun : Sequencer :=
  ⟨.str "r", .int 1, .null⟩

theorem firstOfRun_ready : firstOfRun.Ready :=
  ⟨⟨"r", rfl, by decide⟩, 1, rfl, by decide⟩

/-- A failed step with a status text and a code that is no text. -/
def exceededRate : Fields :=
  [("type", .str "step-fail"), ("status", .str " 429 "), ("code", .int 5), ("stageId", .arr [])]

theorem exceeded_rate_mapped : firstOfRun.Ready ∧ (Json.str "now").truthy = true ∧
    "step-fail" ∈ knownTypes ∧ exceededRate.get? "type" = some (.str "step-fail") ∧
    ∃ e, returned firstOfRun (.str "now") [] exceededRate = .ok e ∧
      Described "step-fail" exceededRate e := by
  have timed : (Json.str "now").truthy = true := by decide
  have known : "step-fail" ∈ knownTypes := by decide
  have typed : exceededRate.get? "type" = some (.str "step-fail") := rfl
  obtain ⟨mapped, described⟩ := known_type_mapped_iff firstOfRun_ready timed [] known typed
  have readable : ¬Unreadable (statusField exceededRate) :=
    (exists_statusOf_iff _).mp ⟨some 429, rfl⟩
  obtain ⟨e, he⟩ := mapped.mpr ⟨fun other => absurd other (by decide), fun _ => .inr rfl,
    fun _ => readable⟩
  exact ⟨firstOfRun_ready, timed, known, typed, e, he, described e he⟩

/-- A failed step whose provider is given as a number. -/
def numberedProvider : Fields :=
  [("type", .str "step-fail"), ("stageId", .str "s"), ("error", .str "x"), ("provider", .int 5)]

/-- The failure of a provider that is given as a number is refused and not classified. -/
theorem numbered_provider_refused : firstOfRun.Ready ∧ (Json.str "now").truthy = true ∧
    "step-fail" ∈ knownTypes ∧ numberedProvider.get? "type" = some (.str "step-fail") ∧
    returned firstOfRun (.str "now") [] numberedProvider =
      .error (.noAttribute "int" "lower") :=
  ⟨firstOfRun_ready, by decide, by decide, rfl, rfl⟩

end EventMapper
end Flowgraph
