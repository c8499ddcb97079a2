import Flowgraph.Proofs.Workflow.Migration
import Flowgraph.Service.Handler

/-!
# Migration over the service

An object that is sent to be migrated is answered with the workflow that it describes, which
carries its nodes and connections over, or with the reason why it describes none; the service
stays as it was. The service fails instead in two cases: an entry of `nodes` that is no object
is come to, or the workflow holds a number that is not finite and cannot be sent.

What encodes the answer is not part of the service; it is assumed to refuse numbers that are not
finite and nothing else. A body is read first, and a text with half a surrogate pair is not read.
So nothing is said of a body that has one; an answer that held it could not be sent either.
-/
namespace Flowgraph

/-! ## What can be sent -/

/-- What an encoder is documented to do with values whose texts hold whole characters: it refuses
those with a number that is not finite, and no others. -/
structure Reply.Encoder.Documented (encoder : Reply.Encoder) : Prop where
  refuses : ∀ v, Json.isFinite v = false → encoder v = false
  accepts : ∀ v, Json.isFinite v = true → encoder v = true

theorem Reply.Encoder.Documented.encodes_iff {encoder : Encoder} (documented : encoder.Documented)
    (v : Json) : encoder v = true ↔ v.isFinite = true := by
  constructor
  · intro sent
    by_contra infinite
    rw [documented.refuses v (Bool.of_not_eq_true infinite)] at sent
    cases sent
  · exact documented.accepts v

namespace Json

theorem itemsFinite_iff {items : List Json} :
    itemsFinite items = true ↔ ∀ v ∈ items, isFinite v = true := by
  induction items with
  | nil => simp [itemsFinite]
  | cons v items ih => rw [itemsFinite, Bool.and_eq_true, ih, List.forall_mem_cons]

theorem fieldsFinite_append (front back : Fields) :
    fieldsFinite (front ++ back) = (fieldsFinite front && fieldsFinite back) := by
  induction front with
  | nil => rfl
  | cons f front ih => rw [List.cons_append, fieldsFinite, fieldsFinite, ih, Bool.and_assoc]

theorem fieldsFinite_text (name : String) (s : Option String) :
    fieldsFinite (optionalField false name (s.map .str)) = true := by
  cases s <;> rfl

end Json

/-- A node whose numbers are all finite. -/
structure Node.Finite (n : Node) : Prop where
  x : n.position.x.isFinite = true
  y : n.position.y.isFinite = true
  config : Json.isFinite (.obj n.config) = true

theorem Node.isFinite_toJson {n : Node} : n.toJson.isFinite = true ↔ n.Finite := by
  simp only [toJson, Position.toJson, Json.isFinite, Json.fieldsFinite, Bool.and_true,
    Bool.true_and, Bool.and_eq_true]
  exact ⟨fun ⟨⟨x, y⟩, config⟩ => ⟨x, y, config⟩,
    fun finite => ⟨⟨finite.x, finite.y⟩, finite.config⟩⟩

theorem Edge.isFinite_write (e : Edge) : (e.write false).isFinite = true := by
  simp only [write, Json.isFinite, Json.fieldsFinite_append, Json.fieldsFinite_text]
  rfl

theorem Workflow.isFinite_toJson (w : Workflow) : w.toJson.isFinite = true ↔
    (∀ n ∈ w.nodes, n.Finite) ∧ ∀ m ∈ w.metadata, Json.isFinite (.obj m) = true := by
  have edges : Json.itemsFinite (w.edges.map (Edge.write false)) = true :=
    Json.itemsFinite_iff.mpr (List.forall_mem_map.mpr fun e _ => e.isFinite_write)
  have nodes : Json.itemsFinite (w.nodes.map Node.toJson) = true ↔ ∀ n ∈ w.nodes, n.Finite := by
    rw [Json.itemsFinite_iff, List.forall_mem_map]
    exact forall₂_congr fun n _ => Node.isFinite_toJson
  have metadata : Json.fieldsFinite (optionalField false "metadata" (w.metadata.map .obj)) =
      true ↔ ∀ m ∈ w.metadata, Json.isFinite (.obj m) = true := by
    cases w.metadata <;> simp [optionalField, Json.fieldsFinite]
  rw [← nodes, ← metadata]
  simp only [toJson, write, Json.isFinite, Json.fieldsFinite_append, Json.fieldsFinite_text,
    Json.fieldsFinite, edges, Bool.true_and, Bool.and_true, Bool.and_eq_true]

/-! ## The answer -/

theorem Request.readBody_eq_ok {body : String} {c : Char} {rest : List Char} {v : Json}
    (written : body = String.ofList (c :: rest)) (unmarked : c.toNat ≠ 65279)
    (read : Json.readChars Json.nestingLimit (c :: rest) = .ok v) : readBody body = .ok v := by
  have some : body.isEmpty = false := by simp [written]
  have plain : dropMark body = body := by simp [dropMark, written, unmarked]
  have whole : Json.read body = .ok v := by simp [Json.read, Json.readWithin, written, read]
  simp [readBody, some, plain, whole]

namespace Service

/-- The request to migrate what a body holds. -/
def migrationOf (body : String) : Request :=
  ⟨"POST", "/api/v1/workflows/migrate", body⟩

/-- The reply to what a migration came to. -/
def replyTo (encoder : Reply.Encoder) : Attempt Workflow → Reply
  | .ok w => .ofValue encoder w.toJson
  | .error (.invalid _) => invalidLegacy "<ValidationError>"
  | .error (.fault e) => if isForeseen e then invalidLegacy e.message else .failed
  | .error (.rejected _) => .failed

variable (s : Service) (t : Session) {body : String} {fields : Fields}

theorem route_migration (body : String) :
    Route.find (Method.ofName (migrationOf body).method) (migrationOf body).path =
      .route .migrate := by
  have named : Method.ofName (migrationOf body).method = .post := by
    change Method.ofName "POST" = .post
    decide +kernel
  rw [named]
  change Route.find .post "/api/v1/workflows/migrate" = _
  decide +kernel

theorem run_migrate (fields : Fields) :
    SessionM.run ((migrate (.obj fields)).run s) t =
      (.ok (replyTo s.encoder (Legacy.migrate s.clock (.obj fields)).result, s),
        { t with notices := t.notices ++ (Legacy.migrate s.clock (.obj fields)).notices }) := by
  have checked : Request.checkObject (.obj fields) = .ok fields := rfl
  simp only [migrate, checked, withChecked, StateT.run_bind, StateT.run_get, pure_bind,
    StateT.run_monadLift, monadLift_self, bind_assoc]
  generalize Legacy.migrate s.clock (.obj fields) = migrated
  obtain ⟨result, notices⟩ := migrated
  rcases result with (e | issues | r) | w
  all_goals rfl

/-- A step that comes to a reply is not caught. -/
theorem run_caught {x : ServiceM Reply} {s s' : Service} {t t' : Session} {r : Reply}
    (handler : Failure → ServiceM Reply) (done : SessionM.run (x.run s) t = (.ok (r, s'), t')) :
    SessionM.run ((tryCatch x handler).run s) t = (.ok (r, s'), t') := by
  unfold SessionM.run at done ⊢
  simp only [tryCatch, tryCatchThe, MonadExceptOf.tryCatch, StateT.run, ExceptT.run,
    ExceptT.tryCatch, ExceptT.mk, bind, StateT.bind] at done ⊢
  rw [done]
  rfl

theorem run_reply_migration (read : Request.readBody body = .ok (.obj fields)) :
    SessionM.run ((reply (migrationOf body)).run s) t =
      (.ok (replyTo s.encoder (Legacy.migrate s.clock (.obj fields)).result, s),
        { t with notices := t.notices ++ (Legacy.migrate s.clock (.obj fields)).notices }) := by
  have answered : answer .migrate body = migrate (.obj fields) := by
    simp only [answer, withBody, read]
  have sent : SessionM.run ((answer .migrate body).run s) t = _ :=
    answered ▸ run_migrate s t fields
  simp only [reply, route_migration]
  exact run_caught answerFailure sent

/-- What the migration of an object may be answered with: a workflow that carries its nodes and
connections over, or the reason why it describes none. -/
inductive AnswersMigration (fields : Fields) : Reply → Prop
  | converted (w : Workflow) (carried : Legacy.CarriesOver fields w) :
      AnswersMigration fields (.value w.toJson)
  | refused (reason : String) : AnswersMigration fields (invalidLegacy reason)

/-- If a workflow comes of it, then one whose numbers are all finite. -/
def OnlyFinite (migrated : Attempt Workflow) : Prop :=
  ∀ w, migrated = .ok w → ∀ n ∈ w.nodes, n.Finite

theorem replyTo_error (encoder : Reply.Encoder) (e : Failure) :
    e.Foreseen ∧ (∃ reason, replyTo encoder (.error e) = invalidLegacy reason) ∨
      ¬e.Foreseen ∧ replyTo encoder (.error e) = .failed := by
  cases e with
  | fault cause =>
    cases cause
    case noAttribute => exact .inr ⟨id, rfl⟩
    all_goals exact .inl ⟨trivial, _, rfl⟩
  | invalid issues => exact .inl ⟨trivial, _, rfl⟩
  | rejected cause => exact .inr ⟨id, rfl⟩

theorem answered_or_failed {encoder : Reply.Encoder} (documented : encoder.Documented)
    (clock : Clock) (fields : Fields) :
    let migrated := (Legacy.migrate clock (.obj fields)).result
    FailsForeseen migrated ∧ OnlyFinite migrated ∧
        AnswersMigration fields (replyTo encoder migrated) ∨
      ¬(FailsForeseen migrated ∧ OnlyFinite migrated) ∧ replyTo encoder migrated = .failed := by
  intro migrated
  cases come : migrated with
  | ok w =>
    obtain ⟨carried, bare⟩ := Legacy.carriesOver_of_migrate come
    have finite_iff : encoder w.toJson = true ↔ ∀ n ∈ w.nodes, n.Finite := by
      rw [documented.encodes_iff, w.isFinite_toJson, bare]
      exact and_iff_left nofun
    by_cases finite : ∀ n ∈ w.nodes, n.Finite
    · have sent : replyTo encoder (.ok w) = .value w.toJson := if_pos (finite_iff.mpr finite)
      rw [sent]
      exact .inl ⟨nofun, fun _ same => Except.ok.inj same ▸ finite, .converted w carried⟩
    · have unsent : replyTo encoder (.ok w) = .failed :=
        if_neg fun encoded => finite (finite_iff.mp encoded)
      exact .inr ⟨fun ⟨_, only⟩ => finite (only w rfl), unsent⟩
  | error e =>
    rcases replyTo_error encoder e with ⟨foreseen, reason, refused⟩ | ⟨unforeseen, failed⟩
    · rw [refused]
      exact .inl ⟨fun _ same => Except.error.inj same ▸ foreseen, nofun, .refused reason⟩
    · exact .inr ⟨fun ⟨foreseen, _⟩ => unforeseen (foreseen e rfl), failed⟩

/-- A migration leaves the service as it was. It is answered as it should be, unless it comes to an
entry of `nodes` that is no object or the workflow holds a number that is not finite; then it
is answered as a failure of the service. A body that is read has no half of a surrogate pair in
its texts. -/
theorem migration_answered_iff (documented : s.encoder.Documented)
    (read : Request.readBody body = .ok (.obj fields)) :
    ∃ r, SessionM.run ((reply (migrationOf body)).run s) t =
        (.ok (r, s),
          { t with notices := t.notices ++ (Legacy.migrate s.clock (.obj fields)).notices }) ∧
      (AnswersMigration fields r ↔ ¬Legacy.Stumbles fields ∧
        OnlyFinite (Legacy.migrate s.clock (.obj fields)).result) ∧
      (¬AnswersMigration fields r → r = .failed) := by
  refine ⟨_, run_reply_migration s t read, ?_⟩
  rw [← Legacy.failsForeseen_migrate_iff s.clock]
  rcases answered_or_failed documented s.clock fields with
    ⟨foreseen, only, answered⟩ | ⟨either, failed⟩
  · exact ⟨⟨fun _ => ⟨foreseen, only⟩, fun _ => answered⟩,
      fun unanswered => absurd answered unanswered⟩
  · rw [failed]
    exact ⟨⟨nofun, fun both => absurd both either⟩, fun _ => rfl⟩

/-- A node at a place that is no number is made, and cannot be sent. -/
example : replyTo Json.isFinite (Legacy.migrate ⟨"", "", 0⟩ (.obj [("nodes",
    .arr [.obj [("id", .str "s"), ("position", .obj [("x", .float .nan)])]])])).result =
    .failed :=
  rfl

def atNoon : Service :=
  { clock := ⟨"noon", "noon", 0⟩ }

theorem atNoon_documented : atNoon.encoder.Documented :=
  ⟨fun _ infinite => infinite, fun _ finite => finite⟩

def startBody : String :=
  "\x7b\"nodes\": [\x7b\"id\": \"s\", \"type\": \"start\"\x7d]\x7d"

def startFields : Fields :=
  [("nodes", .arr [.obj [("id", .str "s"), ("type", .str "start")]])]

theorem start_node_converted : atNoon.encoder.Documented ∧
    Request.readBody startBody = .ok (.obj startFields) ∧
    ∃ r t, SessionM.run ((reply (migrationOf startBody)).run atNoon) { source := [] } =
        (.ok (r, atNoon), t) ∧
      AnswersMigration startFields r := by
  have read : Request.readBody startBody = .ok (.obj startFields) :=
    Request.readBody_eq_ok rfl (by decide) rfl
  obtain ⟨w, converted, finite⟩ : ∃ w, (Legacy.migrate atNoon.clock (.obj startFields)).result =
      .ok w ∧ ∀ n ∈ w.nodes, n.Finite := by
    refine ⟨_, rfl, fun n member => ?_⟩
    rw [List.mem_singleton.mp member]
    exact ⟨by decide, by decide, rfl⟩
  have foreseen : FailsForeseen (Legacy.migrate atNoon.clock (.obj startFields)).result := by
    rw [converted]
    exact nofun
  have only : OnlyFinite (Legacy.migrate atNoon.clock (.obj startFields)).result := by
    rw [converted]
    exact fun _ same => Except.ok.inj same ▸ finite
  obtain ⟨r, ran, answered, -⟩ :=
    migration_answered_iff atNoon { source := [] } atNoon_documented read
  exact ⟨atNoon_documented, read, r, _, ran,
    answered.mpr ⟨(Legacy.failsForeseen_migrate_iff _ _).mp foreseen, only⟩⟩

def numberBody : String :=
  "\x7b\"nodes\": [5]\x7d"

def numberFields : Fields :=
  [("nodes", .arr [.int 5])]

/-- A number among the nodes makes the service fail. -/
theorem number_among_nodes_fails : Request.readBody numberBody = .ok (.obj numberFields) ∧
    SessionM.run ((reply (migrationOf numberBody)).run atNoon) { source := [] } =
      (.ok (.failed, atNoon), { source := [] }) ∧
    ¬AnswersMigration numberFields .failed := by
  have read : Request.readBody numberBody = .ok (.obj numberFields) :=
    Request.readBody_eq_ok rfl (by decide) rfl
  exact ⟨read, run_reply_migration atNoon { source := [] } read, nofun⟩

end Service
end Flowgraph
