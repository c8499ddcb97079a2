import Flowgraph.Proofs.SortedDistinct
import Flowgraph.Proofs.Workflow.RoundTrip
import Flowgraph.Storage.Repository
import Mathlib.Data.List.Basic
import Mathlib.Data.String.Basic

/-!
# Memory and table are one store

Each operation on a repository is compared with the same operation on an ideal store, which
has at most one workflow under every id. Memory always answers as the ideal store does. A
table does so as long as the documents that it has to read are within its depth, and fails
as too deep otherwise. What is left open is the order of workflows with one date.
-/
namespace Flowgraph

/-- The workflow under each id. -/
abbrev Contents := String → Option Workflow

namespace Repository

inductive Operation where
  | save (w : Workflow)
  | get (id : String)
  | has (id : String)
  | delete (id : String)
  | list

inductive Answer where
  | done
  | found (w : Option Workflow)
  | flag (b : Bool)
  | listing (ws : List Workflow)

def answer (r : Repository) : Operation → Attempt Answer
  | .save _ => .ok .done
  | .get id => (r.get? id).map .found
  | .has id => (r.has id).map .flag
  | .delete id => .ok (.flag (r.delete id).1)
  | .list => r.list.map .listing

def after (r : Repository) : Operation → Repository
  | .save w => r.save w
  | .delete id => (r.delete id).2
  | .get _ | .has _ | .list => r

/-- The repository after a sequence of operations. -/
def reached (r : Repository) (history : List Operation) : Repository :=
  history.foldl after r

end Repository

open Repository

/-! ## The ideal store -/

namespace Contents

def after (now : Contents) : Operation → Contents
  | .save w => Function.update now w.id (some w)
  | .delete id => Function.update now id none
  | .get _ | .has _ | .list => now

/-- What the ideal store, empty at first, has after a sequence of operations. -/
def reached (history : List Operation) : Contents :=
  history.foldl after fun _ => none

end Contents

namespace Repository

/-- An operation that may change what is stored under an id. -/
def Operation.Changes (id : String) : Operation → Prop
  | .save w => w.id = id
  | .delete other => other = id
  | .get _ | .has _ | .list => False

/-- The last workflow that was saved under an id and not deleted since. -/
def LastSaved (history : List Operation) (id : String) (w : Workflow) : Prop :=
  w.id = id ∧ ∃ before later, history = before ++ .save w :: later ∧
    ∀ op ∈ later, ¬op.Changes id

theorem lastSaved_concat {history : List Operation} {op : Operation} {id : String}
    {w : Workflow} : LastSaved (history ++ [op]) id w ↔
      op = .save w ∧ w.id = id ∨ ¬op.Changes id ∧ LastSaved history id w := by
  constructor
  · rintro ⟨named, before, later, split, untouched⟩
    rcases List.eq_nil_or_concat later with rfl | ⟨later, last, rfl⟩
    · obtain ⟨-, last⟩ := List.append_inj' split rfl
      exact .inl ⟨List.head_eq_of_cons_eq last, named⟩
    · rw [List.concat_eq_append, ← List.cons_append, ← List.append_assoc] at split
      obtain ⟨front, last⟩ := List.append_inj' split rfl
      obtain rfl := List.head_eq_of_cons_eq last
      exact .inr ⟨untouched op (by simp), named, before, later, front,
        fun other member => untouched other (by simp [member])⟩
  · rintro (⟨rfl, named⟩ | ⟨untouched, named, before, later, rfl, others⟩)
    · exact ⟨named, history, [], rfl, nofun⟩
    · refine ⟨named, before, later ++ [op], by simp, fun other member => ?_⟩
      rcases List.mem_append.mp member with member | member
      · exact others other member
      · exact List.mem_singleton.mp member ▸ untouched

/-- The ideal store has the workflow that was saved last. -/
theorem reached_eq_some_iff (history : List Operation) (id : String) (w : Workflow) :
    Contents.reached history id = some w ↔ LastSaved history id w := by
  induction history using List.reverseRecOn with
  | nil => simp [Contents.reached, LastSaved]
  | append_singleton history op ih =>
    rw [lastSaved_concat, ← ih, Contents.reached, List.foldl_concat, ← Contents.reached]
    cases op with
    | save v =>
      by_cases same : v.id = id
      · subst same
        simp only [Contents.after, Function.update_self, Option.some.injEq,
          Operation.save.injEq, Operation.Changes, not_true_eq_false, false_and, or_false]
        exact ⟨fun h => ⟨h, h ▸ rfl⟩, And.left⟩
      · have other : ¬(v = w ∧ w.id = id) := fun ⟨h, named⟩ => same (h ▸ named)
        simp [Contents.after, Function.update_of_ne (Ne.symm same), Operation.Changes, same, other]
    | delete gone =>
      by_cases same : gone = id
      · simp [Contents.after, Operation.Changes, same]
      · simp [Contents.after, Function.update_of_ne (Ne.symm same), Operation.Changes, same]
    | get | has | list => simp [Contents.after, Operation.Changes]

/-! ## Answers -/

/-- What the ideal store answers. The order of workflows with one date is open. -/
def Operation.Answered (now : Contents) : Operation → Answer → Prop
  | .save _, a => a = .done
  | .get id, a => a = .found (now id)
  | .has id, a => a = .flag (now id).isSome
  | .delete id, a => a = .flag (now id).isSome
  | .list, a => ∃ ws, a = .listing ws ∧ (∀ w, w ∈ ws ↔ now w.id = some w) ∧
      (ws.map (·.id)).Nodup ∧ ws.Pairwise fun v w => w.updatedAt ≤ v.updatedAt

/-- Equal answers, or listings of the same workflows with the same dates in every place. -/
inductive Answer.Alike : Answer → Answer → Prop where
  | same (a : Answer) : Alike a a
  | listings {vs ws : List Workflow} (members : vs.Perm ws)
      (dates : vs.map (·.updatedAt) = ws.map (·.updatedAt)) : Alike (.listing vs) (.listing ws)

theorem alike_of_answered {now : Contents} {op : Operation} {a b : Answer}
    (first : op.Answered now a) (second : op.Answered now b) : a.Alike b := by
  cases op with
  | save | get | has | delete => exact first.trans second.symm ▸ .same a
  | list =>
    obtain ⟨vs, rfl, vsMem, vsDistinct, vsOrder⟩ := first
    obtain ⟨ws, rfl, wsMem, wsDistinct, wsOrder⟩ := second
    have members : vs.Perm ws := by
      rw [List.perm_ext_iff_of_nodup vsDistinct.of_map wsDistinct.of_map]
      exact fun w => (vsMem w).trans (wsMem w).symm
    have vsDates : (vs.map (·.updatedAt)).Pairwise (· ≥ ·) := List.pairwise_map.mpr vsOrder
    have wsDates : (ws.map (·.updatedAt)).Pairwise (· ≥ ·) := List.pairwise_map.mpr wsOrder
    exact .listings members ((members.map _).eq_of_pairwise
      (fun _ _ _ _ later earlier => le_antisymm earlier later) vsDates wsDates)

end Repository

/-! ## What a repository keeps -/

/-- A list has exactly the stored workflows, each once. -/
structure Contents.Kept (now : Contents) (ws : List Workflow) : Prop where
  distinct : (ws.map (·.id)).Nodup
  stored : ∀ id w, now id = some w ↔ w ∈ ws ∧ w.id = id

namespace Contents.Kept

variable {now : Contents} {ws : List Workflow} (kept : now.Kept ws)
include kept

theorem mem (w : Workflow) : w ∈ ws ↔ now w.id = some w := by
  rw [kept.stored]
  exact ⟨fun member => ⟨member, rfl⟩, And.left⟩

theorem find? (id : String) : ws.find? (·.id == id) = now id := by
  cases found : ws.find? (·.id == id) with
  | some w =>
    have member := List.mem_of_find?_eq_some found
    have named : w.id = id := by simpa using List.find?_some found
    exact ((kept.stored id w).mpr ⟨member, named⟩).symm
  | none =>
    cases stored : now id with
    | none => rfl
    | some w =>
      obtain ⟨member, named⟩ := (kept.stored id w).mp stored
      exact absurd named (by simpa using List.find?_eq_none.mp found w member)

theorem any (id : String) : ws.any (·.id == id) = (now id).isSome := by
  rw [← kept.find?, Bool.eq_iff_iff, List.any_eq_true, List.find?_isSome]

theorem delete (id : String) :
    Contents.Kept (Function.update now id none) (ws.filter (·.id != id)) := by
  refine ⟨kept.distinct.sublist (List.filter_sublist.map _), fun other w => ?_⟩
  by_cases same : other = id
  · subst same
    simp [List.mem_filter]
  · rw [Function.update_of_ne same, kept.stored, List.mem_filter, and_assoc, and_congr_right_iff]
    intro _
    refine ⟨fun named => ⟨?_, named⟩, And.right⟩
    simpa [named] using same

theorem append {w : Workflow} (fresh : now w.id = none) :
    Contents.Kept (Function.update now w.id (some w)) (ws ++ [w]) := by
  have unused : ∀ v ∈ ws, v.id ≠ w.id := by
    intro v member same
    rw [kept.mem, same, fresh] at member
    cases member
  constructor
  · rw [List.map_append, List.nodup_append]
    refine ⟨kept.distinct, List.nodup_singleton _, ?_⟩
    simpa using unused
  · intro id v
    by_cases same : id = w.id
    · subst same
      rw [Function.update_self]
      grind
    · rw [Function.update_of_ne same, kept.stored]
      grind

theorem replace {w : Workflow} (taken : (now w.id).isSome) :
    Contents.Kept (Function.update now w.id (some w))
      (ws.map fun old => if old.id = w.id then w else old) := by
  constructor
  · have same : (ws.map fun old => if old.id = w.id then w else old).map (·.id) =
        ws.map (·.id) := by
      rw [List.map_map]
      exact List.map_congr_left fun old _ => by grind
    rw [same]
    exact kept.distinct
  · intro id v
    rw [List.mem_map]
    by_cases same : id = w.id
    · subst same
      obtain ⟨old, found⟩ := Option.isSome_iff_exists.mp taken
      obtain ⟨member, named⟩ := (kept.stored w.id old).mp found
      rw [Function.update_self]
      constructor
      · rintro ⟨⟩
        exact ⟨⟨old, member, if_pos named⟩, rfl⟩
      · rintro ⟨⟨other, _, rfl⟩, named⟩
        grind
    · rw [Function.update_of_ne same, kept.stored]
      constructor
      · rintro ⟨member, named⟩
        exact ⟨⟨v, member, if_neg (named ▸ same)⟩, named⟩
      · rintro ⟨⟨other, member, rfl⟩, named⟩
        grind

end Contents.Kept

/-! ## Steps and runs -/

namespace Repository

/-- A repository keeps what the ideal store has. -/
def Keeps (now : Contents) : Repository → Prop
  | memory m => now.Kept m.workflows
  | table t => ∃ ws, t.rows = ws.map Row.ofWorkflow ∧ now.Kept ws

/-- How deep a document may nest that the repository reads; none where nothing is read. -/
def depth? : Repository → Option Nat
  | memory _ => none
  | table t => some t.depth

variable {now : Contents} {r : Repository}

theorem rows_filter (ws : List Workflow) (id : String) :
    (ws.map Row.ofWorkflow).filter (·.id != id) =
      (ws.filter (·.id != id)).map Row.ofWorkflow :=
  List.filter_map

/-- An operation does to a repository what it does to the ideal store. -/
theorem Keeps.after (keeps : r.Keeps now) (op : Operation) : (r.after op).Keeps (now.after op) := by
  cases op with
  | get | has | list => exact keeps
  | delete id =>
    cases r with
    | memory m => exact Contents.Kept.delete keeps id
    | table t =>
      obtain ⟨ws, rows, kept⟩ := keeps
      refine ⟨_, ?_, kept.delete id⟩
      simp only [Table.delete, rows, rows_filter]
  | save w =>
    cases r with
    | memory m =>
      simp only [Repository.after, Repository.save, Memory.save, Memory.has,
        Contents.Kept.any keeps]
      split
      · rename_i taken
        exact Contents.Kept.replace keeps taken
      · rename_i fresh
        exact Contents.Kept.append keeps (Option.not_isSome_iff_eq_none.mp fresh)
    | table t =>
      obtain ⟨ws, rows, kept⟩ := keeps
      refine ⟨ws.filter (·.id != w.id) ++ [w], ?_, ?_⟩
      · simp only [Table.save, Table.delete, rows, rows_filter, List.map_append,
          List.map_singleton]
      · have saved := (kept.delete w.id).append (w := w) (Function.update_self _ _ _)
        rwa [Function.update_idem] at saved

theorem depth?_after (r : Repository) (op : Operation) : (r.after op).depth? = r.depth? := by
  cases op <;> cases r <;> rfl

theorem keeps_reached (keeps : r.Keeps now) (history : List Operation) :
    (r.reached history).Keeps (history.foldl Contents.after now) ∧
      (r.reached history).depth? = r.depth? := by
  induction history generalizing now r with
  | nil => exact ⟨keeps, rfl⟩
  | cons op history ih =>
    obtain ⟨kept, depth⟩ := ih (keeps.after op)
    exact ⟨kept, depth.trans (r.depth?_after op)⟩

/-- What is stored was saved. -/
theorem saved_of_reached {history : List Operation} {id : String} {w : Workflow}
    (stored : Contents.reached history id = some w) : .save w ∈ history := by
  obtain ⟨-, before, later, rfl, -⟩ := (reached_eq_some_iff history id w).mp stored
  exact List.mem_append_right _ List.mem_cons_self

/-! ## Answers of a repository -/

/-- The workflows whose documents are read for an operation. -/
def Operation.Reads (now : Contents) (w : Workflow) : Operation → Prop
  | .get id | .has id => now id = some w
  | .list => now w.id = some w
  | .save _ | .delete _ => False

/-- The documents that are read for an operation nest within a depth. -/
def Operation.Within (now : Contents) (depth : Nat) (op : Operation) : Prop :=
  ∀ w, op.Reads now w → w.toJson.nesting ≤ depth

/-- A sort by date lists what is kept. -/
theorem answered_list {vs ws : List Workflow} (kept : now.Kept ws) (members : vs.Perm ws) :
    Operation.list.Answered now
      (.listing (vs.mergeSort fun v w => decide (w.updatedAt ≤ v.updatedAt))) := by
  have sorted := List.mergeSort_perm vs fun v w => decide (w.updatedAt ≤ v.updatedAt)
  refine ⟨_, rfl, fun w => ?_, ?_, ?_⟩
  · rw [sorted.mem_iff, members.mem_iff, kept.mem]
  · exact ((sorted.trans members).map _).nodup_iff.mpr kept.distinct
  · exact pairwise_mergeSort_of_total (r := fun v w : Workflow => w.updatedAt ≤ v.updatedAt)
      (fun _ _ _ later latest => le_trans latest later) (fun _ _ => le_total _ _) vs

theorem memory_answers {m : Memory} (kept : now.Kept m.workflows) (op : Operation) :
    ∃ a, (memory m).answer op = .ok a ∧ op.Answered now a := by
  cases op with
  | save w => exact ⟨_, rfl, rfl⟩
  | get id => exact ⟨_, rfl, congrArg _ (kept.find? id)⟩
  | has id => exact ⟨_, rfl, congrArg (Answer.flag ∘ Option.isSome) (kept.find? id)⟩
  | delete id => exact ⟨_, rfl, congrArg _ (kept.any id)⟩
  | list => exact ⟨_, rfl, answered_list kept (.refl _)⟩

/-- A row is read back as the workflow that it was made from. -/
theorem workflow_ofWorkflow {w : Workflow} (accepted : w.Accepted) (depth : Nat) :
    (Row.ofWorkflow w).workflow depth =
      if w.toJson.nesting ≤ depth then .ok w else .error (.fault .tooDeep) := by
  obtain ⟨valid, typed⟩ := Workflow.accepted_iff.mp accepted
  have read : Json.readWithin depth (Row.ofWorkflow w).document =
      Json.readTo depth w.toJson.nesting w.toJson :=
    Json.readWithin_write Json.airy_spaced (Workflow.proper_toJson typed) depth
  by_cases fits : w.toJson.nesting ≤ depth
  · simp only [Row.workflow, read, Json.readTo, fits, ↓reduceIte,
      Workflow.check_toJson .value valid]
    rfl
  · simp only [Row.workflow, read, Json.readTo, fits, ↓reduceIte]

theorem get?_table {t : Table} {ws : List Workflow} (rows : t.rows = ws.map Row.ofWorkflow)
    (kept : now.Kept ws) (accepted : ∀ w ∈ ws, w.Accepted) (id : String) :
    ((∀ w, now id = some w → w.toJson.nesting ≤ t.depth) → t.get? id = .ok (now id)) ∧
      (¬(∀ w, now id = some w → w.toJson.nesting ≤ t.depth) →
        t.get? id = .error (.fault .tooDeep)) := by
  have found : t.rows.find? (·.id == id) = (now id).map Row.ofWorkflow := by
    rw [rows, List.find?_map, ← kept.find?]
    rfl
  rw [Table.get?, found]
  cases stored : now id with
  | none => simp
  | some w =>
    have member := ((kept.stored id w).mp stored).1
    simp only [Option.map_some, workflow_ofWorkflow (accepted w member), Option.some.injEq,
      forall_eq']
    exact ⟨fun fits => by rw [if_pos fits]; rfl, fun deep => by rw [if_neg deep]; rfl⟩

theorem list_table {t : Table} {ws : List Workflow} (rows : t.rows = ws.map Row.ofWorkflow)
    (accepted : ∀ w ∈ ws, w.Accepted) :
    ((∀ w ∈ ws, w.toJson.nesting ≤ t.depth) → t.list =
        .ok (ws.reverse.mergeSort fun v w => decide (w.updatedAt ≤ v.updatedAt))) ∧
      (¬(∀ w ∈ ws, w.toJson.nesting ≤ t.depth) → t.list = .error (.fault .tooDeep)) := by
  have sorted : (t.rows.reverse.mergeSort fun r s => decide (s.updatedAt ≤ r.updatedAt)) =
      (ws.reverse.mergeSort fun v w => decide (w.updatedAt ≤ v.updatedAt)).map
        Row.ofWorkflow := by
    rw [rows, ← List.map_reverse]
    refine (List.map_mergeSort ?_).symm
    intros
    rfl
  generalize order : (ws.reverse.mergeSort fun v w => decide (w.updatedAt ≤ v.updatedAt)) = vs
    at sorted ⊢
  have members : ∀ w, w ∈ vs ↔ w ∈ ws := by
    intro w
    rw [← order, List.mem_mergeSort, List.mem_reverse]
  have read {w : Workflow} (listed : w ∈ vs) :=
    workflow_ofWorkflow (accepted w ((members w).mp listed)) t.depth
  rw [Table.list, sorted]
  constructor
  · intro fits
    rw [mapM_eq_ok_iff, List.forall₂_map_left_iff, List.forall₂_same]
    intro w listed
    rw [read listed, if_pos (fits w ((members w).mp listed))]
  · intro deep
    cases result : (vs.map Row.ofWorkflow).mapM (Row.workflow t.depth) with
    | error e =>
      obtain ⟨row, listed, failed⟩ := mapM_error result
      obtain ⟨w, own, rfl⟩ := List.mem_map.mp listed
      rw [read own] at failed
      split at failed
      · cases failed
      · exact congrArg Except.error (Except.error.inj failed).symm
    | ok found =>
      refine absurd (fun w member => ?_) deep
      rw [mapM_eq_ok_iff, List.forall₂_map_left_iff] at result
      have listed := (members w).mpr member
      obtain ⟨_, -, success⟩ := forall₂_exists_right result listed
      rw [read listed] at success
      by_contra large
      rw [if_neg large] at success
      cases success

theorem table_answers {t : Table} {ws : List Workflow} (rows : t.rows = ws.map Row.ofWorkflow)
    (kept : now.Kept ws) (accepted : ∀ w ∈ ws, w.Accepted) (op : Operation) :
    (op.Within now t.depth → ∃ a, (table t).answer op = .ok a ∧ op.Answered now a) ∧
      (¬op.Within now t.depth → (table t).answer op = .error (.fault .tooDeep)) := by
  cases op with
  | save w => exact ⟨fun _ => ⟨_, rfl, rfl⟩, fun deep => absurd (fun _ => False.elim) deep⟩
  | delete id =>
    have has : t.has id = (now id).isSome := by
      rw [Table.has, rows, List.any_map, ← kept.any]
      rfl
    exact ⟨fun _ => ⟨_, rfl, congrArg _ has⟩, fun deep => absurd (fun _ => False.elim) deep⟩
  | get id =>
    obtain ⟨near, far⟩ := get?_table rows kept accepted id
    refine ⟨fun fits => ⟨_, congrArg (Except.map _) (near fits), rfl⟩, fun deep => ?_⟩
    exact congrArg (Except.map _) (far deep)
  | has id =>
    obtain ⟨near, far⟩ := get?_table rows kept accepted id
    refine ⟨fun fits => ⟨_, congrArg (Except.map _ ∘ Except.map _) (near fits), rfl⟩,
      fun deep => ?_⟩
    exact congrArg (Except.map _ ∘ Except.map _) (far deep)
  | list =>
    obtain ⟨near, far⟩ := list_table rows accepted
    have same : Operation.list.Within now t.depth ↔ ∀ w ∈ ws, w.toJson.nesting ≤ t.depth := by
      simp only [Operation.Within, Operation.Reads, ← kept.mem]
    rw [same]
    refine ⟨fun fits => ⟨_, congrArg (Except.map _) (near fits),
      answered_list kept (List.reverse_perm ws)⟩, fun deep => ?_⟩
    exact congrArg (Except.map _) (far deep)

/-! ## Agreement -/

theorem kept_nil : Contents.Kept (fun _ => none) [] :=
  ⟨List.nodup_nil, by simp⟩

theorem memory_reached (history : List Operation) :
    ∃ m, (memory {}).reached history = memory m ∧
      (Contents.reached history).Kept m.workflows := by
  obtain ⟨kept, depth⟩ := keeps_reached (r := memory {}) kept_nil history
  cases same : (memory {}).reached history with
  | memory m =>
    rw [same] at kept
    exact ⟨m, rfl, kept⟩
  | table t =>
    rw [same] at depth
    cases depth

theorem table_reached (depth : Nat) (history : List Operation) :
    ∃ t ws, (table { depth }).reached history = table t ∧ t.depth = depth ∧
      t.rows = ws.map Row.ofWorkflow ∧ (Contents.reached history).Kept ws := by
  obtain ⟨kept, deep⟩ := keeps_reached (r := table { depth }) ⟨[], rfl, kept_nil⟩ history
  cases same : (table { depth }).reached history with
  | memory m =>
    rw [same] at deep
    cases deep
  | table t =>
    rw [same] at kept deep
    obtain ⟨ws, rows, kept⟩ := kept
    exact ⟨t, ws, rfl, Option.some.inj deep, rows, kept⟩

/-- No operation reads too deep a document where the saved workflows come from documents that
can be read themselves. -/
theorem within_of_documents {depth : Nat} {history : List Operation}
    (documents : ∀ w, .save w ∈ history → ∃ (intake : Intake) (now : String) (document : Json),
      document.nesting ≤ depth + 4 ∧ Workflow.check intake now document = .ok w)
    (op : Operation) : op.Within (Contents.reached history) (depth + 4) := by
  intro w reads
  have stored : ∃ id, Contents.reached history id = some w := by
    cases op with
    | get id | has id => exact ⟨id, reads⟩
    | list => exact ⟨w.id, reads⟩
    | save | delete => exact False.elim reads
  obtain ⟨id, stored⟩ := stored
  obtain ⟨intake, now, document, shallow, accepted⟩ := documents w (saved_of_reached stored)
  exact Workflow.nesting_toJson accepted shallow

/-- After any sequence of operations on accepted workflows, memory answers as the ideal store
does, and a table gives an answer that is alike: the workflow that was last saved under an id,
whether there is one, or all of them, each once, the last updated first. The one exception
are documents that nest deeper than the table reads; an operation that reads one of them
fails for this reason. -/
theorem repositories_agree (depth : Nat) (history : List Operation) (op : Operation)
    (accepted : ∀ w, .save w ∈ history → w.Accepted) :
    ∃ a, ((memory {}).reached history).answer op = .ok a ∧
      op.Answered (Contents.reached history) a ∧
      (op.Within (Contents.reached history) depth →
        ∃ b, ((table { depth }).reached history).answer op = .ok b ∧
          op.Answered (Contents.reached history) b ∧ a.Alike b) ∧
      (¬op.Within (Contents.reached history) depth →
        ((table { depth }).reached history).answer op = .error (.fault .tooDeep)) := by
  obtain ⟨m, memory, keptInMemory⟩ := memory_reached history
  obtain ⟨t, ws, table, rfl, rows, kept⟩ := table_reached depth history
  have known : ∀ w ∈ ws, w.Accepted := fun w member =>
    accepted w (saved_of_reached ((kept.mem w).mp member))
  obtain ⟨a, answer, answered⟩ := memory_answers keptInMemory op
  obtain ⟨near, far⟩ := table_answers rows kept known op
  rw [memory, table]
  refine ⟨a, answer, answered, fun fits => ?_, far⟩
  obtain ⟨b, other, answeredToo⟩ := near fits
  exact ⟨b, other, answeredToo, alike_of_answered answered answeredToo⟩

def sketching : List Operation :=
  [.save Workflow.sketch, .delete "v", .list]

/-- The document of the sketch nests four times. -/
theorem sketching_agrees : (∀ w, .save w ∈ sketching → w.Accepted) ∧
    ((memory {}).reached sketching).answer (.get "w") = .ok (.found (some .sketch)) ∧
    ((table { depth := 4 }).reached sketching).answer (.get "w") = .ok (.found (some .sketch)) ∧
    ((table { depth := 3 }).reached sketching).answer (.get "w") = .error (.fault .tooDeep) := by
  have accepted : ∀ w, .save w ∈ sketching → w.Accepted := by
    simp [sketching, Workflow.accepted_sketch]
  have stored : Contents.reached sketching "w" = some .sketch := rfl
  have four : Workflow.sketch.toJson.nesting = 4 := rfl
  obtain ⟨a, answer, rfl, near, -⟩ := repositories_agree 4 sketching (.get "w") accepted
  obtain ⟨-, -, -, -, far⟩ := repositories_agree 3 sketching (.get "w") accepted
  have fits : Operation.Within (Contents.reached sketching) 4 (.get "w") := by
    rintro w (reads : _ = _)
    rw [stored, Option.some.injEq] at reads
    rw [← reads, four]
  have deep : ¬Operation.Within (Contents.reached sketching) 3 (.get "w") := by
    intro within
    have := within _ stored
    omega
  obtain ⟨b, other, rfl, -⟩ := near fits
  rw [stored] at answer other
  exact ⟨accepted, answer, other, far deep⟩

end Repository

end Flowgraph
