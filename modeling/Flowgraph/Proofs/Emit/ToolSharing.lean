import Flowgraph.Proofs.Emit.FunctionTools
import Mathlib.Tactic.MkIffOfInductiveProp

/-!
# Calls that share a tool

A call has no tool of its own where an earlier call has one of the same name. The name of a tool is
what is left of a server and its tool, or of the id of a request, when it is joined, cleaned and
cut. So calls of one kind share a tool where the same is left of both, which is not only where
they call the same; a call of a server and a request never do.
-/
namespace Flowgraph.Assistant

/-- The tools of the nodes before a place. -/
def toolsBefore (w : Workflow) (k : Nat) : List Json :=
  functionTools { w with nodes := w.nodes.take k }

/-- The node at a place calls a tool that is not added to those of the nodes before it. -/
structure LeftOut (w : Workflow) (k : Nat) (n : Node) : Prop where
  here : w.nodes[k]? = some n
  calls : Calls n
  unchanged : toolsBefore w (k + 1) = toolsBefore w k

/-- Two nodes call one tool of one server. -/
@[mk_iff]
structure CallsSame (m n : Node) : Prop where
  first : m.type = .mcp
  second : n.type = .mcp
  server : shown m "serverId" = shown n "serverId"
  tool : shown m "toolName" = shown n "toolName"

instance (m n : Node) : Decidable (CallsSame m n) :=
  decidable_of_iff _ (callsSame_iff m n).symm

/-- The tool of a node is left out only if an earlier node calls the same. -/
def SharesRightly (w : Workflow) : Prop :=
  ∀ k n, LeftOut w k n → ∃ j < k, ∃ m, w.nodes[j]? = some m ∧ CallsSame m n

/-- What a name has of some texts before it is cut. -/
def residue (parts : List String) : List Char :=
  (Text.replaceRuns isNameChar '_'
    ("_".intercalate (parts.filter (!·.isEmpty))).toList).rdropWhile (· == '_')

/-- Two calls of one kind of which the same is left. -/
inductive Merged (m n : Node) : Prop
  | mcp (first : m.type = .mcp) (second : n.type = .mcp)
      (same : (residue [shown m "serverId", shown m "toolName"]).take 60 =
        (residue [shown n "serverId", shown n "toolName"]).take 60)
  | request (first : m.type = .httpRequest) (second : n.type = .httpRequest)
      (same : (residue [m.id]).take 51 = (residue [n.id]).take 51)

/-- A text is not changed by cleaning. -/
@[mk_iff]
structure Clean (s : String) : Prop where
  nonempty : s ≠ ""
  chars : s.toList.all isNameChar = true
  last : s.toList.getLast? ≠ some '_'

instance (s : String) : Decidable (Clean s) :=
  decidable_of_iff _ (clean_iff s).symm

/-- What names a call is found again in the name of its tool. -/
@[mk_iff]
structure Legible (n : Node) : Prop where
  server : n.type = .mcp → Clean (shown n "serverId") ∧ '_' ∉ (shown n "serverId").toList
  tool : n.type = .mcp → Clean (shown n "toolName") ∧
    (shown n "serverId").length + (shown n "toolName").length < 60
  request : n.type = .httpRequest → Clean n.id ∧ n.id.length ≤ 51

instance (n : Node) : Decidable (Legible n) :=
  decidable_of_iff _ (legible_iff n).symm

variable {w : Workflow} {k : Nat} {l m n : Node}

/-! ## Names -/

theorem Clean.toList_ne_nil {s : String} (clean : Clean s) : s.toList ≠ [] :=
  mt String.toList_eq_nil_iff.mp clean.nonempty

theorem Clean.not_isEmpty {s : String} (clean : Clean s) : (!s.isEmpty) = true := by
  simpa using clean.nonempty

theorem Clean.kept {s : String} (clean : Clean s) : ∀ c ∈ s.toList, isNameChar c = true :=
  List.all_eq_true.mp clean.chars

theorem Clean.rdropWhile {s : String} (clean : Clean s) :
    s.toList.rdropWhile (· == '_') = s.toList := by
  rw [List.rdropWhile_eq_self_iff]
  intro some last
  apply clean.last
  rw [List.getLast?_eq_some_getLast some, beq_iff_eq.mp last]

theorem take_marked_iff (n : Nat) (s t : List Char) :
    (if s = [] then [] else '_' :: s).take (n + 2) =
        (if t = [] then [] else '_' :: t).take (n + 2) ↔
      s.take (n + 1) = t.take (n + 1) := by
  cases s <;> cases t <;> simp

section

variable {kind : String} (clean : Clean kind) (front : kind.toList.head? ≠ some '_')
include clean front

/-- The name of a tool has its kind and what is left of the texts behind it. -/
theorem nameChars_kind (parts : List String) : nameChars (kind :: parts) =
    kind.toList ++ if residue parts = [] then [] else '_' :: residue parts := by
  have begins (t : List Char) :
      (kind.toList ++ t).dropWhile (· == '_') = kind.toList ++ t := by
    apply Text.dropWhile_eq_self
    intro c head
    obtain ⟨first, others, split⟩ := List.exists_cons_of_ne_nil clean.toList_ne_nil
    rw [split, List.cons_append, List.head?_cons] at head
    rw [split, List.head?_cons, head] at front
    simpa using front
  rw [nameChars, Text.trimBy_eq, List.filter_cons, if_pos clean.not_isEmpty, residue]
  cases parts.filter (!·.isEmpty) with
  | nil =>
    rw [String.intercalate_singleton, Text.replaceRuns_eq_self clean.kept, clean.rdropWhile]
    simpa [Text.replaceRuns] using begins []
  | cons next rest =>
    have joined : ("_".intercalate (kind :: next :: rest)).toList =
        kind.toList ++ '_' :: ("_".intercalate (next :: rest)).toList := by
      rw [String.intercalate_cons_cons, String.toList_append, String.toList_append,
        List.append_assoc]
      rfl
    rw [joined, Text.replaceRuns_append_kept clean.kept, Text.replaceRuns_cons_kept (by decide),
      Text.rdropWhile_append, Text.rdropWhile_cons]
    generalize (Text.replaceRuns isNameChar '_' _).rdropWhile (· == '_') = left
    by_cases none : left = []
    · simpa [none, clean.rdropWhile] using begins []
    · simpa [none] using begins ('_' :: left)

theorem toList_functionName_kind (parts : List String) :
    (functionName (kind :: parts)).toList =
      (kind.toList ++ if residue parts = [] then [] else '_' :: residue parts).take 64 := by
  have some : nameChars (kind :: parts) ≠ [] := by
    rw [nameChars_kind clean front]
    exact List.append_ne_nil_of_left_ne_nil clean.toList_ne_nil _
  rw [functionName_eq, if_neg some, String.toList_ofList, nameChars_kind clean front]

/-- Names of one kind are equal where the same is left of both before they are cut. -/
theorem functionName_kind_eq_iff {n : Nat} (room : kind.toList.length + n + 2 = 64)
    (parts others : List String) : functionName (kind :: parts) = functionName (kind :: others) ↔
      (residue parts).take (n + 1) = (residue others).take (n + 1) := by
  have cut (t : List Char) : (kind.toList ++ t).take 64 = kind.toList ++ t.take (n + 2) := by
    rw [← room, Nat.add_assoc, List.take_length_add_append]
  rw [← String.toList_inj, toList_functionName_kind clean front,
    toList_functionName_kind clean front, cut, cut, List.append_cancel_left_eq, take_marked_iff]

theorem head?_functionName_kind (parts : List String) :
    (functionName (kind :: parts)).toList.head? = kind.toList.head? := by
  obtain ⟨first, others, split⟩ := List.exists_cons_of_ne_nil clean.toList_ne_nil
  rw [toList_functionName_kind clean front, split]
  rfl

end

theorem clean_mcp : Clean "mcp" := ⟨by decide, by decide, by decide⟩

theorem clean_request : Clean "http_request" := ⟨by decide, by decide, by decide⟩

theorem toolName_mcp (mcp : n.type = .mcp) :
    toolName n = functionName ["mcp", shown n "serverId", shown n "toolName"] := by
  rw [toolName, mcp, if_pos (by decide)]

theorem toolName_request (request : n.type = .httpRequest) :
    toolName n = functionName ["http_request", n.id] := by
  rw [toolName, request, if_neg (by decide)]

/-- A call of a server and a request have different names. -/
theorem toolName_mcp_ne_request (mcp : m.type = .mcp) (request : n.type = .httpRequest) :
    toolName m ≠ toolName n := by
  intro same
  rw [toolName_mcp mcp, toolName_request request] at same
  have heads := congrArg (·.toList.head?) same
  rw [head?_functionName_kind clean_mcp (by decide),
    head?_functionName_kind clean_request (by decide)] at heads
  exact absurd heads (by decide)

theorem merged_mcp_iff (mcp : m.type = .mcp) : Merged m n ↔ n.type = .mcp ∧
    (residue [shown m "serverId", shown m "toolName"]).take 60 =
      (residue [shown n "serverId", shown n "toolName"]).take 60 := by
  constructor
  · rintro (⟨-, second, same⟩ | ⟨request, -, -⟩)
    · exact ⟨second, same⟩
    · rw [mcp] at request
      cases request
  · rintro ⟨second, same⟩
    exact .mcp mcp second same

theorem merged_request_iff (request : m.type = .httpRequest) : Merged m n ↔
    n.type = .httpRequest ∧ (residue [m.id]).take 51 = (residue [n.id]).take 51 := by
  constructor
  · rintro (⟨mcp, -, -⟩ | ⟨-, second, same⟩)
    · rw [request] at mcp
      cases mcp
    · exact ⟨second, same⟩
  · rintro ⟨second, same⟩
    exact .request request second same

/-- Calls have one name where they are merged. -/
theorem toolName_eq_iff (first : Calls m) (second : Calls n) :
    toolName m = toolName n ↔ Merged m n := by
  rcases first with mcp | request <;> rcases second with mcp' | request'
  · rw [merged_mcp_iff mcp, and_iff_right mcp', toolName_mcp mcp, toolName_mcp mcp',
      functionName_kind_eq_iff clean_mcp (by decide) (by decide : _ + 59 + 2 = 64)]
  · rw [merged_mcp_iff mcp]
    exact iff_of_false (toolName_mcp_ne_request mcp request') (by simp [request'])
  · rw [merged_request_iff request]
    exact iff_of_false (toolName_mcp_ne_request mcp' request).symm (by simp [mcp'])
  · rw [merged_request_iff request, and_iff_right request', toolName_request request,
      toolName_request request',
      functionName_kind_eq_iff clean_request (by decide) (by decide : _ + 50 + 2 = 64)]

/-! ## Calls that are left out -/

theorem toolsBefore_succ (here : w.nodes[k]? = some n) : toolsBefore w (k + 1) =
    toolsBefore w k ++ if Brings [] (w.nodes.take k) n then [toolFor n] else [] := by
  rw [toolsBefore, toolsBefore, functionTools_eq, functionTools_eq, List.take_add_one, here,
    Option.toList_some, toolNodes_concat, List.map_append]
  split <;> rfl

theorem mem_take_iff : m ∈ w.nodes.take k ↔ ∃ j < k, w.nodes[j]? = some m := by
  simp only [List.mem_iff_getElem?, List.getElem?_take, Option.ite_none_right_eq_some]

theorem Merged.calls (merged : Merged m n) : Calls m ∧ Calls n := by
  rcases merged with ⟨first, second, -⟩ | ⟨first, second, -⟩
  · exact ⟨.inl first, .inl second⟩
  · exact ⟨.inr first, .inr second⟩

/-- A tool is left out where the call is merged with an earlier one. -/
theorem leftOut_iff : LeftOut w k n ↔
    w.nodes[k]? = some n ∧ ∃ j < k, ∃ m, w.nodes[j]? = some m ∧ Merged m n := by
  constructor
  · rintro ⟨here, calls, unchanged⟩
    refine ⟨here, ?_⟩
    by_contra none
    rw [toolsBefore_succ here, if_pos] at unchanged
    · exact absurd unchanged (by simp)
    · refine ⟨calls, List.not_mem_nil, ?_⟩
      intro m member first same
      obtain ⟨j, less, found⟩ := mem_take_iff.mp member
      exact none ⟨j, less, m, found, (toolName_eq_iff first calls).mp same⟩
  · rintro ⟨here, j, less, m, earlier, merged⟩
    obtain ⟨first, second⟩ := merged.calls
    refine ⟨here, second, ?_⟩
    rw [toolsBefore_succ here, if_neg, List.append_nil]
    rintro ⟨-, -, fresh⟩
    have member : m ∈ w.nodes.take k := mem_take_iff.mpr ⟨j, less, earlier⟩
    exact fresh m member first ((toolName_eq_iff first second).mpr merged)

/-! ## Calls of the same tool -/

theorem CallsSame.symm (same : CallsSame m n) : CallsSame n m :=
  ⟨same.second, same.first, same.server.symm, same.tool.symm⟩

theorem CallsSame.trans (same : CallsSame l m) (next : CallsSame m n) : CallsSame l n :=
  ⟨same.first, next.second, same.server.trans next.server, same.tool.trans next.tool⟩

theorem CallsSame.merged (same : CallsSame m n) : Merged m n :=
  .mcp same.first same.second (by rw [same.server, same.tool])

theorem Merged.symm (merged : Merged m n) : Merged n m := by
  obtain ⟨first, second⟩ := merged.calls
  exact (toolName_eq_iff second first).mp ((toolName_eq_iff first second).mpr merged).symm

theorem Merged.trans (merged : Merged l m) (next : Merged m n) : Merged l n := by
  obtain ⟨first, second⟩ := merged.calls
  obtain ⟨-, third⟩ := next.calls
  exact (toolName_eq_iff first third).mp
    (((toolName_eq_iff first second).mpr merged).trans ((toolName_eq_iff second third).mpr next))

/-- Where tools are shared rightly, whoever is merged calls the same. -/
theorem SharesRightly.callsSame (rightly : SharesRightly w) (k : Nat) {j : Nat} {m n : Node}
    (less : j < k) (first : w.nodes[j]? = some m) (second : w.nodes[k]? = some n)
    (merged : Merged m n) : CallsSame m n := by
  induction k using Nat.strongRecOn generalizing j m n with
  | ind k ih =>
    have left : LeftOut w k n := leftOut_iff.mpr ⟨second, j, less, m, first, merged⟩
    obtain ⟨i, before, l, third, same⟩ := rightly k n left
    -- `l` calls the same as `n`, and is merged with `m`, one of them standing before the other
    rcases Nat.lt_trichotomy i j with order | rfl | order
    · have inner := ih j less order third first (same.merged.trans merged.symm)
      exact inner.symm.trans same
    · rw [first] at third
      exact Option.some.inj third ▸ same
    · have inner := ih i before order first third (merged.trans same.merged.symm)
      exact inner.trans same

theorem sharesRightly_iff :
    SharesRightly w ↔ w.nodes.Pairwise fun m n => Merged m n → CallsSame m n := by
  rw [List.pairwise_iff_getElem]
  constructor
  · intro rightly i j first second less merged
    exact rightly.callsSame j less (List.getElem?_eq_getElem first)
      (List.getElem?_eq_getElem second) merged
  · intro pairs k n out
    obtain ⟨here, j, less, m, earlier, merged⟩ := leftOut_iff.mp out
    obtain ⟨first, rfl⟩ := List.getElem?_eq_some_iff.mp earlier
    obtain ⟨second, rfl⟩ := List.getElem?_eq_some_iff.mp here
    exact ⟨j, less, _, earlier, pairs j k first second less merged⟩

/-! ## Names that are legible -/

theorem Clean.residue_single {s : String} (clean : Clean s) : residue [s] = s.toList := by
  rw [residue, List.filter_cons, if_pos clean.not_isEmpty, List.filter_nil,
    String.intercalate_singleton, Text.replaceRuns_eq_self clean.kept, clean.rdropWhile]

/-- Two clean texts are left as they are joined. -/
theorem Clean.residue_pair {s t : String} (first : Clean s) (second : Clean t) :
    residue [s, t] = s.toList ++ '_' :: t.toList := by
  have split : ("_".intercalate [s, t]).toList = s.toList ++ '_' :: t.toList := by
    simp [String.intercalate_cons_cons]
  have kept : ∀ c ∈ s.toList ++ '_' :: t.toList, isNameChar c = true := by
    intro c member
    rw [List.mem_append, List.mem_cons] at member
    rcases member with member | rfl | member
    · exact first.kept c member
    · decide
    · exact second.kept c member
  rw [residue, List.filter_cons, if_pos first.not_isEmpty, List.filter_cons,
    if_pos second.not_isEmpty, List.filter_nil, split, Text.replaceRuns_eq_self kept,
    Text.rdropWhile_append, Text.rdropWhile_cons, second.rdropWhile,
    if_neg second.toList_ne_nil, if_neg (List.cons_ne_nil _ _)]

/-- Texts before the first mark, and behind it, can be told apart. -/
theorem append_mark_inj {s t u v : List Char} (first : '_' ∉ s) (second : '_' ∉ u)
    (same : s ++ '_' :: t = u ++ '_' :: v) : s = u ∧ t = v := by
  have before {x y : List Char} (absent : '_' ∉ x) :
      (x ++ '_' :: y).takeWhile (· != '_') = x := by
    have others : ∀ c ∈ x, (c != '_') = true := fun c member =>
      bne_iff_ne.mpr fun mark => absent (mark ▸ member)
    rw [List.takeWhile_append_of_pos others, List.takeWhile_cons_of_neg (by decide),
      List.append_nil]
  obtain rfl : s = u := by rw [← before (y := t) first, same, before second]
  exact ⟨rfl, (List.cons.inj (List.append_cancel_left same)).2⟩

theorem Legible.residue_mcp (legible : Legible n) (mcp : n.type = .mcp) :
    (residue [shown n "serverId", shown n "toolName"]).take 60 =
      (shown n "serverId").toList ++ '_' :: (shown n "toolName").toList := by
  obtain ⟨server, -⟩ := legible.server mcp
  obtain ⟨tool, short⟩ := legible.tool mcp
  rw [server.residue_pair tool, List.take_of_length_le]
  rw [List.length_append, List.length_cons, String.length_toList, String.length_toList]
  omega

theorem Legible.residue_request (legible : Legible n) (request : n.type = .httpRequest) :
    (residue [n.id]).take 51 = n.id.toList := by
  obtain ⟨id, short⟩ := legible.request request
  rw [id.residue_single, List.take_of_length_le]
  rwa [String.length_toList]

/-- Legible calls of different nodes that are merged call the same. -/
theorem Merged.callsSame (merged : Merged m n) (first : Legible m) (second : Legible n)
    (other : m.id ≠ n.id) : CallsSame m n := by
  rcases merged with ⟨mcp, mcp', same⟩ | ⟨request, request', same⟩
  · rw [first.residue_mcp mcp, second.residue_mcp mcp'] at same
    obtain ⟨servers, tools⟩ := append_mark_inj (first.server mcp).2 (second.server mcp').2 same
    exact ⟨mcp, mcp', String.toList_inj.mp servers, String.toList_inj.mp tools⟩
  · rw [first.residue_request request, second.residue_request request'] at same
    exact absurd (String.toList_inj.mp same) other

/-- The tools come from the calls one after another. The tool of a call is left out exactly where
it is merged with an earlier one, so tools are shared rightly exactly where only calls of the same
tool are merged, as in every workflow with distinct ids whose calls are legible. -/
theorem tools_shared_where_merged (w : Workflow) :
    toolsBefore w w.nodes.length = functionTools w ∧
    (∀ k n, w.nodes[k]? = some n → Calls n →
      toolsBefore w (k + 1) = toolsBefore w k ++ [toolFor n] ∨ LeftOut w k n) ∧
    (∀ k n, LeftOut w k n ↔
      w.nodes[k]? = some n ∧ ∃ j < k, ∃ m, w.nodes[j]? = some m ∧ Merged m n) ∧
    (SharesRightly w ↔ w.nodes.Pairwise fun m n => Merged m n → CallsSame m n) ∧
    ((w.nodes.map (·.id)).Nodup → (∀ n ∈ w.nodes, Legible n) → SharesRightly w) := by
  refine ⟨by rw [toolsBefore, List.take_length], ?_, fun k n => leftOut_iff, sharesRightly_iff, ?_⟩
  · intro k n here calls
    have step := toolsBefore_succ here
    split at step
    · exact .inl step
    · exact .inr ⟨here, calls, step.trans (List.append_nil _)⟩
  · intro distinct legible
    rw [sharesRightly_iff]
    refine (List.pairwise_map.mp distinct).imp_of_mem ?_
    intro m n first second other merged
    exact merged.callsSame (legible m first) (legible n second) other

/-- Two calls of one tool, a call of a tool whose name begins like its server, and two requests. -/
def issues : Workflow where
  id := "issues"
  name := "Issues"
  version := Workflow.formatVersion
  createdAt := ""
  updatedAt := ""
  nodes :=
    [{ id := "search", type := .mcp,
       config := [("serverId", .str "github"), ("toolName", .str "search_issues")] },
     { id := "again", type := .mcp,
       config := [("serverId", .str "github"), ("toolName", .str "search_issues")] },
     { id := "label", type := .mcp,
       config := [("serverId", .str "github"), ("toolName", .str "github_label")] },
     { id := "notify", type := .httpRequest },
     { id := "notify-team", type := .httpRequest }]

theorem issues_share_search : (issues.nodes.map (·.id)).Nodup ∧ (∀ n ∈ issues.nodes, Legible n) ∧
    SharesRightly issues ∧ ∃ n, n.id = "again" ∧ LeftOut issues 1 n := by
  obtain ⟨-, -, left, -, rightly⟩ := tools_shared_where_merged issues
  have distinct : (issues.nodes.map (·.id)).Nodup := by decide
  have legible : ∀ n ∈ issues.nodes, Legible n := by decide
  exact ⟨distinct, legible, rightly distinct legible, _, rfl,
    (left 1 _).mpr ⟨rfl, 0, by decide, _, rfl, .mcp rfl rfl rfl⟩⟩

/-- Two servers and two requests, none of which is called twice. -/
def repositories : Workflow where
  id := "repositories"
  name := "Repositories"
  version := Workflow.formatVersion
  createdAt := ""
  updatedAt := ""
  nodes :=
    [{ id := "begin", type := .start },
     { id := "search", type := .mcp,
       config := [("serverId", .str "gh"), ("toolName", .str "api_search")] },
     { id := "find", type := .mcp,
       config := [("serverId", .str "gh_api"), ("toolName", .str "search")] },
     { id := "get.user", type := .httpRequest },
     { id := "get_user", type := .httpRequest },
     { id := "done", type := .stop }]
  edges :=
    [{ id := "1", source := "begin", target := "search" },
     { id := "2", source := "search", target := "find" },
     { id := "3", source := "find", target := "get.user" },
     { id := "4", source := "get.user", target := "get_user" },
     { id := "5", source := "get_user", target := "done" }]

/-- The tools of a second server and of a second request are left out. -/
theorem different_calls_left_out :
    (repositories.nodes.Pairwise fun m n => ¬CallsSame m n) ∧
    (∃ n, n.id = "find" ∧ LeftOut repositories 2 n) ∧
    (∃ n, n.id = "get_user" ∧ LeftOut repositories 4 n) ∧ ¬SharesRightly repositories := by
  have find : ∃ n, n.id = "find" ∧ LeftOut repositories 2 n :=
    ⟨_, rfl, leftOut_iff.mpr ⟨rfl, 1, by decide, _, rfl, .mcp rfl rfl (by decide)⟩⟩
  have user : ∃ n, n.id = "get_user" ∧ LeftOut repositories 4 n :=
    ⟨_, rfl, leftOut_iff.mpr ⟨rfl, 3, by decide, _, rfl, .request rfl rfl (by decide)⟩⟩
  refine ⟨by decide, find, user, ?_⟩
  intro rightly
  have same := rightly.callsSame 2 (by decide : 1 < 2) rfl rfl (.mcp rfl rfl (by decide))
  exact absurd same (by decide)

end Flowgraph.Assistant
