import Flowgraph.Emit.Assistant
import Flowgraph.Proofs.State.RefGrammar
import Flowgraph.Proofs.Text.Runs
import Mathlib.Data.Nat.Find

/-!
# The tools of an assistant

Every tool of an assistant has a name of its own, made of the characters that a function may be
called by. A name that nodes call has one tool, that of the first of them, and the tools stand in
the order of these nodes. That nodes which call one name call one tool is not said here.
-/
namespace Flowgraph.Assistant

/-- One to 64 ASCII letters, digits, underscores and hyphens. -/
def IsToolName (s : String) : Prop :=
  1 ≤ s.length ∧ s.length ≤ 64 ∧ ∀ c ∈ s.toList, StateRef.IsNameChar c

/-- The nodes that have a tool. -/
def Calls (n : Node) : Prop :=
  n.type = .mcp ∨ n.type = .httpRequest

instance (n : Node) : Decidable (Calls n) :=
  inferInstanceAs (Decidable (_ ∨ _))

/-- A tool declares a function by its name. -/
def Declares (tool : Json) (name : String) : Prop :=
  ∃ f, tool.item "function" = .ok f ∧ f.item "name" = .ok (.str name)

/-- The node at a place calls a tool, and no node before it calls one of the same name. -/
structure FirstCall (nodes : List Node) (k : Nat) (n : Node) : Prop where
  here : nodes[k]? = some n
  calls : Calls n
  fresh : ∀ j < k, ∀ m, nodes[j]? = some m → Calls m → toolName m ≠ toolName n

/-- Tools for the calls of nodes: their names are distinct and well-formed, each name that is
called is declared once, by the tool of its first caller, and the tools are those of the first
callers in their order. -/
structure CoversCalls (nodes : List Node) (tools : List Json) : Prop where
  named : ∃ names, List.Forall₂ Declares tools names ∧ names.Nodup ∧ ∀ s ∈ names, IsToolName s
  covered : ∀ n ∈ nodes, Calls n → ∃ k first, FirstCall nodes k first ∧
    toolName first = toolName n ∧ ∃ p : Nat, tools[p]? = some (toolFor first) ∧
      ∀ (q : Nat) (tool : Json), tools[q]? = some tool → Declares tool (toolName n) → q = p
  ordered : ∃ places : List Nat, places.Pairwise (· < ·) ∧
    (∀ k, k ∈ places ↔ ∃ n, FirstCall nodes k n) ∧
    List.Forall₂ (fun k tool => ∃ n, nodes[k]? = some n ∧ tool = toolFor n) places tools

variable {c : Char} {l nodes : List Node} {m n : Node} {k : Nat}

/-! ## Names -/

theorem isNameChar_iff (c : Char) : isNameChar c = true ↔ StateRef.IsNameChar c := by
  have same : isNameChar c = StateRef.isSegmentChar c := rfl
  rw [same, StateRef.isSegmentChar_iff]

/-- The characters of a name before it is cut. -/
def nameChars (parts : List String) : List Char :=
  Text.trimBy (· == '_')
    (Text.replaceRuns isNameChar '_' ("_".intercalate (parts.filter (!·.isEmpty))).toList)

theorem functionName_eq (parts : List String) : functionName parts =
    if nameChars parts = [] then "tool" else String.ofList ((nameChars parts).take 64) := by
  unfold functionName
  dsimp only
  split
  · rename_i none
    exact (if_pos none).symm
  · rename_i some
    exact (if_neg some).symm

theorem isNameChar_of_mem_nameChars {parts : List String} (member : c ∈ nameChars parts) :
    isNameChar c = true := by
  rcases Text.mem_replaceRuns (Text.mem_of_mem_trimBy member) with kept | rfl
  · exact kept
  · decide

theorem isToolName_functionName (parts : List String) : IsToolName (functionName parts) := by
  rw [functionName_eq]
  split
  · have plain : "tool".toList.all isNameChar = true := by decide
    exact ⟨by decide, by decide,
      fun c member => (isNameChar_iff c).mp (List.all_eq_true.mp plain c member)⟩
  · rename_i some
    have long : 0 < (nameChars parts).length := List.length_pos_of_ne_nil some
    refine ⟨?_, ?_, ?_⟩
    · rw [String.length_ofList, List.length_take]
      omega
    · rw [String.length_ofList, List.length_take]
      omega
    · intro c member
      rw [String.toList_ofList] at member
      exact (isNameChar_iff c).mp (isNameChar_of_mem_nameChars (List.mem_of_mem_take member))

theorem isToolName_toolName (n : Node) : IsToolName (toolName n) := by
  unfold toolName
  split <;> exact isToolName_functionName _

/-! ## Tools -/

theorem callsTool_iff (n : Node) : callsTool n = true ↔ Calls n := by
  simp [callsTool, Calls]

theorem declares_toolFor (n : Node) (name : String) :
    Declares (toolFor n) name ↔ name = toolName n := by
  have own (description : String) (parameters : Fields) :
      Declares (functionTool (toolName n) description parameters) name ↔ name = toolName n := by
    constructor
    · rintro ⟨f, function, named⟩
      cases function
      cases named
      rfl
    · rintro rfl
      exact ⟨_, rfl, rfl⟩
  unfold toolFor
  split <;> exact own _ _

/-- A node calls a tool by a name that is neither known nor called before. -/
def Brings (seen : List String) (before : List Node) (n : Node) : Prop :=
  Calls n ∧ toolName n ∉ seen ∧ ∀ m ∈ before, Calls m → toolName m ≠ toolName n

instance (seen : List String) (before : List Node) (n : Node) : Decidable (Brings seen before n) :=
  inferInstanceAs (Decidable (_ ∧ _ ∧ _))

theorem brings_listed {seen : List String} (calls : Calls m) :
    Brings (toolName m :: seen) l n ↔ Brings seen (m :: l) n := by
  have other : ¬toolName n = toolName m ↔ (Calls m → toolName m ≠ toolName n) :=
    ⟨fun other _ => Ne.symm other, fun other => (other calls).symm⟩
  rw [Brings, Brings, List.mem_cons, not_or, List.forall_mem_cons, other]
  tauto

theorem brings_skipped {seen : List String} (skipped : ¬(Calls m ∧ toolName m ∉ seen)) :
    Brings seen l n ↔ Brings seen (m :: l) n := by
  have other : toolName n ∉ seen → Calls m → toolName m ≠ toolName n := by
    intro unknown calls same
    exact skipped ⟨calls, same ▸ unknown⟩
  rw [Brings, Brings, List.forall_mem_cons]
  tauto

/-- The last node is listed if it brings a name. -/
theorem toolNodes_concat (seen : List String) (l : List Node) (n : Node) :
    toolNodes seen (l ++ [n]) = toolNodes seen l ++ if Brings seen l n then [n] else [] := by
  induction l generalizing seen with
  | nil =>
    by_cases h : Calls n ∧ toolName n ∉ seen <;> simp [toolNodes, Brings, callsTool_iff, h]
  | cons m l ih =>
    have listed : (callsTool m && !seen.contains (toolName m)) = true ↔
        Calls m ∧ toolName m ∉ seen := by simp [callsTool_iff]
    rw [List.cons_append, toolNodes, toolNodes, ih, ih]
    by_cases h : Calls m ∧ toolName m ∉ seen
    · rw [if_pos (listed.mpr h), if_pos (listed.mpr h), if_congr (brings_listed h.1) rfl rfl,
        List.cons_append]
    · rw [if_neg (mt listed.mp h), if_neg (mt listed.mp h), if_congr (brings_skipped h) rfl rfl]

/-! ## First callers -/

theorem FirstCall.lt_length (first : FirstCall nodes k n) : k < nodes.length :=
  (List.getElem?_eq_some_iff.mp first.here).1

theorem firstCall_concat :
    FirstCall (l ++ [n]) k m ↔ FirstCall l k m ∨ k = l.length ∧ m = n ∧ Brings [] l n := by
  have before {j : Nat} (less : j < l.length) : (l ++ [n])[j]? = l[j]? :=
    List.getElem?_append_left less
  constructor
  · intro first
    by_cases inside : k < l.length
    · refine .inl ⟨by rw [← before inside, first.here], first.calls, ?_⟩
      intro j less x here calls
      exact first.fresh j less x (by rw [before (by omega), here]) calls
    · have here := first.here
      rw [List.getElem?_append_right (by omega)] at here
      have last : k - l.length = 0 := by
        have bound := (List.getElem?_eq_some_iff.mp here).1
        rw [List.length_singleton] at bound
        omega
      rw [last] at here
      obtain rfl := Option.some.inj here
      refine .inr ⟨by omega, rfl, first.calls, List.not_mem_nil, ?_⟩
      intro x member calls
      obtain ⟨j, found⟩ := List.mem_iff_getElem?.mp member
      have bound := (List.getElem?_eq_some_iff.mp found).1
      exact first.fresh j (by omega) x (by rw [before bound, found]) calls
  · rintro (first | ⟨rfl, rfl, calls, -, fresh⟩)
    · have inside := (List.getElem?_eq_some_iff.mp first.here).1
      refine ⟨by rw [before inside, first.here], first.calls, ?_⟩
      intro j less x here calls
      exact first.fresh j less x (by rw [← before (by omega), here]) calls
    · refine ⟨by simp, calls, ?_⟩
      intro j less x here calls
      rw [before less] at here
      exact fresh x (List.mem_of_getElem? here) calls

/-- Whoever calls a tool, someone is the first to call one of this name. -/
theorem exists_firstCall (member : n ∈ nodes) (calls : Calls n) :
    ∃ k first, FirstCall nodes k first ∧ toolName first = toolName n := by
  classical
  obtain ⟨j, found⟩ := List.mem_iff_getElem?.mp member
  have caller : ∃ k m, nodes[k]? = some m ∧ Calls m ∧ toolName m = toolName n :=
    ⟨j, n, found, calls, rfl⟩
  obtain ⟨first, here, calls, same⟩ := Nat.find_spec caller
  refine ⟨Nat.find caller, first, ⟨here, calls, ?_⟩, same⟩
  intro i less m earlier calls repeated
  exact Nat.find_min caller less ⟨m, earlier, calls, repeated.trans same⟩

/-- The nodes whose tools are listed are the first callers. -/
theorem mem_toolNodes : n ∈ toolNodes [] nodes ↔ ∃ k, FirstCall nodes k n := by
  induction nodes using List.reverseRecOn with
  | nil =>
    refine ⟨fun member => absurd member List.not_mem_nil, ?_⟩
    rintro ⟨k, first⟩
    exact absurd first.lt_length (Nat.not_lt_zero k)
  | append_singleton l last ih =>
    rw [toolNodes_concat, List.mem_append, ih]
    simp only [firstCall_concat, exists_or, exists_eq_left]
    split <;> simp [*]

/-- They are listed in their order. -/
theorem exists_places (nodes : List Node) : ∃ places : List Nat, places.Pairwise (· < ·) ∧
    (∀ k, k ∈ places ↔ ∃ n, FirstCall nodes k n) ∧
    List.Forall₂ (fun k n => nodes[k]? = some n) places (toolNodes [] nodes) := by
  induction nodes using List.reverseRecOn with
  | nil =>
    refine ⟨[], .nil, fun k => ⟨fun member => absurd member List.not_mem_nil, ?_⟩, .nil⟩
    rintro ⟨n, first⟩
    exact absurd first.lt_length (Nat.not_lt_zero k)
  | append_singleton l n ih =>
    obtain ⟨places, ascending, firsts, found⟩ := ih
    have inside : ∀ k ∈ places, k < l.length := by
      intro k member
      obtain ⟨m, first⟩ := (firsts k).mp member
      exact first.lt_length
    have still : List.Forall₂ (fun k m => (l ++ [n])[k]? = some m) places (toolNodes [] l) := by
      refine List.Forall₂.imp ?_ found
      intro k m here
      rw [List.getElem?_append_left (List.getElem?_eq_some_iff.mp here).1, here]
    have earlier (k : Nat) : (∃ m, FirstCall (l ++ [n]) k m) ↔
        k ∈ places ∨ k = l.length ∧ Brings [] l n := by
      simp only [firstCall_concat, exists_or, firsts k]
      exact or_congr_right ⟨fun ⟨_, last, _, brings⟩ => ⟨last, brings⟩,
        fun ⟨last, brings⟩ => ⟨n, last, rfl, brings⟩⟩
    rw [toolNodes_concat]
    by_cases brings : Brings [] l n
    · refine ⟨places ++ [l.length], ?_, ?_, ?_⟩
      · exact List.pairwise_append.mpr ⟨ascending, List.pairwise_singleton _ _,
          fun k member j last => List.mem_singleton.mp last ▸ inside k member⟩
      · intro k
        rw [earlier, List.mem_append, List.mem_singleton, and_iff_left brings]
      · rw [if_pos brings]
        exact List.rel_append still (.cons (by simp) .nil)
    · refine ⟨places, ascending, ?_, ?_⟩
      · intro k
        rw [earlier, or_iff_left (fun last => brings last.2)]
      · rw [if_neg brings, List.append_nil]
        exact still

/-- No two tools have one name. -/
theorem nodup_toolNames (nodes : List Node) : ((toolNodes [] nodes).map toolName).Nodup := by
  induction nodes using List.reverseRecOn with
  | nil => exact List.nodup_nil
  | append_singleton l n ih =>
    rw [toolNodes_concat]
    split
    · rename_i brings
      rw [List.map_append, List.nodup_append]
      refine ⟨ih, List.pairwise_singleton _ _, ?_⟩
      intro name member other last
      obtain ⟨m, listed, rfl⟩ := List.mem_map.mp member
      obtain ⟨k, first⟩ := mem_toolNodes.mp listed
      rw [List.map_singleton, List.mem_singleton] at last
      rw [last]
      exact brings.2.2 m (List.mem_of_getElem? first.here) first.calls
    · rwa [List.append_nil]

/-! ## The list of tools -/

theorem functionTools_eq (w : Workflow) : functionTools w = (toolNodes [] w.nodes).map toolFor :=
  rfl

/-- The tools of an assistant have distinct names, one for each name that a node calls, and come
from the first callers of these names in their order. -/
theorem function_tools_cover (w : Workflow) : CoversCalls w.nodes (functionTools w) := by
  obtain ⟨places, ascending, firsts, found⟩ := exists_places w.nodes
  have declared : List.Forall₂ Declares (functionTools w)
      ((toolNodes [] w.nodes).map toolName) := by
    rw [functionTools_eq, List.forall₂_map_left_iff, List.forall₂_map_right_iff, List.forall₂_same]
    exact fun n _ => (declares_toolFor n _).mpr rfl
  constructor
  · refine ⟨_, declared, nodup_toolNames w.nodes, ?_⟩
    intro name member
    obtain ⟨n, -, rfl⟩ := List.mem_map.mp member
    exact isToolName_toolName n
  · intro n member calls
    obtain ⟨k, first, fresh, same⟩ := exists_firstCall member calls
    obtain ⟨p, listed⟩ := List.mem_iff_getElem?.mp (mem_toolNodes.mpr ⟨k, fresh⟩)
    refine ⟨k, first, fresh, same, p, ?_, ?_⟩
    · rw [functionTools_eq, List.getElem?_map, listed, Option.map_some]
    · intro q tool other declares
      rw [functionTools_eq, List.getElem?_map, Option.map_eq_some_iff] at other
      obtain ⟨m, found, rfl⟩ := other
      have repeated : toolName n = toolName m := (declares_toolFor m _).mp declares
      refine (List.getElem?_inj ?_ (nodup_toolNames w.nodes)).mp ?_
      · rw [List.length_map]
        exact (List.getElem?_eq_some_iff.mp found).1
      · rw [List.getElem?_map, List.getElem?_map, found, listed, Option.map_some, Option.map_some,
          same, repeated]
  · refine ⟨places, ascending, firsts, ?_⟩
    rw [functionTools_eq, List.forall₂_map_right_iff]
    exact found.imp fun k n here => ⟨n, here, rfl⟩

end Flowgraph.Assistant
