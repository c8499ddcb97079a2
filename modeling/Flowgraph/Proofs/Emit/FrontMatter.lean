import Flowgraph.Emit.Emitter
import Flowgraph.Proofs.Text.Parts

/-!
# The front matter of a command

A command begins with two lines between rules: the name of the workflow and, joined by
commas, the tools that it may use. Who reads the file splits these lines again. What was
decided is read back exactly where the name has no line break and where the servers and
tools that are called have neither a line break nor a comma, since nothing of a workflow is
escaped on the way.
-/
namespace Flowgraph

namespace Text

variable {s : String}

/-- The lines between the first line of three dashes and the next one. -/
def frontMatter (s : String) : Option (List String) :=
  match (parts '\n' s).dropWhile (· != "---") with
  | [] => none
  | _ :: rest =>
    if rest.contains "---" then some (rest.takeWhile (· != "---")) else none

/-- No line of the front matter has a line break in it. -/
theorem not_mem_of_mem_frontMatter {lines : List String} (found : frontMatter s = some lines)
    {line : String} (member : line ∈ lines) : '\n' ∉ line.toList := by
  unfold frontMatter at found
  split at found
  · cases found
  · rename_i rule rest begins
    split at found
    · obtain rfl := Option.some.inj found
      have inRest : line ∈ rest := (List.takeWhile_prefix _).subset member
      have behind : line ∈ (parts '\n' s).dropWhile (· != "---") :=
        begins ▸ List.mem_cons_of_mem rule inRest
      exact not_mem_of_mem_parts ((List.dropWhile_suffix _).subset behind)
    · cases found

end Text

namespace Command

/-- The front matter of a text states the name of a workflow, the tools that were decided on
for it, and nothing else. -/
def StatesDecided (w : Workflow) (content : String) : Prop :=
  ∃ tools, Text.frontMatter content =
      some ["description: Execute workflow " ++ w.name, "allowed-tools: " ++ tools] ∧
    Text.parts ',' tools = allowedTools w

/-- A character is in no text that names a tool of the workflow. -/
def Unused (c : Char) (w : Workflow) : Prop :=
  ∀ n ∈ w.nodes, n.type = .mcp →
    c ∉ (shownOr n "serverId" "server").toList ∧ c ∉ (shownOr n "toolName" "tool").toList

variable {w : Workflow} {c : Char} {t : String}

/-! ## The tools -/

theorem mem_allowedTools_iff :
    t ∈ allowedTools w ↔ t = "Task" ∨ ∃ n ∈ w.nodes, toolOf? n = some t := by
  rw [allowedTools, List.mem_eraseDups, List.mem_cons, List.mem_filterMap]

theorem allowedTools_ne_nil (w : Workflow) : allowedTools w ≠ [] :=
  List.ne_nil_of_mem (mem_allowedTools_iff.mpr (.inl rfl))

theorem mem_toolOf?_mcp_iff {n : Node} (mcp : n.type = .mcp) (fixed : c ∉ "mcp__".toList) :
    (∃ t, toolOf? n = some t ∧ c ∈ t.toList) ↔
      c ∈ (shownOr n "serverId" "server").toList ∨ c ∈ (shownOr n "toolName" "tool").toList := by
  have joint : c ∉ "__".toList := fun inside =>
    fixed ((by decide : "__".toList ⊆ "mcp__".toList) inside)
  simp only [toolOf?, mcp, Option.some.injEq, exists_eq_left', String.toList_append,
    List.mem_append, fixed, joint, false_or, or_false]

/-- Only the servers and tools of a workflow can bring a separator into the tools. -/
theorem unused_iff (fixed : ∀ t ∈ ["Task", "AskUserQuestion", "WebFetch", "mcp__"], c ∉ t.toList) :
    (∀ t ∈ allowedTools w, c ∉ t.toList) ↔ Unused c w := by
  simp only [List.forall_mem_cons] at fixed
  obtain ⟨task, question, fetch, mcp, _⟩ := fixed
  constructor
  · intro plain n member type
    rw [← not_or, ← mem_toolOf?_mcp_iff type mcp]
    rintro ⟨t, needed, inside⟩
    exact plain t (mem_allowedTools_iff.mpr (.inr ⟨n, member, needed⟩)) inside
  · intro unused t member inside
    rcases mem_allowedTools_iff.mp member with rfl | ⟨n, member, needed⟩
    · exact task inside
    · by_cases type : n.type = .mcp
      · have none := unused n member type
        rw [← not_or, ← mem_toolOf?_mcp_iff type mcp] at none
        exact none ⟨t, needed, inside⟩
      · unfold toolOf? at needed
        split at needed
        · obtain rfl := Option.some.inj needed
          exact question inside
        · obtain rfl := Option.some.inj needed
          exact fetch inside
        · exact type ‹_›
        · cases needed

/-! ## The front matter -/

/-- The lines of two texts between rules are the front matter, unless one is a rule, too. -/
theorem frontMatter_ruled {a b : String}
    (unruled : "---" ∉ Text.parts '\n' a ++ Text.parts '\n' b) (next : String)
    (rest : List String) :
    Text.frontMatter ("\n".intercalate ("---" :: a :: b :: "---" :: next :: rest)) =
      some (Text.parts '\n' a ++ Text.parts '\n' b) := by
  have single : "\n".toList = ['\n'] := by decide
  have rule : Text.parts '\n' "---" = ["---"] := Text.parts_eq_singleton (by decide)
  have keep : ∀ line ∈ Text.parts '\n' a ++ Text.parts '\n' b, (line != "---") = true := by
    intro line member
    rw [bne_iff_ne]
    exact fun same => unruled (same ▸ member)
  rw [Text.frontMatter, Text.parts_intercalate_cons single, Text.parts_intercalate_cons single,
    Text.parts_intercalate_cons single, Text.parts_intercalate_cons single, rule,
    List.singleton_append, List.singleton_append, ← List.append_assoc]
  generalize Text.parts '\n' a ++ Text.parts '\n' b = lines at keep
  rw [List.dropWhile_cons_of_neg (by decide)]
  dsimp only
  rw [if_pos (by simp), List.takeWhile_append_of_pos keep, List.takeWhile_cons_of_neg (by decide),
    List.append_nil]

/-- The first lines of a command. -/
theorem lines_eq (i : EmitInput) : ∃ rest, lines i =
    "---" :: ("description: Execute workflow " ++ i.workflow.name) ::
      ("allowed-tools: " ++ ",".intercalate (allowedTools i.workflow)) :: "---" :: "" :: rest := by
  unfold lines
  exact ⟨_, rfl⟩

theorem frontMatter_file (i : EmitInput) {a b : String}
    (first : a = "description: Execute workflow " ++ i.workflow.name)
    (second : b = "allowed-tools: " ++ ",".intercalate (allowedTools i.workflow))
    (unruled : "---" ∉ Text.parts '\n' a ++ Text.parts '\n' b) :
    Text.frontMatter (file i).content = some (Text.parts '\n' a ++ Text.parts '\n' b) := by
  obtain ⟨rest, split⟩ := lines_eq i
  unfold file
  dsimp only
  rw [split, ← first, ← second]
  exact frontMatter_ruled unruled "" rest

/-- A line with a key is no rule. -/
theorem keyed_ne_rule (rest : String) :
    "---" ≠ "description: Execute workflow " ++ rest ∧ "---" ≠ "allowed-tools: " ++ rest := by
  constructor <;>
  · intro same
    have first := congrArg (fun s => s.toList.head?) same
    simp at first

/-- What has no separator in it can be read back. -/
theorem statesDecided_file {i : EmitInput} (name : '\n' ∉ i.workflow.name.toList)
    (plain : ∀ t ∈ allowedTools i.workflow, '\n' ∉ t.toList ∧ ',' ∉ t.toList) :
    StatesDecided i.workflow (file i).content := by
  have described : '\n' ∉ ("description: Execute workflow " ++ i.workflow.name).toList := by
    rw [String.toList_append, List.mem_append]
    exact fun inside => inside.elim (by decide) name
  have allowed :
      '\n' ∉ ("allowed-tools: " ++ ",".intercalate (allowedTools i.workflow)).toList := by
    rw [String.toList_append, List.mem_append]
    refine fun inside => inside.elim (by decide) fun inside => ?_
    rcases Text.mem_intercalate inside with inside | ⟨t, member, inside⟩
    · exact absurd inside (by decide)
    · exact (plain t member).1 inside
  have found := frontMatter_file i rfl rfl
  rw [Text.parts_eq_singleton described, Text.parts_eq_singleton allowed] at found
  have single : ",".toList = [','] := by decide
  refine ⟨",".intercalate (allowedTools i.workflow), found ?_, ?_⟩
  · rw [List.singleton_append, List.mem_pair]
    exact fun rule => rule.elim (keyed_ne_rule _).1 (keyed_ne_rule _).2
  · exact Text.parts_intercalate single (allowedTools_ne_nil i.workflow) fun t member =>
      (plain t member).2

/-- What can be read back has no separator in it. -/
theorem StatesDecided.plain {content : String} (states : StatesDecided w content) :
    '\n' ∉ w.name.toList ∧
      ∀ t ∈ allowedTools w, '\n' ∉ t.toList ∧ ',' ∉ t.toList := by
  obtain ⟨tools, found, split⟩ := states
  have line {l : String} (member : l ∈ ["description: Execute workflow " ++ w.name,
      "allowed-tools: " ++ tools]) : '\n' ∉ l.toList :=
    Text.not_mem_of_mem_frontMatter found member
  have described := line List.mem_cons_self
  have allowed := line (List.mem_cons_of_mem _ List.mem_cons_self)
  rw [String.toList_append, List.mem_append, not_or] at described allowed
  refine ⟨described.2, fun t member => ?_⟩
  rw [← split] at member
  exact ⟨fun inside => allowed.2 (Text.mem_of_mem_parts member inside).2,
    Text.not_mem_of_mem_parts member⟩

/-- A command states what was decided exactly where the name of the workflow is one line and
the servers and tools have neither a line break nor a comma. -/
theorem command_states_decided_iff (i : EmitInput) :
    ∃ o f, Emitter.command.emit i = .ok o ∧ o.files = [f] ∧ o.preview = f.content ∧
      (StatesDecided i.workflow f.content ↔
        '\n' ∉ i.workflow.name.toList ∧ Unused '\n' i.workflow ∧ Unused ',' i.workflow) := by
  have single (f : OutputFile) : (Emitter.command.single i f).files = [f] ∧
      (Emitter.command.single i f).preview = f.content := ⟨rfl, rfl⟩
  refine ⟨_, file i, rfl, (single _).1, (single _).2, ?_⟩
  have breaks := unused_iff (w := i.workflow) (c := '\n') (by decide)
  have commas := unused_iff (w := i.workflow) (c := ',') (by decide)
  rw [← breaks, ← commas]
  constructor
  · intro states
    obtain ⟨name, plain⟩ := states.plain
    exact ⟨name, fun t member => (plain t member).1, fun t member => (plain t member).2⟩
  · rintro ⟨name, breaks, commas⟩
    exact statesDecided_file name fun t member => ⟨breaks t member, commas t member⟩

/-- A search on a server; the tool that is called, and the name of the workflow, are given. -/
def searching (name tool : String) : EmitInput where
  workflow :=
    { id := "searching"
      name
      version := Workflow.formatVersion
      createdAt := ""
      updatedAt := ""
      nodes :=
        [{ id := "begin", type := .start },
         { id := "find", type := .mcp,
           config := [("serverId", .str "gh"), ("toolName", .str tool)] },
         { id := "done", type := .stop }]
      edges :=
        [{ id := "1", source := "begin", target := "find" },
         { id := "2", source := "find", target := "done" }] }
  model :=
    { id := "m", displayName := "M", provider := "p", capabilities := ⟨true, true, true, 1, .xml⟩ }

/-- A comma in the name of a tool allows another tool, and a line break in the name of the
workflow adds a line. -/
theorem tool_and_line_added :
    (∃ o f, Emitter.command.emit (searching "Search" "search,Bash") = .ok o ∧ o.files = [f] ∧
      allowedTools (searching "Search" "search,Bash").workflow = ["Task", "mcp__gh__search,Bash"] ∧
      Text.frontMatter f.content = some ["description: Execute workflow Search",
        "allowed-tools: Task,mcp__gh__search,Bash"] ∧
      Text.parts ',' "Task,mcp__gh__search,Bash" = ["Task", "mcp__gh__search", "Bash"] ∧
      ¬StatesDecided (searching "Search" "search,Bash").workflow f.content) ∧
    ∃ o f, Emitter.command.emit (searching "Search\nallowed-tools: Bash" "search") = .ok o ∧
      o.files = [f] ∧
      Text.frontMatter f.content = some ["description: Execute workflow Search",
        "allowed-tools: Bash", "allowed-tools: Task,mcp__gh__search"] ∧
      ¬StatesDecided (searching "Search\nallowed-tools: Bash" "search").workflow f.content := by
  refine ⟨⟨_, file (searching "Search" "search,Bash"), rfl, rfl, by decide,
      (frontMatter_file _ rfl rfl (by decide)).trans (by decide), by decide, ?_⟩,
    _, file (searching "Search\nallowed-tools: Bash" "search"), rfl, rfl,
      (frontMatter_file _ rfl rfl (by decide)).trans (by decide), ?_⟩
  · intro states
    have plain := (states.plain.2 "mcp__gh__search,Bash" (by decide)).2
    exact plain (by decide)
  · intro states
    exact states.plain.1 (by decide)

end Command
end Flowgraph
