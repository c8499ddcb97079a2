import Flowgraph.Pattern.Reader
import Flowgraph.Proofs.Routing
import Mathlib.Data.List.Infix

/-!
# The edge that is followed

Guarded edges are tried in their order until a guard holds or cannot be decided. Unguarded
edges are passed over, and the first of them is followed where no guard holds. In a state of
JSON values a guard cannot be decided only where it looks for a text that is no pattern. So it
does not matter where the unguarded edges stand among the others.

A pattern is prepared first and then looked for; how this is done is a parameter. A pattern is
refused in one way only, with the reason that the guard tells, and a pattern that was prepared
comes to an answer in every text. Nothing is said of what a pattern finds.
-/
namespace Flowgraph

/-- Prepares a pattern to be looked for in texts, or says why a text is no pattern. This is the
one way in which an engine refuses; one that also fails otherwise, say at a repeat count beyond
its range, is assumed not to be met. -/
abbrev PatternEngine := String → Except String (String → Bool)

def PatternEngine.search (engine : PatternEngine) : PatternSearch :=
  fun pattern text => (engine pattern).map (· text)

/-- The patterns of this library. -/
def Pattern.engine : PatternEngine := fun pattern =>
  ((Pattern.read pattern).mapError (PatternError.message pattern)).map Pattern.occursIn

/-! ## Guards -/

namespace Condition

/-- The text that an operand is compared as: that of the value at a reference, null where
nothing is there, and its own text where it is no reference. -/
inductive ComparedAs (s : Store) (v : Json) : String → Prop
  | place {r : StateRef} {w : Json} (ref : StateRef.read v = .ok r)
      (held : s.read r .null = .ok w) : ComparedAs s v w.comparisonText
  | own (literal : StateRef.isRef v = false) : ComparedAs s v v.comparisonText

/-- What a guard asks of the texts of its operands. -/
inductive Satisfied (engine : PatternEngine) (s : Store) : Condition → Prop
  | eq {left right : Json} {t : String} (first : ComparedAs s left t)
      (second : ComparedAs s right t) : Satisfied engine s ⟨.eq, left, right⟩
  | neq {left right : Json} {t u : String} (first : ComparedAs s left t)
      (second : ComparedAs s right u) (differ : t ≠ u) : Satisfied engine s ⟨.neq, left, right⟩
  | contains {left right : Json} {t u : String} (first : ComparedAs s left t)
      (second : ComparedAs s right u) (part : u.toList <:+: t.toList) :
      Satisfied engine s ⟨.contains, left, right⟩
  | regex {left right : Json} {t u : String} {finds : String → Bool}
      (first : ComparedAs s left t) (second : ComparedAs s right u)
      (pattern : engine u = .ok finds) (found : finds t = true) :
      Satisfied engine s ⟨.regex, left, right⟩

/-- A guard looks for a text that is no pattern. -/
inductive Malformed (engine : PatternEngine) (s : Store) : Condition → Fault → Prop
  | regex {left right : Json} {u reason : String} (second : ComparedAs s right u)
      (refused : engine u = .error reason) :
      Malformed engine s ⟨.regex, left, right⟩ (.invalidPattern (Text.quote u) reason)

variable {engine : PatternEngine} {s : Store} {v left right : Json} {t u : String} {c : Condition}

theorem comparedAs_iff : ComparedAs s v t ↔ ∃ w, operand s v = .ok w ∧ w.comparisonText = t := by
  constructor
  · rintro (⟨ref, held⟩ | literal)
    · exact ⟨_, (operand_of_read ref s).trans held, rfl⟩
    · refine ⟨v, ?_, rfl⟩
      rw [operand, if_neg (by simp [literal])]
  · rintro ⟨w, found, rfl⟩
    by_cases ref : StateRef.isRef v = true
    · obtain ⟨r, read⟩ := StateRef.exists_read_of_isRef ref
      exact .place read ((operand_of_read read s).symm.trans found)
    · rw [operand, if_neg ref] at found
      cases found
      exact .own (Bool.of_not_eq_true ref)

theorem ComparedAs.unique (first : ComparedAs s v t) (second : ComparedAs s v u) : t = u := by
  obtain ⟨w, found, rfl⟩ := comparedAs_iff.mp first
  obtain ⟨w', found', rfl⟩ := comparedAs_iff.mp second
  rw [Except.ok.inj (found.symm.trans found')]

theorem exists_comparedAs (json : s.HoldsJson) (v : Json) : ∃ t, ComparedAs s v t := by
  obtain ⟨w, found⟩ := operand_ok json v
  exact ⟨_, comparedAs_iff.mpr ⟨w, found, rfl⟩⟩

theorem holds_of_texts (search : PatternSearch) (guarded : c.op ≠ .always)
    (first : ComparedAs s c.left t) (second : ComparedAs s c.right u) :
    c.holds search s = compare search c.op t u := by
  obtain ⟨v, left, rfl⟩ := comparedAs_iff.mp first
  obtain ⟨w, right, rfl⟩ := comparedAs_iff.mp second
  simp only [holds, if_neg guarded, left, right]
  rfl

theorem satisfied_iff_compare {op : ConditionOp} (guarded : op ≠ .always)
    (first : ComparedAs s left t) (second : ComparedAs s right u) :
    Satisfied engine s ⟨op, left, right⟩ ↔ compare engine.search op t u = .ok true := by
  constructor
  · rintro (⟨left, right⟩ | ⟨left, right, differ⟩ | ⟨left, right, part⟩ |
      ⟨left, right, pattern, found⟩) <;>
      obtain rfl := first.unique left <;> obtain rfl := second.unique right
    · simp [compare]
    · simpa [compare] using differ
    · simpa [compare, Text.occursIn_iff] using part
    · simp [compare, PatternEngine.search, pattern, found, Except.map]
  · intro compared
    cases op with
    | always => exact False.elim (guarded rfl)
    | eq =>
      obtain rfl : t = u := by simpa [compare] using compared
      exact .eq first second
    | neq => exact .neq first second (by simpa [compare] using compared)
    | contains =>
      exact .contains first second (by simpa [compare, Text.occursIn_iff] using compared)
    | regex =>
      cases pattern : engine u with
      | error reason => simp [compare, PatternEngine.search, pattern, Except.map] at compared
      | ok finds =>
        have found : finds t = true := by
          simpa [compare, PatternEngine.search, pattern, Except.map] using compared
        exact .regex first second pattern found

theorem malformed_iff_compare {op : ConditionOp} {fault : Fault}
    (second : ComparedAs s right u) :
    Malformed engine s ⟨op, left, right⟩ fault ↔
      compare engine.search op t u = .error fault := by
  constructor
  · rintro ⟨right, refused⟩
    obtain rfl := second.unique right
    simp [compare, PatternEngine.search, refused, Except.map]
  · intro compared
    cases op with
    | always | eq | neq | contains => cases compared
    | regex =>
      cases pattern : engine u with
      | ok finds => simp [compare, PatternEngine.search, pattern, Except.map] at compared
      | error reason =>
        simp only [compare, PatternEngine.search, pattern, Except.map] at compared
        cases compared
        exact .regex second pattern

theorem not_satisfied_of_always (unguarded : c.op = .always) : ¬Satisfied engine s c := by
  rintro ⟨⟩ <;> cases unguarded

theorem satisfied_iff (json : s.HoldsJson) (guarded : c.op ≠ .always) :
    c.Satisfied engine s ↔ c.holds engine.search s = .ok true := by
  obtain ⟨t, first⟩ := exists_comparedAs json c.left
  obtain ⟨u, second⟩ := exists_comparedAs json c.right
  rw [holds_of_texts _ guarded first second]
  exact satisfied_iff_compare guarded first second

theorem malformed_iff (json : s.HoldsJson) {fault : Fault} :
    c.Malformed engine s fault ↔ c.holds engine.search s = .error fault := by
  obtain ⟨t, first⟩ := exists_comparedAs json c.left
  obtain ⟨u, second⟩ := exists_comparedAs json c.right
  by_cases unguarded : c.op = .always
  · have never : ¬c.Malformed engine s fault := by
      rintro ⟨⟩
      cases unguarded
    simp [never, holds, unguarded, pure, Except.pure]
  · rw [holds_of_texts _ unguarded first second]
    exact malformed_iff_compare second

end Condition

namespace Routing

variable {holds : Condition → Except Fault Bool} {e : ProgramEdge}

/-! ## Where unguarded edges stand -/

/-- The edge to follow, without its place. -/
def follow (search : PatternSearch) (s : Store) (edges : List ProgramEdge) :
    Except Fault (Option ProgramEdge) :=
  (select search s edges).map (Option.map (·.2))

def isUnguarded (e : ProgramEdge) : Bool :=
  e.condition.op = .always

/-- One search through the guarded edges decides, and then the first unguarded edge does. -/
theorem selectFrom_edge (fallback : Option (Nat × ProgramEdge)) (index : Nat)
    (edges : List ProgramEdge) :
    (selectFrom holds fallback index edges).map (Option.map (·.2)) =
      ((edges.filter (!isUnguarded ·)).findM? fun e => holds e.condition).map fun found =>
        found.or ((fallback.map (·.2)).or (edges.find? isUnguarded)) := by
  induction edges generalizing fallback index with
  | nil => cases fallback <;> rfl
  | cons e rest ih =>
    by_cases unguarded : e.condition.op = .always
    · have own : isUnguarded e = true := by simpa [isUnguarded] using unguarded
      rw [selectFrom, if_pos unguarded, ih, List.filter_cons_of_neg (by simp [own]),
        List.find?_cons_of_pos own]
      cases fallback <;> simp
    · have own : isUnguarded e = false := by simpa [isUnguarded] using unguarded
      rw [selectFrom, if_neg unguarded, List.filter_cons_of_pos (by simp [own]),
        List.find?_cons_of_neg (by simp [own]), List.findM?]
      cases holds e.condition with
      | error fault => rfl
      | ok b =>
        cases b with
        | true => rfl
        | false => exact ih fallback (index + 1)

theorem follow_eq (search : PatternSearch) (s : Store) (edges : List ProgramEdge) :
    follow search s edges =
      ((edges.filter (!isUnguarded ·)).findM? fun e : ProgramEdge =>
        e.condition.holds search s).map fun found =>
        found.or (edges.find? isUnguarded) :=
  selectFrom_edge none 0 edges

/-! ## The specification -/

/-- A guarded edge that no edge whose guard holds stands before. -/
def Examined (engine : PatternEngine) (s : Store) (edges : List ProgramEdge)
    (e : ProgramEdge) : Prop :=
  ∃ before after, edges = before ++ e :: after ∧ e.condition.op ≠ .always ∧
    ∀ f ∈ before, ¬f.condition.Satisfied engine s

/-- The first edge whose guard holds, or the first unguarded edge where no guard holds. -/
inductive ToFollow (engine : PatternEngine) (s : Store) (edges : List ProgramEdge) :
    Option (Nat × ProgramEdge) → Prop
  | guarded {before after : List ProgramEdge} {e : ProgramEdge}
      (place : edges = before ++ e :: after) (satisfied : e.condition.Satisfied engine s)
      (first : ∀ f ∈ before, ¬f.condition.Satisfied engine s) :
      ToFollow engine s edges (some (before.length, e))
  | unguarded {next : Option (Nat × ProgramEdge)}
      (none : ∀ f ∈ edges, ¬f.condition.Satisfied engine s) (first : FirstUnguarded edges next) :
      ToFollow engine s edges next

variable {engine : PatternEngine} {s : Store} {edges : List ProgramEdge}

theorem Passed.not_satisfied (json : s.HoldsJson)
    (passed : Passed (Condition.holds engine.search s) e) :
    ¬e.condition.Satisfied engine s := by
  rcases passed with unguarded | refuted
  · exact Condition.not_satisfied_of_always unguarded
  · intro satisfied
    by_cases unguarded : e.condition.op = .always
    · exact Condition.not_satisfied_of_always unguarded satisfied
    · rw [Condition.satisfied_iff json unguarded, refuted] at satisfied
      cases satisfied

/-- What is examined stands no later than an edge whose guard holds. -/
theorem Examined.mem_or_eq {before after : List ProgramEdge} {x : ProgramEdge}
    (examined : Examined engine s (before ++ x :: after) e)
    (satisfied : x.condition.Satisfied engine s) : e ∈ before ∨ e = x := by
  obtain ⟨front, rest, place, -, passed⟩ := examined
  rcases List.append_eq_append_iff.mp place with ⟨middle, rfl, tail⟩ | ⟨middle, rfl, tail⟩
  · rcases List.cons_eq_append_iff.mp tail with ⟨rfl, same⟩ | ⟨others, rfl, -⟩
    · exact .inr (List.cons.inj same).1
    · exact False.elim (passed x (by simp) satisfied)
  · rcases List.cons_eq_append_iff.mp tail with ⟨rfl, same⟩ | ⟨others, rfl, -⟩
    · exact .inr (List.cons.inj same).1.symm
    · exact .inl (by simp)

theorem Passed.not_malformed (json : s.HoldsJson) {fault : Fault}
    (passed : Passed (Condition.holds engine.search s) e) (guarded : e.condition.op ≠ .always) :
    ¬e.condition.Malformed engine s fault := by
  rw [Condition.malformed_iff json, passed.resolve_left guarded]
  exact nofun

theorem examined_of_select_error (json : s.HoldsJson) {fault : Fault}
    (failed : select engine.search s edges = .error fault) :
    ∃ e, Examined engine s edges e ∧ e.condition.Malformed engine s fault := by
  have outcome := select_outcome engine.search s edges
  rw [failed] at outcome
  cases outcome with
  | @undecided before after e _ place passed guarded reason =>
    have first : ∀ f ∈ before, ¬f.condition.Satisfied engine s :=
      fun f member => (passed f member).not_satisfied json
    exact ⟨e, ⟨before, after, place, guarded, first⟩, (Condition.malformed_iff json).mpr reason⟩

theorem toFollow_of_select_ok (json : s.HoldsJson) {next : Option (Nat × ProgramEdge)}
    (chosen : select engine.search s edges = .ok next) :
    (∀ e fault, Examined engine s edges e → ¬e.condition.Malformed engine s fault) ∧
      ToFollow engine s edges next := by
  have outcome := select_outcome engine.search s edges
  rw [chosen] at outcome
  cases outcome with
  | @taken before after x place passed guarded decided =>
    subst place
    have satisfied := (Condition.satisfied_iff json guarded).mpr decided
    refine ⟨fun e fault examined => ?_, .guarded rfl satisfied fun f member =>
      (passed f member).not_satisfied json⟩
    rcases examined.mem_or_eq satisfied with earlier | rfl
    · obtain ⟨-, -, -, own, -⟩ := examined
      exact (passed e earlier).not_malformed json own
    · rw [Condition.malformed_iff json, decided]
      exact nofun
  | fallback passed first =>
    refine ⟨?_, .unguarded (fun f member => (passed f member).not_satisfied json) first⟩
    rintro e fault ⟨before, after, rfl, guarded, -⟩
    exact (passed e (by simp)).not_malformed json guarded

/-- In a state of JSON values the choice fails exactly where an edge that is examined looks for a
text that is no pattern, and with the fault of such an edge. Otherwise the first edge whose guard
holds is followed or, where no guard holds, the first unguarded edge, if there is one. The
outcome is the same for edges with the same guarded ones and the same first unguarded one. -/
theorem select_meets_specification (engine : PatternEngine) {s : Store} (json : s.HoldsJson)
    (edges : List ProgramEdge) :
    ((∃ fault, select engine.search s edges = .error fault) ↔
      ∃ e fault, Examined engine s edges e ∧ e.condition.Malformed engine s fault) ∧
    (∀ fault, select engine.search s edges = .error fault →
      ∃ e, Examined engine s edges e ∧ e.condition.Malformed engine s fault) ∧
    ((∀ e fault, Examined engine s edges e → ¬e.condition.Malformed engine s fault) →
      ∃ next, select engine.search s edges = .ok next ∧ ToFollow engine s edges next) ∧
    ∀ edges', edges.filter (!isUnguarded ·) = edges'.filter (!isUnguarded ·) →
      edges.find? isUnguarded = edges'.find? isUnguarded →
      follow engine.search s edges = follow engine.search s edges' := by
  refine ⟨⟨?_, ?_⟩, fun fault => examined_of_select_error json, ?_, ?_⟩
  · rintro ⟨fault, failed⟩
    obtain ⟨e, examined, malformed⟩ := examined_of_select_error json failed
    exact ⟨e, fault, examined, malformed⟩
  · rintro ⟨e, fault, examined, malformed⟩
    cases chosen : select engine.search s edges with
    | error fault => exact ⟨fault, rfl⟩
    | ok next =>
      exact False.elim ((toFollow_of_select_ok json chosen).1 e fault examined malformed)
  · intro sound
    cases chosen : select engine.search s edges with
    | error fault =>
      obtain ⟨e, examined, malformed⟩ := examined_of_select_error json chosen
      exact False.elim (sound e fault examined malformed)
    | ok next => exact ⟨next, rfl, (toFollow_of_select_ok json chosen).2⟩
  · intro edges' guarded unguarded
    rw [follow_eq, follow_eq, guarded, unguarded]

/-- The unguarded edge stands first; the last edge looks for a text that is no pattern. -/
def byName : List ProgramEdge :=
  [⟨.str "ask", .str "stranger", .always⟩,
   ⟨.str "ask", .str "nobody", ⟨.eq, .str "$in.name", .null⟩⟩,
   ⟨.str "ask", .str "friend", ⟨.regex, .str "$in.name", .str "^A.a$"⟩⟩,
   ⟨.str "ask", .str "odd", ⟨.regex, .str "$in.name", .str "("⟩⟩]

def named (name : Json) : Store :=
  Store.start (.obj [("name", name)]) .null

/-- A guard that holds keeps the edge behind it from being examined; where it does not hold, the
choice fails. -/
theorem byName_meets_specification :
    (named (.str "Ada")).HoldsJson ∧ (named (.str "Bob")).HoldsJson ∧
    (∃ e, select Pattern.engine.search (named (.str "Ada")) byName = .ok (some (2, e)) ∧
      e.target = .str "friend" ∧
      ToFollow Pattern.engine (named (.str "Ada")) byName (some (2, e))) ∧
    ∃ fault, select Pattern.engine.search (named (.str "Bob")) byName = .error fault ∧
      ∃ e, Examined Pattern.engine (named (.str "Bob")) byName e ∧
        e.condition.Malformed Pattern.engine (named (.str "Bob")) fault := by
  have ada : (named (.str "Ada")).HoldsJson := ⟨_, rfl⟩
  have bob : (named (.str "Bob")).HoldsJson := ⟨_, rfl⟩
  have taken : select Pattern.engine.search (named (.str "Ada")) byName =
      .ok (some (2, ⟨.str "ask", .str "friend", ⟨.regex, .str "$in.name", .str "^A.a$"⟩⟩)) := rfl
  have refused : select Pattern.engine.search (named (.str "Bob")) byName =
      .error (.invalidPattern "'('" "missing ), unterminated subpattern at position 0") := rfl
  obtain ⟨-, failing, -⟩ := select_meets_specification Pattern.engine bob byName
  obtain ⟨raises, -, following, -⟩ := select_meets_specification Pattern.engine ada byName
  have sound : ∀ e fault, Examined Pattern.engine (named (.str "Ada")) byName e →
      ¬e.condition.Malformed Pattern.engine (named (.str "Ada")) fault := by
    intro e fault examined malformed
    obtain ⟨raised, failed⟩ := raises.mpr ⟨e, fault, examined, malformed⟩
    rw [taken] at failed
    cases failed
  obtain ⟨next, chosen, toFollow⟩ := following sound
  obtain rfl := Except.ok.inj (taken.symm.trans chosen)
  exact ⟨ada, bob, ⟨_, taken, rfl, toFollow⟩, _, refused, failing _ refused⟩

end Routing
end Flowgraph
