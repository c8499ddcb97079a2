import Flowgraph.Output.Check
import Flowgraph.Proofs.Json.Equality
import Flowgraph.Proofs.State.RefGrammar
import Mathlib.Data.List.TakeWhile

/-!
# Membership invariants

An invariant that states a membership asks for a key of the output, for a list under a key of the
input, and for a member of the list that is equal by value to what the output has. The keys that
it may name are narrower than the segments of a reference: a hyphen makes the text one that is not
understood, and then every output is accepted. For all other keys the membership decides, and a
refused output is told of by one error.
-/
namespace Flowgraph
namespace Membership

variable {k j : String}

/-- The output has the one key, the input has a list under the other, and the list a member that
is equal to what the output has. -/
inductive Given (m : Membership) : Json → Fields → Prop
  | member {fields input : Fields} {v w : Json} {items : List Json}
      (output : fields.get? m.outKey = some v) (list : input.get? m.inKey = some (.arr items))
      (inside : w ∈ items) (equal : Json.Equals v w) : Given m (.obj fields) input

/-- One of the keys has a hyphen. -/
def Hyphenated (m : Membership) : Prop :=
  '-' ∈ m.outKey.toList ∨ '-' ∈ m.inKey.toList

/-! ## What is understood -/

theorem isKeyChar_iff {c : Char} (char : StateRef.IsNameChar c) :
    isKeyChar c = true ↔ c ≠ '-' := by
  have wider : StateRef.isSegmentChar c = (isKeyChar c || c == '-') := rfl
  constructor
  · rintro key rfl
    exact Bool.false_ne_true key
  · intro other
    have either := (StateRef.isSegmentChar_iff c).mpr char
    simpa [wider, other] using either

theorem all_isKeyChar_iff {s : String} (name : StateRef.IsName s) :
    s.toList.all isKeyChar = true ↔ '-' ∉ s.toList := by
  rw [List.all_eq_true]
  constructor
  · intro keys hyphen
    exact (isKeyChar_iff (name.2 _ hyphen)).mp (keys _ hyphen) rfl
  · intro plain c member
    exact (isKeyChar_iff (name.2 c member)).mpr fun same => plain (same ▸ member)

theorem isKey_iff {s : String} (name : StateRef.IsName s) :
    isKey s.toList = true ↔ '-' ∉ s.toList := by
  rw [isKey, Bool.and_eq_true, all_isKeyChar_iff name]
  simp [name.1]

theorem after?_append (head rest : List Char) : after? head (head ++ rest) = some rest := by
  rw [after?, if_pos (by simp), List.drop_left]

/-- What is left of a name behind its first characters of a key begins with its first hyphen. -/
theorem dropWhile_of_hyphen {s : String} (name : StateRef.IsName s) (hyphen : '-' ∈ s.toList) :
    ∃ later, s.toList.dropWhile isKeyChar = '-' :: later := by
  have partly : ¬s.toList.all isKeyChar = true := fun all => (all_isKeyChar_iff name).mp all hyphen
  have some : s.toList.dropWhile isKeyChar ≠ [] := by
    rwa [Ne, List.dropWhile_eq_nil_iff, ← List.all_eq_true]
  obtain ⟨c, later, left⟩ := List.exists_cons_of_ne_nil some
  have member : c ∈ s.toList := by
    refine List.dropWhile_subset isKeyChar ?_
    rw [left]
    exact List.mem_cons_self
  have stop : isKeyChar c = false := by
    have first := List.head_dropWhile_not isKeyChar some
    simpa [left] using first
  obtain rfl : c = '-' := by
    by_contra other
    exact Bool.false_ne_true (stop.symm.trans ((isKeyChar_iff (name.2 c member)).mpr other))
  exact ⟨later, left⟩

/-- Where a name has a hyphen, what is taken of it as a key ends before the hyphen. -/
theorem after?_of_hyphen {s : String} (name : StateRef.IsName s) (hyphen : '-' ∈ s.toList)
    (rest : List Char) :
    after? " in $in.".toList
      ((s.toList ++ rest).drop ((s.toList ++ rest).takeWhile isKeyChar).length) = none := by
  obtain ⟨later, left⟩ := dropWhile_of_hyphen name hyphen
  have whole : s.toList ++ rest = s.toList.takeWhile isKeyChar ++ '-' :: (later ++ rest) := by
    rw [← List.cons_append, ← left, ← List.append_assoc, List.takeWhile_append_dropWhile]
  have taken : (s.toList ++ rest).takeWhile isKeyChar = s.toList.takeWhile isKeyChar := by
    rw [whole, List.takeWhile_append_of_pos fun c => List.mem_takeWhile_imp,
      List.takeWhile_cons_of_neg (by decide), List.append_nil]
  rw [taken, whole, List.drop_left]
  rfl

theorem takeWhile_key {s : List Char} (keys : s.all isKeyChar = true) (rest : List Char) :
    (s ++ ' ' :: rest).takeWhile isKeyChar = s := by
  rw [List.takeWhile_append_of_pos (List.all_eq_true.mp keys),
    List.takeWhile_cons_of_neg (by decide), List.append_nil]

theorem toList_write (m : Membership) : (write m).toList =
    "$out.".toList ++ (m.outKey.toList ++ (" in $in.".toList ++ m.inKey.toList)) := by
  simp [write, List.append_assoc]

/-- A membership that is stated for two names is understood unless one has a hyphen. -/
theorem parse?_write (out : StateRef.IsName k) (inp : StateRef.IsName j) :
    (parse? (write ⟨k, j⟩) = none ↔ Hyphenated ⟨k, j⟩) ∧
      (parse? (write ⟨k, j⟩) = some ⟨k, j⟩ ↔ ¬Hyphenated ⟨k, j⟩) := by
  have read : Hyphenated ⟨k, j⟩ ∧ parse? (write ⟨k, j⟩) = none ∨
      ¬Hyphenated ⟨k, j⟩ ∧ parse? (write ⟨k, j⟩) = some ⟨k, j⟩ := by
    have start := toList_write ⟨k, j⟩
    -- A hyphen in the first key ends it, and what follows is no keyword; one in the second key is
    -- found when all that is left should be a key.
    by_cases hyphen : '-' ∈ k.toList
    · refine .inl ⟨.inl hyphen, ?_⟩
      simp only [parse?, start, after?_append, bind, Option.bind, after?_of_hyphen out hyphen]
    · have keys := (all_isKeyChar_iff out).mpr hyphen
      have taken : (k.toList ++ (" in $in.".toList ++ j.toList)).takeWhile isKeyChar = k.toList :=
        takeWhile_key keys _
      have kept := StateRef.dropFinalBreak_of_not_mem inp.break_not_mem
      have first := (isKey_iff out).mpr hyphen
      simp only [parse?, start, after?_append, bind, Option.bind, taken, List.drop_left, kept,
        first, Bool.true_and, String.ofList_toList]
      by_cases second : isKey j.toList = true
      · refine .inr ⟨not_or.mpr ⟨hyphen, (isKey_iff inp).mp second⟩, if_pos second⟩
      · refine .inl ⟨.inr ?_, if_neg second⟩
        by_contra plain
        exact second ((isKey_iff inp).mpr plain)
  rcases read with ⟨hyphen, none⟩ | ⟨plain, some⟩
  · simp [hyphen, none]
  · simp [plain, some]

/-! ## What is accepted -/

theorem given_iff {m : Membership} {output : Json} {input : Fields} : Given m output input ↔
    ∃ v items, field? output m.outKey = some v ∧ input.get? m.inKey = some (.arr items) ∧
      items.any v.alike = true := by
  simp only [List.any_eq_true, Json.alike_iff]
  constructor
  · rintro ⟨there, list, inside, equal⟩
    exact ⟨_, _, there, list, _, inside, equal⟩
  · rintro ⟨v, items, there, list, w, inside, equal⟩
    cases output with
    | obj fields => exact .member there list inside equal
    | null | bool | int | float | str | arr => cases there

theorem holds_iff (m : Membership) (output : Json) (input : Fields) :
    ∃ b, m.holds output (.obj input) = .ok b ∧ (b = true ↔ Given m output input) := by
  rw [given_iff]
  unfold holds
  dsimp only [Json.find, bind, Except.bind, Fields.get?]
  cases field? output m.outKey with
  | none => exact ⟨false, rfl, by simp⟩
  | some v =>
    cases input.lookup m.inKey with
    | none => exact ⟨false, rfl, by simp⟩
    | some list =>
      cases list with
      | arr items => exact ⟨items.any v.alike, rfl, by simp⟩
      | null | bool | int | float | str | obj => exact ⟨false, rfl, by simp⟩

/-- A step that has one invariant to check accepts an output, or tells of it, as the invariant
holds or not. -/
theorem outputErrors_of_invariant {s : Step} {expr : String} {output : Json} {input : Fields}
    {b : Bool} (only : s.outputChecks = [.invariant (.str expr)]) (stated : expr ≠ "")
    (holds : invariantHolds (.str expr) output (.obj input) = .ok b) (schemas : Fields) :
    s.outputErrors schemas output (.obj input) =
      .ok (if b then [] else [.invariant (.str expr)]) := by
  have same : Store.objectIfAbsent (.obj input) = .obj input := by cases input <;> rfl
  have truthy : (Json.str expr).truthy = true := by simpa [Json.truthy] using stated
  have checked : OutputCheck.errors schemas output (.obj input) (.invariant (.str expr)) =
      .ok (if b then [] else [.invariant (.str expr)]) := by
    rw [OutputCheck.errors, truthy, holds]
    cases b <;> rfl
  simp only [Step.outputErrors, only, same, List.mapM_cons, List.mapM_nil, checked, bind,
    Except.bind, pure, Except.pure, List.flatten_cons, List.flatten_nil, List.append_nil]

theorem write_ne_empty (m : Membership) : write m ≠ "" := by
  intro empty
  have start := toList_write m
  rw [empty] at start
  cases start

/-- A step whose one check is the membership of two names accepts an output exactly where one of
the names has a hyphen or the membership is given. Any other output has one error, the failure of
this invariant. -/
theorem membership_accepted_iff {s : Step} (out : StateRef.IsName k) (inp : StateRef.IsName j)
    (only : s.outputChecks = [.invariant (.str (write ⟨k, j⟩))]) (schemas : Fields)
    (output : Json) (input : Fields) :
    (s.outputErrors schemas output (.obj input) = .ok [] ↔
      Hyphenated ⟨k, j⟩ ∨ Given ⟨k, j⟩ output input) ∧
    (¬(Hyphenated ⟨k, j⟩ ∨ Given ⟨k, j⟩ output input) →
      s.outputErrors schemas output (.obj input) = .ok [.invariant (.str (write ⟨k, j⟩))]) := by
  obtain ⟨b, holds, true_iff⟩ : ∃ b, invariantHolds (.str (write ⟨k, j⟩)) output (.obj input) =
      .ok b ∧ (b = true ↔ Hyphenated ⟨k, j⟩ ∨ Given ⟨k, j⟩ output input) := by
    by_cases hyphen : Hyphenated ⟨k, j⟩
    · refine ⟨true, ?_, by simp [hyphen]⟩
      rw [invariantHolds, (parse?_write out inp).1.mpr hyphen]
    · obtain ⟨b, decided, given⟩ := holds_iff ⟨k, j⟩ output input
      refine ⟨b, ?_, by simp [hyphen, given]⟩
      rw [invariantHolds, (parse?_write out inp).2.mpr hyphen]
      exact decided
  have errors := outputErrors_of_invariant only (write_ne_empty _) holds schemas
  rw [errors, ← true_iff]
  cases b <;> simp

/-- A step that writes and is checked by one membership. -/
def choosing (m : Membership) : Step :=
  { id := .str "choose",
    action := .llmWrite
      { modelClass := .smallExec, promptTemplate := .str "t", outputSchema := .null,
        validators := some [.invariant (.str (write m))] } }

/-- Options of which one is the number 1.0. -/
def options : Fields :=
  [("options", .arr [.str "one", .float (.finite false Binary64.leastSignificand (-52))])]

/-- The truth value true is one, and is found among the options; the text that names it in other
letters is not. -/
theorem choice_among_options : StateRef.IsName "choice" ∧ StateRef.IsName "options" ∧
    (choosing ⟨"choice", "options"⟩).outputChecks =
      [.invariant (.str (write ⟨"choice", "options"⟩))] ∧
    (choosing ⟨"choice", "options"⟩).outputErrors [] (.obj [("choice", .bool true)])
      (.obj options) = .ok [] ∧
    Given ⟨"choice", "options"⟩ (.obj [("choice", .bool true)]) options ∧
    (choosing ⟨"choice", "options"⟩).outputErrors [] (.obj [("choice", .str "One")])
      (.obj options) = .ok [.invariant (.str "$out.choice in $in.options")] := by
  have out : StateRef.IsName "choice" := (StateRef.isSegment_iff _).mp (by decide)
  have inp : StateRef.IsName "options" := (StateRef.isSegment_iff _).mp (by decide)
  have plain : ¬Hyphenated ⟨"choice", "options"⟩ := by
    unfold Hyphenated
    decide
  have only : (choosing ⟨"choice", "options"⟩).outputChecks =
      [.invariant (.str (write ⟨"choice", "options"⟩))] := rfl
  have given : Given ⟨"choice", "options"⟩ (.obj [("choice", .bool true)]) options :=
    given_iff.mpr ⟨_, _, rfl, rfl, by decide⟩
  have missed : ¬Given ⟨"choice", "options"⟩ (.obj [("choice", .str "One")]) options := by
    rw [given_iff]
    rintro ⟨v, items, there, list, inside⟩
    cases there
    cases list
    revert inside
    decide
  refine ⟨out, inp, only, ?_, given, ?_⟩
  · exact (membership_accepted_iff out inp only [] _ options).1.mpr (.inr given)
  · exact (membership_accepted_iff out inp only [] _ options).2 (not_or.mpr ⟨plain, missed⟩)

/-- A key with a hyphen: the output is accepted although the list is without its value. -/
theorem hyphenated_choice_accepted : StateRef.IsName "a-b" ∧ StateRef.IsName "x" ∧
    (choosing ⟨"a-b", "x"⟩).outputChecks = [.invariant (.str (write ⟨"a-b", "x"⟩))] ∧
    (choosing ⟨"a-b", "x"⟩).outputErrors [] (.obj [("a-b", .int 1)])
      (.obj [("x", .arr [.int 2])]) = .ok [] ∧
    ¬Given ⟨"a-b", "x"⟩ (.obj [("a-b", .int 1)]) [("x", .arr [.int 2])] := by
  refine ⟨(StateRef.isSegment_iff _).mp (by decide), (StateRef.isSegment_iff _).mp (by decide), rfl,
    by rfl, ?_⟩
  rw [given_iff]
  rintro ⟨v, items, there, list, inside⟩
  cases there
  cases list
  revert inside
  decide

end Membership
end Flowgraph
