import Flowgraph.Proofs.Json.NumberReading
import Flowgraph.Proofs.Json.Proper
import Flowgraph.Proofs.Json.TextReading

/-!
# Reading values back

A proper value that is written in any style that adds only blanks is read back, unless its
arrays and objects stand in each other more often than the reader allows.
-/
namespace Flowgraph.Json

mutual

/-- How many arrays and objects stand in each other. -/
def nesting : Json → Nat
  | arr items => itemsNesting items + 1
  | obj fields => fieldsNesting fields + 1
  | _ => 0

def itemsNesting : List Json → Nat
  | [] => 0
  | v :: rest => max (nesting v) (itemsNesting rest)

def fieldsNesting : List (String × Json) → Nat
  | [] => 0
  | (_, v) :: rest => max (nesting v) (fieldsNesting rest)

end

/-- What is read where arrays and objects may stand in each other `depth` times. -/
def readTo {α : Type} (depth nesting : Nat) (found : α) : Except ReadError α :=
  if nesting ≤ depth then .ok found else .error .tooDeep

/-! ## Blanks -/

def Blanks (s : List Char) : Prop :=
  ∀ c ∈ s, isJsonBlank c = true

theorem blanks_nil : Blanks [] :=
  fun _ hc => False.elim (List.not_mem_nil hc)

theorem blanks_space : Blanks [' '] := by
  intro c hc
  rw [List.mem_singleton.mp hc]
  rfl

/-- Beside its commas and colons, and in its indentation, a style has nothing but blanks. -/
structure Style.Airy (style : Style) : Prop where
  item : ∃ blanks, style.itemSeparator = ',' :: blanks ∧ Blanks blanks
  key : ∃ blanks, style.keySeparator = ':' :: blanks ∧ Blanks blanks
  indent : ∀ unit, style.indent = some unit → Blanks unit

theorem airy_spaced : Style.spaced.Airy :=
  ⟨⟨[' '], rfl, blanks_space⟩, ⟨[' '], rfl, blanks_space⟩, fun _ h => by cases h⟩

theorem airy_compact : Style.compact.Airy :=
  ⟨⟨[], rfl, blanks_nil⟩, ⟨[], rfl, blanks_nil⟩, fun _ h => by cases h⟩

theorem airy_indented (n : Nat) : (Style.indented n).Airy := by
  refine ⟨⟨[], rfl, blanks_nil⟩, ⟨[' '], rfl, blanks_space⟩, ?_⟩
  intro unit h c hc
  obtain rfl := Option.some.inj h
  rw [List.eq_of_mem_replicate hc]
  rfl

variable {style : Style} {s rest : List Char}

theorem skipBlanks_append (blanks : Blanks s) (rest : List Char) :
    skipBlanks (s ++ rest) = skipBlanks rest :=
  List.dropWhile_append_of_pos blanks

theorem skipBlanks_cons {c : Char} (shown : isJsonBlank c = false) (rest : List Char) :
    skipBlanks (c :: rest) = c :: rest := by
  simp [skipBlanks, shown]

theorem Style.Airy.lineBreak (airy : style.Airy) (level : Nat) :
    Blanks (style.lineBreak level) := by
  unfold Style.lineBreak
  cases indent : style.indent with
  | none => exact blanks_nil
  | some unit =>
    intro c hc
    rcases List.mem_cons.mp hc with rfl | hc
    · rfl
    · obtain ⟨u, hu, hc⟩ := List.mem_flatten.mp hc
      rw [List.eq_of_mem_replicate hu] at hc
      exact airy.indent unit indent c hc

/-- A number ends at any of these characters, whatever follows. -/
theorem numberEnds_cons {c : Char} (mark : c ∈ [',', ']', Char.ofNat 125, '\n'])
    (rest : List Char) : NumberEnds (c :: rest) := by
  simp only [List.mem_cons, List.not_mem_nil, or_false] at mark
  rcases mark with rfl | rfl | rfl | rfl <;> exact ⟨rfl, by decide, by decide, by decide⟩

theorem numberEnds_lineBreak (style : Style) (level : Nat) {c : Char}
    (mark : c ∈ [',', ']', Char.ofNat 125, '\n']) (rest : List Char) :
    NumberEnds (style.lineBreak level ++ c :: rest) := by
  unfold Style.lineBreak
  cases style.indent with
  | none => exact numberEnds_cons mark rest
  | some unit => exact numberEnds_cons (by decide) _

/-! ## First characters -/

/-- A value begins with a character that is seen and closes nothing. -/
theorem writeAt_head (style : Style) (level : Nat) (v : Json) :
    ∃ c more, writeAt style level v = c :: more ∧ isJsonBlank c = false ∧ c ≠ ']' := by
  have number {c : Char} (char : NumberChar c) : isJsonBlank c = false ∧ c ≠ ']' := by
    have blank := char.ne (d := ' ') (by decide) rfl (by decide)
    have line := char.ne (d := '\n') (by decide) rfl (by decide)
    have back := char.ne (d := '\r') (by decide) rfl (by decide)
    have tab := char.ne (d := '\t') (by decide) rfl (by decide)
    exact ⟨by simp [isJsonBlank, *], char.ne (by decide) rfl (by decide)⟩
  have begins {s : List Char} (nonempty : s ≠ []) (chars : ∀ c ∈ s, NumberChar c) :
      ∃ c more, s = c :: more ∧ isJsonBlank c = false ∧ c ≠ ']' := by
    obtain ⟨c, more, rfl⟩ := List.exists_cons_of_ne_nil nonempty
    exact ⟨c, more, rfl, number (chars c List.mem_cons_self)⟩
  cases v with
  | null => exact ⟨_, _, rfl, by decide, by decide⟩
  | bool b => cases b <;> exact ⟨_, _, rfl, by decide, by decide⟩
  | int i =>
    exact begins (toString_int_ne_nil i) fun c hc => .inl (integerChar_of_mem_toString hc)
  | float x =>
    cases x with
    | nan => exact ⟨_, _, rfl, by decide, by decide⟩
    | infinity negative => cases negative <;> exact ⟨_, _, rfl, by decide, by decide⟩
    | finite negative m e =>
      refine begins ?_ fun c hc => Binary64.numberChar_of_mem_write hc
      rcases Binary64.hasPoint_write negative m e "Infinity".toList "NaN".toList with point | power
      · exact List.ne_nil_of_mem point
      · exact List.ne_nil_of_mem power
  | str s => exact ⟨_, _, rfl, by decide, by decide⟩
  | arr items => cases items <;> exact ⟨_, _, rfl, by decide, by decide⟩
  | obj fields => cases fields <;> exact ⟨_, _, rfl, by decide, by decide⟩

theorem skipBlanks_writeAt (style : Style) (level : Nat) (v : Json) (rest : List Char) :
    skipBlanks (writeAt style level v ++ rest) = writeAt style level v ++ rest := by
  obtain ⟨c, more, written, shown, _⟩ := writeAt_head style level v
  rw [written]
  exact skipBlanks_cons shown _

theorem skipBlanks_writeText (k : String) (rest : List Char) :
    skipBlanks (writeText k ++ rest) = writeText k ++ rest :=
  skipBlanks_cons (by decide) _

/-! ## Single values -/

/-- From any level on, a value is read back from what was written of it. -/
def Reads (style : Style) (v : Json) : Prop :=
  ∀ level fuel depth rest, NumberEnds rest → 2 * (writeAt style level v).length ≤ fuel →
    readValue fuel depth (writeAt style level v ++ rest) = readTo depth v.nesting (v, rest)

theorem head_of_readScalar {found : Json × List Char} (read : readScalar s = some found) :
    ∃ c more, s = c :: more ∧ c ≠ Char.ofNat 34 ∧ c ≠ '[' ∧ c ≠ Char.ofNat 123 := by
  cases s with
  | nil => cases read
  | cons c more =>
    refine ⟨c, more, rfl, ?_, ?_, ?_⟩
    · rintro rfl
      cases read
    · rintro rfl
      cases read
    · rintro rfl
      cases read

theorem readValue_scalar {found : Json × List Char} (read : readScalar s = some found)
    (fuel depth : Nat) : readValue (fuel + 1) depth s = .ok found := by
  obtain ⟨c, more, rfl, quote, bracket, brace⟩ := head_of_readScalar read
  simp [readValue, quote, bracket, brace, read]

theorem reads_scalar {v : Json} (flat : v.nesting = 0)
    (read : ∀ level rest, NumberEnds rest →
      readScalar (writeAt style level v ++ rest) = some (v, rest)) : Reads style v := by
  intro level fuel depth rest ends enough
  obtain ⟨c, more, written, _⟩ := writeAt_head style level v
  cases fuel with
  | zero =>
    rw [written, List.length_cons] at enough
    omega
  | succ fuel =>
    rw [readValue_scalar (read level rest ends), readTo, flat, if_pos (Nat.zero_le depth)]

theorem reads_str (style : Style) (s : String) : Reads style (str s) := by
  intro level fuel depth rest ends enough
  cases fuel with
  | zero => simp [writeAt, writeText] at enough
  | succ fuel =>
    obtain ⟨behind, written, read⟩ := readQuoted_writeText s rest
    have flat : (str s).nesting = 0 := rfl
    rw [writeAt, written, readTo, flat, if_pos (Nat.zero_le depth)]
    simp [readValue, read, Except.map]

theorem readTo_max_left {α : Type} {depth n k : Nat} (deep : ¬n ≤ depth) (found : α) :
    readTo depth (max n k) found = .error .tooDeep :=
  if_neg fun le => deep ((Nat.le_max_left n k).trans le)

theorem readTo_max_right {α : Type} {depth n : Nat} (fits : n ≤ depth) (k : Nat) (found : α) :
    readTo depth (max n k) found = readTo depth k found := by
  unfold readTo
  congr 1
  rw [Nat.max_le]
  exact propext ⟨fun le => le.2, fun le => ⟨fits, le⟩⟩

theorem readTo_succ {α : Type} (depth n : Nat) (found : α) :
    readTo (depth + 1) (n + 1) found = readTo depth n found := by
  unfold readTo
  congr 1
  exact propext Nat.succ_le_succ_iff

theorem readTo_zero {α : Type} (n : Nat) (found : α) :
    readTo 0 (n + 1) found = .error .tooDeep :=
  if_neg (Nat.not_succ_le_zero n)

/-! ## Arrays -/

section Items

variable {fuel depth : Nat} {acc : List Json} {v : Json} {behind next : List Char}

theorem readItems_last (read : readValue fuel depth s = .ok (v, behind))
    (close : skipBlanks behind = ']' :: rest) :
    readItems (fuel + 1) depth acc s = .ok (arr (acc.reverse ++ [v]), rest) := by
  simp [readItems, read, close]

theorem readItems_next (read : readValue fuel depth s = .ok (v, behind))
    (comma : skipBlanks behind = ',' :: next) :
    readItems (fuel + 1) depth acc s = readItems fuel depth (v :: acc) (skipBlanks next) := by
  simp [readItems, read, comma]

theorem readItems_error {e : ReadError} (read : readValue fuel depth s = .error e) :
    readItems (fuel + 1) depth acc s = .error e := by
  simp [readItems, read]

end Items

theorem readItems_write (airy : style.Airy) {items : List Json} {v : Json}
    (reads : ∀ w ∈ v :: items, Reads style w) (level outer : Nat) {fuel depth : Nat}
    (acc : List Json) (rest : List Char)
    (enough : 2 * ((writeAt style level v).length + (writeItems style level items).length) + 1 ≤
      fuel) :
    readItems fuel depth acc (writeAt style level v ++
        (writeItems style level items ++ (style.lineBreak outer ++ ']' :: rest))) =
      readTo depth (max v.nesting (itemsNesting items))
        (arr (acc.reverse ++ v :: items), rest) := by
  induction items generalizing v acc fuel with
  | nil =>
    obtain ⟨fuel, rfl⟩ := Nat.exists_eq_add_of_le' (Nat.le_of_add_left_le enough)
    have ends : NumberEnds (style.lineBreak outer ++ ']' :: rest) :=
      numberEnds_lineBreak style outer (by decide) rest
    have close : skipBlanks (style.lineBreak outer ++ ']' :: rest) = ']' :: rest := by
      rw [skipBlanks_append (airy.lineBreak outer)]
      exact skipBlanks_cons rfl rest
    rw [writeItems, List.nil_append]
    have read := reads v List.mem_cons_self level fuel depth _ ends (by omega)
    by_cases fits : v.nesting ≤ depth
    · rw [readTo, if_pos fits] at read
      rw [readItems_last read close, readTo_max_right fits]
      exact (if_pos (Nat.zero_le depth)).symm
    · rw [readTo, if_neg fits] at read
      rw [readItems_error read, readTo_max_left fits]
  | cons w items ih =>
    obtain ⟨fuel, rfl⟩ := Nat.exists_eq_add_of_le' (Nat.le_of_add_left_le enough)
    obtain ⟨blanks, written, blank⟩ := airy.item
    let behind := writeAt style level w ++
      (writeItems style level items ++ (style.lineBreak outer ++ ']' :: rest))
    have whole : writeItems style level (w :: items) ++ (style.lineBreak outer ++ ']' :: rest) =
        ',' :: (blanks ++ (style.lineBreak level ++ behind)) := by
      simp [writeItems, written, behind]
    have size : (writeAt style level w).length + (writeItems style level items).length + 1 ≤
        (writeItems style level (w :: items)).length := by
      simp [writeItems, written]
      omega
    rw [whole]
    have ends : NumberEnds (',' :: (blanks ++ (style.lineBreak level ++ behind))) :=
      numberEnds_cons List.mem_cons_self _
    have read := reads v List.mem_cons_self level fuel depth _ ends (by omega)
    by_cases fits : v.nesting ≤ depth
    · rw [readTo, if_pos fits] at read
      rw [readItems_next read (skipBlanks_cons rfl _), skipBlanks_append blank,
        skipBlanks_append (airy.lineBreak level), skipBlanks_writeAt,
        ih (fun x hx => reads x (List.mem_cons_of_mem v hx)) (v :: acc) (by omega),
        readTo_max_right fits, itemsNesting, List.reverse_cons, List.append_assoc]
      rfl
    · rw [readTo, if_neg fits] at read
      rw [readItems_error read, readTo_max_left fits]

theorem readValue_bracket (fuel : Nat) {depth : Nat} {c : Char} {more : List Char}
    (inside : skipBlanks s = c :: more) (other : c ≠ ']') :
    readValue (fuel + 1) (depth + 1) ('[' :: s) = readItems fuel depth [] (c :: more) := by
  simp [readValue, inside, other]

theorem reads_arr (airy : style.Airy) {items : List Json} (reads : ∀ w ∈ items, Reads style w) :
    Reads style (arr items) := by
  intro level fuel depth rest _ enough
  cases items with
  | nil =>
    obtain ⟨fuel, rfl⟩ := Nat.exists_eq_add_of_le' (Nat.one_le_of_lt enough)
    cases depth with
    | zero => rfl
    | succ depth => rfl
  | cons v items =>
    have whole : writeAt style level (arr (v :: items)) ++ rest =
        '[' :: (style.lineBreak (level + 1) ++ (writeAt style (level + 1) v ++
          (writeItems style (level + 1) items ++ (style.lineBreak level ++ ']' :: rest)))) := by
      simp [writeAt]
    have size := congrArg List.length whole
    simp only [List.length_append, List.length_cons] at size
    obtain ⟨fuel, rfl⟩ : ∃ n, fuel = n + 1 := ⟨fuel - 1, by omega⟩
    rw [whole, nesting, itemsNesting]
    cases depth with
    | zero =>
      rw [readTo_zero]
      rfl
    | succ depth =>
      obtain ⟨c, more, head, _, other⟩ := writeAt_head style (level + 1) v
      have inside : skipBlanks (style.lineBreak (level + 1) ++ (writeAt style (level + 1) v ++
          (writeItems style (level + 1) items ++ (style.lineBreak level ++ ']' :: rest)))) =
          c :: (more ++ (writeItems style (level + 1) items ++
            (style.lineBreak level ++ ']' :: rest))) := by
        rw [skipBlanks_append (airy.lineBreak _), skipBlanks_writeAt, head, List.cons_append]
      rw [readValue_bracket fuel inside other, ← List.cons_append, ← head, readTo_succ]
      exact readItems_write airy reads (level + 1) level [] rest (by omega)

/-! ## Objects -/

section Members

variable {fuel depth : Nat} {acc : List (String × Json)} {k : String} {v : Json}
  {behind next : List Char}

/-- A key and its value, as they are read. -/
def ReadsField (fuel depth : Nat) (s : List Char) (k : String)
    (value : Except ReadError (Json × List Char)) : Prop :=
  ∃ inside behind next, s = Char.ofNat 34 :: inside ∧
    readQuoted inside = .ok (k, behind) ∧ skipBlanks behind = ':' :: next ∧
    readValue fuel depth (skipBlanks next) = value

theorem readMembers_last (read : ReadsField fuel depth s k (.ok (v, behind)))
    (close : skipBlanks behind = Char.ofNat 125 :: rest) :
    readMembers (fuel + 1) depth acc s =
      .ok (obj (Fields.ofPairs (acc.reverse ++ [(k, v)])), rest) := by
  obtain ⟨inside, after, next, rfl, key, colon, value⟩ := read
  simp [readMembers, key, colon, value, close]

theorem readMembers_next (read : ReadsField fuel depth s k (.ok (v, behind)))
    (comma : skipBlanks behind = ',' :: next) :
    readMembers (fuel + 1) depth acc s =
      readMembers fuel depth ((k, v) :: acc) (skipBlanks next) := by
  obtain ⟨inside, after, next, rfl, key, colon, value⟩ := read
  simp [readMembers, key, colon, value, comma]

theorem readMembers_error {e : ReadError} (read : ReadsField fuel depth s k (.error e)) :
    readMembers (fuel + 1) depth acc s = .error e := by
  obtain ⟨inside, after, next, rfl, key, colon, value⟩ := read
  simp [readMembers, key, colon, value]

/-- A written field is read as its key and what is read of its value. -/
theorem readsField_write (airy : style.Airy) (reads : Reads style v) (k : String) (level : Nat)
    {behind : List Char} (ends : NumberEnds behind)
    (enough : 2 * (writeAt style level v).length ≤ fuel) :
    ReadsField fuel depth
      (writeText k ++ (style.keySeparator ++ (writeAt style level v ++ behind))) k
      (readTo depth v.nesting (v, behind)) := by
  obtain ⟨blanks, written, blank⟩ := airy.key
  obtain ⟨inside, quoted, key⟩ := readQuoted_writeText k
    (style.keySeparator ++ (writeAt style level v ++ behind))
  refine ⟨inside, _, blanks ++ (writeAt style level v ++ behind), quoted, key, ?_, ?_⟩
  · rw [written]
    exact skipBlanks_cons rfl _
  · rw [skipBlanks_append blank, skipBlanks_writeAt]
    exact reads level fuel depth behind ends enough

end Members

theorem readMembers_write (airy : style.Airy) {fields : List (String × Json)} {k : String}
    {v : Json} (reads : ∀ f ∈ (k, v) :: fields, Reads style f.2) (level outer : Nat)
    {fuel depth : Nat} (acc : List (String × Json)) (rest : List Char)
    (enough : 2 * ((writeAt style level v).length + (writeFields style level fields).length) + 1 ≤
      fuel) :
    readMembers fuel depth acc (writeText k ++ (style.keySeparator ++ (writeAt style level v ++
        (writeFields style level fields ++ (style.lineBreak outer ++ Char.ofNat 125 :: rest))))) =
      readTo depth (max v.nesting (fieldsNesting fields))
        (obj (Fields.ofPairs (acc.reverse ++ (k, v) :: fields)), rest) := by
  induction fields generalizing k v acc fuel with
  | nil =>
    obtain ⟨fuel, rfl⟩ := Nat.exists_eq_add_of_le' (Nat.le_of_add_left_le enough)
    have ends : NumberEnds (style.lineBreak outer ++ Char.ofNat 125 :: rest) :=
      numberEnds_lineBreak style outer (by decide) rest
    have close : skipBlanks (style.lineBreak outer ++ Char.ofNat 125 :: rest) =
        Char.ofNat 125 :: rest := by
      rw [skipBlanks_append (airy.lineBreak outer)]
      exact skipBlanks_cons rfl rest
    rw [writeFields, List.nil_append]
    have own : Reads style v := reads (k, v) List.mem_cons_self
    have enough' : 2 * (writeAt style level v).length ≤ fuel := by omega
    have read : ReadsField fuel depth _ k (readTo depth v.nesting (v, _)) :=
      readsField_write airy own k level ends enough'
    by_cases fits : v.nesting ≤ depth
    · rw [readTo, if_pos fits] at read
      rw [readMembers_last read close, readTo_max_right fits]
      exact (if_pos (Nat.zero_le depth)).symm
    · rw [readTo, if_neg fits] at read
      rw [readMembers_error read, readTo_max_left fits]
  | cons f fields ih =>
    obtain ⟨fuel, rfl⟩ := Nat.exists_eq_add_of_le' (Nat.le_of_add_left_le enough)
    obtain ⟨blanks, written, blank⟩ := airy.item
    let behind := writeText f.1 ++ (style.keySeparator ++ (writeAt style level f.2 ++
      (writeFields style level fields ++ (style.lineBreak outer ++ Char.ofNat 125 :: rest))))
    have whole : writeFields style level (f :: fields) ++
        (style.lineBreak outer ++ Char.ofNat 125 :: rest) =
        ',' :: (blanks ++ (style.lineBreak level ++ behind)) := by
      simp [writeFields, written, behind]
    have size : (writeAt style level f.2).length + (writeFields style level fields).length + 1 ≤
        (writeFields style level (f :: fields)).length := by
      simp [writeFields, written]
      omega
    rw [whole]
    have ends : NumberEnds (',' :: (blanks ++ (style.lineBreak level ++ behind))) :=
      numberEnds_cons List.mem_cons_self _
    have own : Reads style v := reads (k, v) List.mem_cons_self
    have enough' : 2 * (writeAt style level v).length ≤ fuel := by omega
    have read : ReadsField fuel depth _ k (readTo depth v.nesting (v, _)) :=
      readsField_write airy own k level ends enough'
    by_cases fits : v.nesting ≤ depth
    · rw [readTo, if_pos fits] at read
      rw [readMembers_next read (skipBlanks_cons rfl _), skipBlanks_append blank,
        skipBlanks_append (airy.lineBreak level), skipBlanks_writeText,
        ih (fun g hg => reads g (List.mem_cons_of_mem (k, v) hg)) ((k, v) :: acc) (by omega),
        readTo_max_right fits, fieldsNesting, List.reverse_cons, List.append_assoc]
      rfl
    · rw [readTo, if_neg fits] at read
      rw [readMembers_error read, readTo_max_left fits]

theorem readValue_brace (fuel : Nat) {depth : Nat} {more : List Char}
    (inside : skipBlanks s = Char.ofNat 34 :: more) :
    readValue (fuel + 1) (depth + 1) (Char.ofNat 123 :: s) =
      readMembers fuel depth [] (Char.ofNat 34 :: more) := by
  simp [readValue, inside]

theorem insert_fresh {fields : Fields} {k : String} (fresh : k ∉ fields.map (·.1)) (v : Json) :
    fields.insert k v = fields ++ [(k, v)] := by
  induction fields with
  | nil => rfl
  | cons f fields ih =>
    obtain ⟨other, fresh⟩ := not_or.mp (mt List.mem_cons.mpr fresh)
    have apart : (f.1 == k) = false := beq_false_of_ne (Ne.symm other)
    simp [Fields.insert, apart, ih fresh]

/-- Fields with new keys are added one behind the other. -/
theorem foldl_insert (pairs : List (String × Json)) {fields : Fields}
    (distinct : ((fields ++ pairs).map (·.1)).Nodup) :
    pairs.foldl (fun fields (k, v) => Fields.insert fields k v) fields = fields ++ pairs := by
  induction pairs generalizing fields with
  | nil => exact (List.append_nil fields).symm
  | cons f pairs ih =>
    obtain ⟨k, v⟩ := f
    have fresh : k ∉ fields.map (·.1) := by
      intro member
      rw [List.map_append] at distinct
      exact (List.nodup_append.mp distinct).2.2 k member k List.mem_cons_self rfl
    have onward : ((fields ++ [(k, v)] ++ pairs).map (·.1)).Nodup := by
      rwa [List.append_assoc]
    have whole : fields.insert k v ++ pairs = fields ++ (k, v) :: pairs := by
      rw [insert_fresh fresh, List.append_assoc]
      rfl
    rw [← whole]
    rw [← insert_fresh fresh v] at onward
    exact ih onward

theorem ofPairs_eq {pairs : List (String × Json)} (distinct : (pairs.map (·.1)).Nodup) :
    Fields.ofPairs pairs = pairs :=
  foldl_insert pairs distinct

theorem reads_obj (airy : style.Airy) {fields : List (String × Json)}
    (distinct : (fields.map (·.1)).Nodup) (reads : ∀ f ∈ fields, Reads style f.2) :
    Reads style (obj fields) := by
  intro level fuel depth rest _ enough
  cases fields with
  | nil =>
    obtain ⟨fuel, rfl⟩ := Nat.exists_eq_add_of_le' (Nat.one_le_of_lt enough)
    cases depth with
    | zero => rfl
    | succ depth => rfl
  | cons f fields =>
    let inner := writeText f.1 ++ (style.keySeparator ++ (writeAt style (level + 1) f.2 ++
      (writeFields style (level + 1) fields ++ (style.lineBreak level ++ Char.ofNat 125 :: rest))))
    have whole : writeAt style level (obj (f :: fields)) ++ rest =
        Char.ofNat 123 :: (style.lineBreak (level + 1) ++ inner) := by
      simp [writeAt, inner]
    have size : (writeAt style (level + 1) f.2).length +
        (writeFields style (level + 1) fields).length + 2 ≤
        (writeAt style level (obj (f :: fields))).length := by
      simp [writeAt]
      omega
    obtain ⟨fuel, rfl⟩ : ∃ n, fuel = n + 1 := ⟨fuel - 1, by omega⟩
    rw [whole, nesting, fieldsNesting]
    cases depth with
    | zero =>
      rw [readTo_zero]
      rfl
    | succ depth =>
      have inside : skipBlanks (style.lineBreak (level + 1) ++ inner) = inner := by
        rw [skipBlanks_append (airy.lineBreak _), skipBlanks_writeText]
      rw [readValue_brace fuel inside, readTo_succ]
      have enough : 2 * ((writeAt style (level + 1) f.2).length +
          (writeFields style (level + 1) fields).length) + 1 ≤ fuel := by omega
      have read : readMembers fuel depth [] inner = _ :=
        readMembers_write airy reads (level + 1) level [] rest enough
      rwa [List.reverse_nil, List.nil_append, ofPairs_eq distinct] at read

/-! ## All values -/

theorem sizeOf_value_lt {fields : List (String × Json)} {f : String × Json} (member : f ∈ fields) :
    sizeOf f.2 < sizeOf fields := by
  have smaller := List.sizeOf_lt_of_mem member
  obtain ⟨k, v⟩ := f
  rw [Prod.mk.sizeOf_spec] at smaller
  exact Nat.lt_of_le_of_lt (Nat.le_add_left _ _) smaller

theorem reads_of_proper (airy : style.Airy) (v : Json) (proper : v.Proper) : Reads style v := by
  match v with
  | null => exact reads_scalar rfl fun _ _ _ => rfl
  | bool true => exact reads_scalar rfl fun _ _ _ => rfl
  | bool false => exact reads_scalar rfl fun _ _ _ => rfl
  | int i => exact reads_scalar rfl fun _ _ ends => readScalar_int i ends
  | float x => exact reads_scalar rfl fun _ _ ends => readScalar_float proper ends
  | str s => exact reads_str style s
  | arr items =>
    have members := itemsProper_iff.mp proper
    exact reads_arr airy fun w member => reads_of_proper airy w (members w member)
  | obj fields =>
    obtain ⟨distinct, proper⟩ := proper
    have members := fieldsProper_iff.mp proper
    refine reads_obj airy distinct fun f member => ?_
    have smaller := sizeOf_value_lt member
    exact reads_of_proper airy f.2 (members f member)
termination_by sizeOf v

/-- A proper value is read back from its text, up to the limit of the reader. -/
theorem readWithin_write (airy : style.Airy) {v : Json} (proper : v.Proper) (limit : Nat) :
    readWithin limit (write style v) = readTo limit v.nesting v := by
  have read := reads_of_proper airy v proper 0 (2 * (writeAt style 0 v).length + 2) limit []
    trivial (Nat.le_add_right _ 2)
  have start := skipBlanks_writeAt style 0 v []
  rw [List.append_nil] at read start
  rw [readWithin, write, String.toList_ofList, readChars, start, read]
  by_cases fits : v.nesting ≤ limit
  · rw [readTo, readTo, if_pos fits, if_pos fits]
    rfl
  · rw [readTo, readTo, if_neg fits, if_neg fits]

end Flowgraph.Json
