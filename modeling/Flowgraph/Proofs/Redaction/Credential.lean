import Flowgraph.Proofs.Sequencing
import Flowgraph.Redaction.Credential
import Mathlib.Data.List.TakeWhile

/-!
# Credentials and their scrubbing

What counts as a credential is said by two forms, beside the functions that look for one from
left to right. A text whose credentials were replaced by the mark holds none, neither in
what was left nor across a mark, and so does every beginning of it.
-/
namespace Flowgraph.Credential

/-- A word, blanks, a token and equals signs; or a word and at least eight characters. -/
inductive IsCredential : List Char → Prop
  | bearer {word blanks token signs : List Char} (spelled : word.map fold = "bearer".toList)
      (apart : blanks ≠ []) (blank : ∀ c ∈ blanks, Text.isBlank c = true)
      (some : token ≠ []) (allowed : ∀ c ∈ token, isTokenChar c = true)
      (closed : ∀ c ∈ signs, c = '=') : IsCredential (word ++ blanks ++ token ++ signs)
  | key {word chars : List Char} (spelled : word.map fold = "sk-".toList)
      (long : leastKeyLength ≤ chars.length) (allowed : ∀ c ∈ chars, isKeyChar c = true) :
      IsCredential (word ++ chars)

/-- A text begins with a credential. -/
def Begins (s : List Char) : Prop :=
  ∃ found after, s = found ++ after ∧ IsCredential found

/-- No word reaches up to this place. -/
def Boundary (previous : Option Char) : Prop :=
  ∀ c ∈ previous, Text.isWordChar c = false

/-- A credential stands somewhere in a text that follows a character, where a word begins. -/
def Holds (previous : Option Char) (s : List Char) : Prop :=
  ∃ front rest, s = front ++ rest ∧ Boundary (front.getLast?.or previous) ∧ Begins rest

/-! ## Classes of characters -/

/-- A character that a key or a token may have is compared as one that stands for itself. -/
theorem isTokenChar_of_isKeyChar {c : Char} (key : isKeyChar c = true) : isTokenChar c = true := by
  simp only [isKeyChar, isTokenChar, Bool.or_eq_true, beq_iff_eq] at key ⊢
  rcases key with ((lower | digit) | underscore) | hyphen
  · exact .inl (.inl lower)
  · exact .inl (.inr digit)
  · rw [underscore]
    decide
  · rw [hyphen]
    decide

/-- A blank is a control or a separator, and none of the letters that fold to others. -/
theorem blank_range {c : Char} (blank : Text.isBlank c = true) :
    c.toNat < 33 ∨ 132 < c.toNat ∧ c.toNat ≠ 383 ∧ c.toNat ≠ 8490 ∧ c.toNat ≠ 304 ∧
      c.toNat ≠ 305 := by
  simp [Text.isBlank, Text.isWhiteSpace, Text.whiteSpaceRanges, Text.inRanges] at blank
  omega

theorem fold_of_blank {c : Char} (blank : Text.isBlank c = true) : fold c = c := by
  have range := blank_range blank
  have small : c.toLower = c := by
    have first : 'A'.toNat = 65 := rfl
    have last : 'Z'.toNat = 90 := rfl
    have other : ¬(c.val ≥ 'A'.val ∧ c.val ≤ 'Z'.val) := by
      simp only [ge_iff_le, UInt32.le_iff_toNat_le, Char.toNat_val]
      omega
    exact dif_neg other
  have special : c.toNat ≠ 383 ∧ c.toNat ≠ 8490 ∧ ¬(c.toNat = 304 ∨ c.toNat = 305) := by omega
  simp [fold, special, small]

theorem isTokenChar_of_blank {c : Char} (blank : Text.isBlank c = true) :
    isTokenChar c = false := by
  have range := blank_range blank
  have outside {first last : Char} (shown : 33 ≤ first.toNat ∧ last.toNat ≤ 132) :
      (decide (first.val ≤ c.val) && decide (c.val ≤ last.val)) = false := by
    simp only [UInt32.le_iff_toNat_le, Char.toNat_val, Bool.and_eq_false_iff,
      decide_eq_false_iff_not]
    omega
  have lower : c.isLower = false := outside (by decide)
  have digit : c.isDigit = false := outside (by decide)
  have other (d : Char) (shown : 33 ≤ d.toNat ∧ d.toNat ≤ 132) : c ≠ d := by
    rintro rfl
    omega
  simp only [isTokenChar, fold_of_blank blank, lower, digit, Bool.or_self, Bool.false_or]
  simp [other]

/-- The first letters of the two forms may stand in keys and in tokens. -/
theorem isKeyChar_of_first {c : Char} (first : fold c = 'b' ∨ fold c = 's') :
    isKeyChar c = true := by
  unfold isKeyChar
  rcases first with b | s
  · rw [b]
    decide
  · rw [s]
    decide

/-! ## The two forms -/

theorem afterWord_eq_some {word s rest : List Char} :
    afterWord word s = some rest ↔ ∃ w, s = w ++ rest ∧ w.map fold = word := by
  induction word generalizing s with
  | nil => simp [afterWord, eq_comm]
  | cons letter word ih =>
    cases s with
    | nil => simp [afterWord]
    | cons c s =>
      by_cases same : fold c = letter
      · rw [afterWord, if_pos same, ih]
        constructor
        · rintro ⟨w, rfl, rfl⟩
          exact ⟨c :: w, rfl, by rw [List.map_cons, same]⟩
        · rintro ⟨w, split, spelled⟩
          obtain ⟨d, w, rfl, -, rest⟩ := List.map_eq_cons_iff.mp spelled
          exact ⟨w, (List.cons.inj split).2, rest⟩
      · rw [afterWord, if_neg same]
        refine ⟨nofun, ?_⟩
        rintro ⟨w, split, spelled⟩
        obtain ⟨d, w, rfl, first, -⟩ := List.map_eq_cons_iff.mp spelled
        exact absurd ((List.cons.inj split).1 ▸ first) same

/-- A credential begins with one of two letters. -/
theorem IsCredential.first {found : List Char} (credential : IsCredential found) :
    ∃ c rest, found = c :: rest ∧ (fold c = 'b' ∨ fold c = 's') := by
  cases credential with
  | bearer spelled =>
    obtain ⟨c, rest, rfl, first, -⟩ := List.map_eq_cons_iff.mp spelled
    exact ⟨c, _, rfl, .inl first⟩
  | key spelled =>
    obtain ⟨c, rest, rfl, first, -⟩ := List.map_eq_cons_iff.mp spelled
    exact ⟨c, _, rfl, .inr first⟩

theorem not_begins {s : List Char} (other : ∀ c ∈ s.head?, isKeyChar c = false) : ¬Begins s := by
  rintro ⟨found, after, rfl, credential⟩
  obtain ⟨c, rest, rfl, first⟩ := credential.first
  have key := other c rfl
  rw [isKeyChar_of_first first] at key
  cases key

/-- After what was found no credential can begin at once, unless the place is a boundary. -/
def Settled (found after : List Char) : Prop :=
  Boundary found.getLast? ∨ ¬Begins after

/-- A token and the signs behind it end where no credential can begin at once. -/
theorem settled_token (front token : List Char) :
    Settled (front ++ token.takeWhile isTokenChar ++
      (token.dropWhile isTokenChar).takeWhile (· == '='))
      ((token.dropWhile isTokenChar).dropWhile (· == '=')) := by
  cases signs : (token.dropWhile isTokenChar).takeWhile (· == '=') with
  | nil =>
    have close : [] ++ (token.dropWhile isTokenChar).dropWhile (· == '=') =
        token.dropWhile isTokenChar := signs ▸ List.takeWhile_append_dropWhile
    rw [List.nil_append] at close
    rw [close]
    refine .inr (not_begins fun c head => ?_)
    by_contra key
    have allowed := isTokenChar_of_isKeyChar (Bool.of_not_eq_false key)
    rw [head_dropWhile head] at allowed
    cases allowed
  | cons d more =>
    refine .inl fun c last => ?_
    rw [List.getLast?_append_of_ne_nil _ (List.cons_ne_nil d more), ← signs] at last
    have sign : c = '=' := by
      simpa using List.mem_takeWhile_imp (List.mem_of_getLast? last)
    rw [sign]
    decide

theorem afterBearer_found {s after : List Char} (read : afterBearer s = some after) :
    ∃ found, s = found ++ after ∧ IsCredential found ∧ Settled found after := by
  unfold afterBearer at read
  obtain ⟨rest, word, tail⟩ := Option.bind_eq_some_iff.mp read
  obtain ⟨w, rfl, spelled⟩ := afterWord_eq_some.mp word
  have split : rest.takeWhile Text.isBlank ++ rest.dropWhile Text.isBlank = rest :=
    List.takeWhile_append_dropWhile
  generalize rest.dropWhile Text.isBlank = token at split tail
  dsimp only at tail
  split at tail
  · rename_i shown
    obtain ⟨shorter, head⟩ := Bool.and_eq_true_iff.mp shown
    have apart : rest.takeWhile Text.isBlank ≠ [] := by
      intro none
      rw [none, List.nil_append] at split
      simp [split] at shorter
    have some : token.takeWhile isTokenChar ≠ [] := by
      cases token with
      | nil => cases head
      | cons c token =>
        have allowed : isTokenChar c = true := head
        rw [List.takeWhile_cons_of_pos allowed]
        exact List.cons_ne_nil _ _
    obtain rfl := Option.some.inj tail
    refine ⟨_, ?_, .bearer spelled apart (fun c => List.mem_takeWhile_imp) some
      (fun c => List.mem_takeWhile_imp) (fun c sign => ?_), settled_token _ token⟩
    · simp only [List.append_assoc, List.takeWhile_append_dropWhile, split]
    · simpa using List.mem_takeWhile_imp sign
  · cases tail

theorem afterKey_found {s after : List Char} (read : afterKey s = some after) :
    ∃ found, s = found ++ after ∧ IsCredential found ∧ Settled found after := by
  unfold afterKey at read
  obtain ⟨rest, word, tail⟩ := Option.bind_eq_some_iff.mp read
  obtain ⟨w, rfl, spelled⟩ := afterWord_eq_some.mp word
  dsimp only at tail
  split at tail
  · rename_i long
    have rest_eq : rest = rest.takeWhile isKeyChar ++ after := by
      rw [← Option.some.inj tail, List.takeWhile_append_dropWhile]
    have length := congrArg List.length rest_eq
    rw [List.length_append] at length
    rw [Option.some.inj tail] at long
    refine ⟨w ++ rest.takeWhile isKeyChar, ?_, .key spelled (by omega)
      (fun c => List.mem_takeWhile_imp), .inr (not_begins fun c head => ?_)⟩
    · rw [List.append_assoc, ← rest_eq]
    · rw [← Option.some.inj tail] at head
      exact head_dropWhile head
  · cases tail

/-- What is skipped of a class after members of it lies within the rest. -/
theorem length_dropWhile_append_le {p : Char → Bool} {part : List Char}
    (allowed : ∀ c ∈ part, p c = true) (rest : List Char) :
    ((part ++ rest).dropWhile p).length ≤ rest.length := by
  rw [List.dropWhile_append_of_pos allowed]
  exact (List.dropWhile_suffix p).length_le

/-- The first form is found where it stands, with nothing of it left over. -/
theorem exists_afterBearer {word blanks token signs : List Char} (after : List Char)
    (spelled : word.map fold = "bearer".toList) (apart : blanks ≠ [])
    (blank : ∀ c ∈ blanks, Text.isBlank c = true) (some : token ≠ [])
    (allowed : ∀ c ∈ token, isTokenChar c = true) (closed : ∀ c ∈ signs, c = '=') :
    ∃ rest, afterBearer (word ++ blanks ++ token ++ signs ++ after) = .some rest ∧
      rest.length ≤ after.length := by
  obtain ⟨c, token, rfl⟩ := List.exists_cons_of_ne_nil some
  have first : isTokenChar c = true := allowed c List.mem_cons_self
  have shown : Text.isBlank c = false := by
    by_contra blank
    rw [isTokenChar_of_blank (Bool.of_not_eq_false blank)] at first
    cases first
  have read : afterWord "bearer".toList (word ++ blanks ++ c :: token ++ signs ++ after) =
      Option.some (blanks ++ (c :: token ++ signs ++ after)) :=
    afterWord_eq_some.mpr ⟨word, by simp only [List.append_assoc], spelled⟩
  have body : (blanks ++ (c :: token ++ signs ++ after)).dropWhile Text.isBlank =
      c :: token ++ signs ++ after := by
    rw [List.dropWhile_append_of_pos blank]
    exact List.dropWhile_cons_of_neg (by simp [shown])
  have shorter := List.length_pos_iff.mpr apart
  refine ⟨((c :: token ++ signs ++ after).dropWhile isTokenChar).dropWhile (· == '='), ?_, ?_⟩
  · unfold afterBearer
    rw [read, Option.bind_eq_bind, Option.bind_some, body]
    simp [first, shorter]
  · rw [List.append_assoc, List.dropWhile_append_of_pos allowed]
    cases signs with
    | nil =>
      exact ((List.dropWhile_suffix _).trans (List.dropWhile_suffix _)).length_le
    | cons d signs =>
      -- No sign may stand in a token, so the signs are still there when the token ends.
      have sign : d = '=' := closed d List.mem_cons_self
      have ends : ¬isTokenChar d = true := by
        rw [sign]
        decide
      rw [List.cons_append, List.dropWhile_cons_of_neg ends, ← List.cons_append]
      exact length_dropWhile_append_le (fun c member => by simpa using closed c member) after

theorem afterBearer_of_key {word : List Char} (rest : List Char)
    (spelled : word.map fold = "sk-".toList) : afterBearer (word ++ rest) = none := by
  obtain ⟨c, tail, rfl, first, -⟩ := List.map_eq_cons_iff.mp spelled
  have other : fold c ≠ 'b' := by
    rw [first]
    decide
  have unread : afterWord "bearer".toList (c :: tail ++ rest) = none := if_neg other
  rw [afterBearer, unread]
  rfl

theorem exists_afterKey {word chars : List Char} (after : List Char)
    (spelled : word.map fold = "sk-".toList) (long : leastKeyLength ≤ chars.length)
    (allowed : ∀ c ∈ chars, isKeyChar c = true) :
    ∃ rest, afterKey (word ++ chars ++ after) = some rest ∧ rest.length ≤ after.length := by
  have read : afterWord "sk-".toList (word ++ chars ++ after) = some (chars ++ after) :=
    afterWord_eq_some.mpr ⟨word, List.append_assoc _ _ _, spelled⟩
  have rest := length_dropWhile_append_le allowed after
  refine ⟨(chars ++ after).dropWhile isKeyChar, ?_, rest⟩
  unfold afterKey
  rw [read, Option.bind_eq_bind, Option.bind_some]
  dsimp only
  rw [if_pos]
  rw [List.length_append]
  omega

/-! ## The search -/

/-- What is found at the head of a text, from the length that is reported. -/
theorem length_eq_succ {previous : Option Char} {s : List Char} {n : Nat}
    (found : length previous s = n + 1) : Boundary previous ∧
      ∃ credential after, s = credential ++ after ∧ credential.length = n + 1 ∧
        IsCredential credential ∧ Settled credential after := by
  unfold length at found
  split at found
  · cases found
  · rename_i boundary
    have boundary : Boundary previous := by
      intro c same
      rw [same] at boundary
      exact Bool.of_not_eq_true boundary
    have counted {credential after : List Char} (split : s = credential ++ after)
        (length : s.length - after.length = n + 1) : credential.length = n + 1 := by
      rw [split, List.length_append] at length
      omega
    split at found
    · rename_i after bearer
      obtain ⟨credential, split, form, settled⟩ := afterBearer_found bearer
      exact ⟨boundary, credential, after, split, counted split found, form, settled⟩
    · split at found
      · rename_i after key
        obtain ⟨credential, split, form, settled⟩ := afterKey_found key
        exact ⟨boundary, credential, after, split, counted split found, form, settled⟩
      · cases found

/-- No credential that begins at a boundary is longer than what is found there. -/
theorem le_length {previous : Option Char} (boundary : Boundary previous) {found : List Char}
    (credential : IsCredential found) (after : List Char) :
    found.length ≤ length previous (found ++ after) := by
  have start : ¬(previous.map Text.isWordChar).getD false = true := by
    cases previous with
    | none => decide
    | some c => simp [boundary c rfl]
  have left {rest : List Char} (short : rest.length ≤ after.length) :
      found.length ≤ (found ++ after).length - rest.length := by
    rw [List.length_append]
    omega
  unfold length
  rw [if_neg start]
  cases credential with
  | bearer spelled apart blank some allowed closed =>
    obtain ⟨rest, read, short⟩ := exists_afterBearer after spelled apart blank some allowed closed
    rw [read]
    exact left short
  | @key word chars spelled long allowed =>
    obtain ⟨rest, read, short⟩ := exists_afterKey after spelled long allowed
    have other : afterBearer (word ++ chars ++ after) = none := by
      rw [List.append_assoc]
      exact afterBearer_of_key _ spelled
    rw [other, read]
    exact left short

theorem length_eq_zero_iff {previous : Option Char} {s : List Char} :
    length previous s = 0 ↔ ¬(Boundary previous ∧ Begins s) := by
  constructor
  · rintro none ⟨boundary, found, after, rfl, credential⟩
    have least := le_length boundary credential after
    obtain ⟨c, rest, rfl, -⟩ := credential.first
    rw [none, List.length_cons] at least
    omega
  · intro none
    cases found : length previous s with
    | zero => rfl
    | succ n =>
      obtain ⟨boundary, credential, after, split, -, form, -⟩ := length_eq_succ found
      exact absurd ⟨boundary, credential, after, split, form⟩ none

theorem not_holds_nil (previous : Option Char) : ¬Holds previous [] := by
  rintro ⟨front, rest, split, -, found, after, rfl, credential⟩
  obtain ⟨c, _, rfl, -⟩ := credential.first
  simp at split

/-- A credential stands at the head of a text or behind its first character. -/
theorem holds_cons {previous : Option Char} {c : Char} {s : List Char} :
    Holds previous (c :: s) ↔
      (Boundary previous ∧ Begins (c :: s)) ∨ Holds (some c) s := by
  constructor
  · rintro ⟨front, rest, split, boundary, begins⟩
    cases front with
    | nil => exact .inl ⟨boundary, split ▸ begins⟩
    | cons d front =>
      obtain ⟨rfl, tail⟩ := List.cons.inj split
      refine .inr ⟨front, rest, tail, ?_, begins⟩
      rw [List.getLast?_cons] at boundary
      cases last : front.getLast? <;> simpa [last] using boundary
  · rintro (⟨boundary, begins⟩ | ⟨front, rest, rfl, boundary, begins⟩)
    · exact ⟨[], c :: s, rfl, boundary, begins⟩
    · refine ⟨c :: front, rest, rfl, ?_, begins⟩
      rw [List.getLast?_cons]
      cases last : front.getLast? <;> simpa [last] using boundary

theorem occursAfter_iff {previous : Option Char} {s : List Char} :
    occursAfter previous s = true ↔ Holds previous s := by
  induction s generalizing previous with
  | nil => simp [occursAfter, not_holds_nil]
  | cons c s ih =>
    rw [occursAfter, Bool.or_eq_true, ih, holds_cons, bne_iff_ne, ne_eq, length_eq_zero_iff,
      not_not]

/-- The search finds exactly what stands in a text where a word begins. -/
theorem occurs_iff {s : String} : occurs s = true ↔ Holds none s.toList :=
  occursAfter_iff

/-- A beginning of a text holds no more than the text. -/
theorem Holds.append {previous : Option Char} {s : List Char} (holds : Holds previous s)
    (t : List Char) : Holds previous (s ++ t) := by
  obtain ⟨front, _, rfl, boundary, found, after, rfl, credential⟩ := holds
  exact ⟨front, found ++ after ++ t, List.append_assoc _ _ _, boundary, found, after ++ t,
    List.append_assoc _ _ _, credential⟩

/-- Where no character can be the first of a credential, none begins. -/
theorem Holds.of_append {m s : List Char} {previous : Option Char}
    (holds : Holds previous (m ++ s)) (other : ∀ c ∈ m, ¬(fold c = 'b' ∨ fold c = 's')) :
    Holds (m.getLast?.or previous) s := by
  induction m generalizing previous with
  | nil => exact holds
  | cons c m ih =>
    rw [List.cons_append, holds_cons] at holds
    rcases holds with ⟨-, found, after, split, credential⟩ | holds
    · obtain ⟨d, rest, rfl, first⟩ := credential.first
      obtain rfl : c = d := (List.cons.inj split).1
      exact absurd first (other c List.mem_cons_self)
    · have rest := ih holds fun d member => other d (List.mem_cons_of_mem c member)
      rw [List.getLast?_cons]
      cases last : m.getLast? <;> simpa [last] using rest

/-! ## Scrubbing -/

/-- No credential has a bracket, with which the mark begins. -/
theorem IsCredential.no_bracket {found : List Char} (credential : IsCredential found) :
    '[' ∉ found := by
  have spelt {word letters : List Char} (spelled : word.map fold = letters)
      (other : '[' ∉ letters) : '[' ∉ word := fun member =>
    other (spelled ▸ List.mem_map_of_mem (f := fold) member)
  have outside {p : Char → Bool} {part : List Char} (allowed : ∀ c ∈ part, p c = true)
      (other : p '[' = false) : '[' ∉ part := fun member => by
    rw [allowed _ member] at other
    cases other
  cases credential with
  | bearer spelled apart blank some allowed closed =>
    have word := spelt spelled (by decide)
    have blanks := outside blank (by decide)
    have token := outside allowed (by decide)
    have signs : '[' ∉ _ := fun member => absurd (closed _ member) (by decide)
    simp only [List.mem_append, not_or]
    exact ⟨⟨⟨word, blanks⟩, token⟩, signs⟩
  | key spelled long allowed =>
    simp only [List.mem_append, not_or]
    exact ⟨spelt spelled (by decide), outside allowed (by decide)⟩

theorem scrubFrom_skip (n : Nat) (previous : Option Char) (s : List Char) :
    scrubFrom n previous s = scrubFrom 0 ((s.take n).getLast?.or previous) (s.drop n) := by
  induction n generalizing previous s with
  | zero => rfl
  | succ n ih =>
    cases s with
    | nil => rfl
    | cons c s =>
      rw [scrubFrom, ih, List.take_succ_cons, List.drop_succ_cons, List.getLast?_cons]
      cases (s.take n).getLast? <;> rfl

/-- A credential at the head is replaced, and the search goes on behind it. -/
theorem scrubFrom_found {previous : Option Char} {credential after : List Char} {n : Nat}
    (found : length previous (credential ++ after) = n + 1) (long : credential.length = n + 1) :
    scrubFrom 0 previous (credential ++ after) =
      mark ++ scrubFrom 0 credential.getLast? after := by
  cases credential with
  | nil => cases long
  | cons c credential =>
    have same : credential.length = n := Nat.succ.inj long
    rw [List.cons_append] at found ⊢
    rw [scrubFrom, found]
    dsimp only
    rw [scrubFrom_skip, ← same, List.take_left, List.drop_left, List.getLast?_cons]
    cases credential.getLast? <;> rfl

/-- What has no bracket at the head of a scrubbed text stood at the head of the text. -/
theorem isPrefix_of_scrubFrom {previous : Option Char} {found s : List Char}
    (plain : '[' ∉ found) (head : List.IsPrefix found (scrubFrom 0 previous s)) :
    List.IsPrefix found s := by
  induction s generalizing previous found with
  | nil => exact head
  | cons c s ih =>
    cases found with
    | nil => exact List.nil_prefix
    | cons d found =>
      rw [scrubFrom] at head
      split at head
      · obtain ⟨rfl, tail⟩ := List.cons_prefix_cons.mp head
        exact List.cons_prefix_cons.mpr ⟨rfl, ih (List.not_mem_of_not_mem_cons plain) tail⟩
      · obtain ⟨rfl, -⟩ := List.cons_prefix_cons.mp head
        exact absurd List.mem_cons_self plain

/-- No credential begins within the mark. -/
theorem not_first_of_mem_mark : ∀ c ∈ mark, ¬(fold c = 'b' ∨ fold c = 's') := by
  have other : mark.all (fun c => !(fold c == 'b' || fold c == 's')) = true := by decide
  simpa using other

/-- Scrubbing leaves no credential. The character before the scrubbed text may be another one
than before the text itself, as it is behind a mark, where the text cannot begin with a
credential that was hidden from the search only by the character before it. -/
theorem not_holds_scrubFrom {previous shown : Option Char} {s : List Char}
    (link : Boundary shown → Begins s → Boundary previous) :
    ¬Holds shown (scrubFrom 0 previous s) := by
  cases s with
  | nil => exact not_holds_nil shown
  | cons c s =>
    cases found : length previous (c :: s) with
    | zero =>
      have step : scrubFrom 0 previous (c :: s) = c :: scrubFrom 0 (some c) s := by
        rw [scrubFrom, found]
      intro holds
      rw [step, holds_cons] at holds
      rcases holds with ⟨boundary, word, after, split, credential⟩ | rest
      · have written : List.IsPrefix word (scrubFrom 0 previous (c :: s)) := by
          rw [step, split]
          exact List.prefix_append word after
        obtain ⟨after, split⟩ := isPrefix_of_scrubFrom credential.no_bracket written
        have begins : Begins (c :: s) := ⟨word, after, split.symm, credential⟩
        exact length_eq_zero_iff.mp found ⟨link boundary begins, begins⟩
      · exact not_holds_scrubFrom (fun boundary _ => boundary) rest
    | succ n =>
      obtain ⟨-, credential, after, split, long, -, settled⟩ := length_eq_succ found
      have shorter : after.length < (c :: s).length := by
        rw [split, List.length_append]
        omega
      rw [split] at found ⊢
      rw [scrubFrom_found found long]
      intro holds
      have rest := holds.of_append not_first_of_mem_mark
      refine not_holds_scrubFrom (fun _ begins => ?_) rest
      exact settled.resolve_right (not_not.mpr begins)
termination_by s.length

theorem occurs_scrub (s : String) : occurs (scrub s) = false := by
  rw [← Bool.not_eq_true, occurs_iff, scrub, String.toList_ofList]
  exact not_holds_scrubFrom fun boundary _ => boundary

/-- A beginning of a text without a credential has none. -/
theorem occurs_of_isPrefix {kept : List Char} {s : String} (head : List.IsPrefix kept s.toList)
    (clean : occurs s = false) : occurs (String.ofList kept) = false := by
  rw [← Bool.not_eq_true, occurs_iff] at clean ⊢
  rw [String.toList_ofList]
  obtain ⟨rest, split⟩ := head
  intro holds
  exact clean (split ▸ holds.append rest)

end Flowgraph.Credential
