import Flowgraph.Json.Literal
import Flowgraph.Json.Writer
import Flowgraph.Proofs.Text.NumberText

/-!
# The two written forms of a value

A value is written as a literal in messages and as JSON elsewhere. Which values have the
same text in both forms is told by the shape of the value alone. Where the texts differ,
neither of them begins with the other, and so the values that hold them differ as well.
-/
namespace Flowgraph

/-- Two texts that differ at a place which both of them have. -/
inductive Apart : List Char → List Char → Prop
  | head {c d : Char} (a b : List Char) (ne : c ≠ d) : Apart (c :: a) (d :: b)
  | tail (c : Char) {a b : List Char} (rest : Apart a b) : Apart (c :: a) (c :: b)

/-- Two texts that are the same, or are apart. -/
inductive Compared : Bool → List Char → List Char → Prop
  | same (a : List Char) : Compared true a a
  | apart {a b : List Char} (h : Apart a b) : Compared false a b

namespace Apart

theorem ne {a b : List Char} (h : Apart a b) : a ≠ b := by
  induction h with
  | head a b ne => exact fun same => ne (List.cons.inj same).1
  | tail c _ ih => exact fun same => ih (List.cons.inj same).2

theorem append {a b : List Char} (h : Apart a b) (x y : List Char) : Apart (a ++ x) (b ++ y) := by
  induction h with
  | head a b ne => exact .head (a ++ x) (b ++ y) ne
  | tail c _ ih => exact .tail c ih

theorem prepend {a b : List Char} (h : Apart a b) (p : List Char) : Apart (p ++ a) (p ++ b) := by
  induction p with
  | nil => exact h
  | cons c p ih => exact .tail c ih

end Apart

namespace Compared

theorem eq_iff {same : Bool} {a b : List Char} (h : Compared same a b) :
    a = b ↔ same = true := by
  cases h with
  | same => simp
  | apart h => simp [h.ne]

theorem append {s t : Bool} {a b x y : List Char} (first : Compared s a b)
    (second : Compared t x y) : Compared (s && t) (a ++ x) (b ++ y) := by
  cases first with
  | apart h => exact .apart (h.append x y)
  | same =>
    cases second with
    | same => exact .same _
    | apart h => exact .apart (h.prepend a)

theorem cons (c : Char) {s : Bool} {a b : List Char} (h : Compared s a b) :
    Compared s (c :: a) (c :: b) := by
  cases h with
  | same => exact .same _
  | apart h => exact .apart (.tail c h)

/-- Whatever comes before, texts that go on differently are apart. -/
theorem append_apart {s : Bool} {a b x y : List Char} (first : Compared s a b)
    (second : Apart x y) : Apart (a ++ x) (b ++ y) := by
  cases first with
  | same => exact second.prepend a
  | apart h => exact h.append x y

end Compared

/-! ## Texts in quotes -/

/-- Both forms write a character of a text in double quotes alike. -/
def Text.escapedAlike (c : Char) : Bool :=
  c == '\n' || c == '\r' || c == '\t' || (32 ≤ c.toNat && c.toNat < 127) ||
    (!isPrintable c && 256 ≤ c.toNat && c.toNat < 65536)

/-- Both forms of a text stand in double quotes and escape every character alike. -/
def Text.quotedAlike (s : List Char) : Bool :=
  s.contains singleQuote && !s.contains doubleQuote && s.all escapedAlike

theorem printable_iff_of_lt {c : Char} (ascii : c.toNat < 128) :
    Text.isPrintable c = true ↔ 32 ≤ c.toNat ∧ c.toNat < 127 := by
  simp [Text.isPrintable, ascii]

theorem unicodeEscape_append (n : Nat) (s : List Char) :
    ∃ rest, Json.unicodeEscape n ++ s = '\\' :: 'u' :: rest :=
  ⟨Text.hexDigits 4 n ++ s, rfl⟩

/-- JSON escapes a character beyond ASCII by its number. -/
theorem escapeChar_of_le {c : Char} (beyond : 128 ≤ c.toNat) :
    ∃ rest, Json.escapeChar c = '\\' :: 'u' :: rest ∧
      (c.toNat < 65536 → rest = Text.hexDigits 4 c.toNat) := by
  have other (d : Char) (ascii : d.toNat < 128) : c ≠ d := by
    rintro rfl
    omega
  have range : (decide (32 ≤ c.toNat) && decide (c.toNat < 127)) = false := by
    simp
    omega
  unfold Json.escapeChar
  simp only [beq_iff_eq, other Text.doubleQuote (by decide), other '\\' (by decide),
    other '\n' (by decide), other '\r' (by decide), other '\t' (by decide), range,
    show c.toNat ≠ 12 by omega, show c.toNat ≠ 8 by omega, Bool.or_eq_true, or_self, if_false,
    Bool.false_eq_true]
  split
  · exact ⟨Text.hexDigits 4 c.toNat, rfl, fun _ => rfl⟩
  · rename_i large
    obtain ⟨rest, written⟩ := unicodeEscape_append (55296 + (c.toNat - 65536) / 1024)
      (Json.unicodeEscape (56320 + (c.toNat - 65536) % 1024))
    exact ⟨rest, written, fun small => False.elim (large small)⟩

/-- The other control characters of ASCII are escaped by a letter or by their number. -/
theorem escapeChar_of_control {c : Char} (hidden : Text.isPrintable c = false)
    (ascii : c.toNat < 128) (line : c ≠ '\n') (back : c ≠ '\r') (tab : c ≠ '\t') :
    ∃ d rest, Json.escapeChar c = '\\' :: d :: rest ∧ d ≠ 'x' := by
  have range : ¬(32 ≤ c.toNat ∧ c.toNat < 127) := by
    rw [← printable_iff_of_lt ascii, hidden]
    simp
  have quote : c ≠ Text.doubleQuote := by
    rintro rfl
    exact range (by decide)
  have slash : c ≠ '\\' := by
    rintro rfl
    exact range (by decide)
  by_cases feed : c.toNat = 12
  · exact ⟨'f', [], by simp [Json.escapeChar, *], by decide⟩
  by_cases bell : c.toNat = 8
  · exact ⟨'b', [], by simp [Json.escapeChar, *], by decide⟩
  have small : c.toNat < 65536 := by omega
  refine ⟨'u', Text.hexDigits 4 c.toNat, ?_, by decide⟩
  simp only [Json.escapeChar, beq_iff_eq, quote, slash, line, back, tab, feed, bell, small,
    Bool.or_eq_true, Bool.and_eq_true, decide_eq_true_eq, range, or_self, if_false, if_true]
  rfl

theorem escapedAlike_eq {c : Char} (line : c ≠ '\n') (back : c ≠ '\r') (tab : c ≠ '\t') :
    Text.escapedAlike c = ((32 ≤ c.toNat && c.toNat < 127) ||
      (!Text.isPrintable c && 256 ≤ c.toNat && c.toNat < 65536)) := by
  simp only [Text.escapedAlike, beq_false_of_ne line, beq_false_of_ne back, beq_false_of_ne tab,
    Bool.false_or]

theorem escape_compared_printable {c : Char} (shown : Text.isPrintable c = true)
    (quote : c ≠ Text.doubleQuote) (slash : c ≠ '\\') (line : c ≠ '\n') (back : c ≠ '\r')
    (tab : c ≠ '\t') :
    Compared (Text.escapedAlike c) (Text.escapeQuoted Text.doubleQuote c) (Json.escapeChar c) := by
  have quoted : Text.escapeQuoted Text.doubleQuote c = [c] := by
    simp [Text.escapeQuoted, quote, slash, line, back, tab, shown]
  rw [escapedAlike_eq line back tab, quoted]
  by_cases ascii : c.toNat < 128
  · obtain ⟨low, high⟩ := (printable_iff_of_lt ascii).mp shown
    have written : Json.escapeChar c = [c] := by
      simp [Json.escapeChar, quote, slash, line, back, tab, low, high,
        show c.toNat ≠ 12 by omega, show c.toNat ≠ 8 by omega]
    rw [written]
    simpa [low, high] using Compared.same [c]
  · obtain ⟨rest, written, _⟩ := escapeChar_of_le (Nat.le_of_not_lt ascii)
    have beyond : ¬c.toNat < 127 := by omega
    rw [written]
    simpa [shown, beyond] using Compared.apart (Apart.head [] ('u' :: rest) slash)

/-- The literal form tells the width of a number by a letter; JSON always writes four digits. -/
theorem escape_compared_hidden {c : Char} (hidden : Text.isPrintable c = false)
    (quote : c ≠ Text.doubleQuote) (slash : c ≠ '\\') (line : c ≠ '\n') (back : c ≠ '\r')
    (tab : c ≠ '\t') :
    Compared (Text.escapedAlike c) (Text.escapeQuoted Text.doubleQuote c) (Json.escapeChar c) := by
  have range : ¬(32 ≤ c.toNat ∧ c.toNat < 127) := by
    intro range
    rw [(printable_iff_of_lt (by omega)).mpr range] at hidden
    cases hidden
  have range : (decide (32 ≤ c.toNat) && decide (c.toNat < 127)) = false := by simpa using range
  have quoted : Text.escapeQuoted Text.doubleQuote c =
      if c.toNat < 256 then '\\' :: 'x' :: Text.hexDigits 2 c.toNat
      else if c.toNat < 65536 then '\\' :: 'u' :: Text.hexDigits 4 c.toNat
      else '\\' :: 'U' :: Text.hexDigits 8 c.toNat := by
    simp [Text.escapeQuoted, quote, slash, line, back, tab, hidden]
  rw [escapedAlike_eq line back tab, quoted, range, hidden]
  by_cases small : c.toNat < 256
  · obtain ⟨d, rest, written, other⟩ : ∃ d rest, Json.escapeChar c = '\\' :: d :: rest ∧
        d ≠ 'x' := by
      by_cases ascii : c.toNat < 128
      · exact escapeChar_of_control hidden ascii line back tab
      · obtain ⟨rest, written, _⟩ := escapeChar_of_le (Nat.le_of_not_lt ascii)
        exact ⟨'u', rest, written, by decide⟩
    have low : ¬256 ≤ c.toNat := by omega
    rw [written]
    simpa [small, low] using Compared.apart (.tail '\\' (.head _ rest (Ne.symm other)))
  · obtain ⟨rest, written, number⟩ := escapeChar_of_le (c := c) (by omega)
    have high : 256 ≤ c.toNat := by omega
    rw [written]
    by_cases middle : c.toNat < 65536
    · rw [number middle]
      simpa [small, middle, high] using
        Compared.same ('\\' :: 'u' :: Text.hexDigits 4 c.toNat)
    · simpa [small, middle] using
        Compared.apart (.tail '\\' (.head (Text.hexDigits 8 c.toNat) rest (by decide)))

theorem escape_compared {c : Char} (quote : c ≠ Text.doubleQuote) :
    Compared (Text.escapedAlike c) (Text.escapeQuoted Text.doubleQuote c) (Json.escapeChar c) := by
  by_cases slash : c = '\\'
  · subst slash
    exact .same _
  by_cases line : c = '\n'
  · subst line
    exact .same _
  by_cases back : c = '\r'
  · subst back
    exact .same _
  by_cases tab : c = '\t'
  · subst tab
    exact .same _
  cases shown : Text.isPrintable c with
  | true => exact escape_compared_printable shown quote slash line back tab
  | false => exact escape_compared_hidden shown quote slash line back tab

theorem escapes_compared {s : List Char} (other : Text.doubleQuote ∉ s) :
    Compared (s.all Text.escapedAlike) (s.flatMap (Text.escapeQuoted Text.doubleQuote))
      (s.flatMap Json.escapeChar) := by
  induction s with
  | nil => exact .same []
  | cons c s ih =>
    obtain ⟨first, rest⟩ := not_or.mp (mt List.mem_cons.mpr other)
    exact (escape_compared (Ne.symm first)).append (ih rest)

theorem quoted_compared (s : String) :
    Compared (Text.quotedAlike s.toList) (Text.quoted s.toList) (Json.writeText s) := by
  unfold Text.quotedAlike Text.quoted Json.writeText Text.quoteMark
  cases mark : s.toList.contains Text.singleQuote && !s.toList.contains Text.doubleQuote with
  | false => exact .apart (.head _ _ (by decide))
  | true =>
    have other : Text.doubleQuote ∉ s.toList := by simpa using (Bool.and_eq_true_iff.mp mark).2
    have whole := ((escapes_compared other).append (.same [Text.doubleQuote])).cons Text.doubleQuote
    simpa using whole

/-! ## First characters -/

/-- A text that has a first character, but not this one. -/
def BeginsWithout (d : Char) (s : List Char) : Prop :=
  ∃ c rest, s = c :: rest ∧ c ≠ d

theorem beginsWithout_of_forall {d : Char} {s : List Char} (some : s ≠ [])
    (other : ∀ c ∈ s, c ≠ d) : BeginsWithout d s := by
  obtain ⟨c, rest, rfl⟩ := List.exists_cons_of_ne_nil some
  exact ⟨c, rest, rfl, other c List.mem_cons_self⟩

theorem int_begins {d : Char} (minus : d ≠ '-') (digit : d.isDigit = false) (i : Int) :
    BeginsWithout d (toString i).toList :=
  beginsWithout_of_forall (toString_int_ne_nil i)
    fun _ hc => (integerChar_of_mem_toString hc).ne minus digit

theorem float_begins {d : Char} (minus : d ≠ '-') (digit : d.isDigit = false)
    (other : d ∉ ['+', '.', 'e']) {infinity nan : List Char} (inf : BeginsWithout d infinity)
    (undefined : BeginsWithout d nan) (x : Binary64) :
    BeginsWithout d (x.write infinity nan) := by
  cases x with
  | finite negative m e =>
    refine beginsWithout_of_forall ?_ fun _ hc =>
      (Binary64.numberChar_of_mem_write hc).ne minus digit other
    rcases Binary64.hasPoint_write negative m e infinity nan with point | power
    · exact List.ne_nil_of_mem point
    · exact List.ne_nil_of_mem power
  | infinity negative =>
    cases negative with
    | true => exact ⟨'-', infinity, rfl, Ne.symm minus⟩
    | false => exact inf
  | nan => exact undefined

namespace Json

theorem writeAt_begins (level : Nat) (v : Json) :
    BeginsWithout ' ' (writeAt .compact level v) := by
  cases v with
  | null => exact ⟨_, _, rfl, by decide⟩
  | bool b => cases b <;> exact ⟨_, _, rfl, by decide⟩
  | int i => exact int_begins (by decide) (by decide) i
  | float x =>
    exact float_begins (by decide) (by decide) (by decide) ⟨_, _, rfl, by decide⟩
      ⟨_, _, rfl, by decide⟩ x
  | str s => exact ⟨_, _, rfl, by decide⟩
  | arr items => cases items <;> exact ⟨_, _, rfl, by decide⟩
  | obj fields => cases fields <;> exact ⟨_, _, rfl, by decide⟩

theorem quoted_begins (s : List Char) : BeginsWithout '$' (Text.quoted s) := by
  refine ⟨_, _, rfl, ?_⟩
  unfold Text.quoteMark
  split <;> decide

theorem literalChars_begins (v : Json) : BeginsWithout '$' v.literalChars := by
  cases v with
  | null => exact ⟨_, _, rfl, by decide⟩
  | bool b => cases b <;> exact ⟨_, _, rfl, by decide⟩
  | int i => exact int_begins (by decide) (by decide) i
  | float x =>
    exact float_begins (by decide) (by decide) (by decide) ⟨_, _, rfl, by decide⟩
      ⟨_, _, rfl, by decide⟩ x
  | str s => exact quoted_begins s.toList
  | arr items => exact ⟨_, _, rfl, by decide⟩
  | obj fields => exact ⟨_, _, rfl, by decide⟩

/-! ## Both forms of a value -/

/-- Whether a value has the same text as a literal and as JSON. -/
def sameForms : Json → Bool
  | int _ => true
  | float x => x.isFinite
  | str s => Text.quotedAlike s.toList
  | arr [] | obj [] => true
  | arr [v] => sameForms v
  | _ => false

theorem float_compared (x : Binary64) : Compared x.isFinite x.display (writeFloat x) := by
  cases x with
  | finite negative m e => cases m <;> exact .same _
  | infinity negative =>
    cases negative with
    | true => exact .apart (.tail '-' (.head _ _ (by decide)))
    | false => exact .apart (.head _ _ (by decide))
  | nan => exact .apart (.head _ _ (by decide))

theorem commaSeparated_cons (s : List Char) (l : List (List Char)) :
    ∃ more, commaSeparated (s :: l) = s ++ more := by
  cases l with
  | nil => exact ⟨[], (List.append_nil s).symm⟩
  | cons t l => exact ⟨_, rfl⟩

theorem literal_compared (level : Nat) (v : Json) :
    Compared v.sameForms v.literalChars (writeAt .compact level v) := by
  match v with
  | null => exact .apart (.head _ _ (by decide))
  | bool b => cases b <;> exact .apart (.head _ _ (by decide))
  | int i => exact .same _
  | float x => exact float_compared x
  | str s => exact quoted_compared s
  | arr [] => exact .same _
  | obj [] => exact .same _
  | arr [v] =>
    have whole := ((literal_compared (level + 1) v).append (.same [']'])).cons '['
    rw [Bool.and_true] at whole
    exact whole
  | arr (v :: w :: rest) =>
    -- The literal form has a blank after the comma, and no JSON text begins with one.
    obtain ⟨c, text, written, other⟩ := writeAt_begins (level + 1) w
    refine .apart (.tail '[' ?_)
    simp only [literalItems, commaSeparated, writeItems, List.append_assoc, List.cons_append]
    refine (literal_compared (level + 1) v).append_apart (.tail ',' ?_)
    rw [written]
    exact .head _ _ (Ne.symm other)
  | obj ((k, v) :: rest) =>
    obtain ⟨c, text, written, other⟩ := writeAt_begins (level + 1) v
    obtain ⟨more, listed⟩ := commaSeparated_cons
      (Text.quoted k.toList ++ ':' :: ' ' :: literalChars v) (literalFields rest)
    refine .apart (.tail (Char.ofNat 123) ?_)
    simp only [literalFields, listed, List.append_assoc, List.cons_append, Style.compact,
      Style.lineBreak, List.nil_append]
    refine (quoted_compared k).append_apart (.tail ':' ?_)
    rw [← Style.compact, written]
    exact .head _ _ (Ne.symm other)

end Json
end Flowgraph
