import Flowgraph.Json.Reader
import Flowgraph.Json.Writer

/-!
# Reading texts back

A written character stands for one number or, above 65535, for a pair of surrogates. The
numbers of a text are read back one character after the other, and pairs are joined again.
-/
namespace Flowgraph

/-! ## Hexadecimal numbers -/

namespace Text

theorem hexDigits_succ {width n : Nat} (some : 0 < width) :
    hexDigits (width + 1) n = hexDigits width (n / 16) ++ [(n % 16).digitChar] := by
  unfold hexDigits
  rw [Nat.toDigits_eq_if (by decide)]
  by_cases small : n < 16
  · rw [if_pos small, Nat.div_eq_of_lt small, Nat.mod_eq_of_lt small, Nat.toDigits_zero]
    have zero : List.replicate width '0' = List.replicate (width - 1) '0' ++ ['0'] := by
      rw [← List.replicate_succ', Nat.sub_add_cancel some]
    simp [zero]
  · rw [if_neg small]
    simp

theorem hexDigits_one {n : Nat} (small : n < 16) : hexDigits 1 n = [n.digitChar] := by
  unfold hexDigits
  rw [Nat.toDigits_of_lt_base small]
  rfl

theorem hexValue?_digitChar {d : Nat} (small : d < 16) : hexValue? d.digitChar = some d := by
  have all : ∀ d < 16, hexValue? d.digitChar = some d := by decide
  exact all d small

end Text

namespace Json

/-- Four hexadecimal digits are read as the number they were written for. -/
theorem exists_hexDigits {n : Nat} (small : n < 65536) :
    ∃ a b c d, Text.hexDigits 4 n = [a, b, c, d] ∧ hexUnit? a b c d = some n := by
  refine ⟨(n / 16 / 16 / 16).digitChar, (n / 16 / 16 % 16).digitChar, (n / 16 % 16).digitChar,
    (n % 16).digitChar, ?_, ?_⟩
  · rw [Text.hexDigits_succ (by decide), Text.hexDigits_succ (by decide),
      Text.hexDigits_succ (by decide), Text.hexDigits_one (by omega)]
    rfl
  · have digit (m : Nat) : Text.hexValue? (m % 16).digitChar = some (m % 16) :=
      Text.hexValue?_digitChar (Nat.mod_lt m (by decide))
    have first := Text.hexValue?_digitChar (show n / 16 / 16 / 16 < 16 by omega)
    simp only [hexUnit?, first, digit, Option.bind_eq_bind, Option.bind_some, Option.pure_def]
    congr 1
    omega

/-! ## Characters -/

/-- The numbers by which a character is written. -/
def units (c : Char) : List Nat :=
  if c.toNat < 65536 then [c.toNat]
  else [55296 + (c.toNat - 65536) / 1024, 56320 + (c.toNat - 65536) % 1024]

variable {c : Char} {tail : List Char}

theorem toNat_lt (c : Char) : c.toNat < 1114112 := by
  rcases c.valid with low | high
  · exact Nat.lt_trans low (by decide)
  · exact high.2

theorem not_surrogate (c : Char) : isHighUnit c.toNat = false ∧ isLowUnit c.toNat = false := by
  unfold isHighUnit isLowUnit
  rcases c.valid with low | high
  · have below : c.toNat < 55296 := low
    simp
    omega
  · have above : 57343 < c.toNat := high.1
    simp
    omega

theorem joinSurrogates_units (c : Char) (rest : List Nat) :
    joinSurrogates (units c ++ rest) = (joinSurrogates rest).map (c :: ·) := by
  obtain ⟨high, low⟩ := not_surrogate c
  unfold units
  split
  · cases rest with
    | nil => simp [joinSurrogates, high, low]
    | cons n rest => simp [joinSurrogates, high, low]
  · have limit := toNat_lt c
    have first : isHighUnit (55296 + (c.toNat - 65536) / 1024) = true := by
      simp [isHighUnit]
      omega
    have second : isLowUnit (56320 + (c.toNat - 65536) % 1024) = true := by
      simp [isLowUnit]
      omega
    have joined : joinUnits (55296 + (c.toNat - 65536) / 1024)
        (56320 + (c.toNat - 65536) % 1024) = c := by
      have number : 65536 + (55296 + (c.toNat - 65536) / 1024 - 55296) * 1024 +
          (56320 + (c.toNat - 65536) % 1024 - 56320) = c.toNat := by omega
      rw [joinUnits, number, Char.ofNat_toNat]
    simp [joinSurrogates, first, second, joined]

theorem joinSurrogates_text (s : List Char) : joinSurrogates (s.flatMap units) = some s := by
  induction s with
  | nil => rfl
  | cons c s ih => rw [List.flatMap_cons, joinSurrogates_units, ih, Option.map_some]

theorem readText_unicodeEscape (acc : List Nat) {n : Nat} (small : n < 65536)
    (onward : tail ≠ []) : readText acc (unicodeEscape n ++ tail) = readText (n :: acc) tail := by
  obtain ⟨a, b, c, d, written, read⟩ := exists_hexDigits small
  have more : tail.isEmpty = false := by simpa using onward
  rw [unicodeEscape, written]
  simp [readText, read, more]

theorem readText_plain (acc : List Nat) (quote : c ≠ Char.ofNat 34) (slash : c ≠ '\\')
    (shown : 32 ≤ c.toNat) : readText acc (c :: tail) = readText (c.toNat :: acc) tail := by
  have visible : ¬c.toNat < 32 := Nat.not_lt.mpr shown
  simp [readText, quote, slash, visible]

/-- A written character is read as its numbers. -/
theorem readText_escapeChar (acc : List Nat) (c : Char) (onward : tail ≠ []) :
    readText acc (escapeChar c ++ tail) = readText ((units c).reverse ++ acc) tail := by
  have ascii (d : Char) (small : d.toNat < 128) : units d = [d.toNat] := if_pos (by omega)
  by_cases quote : c = Char.ofNat 34
  · subst quote
    rfl
  by_cases slash : c = '\\'
  · subst slash
    rfl
  by_cases line : c = '\n'
  · subst line
    rfl
  by_cases back : c = '\r'
  · subst back
    rfl
  by_cases tab : c = '\t'
  · subst tab
    rfl
  by_cases feed : c.toNat = 12
  · obtain rfl : c = Char.ofNat 12 := by rw [← feed, Char.ofNat_toNat]
    rfl
  by_cases bell : c.toNat = 8
  · obtain rfl : c = Char.ofNat 8 := by rw [← bell, Char.ofNat_toNat]
    rfl
  by_cases shown : 32 ≤ c.toNat ∧ c.toNat < 127
  · have written : escapeChar c = [c] := by
      simp [escapeChar, Text.doubleQuote, *]
    rw [written, ascii c (by omega)]
    exact readText_plain acc quote slash shown.1
  by_cases small : c.toNat < 65536
  · have written : escapeChar c = unicodeEscape c.toNat := by
      simp [escapeChar, Text.doubleQuote, *]
    have unit : units c = [c.toNat] := if_pos small
    rw [written, unit]
    exact readText_unicodeEscape acc small onward
  · have limit := toNat_lt c
    have written : escapeChar c = unicodeEscape (55296 + (c.toNat - 65536) / 1024) ++
        unicodeEscape (56320 + (c.toNat - 65536) % 1024) := by
      simp [escapeChar, Text.doubleQuote, *]
    have pair : units c = [55296 + (c.toNat - 65536) / 1024, 56320 + (c.toNat - 65536) % 1024] :=
      if_neg small
    have high : 55296 + (c.toNat - 65536) / 1024 < 65536 := by omega
    have low : 56320 + (c.toNat - 65536) % 1024 < 65536 := by omega
    have more : unicodeEscape (56320 + (c.toNat - 65536) % 1024) ++ tail ≠ [] :=
      List.cons_ne_nil _ _
    rw [written, pair, List.append_assoc, readText_unicodeEscape acc high more,
      readText_unicodeEscape _ low onward]
    rfl

theorem readText_escapes (acc : List Nat) (s tail : List Char) :
    readText acc (s.flatMap escapeChar ++ Char.ofNat 34 :: tail) =
      .ok (acc.reverse ++ s.flatMap units, tail) := by
  induction s generalizing acc with
  | nil =>
    rw [List.flatMap_nil, List.flatMap_nil, List.append_nil]
    rfl
  | cons c s ih =>
    rw [List.flatMap_cons, List.append_assoc, readText_escapeChar acc c (by simp), ih]
    simp

/-- A text is read back from its written form. -/
theorem readQuoted_writeText (s : String) (tail : List Char) :
    ∃ behind, writeText s ++ tail = Char.ofNat 34 :: behind ∧
      readQuoted behind = .ok (s, tail) := by
  refine ⟨s.toList.flatMap escapeChar ++ Char.ofNat 34 :: tail, ?_, ?_⟩
  · simp [writeText, Text.doubleQuote]
  · rw [readQuoted, readText_escapes, List.reverse_nil, List.nil_append]
    simp only [joinSurrogates_text, String.ofList_toList]

/-- Half a surrogate pair is refused, with a character behind it too. -/
example : readQuoted ['\\', 'u', 'd', '8', '3', 'd', 'a', Char.ofNat 34] = .error .halfPair :=
  rfl

end Json
end Flowgraph
