import Flowgraph.Text.Case

/-!
# Comparison without regard to case

Two characters are the same but for their case when their small letters are, or when
their small letters share a capital. Each class of small letters with a common capital is
listed once, and its first member stands for it.
-/
namespace Flowgraph.Text

/-- Small letters that share a capital. -/
def smallLetterClasses : List (List Nat) :=
  [[105, 305], [115, 383], [181, 956], [837, 953, 8126], [912, 8147], [944, 8163], [946, 976],
   [949, 1013], [952, 977], [954, 1008], [960, 982], [961, 1009], [962, 963], [966, 981],
   [1074, 7296], [1076, 7297], [1086, 7298], [1089, 7299], [1090, 7300, 7301], [1098, 7302],
   [1123, 7303], [7304, 42571], [7777, 7835], [64261, 64262]]

/-- The small letter that stands for all forms of a character. -/
def foldCase (c : Char) : Char :=
  let small := lowerChar c
  match smallLetterClasses.find? (·.contains small.toNat) with
  | some (first :: _) => Char.ofNat first
  | _ => small

/-- The small letters that one small letter stands for. -/
def smallForms (c : Char) : List Char :=
  match smallLetterClasses.find? (·.contains c.toNat) with
  | some members => members.map Char.ofNat
  | none => [c]

/-- The characters whose small letter is a given one. -/
def withCapitals (c : Char) : List Char :=
  let n := Int.ofNat c.toNat
  let capitals := lowerRuns.filterMap fun (first, last, stride, shift) =>
    let m := (n - shift).toNat
    if first ≤ m && m ≤ last && (m - first) % stride == 0 then some (Char.ofNat m) else none
  let ascii := if c.isLower then [c.toUpper] else []
  let dotted := if c == 'i' then [Char.ofNat 304] else []
  c :: (ascii ++ dotted ++ capitals)

/-- All forms of a character. -/
def caseForms (c : Char) : List Char :=
  (smallForms (foldCase c)).flatMap withCapitals

end Flowgraph.Text
