import Flowgraph.Decimal.Binary
import Flowgraph.Text.Integer

/-!
# Numbers in lenient text

A decimal number may have blanks around it, a sign, a fraction and an exponent, or be one
of the words for infinity and not-a-number. A whole number may have a fraction of zeros.
In both, single underscores may stand between other characters.
-/
namespace Flowgraph.Numeral

/-- The text without its underscores, if they stand one by one between other characters. -/
def dropUnderscores (s : List Char) : Option (List Char) :=
  let rec doubled : List Char → Bool
    | '_' :: '_' :: _ => true
    | _ :: rest => doubled rest
    | [] => false
  if !s.contains '_' || s.head? == some '_' || s.getLast? == some '_' || doubled s then none
  else some (s.filter (· != '_'))

def splitDigits (s : List Char) : List Char × List Char :=
  (s.takeWhile Char.isDigit, s.dropWhile Char.isDigit)

/-- The exponent at the end of a decimal, zero where there is none. -/
def exponent? : List Char → Option Int
  | [] => some 0
  | c :: rest =>
    if c != 'e' && c != 'E' then none
    else
      let (negative, rest) := Text.splitSign rest
      match splitDigits rest with
      | ([], _) => none
      | (digits, []) =>
        let n := Int.ofNat (Text.digitsValue digits)
        some (if negative then -n else n)
      | _ => none

/-- An unsigned decimal with a fraction and an exponent, or one of the two special values. -/
def unsigned? (negative : Bool) (s : List Char) : Option Binary64 :=
  let word := String.ofList (s.map Char.toLower)
  if word == "inf" || word == "infinity" then some (.infinity negative)
  else if word == "nan" then some .nan
  else
    let (whole, rest) := splitDigits s
    let (fraction, rest) := match rest with
      | '.' :: rest => splitDigits rest
      | rest => ([], rest)
    if whole.isEmpty && fraction.isEmpty then none
    else
      (exponent? rest).map fun e =>
        let digits := Text.digitsValue (whole ++ fraction)
        Binary64.ofDecimal negative digits (e - Int.ofNat fraction.length)

def decimal? (s : List Char) : Option Binary64 :=
  let (negative, rest) := Text.splitSign s
  unsigned? negative rest

/-- The number that a text states. -/
def float? (s : String) : Option Binary64 :=
  match decimal? (Text.trimBy Text.isWhiteSpace s.toList) with
  | some x => some x
  | none => (dropUnderscores s.toList).bind decimal?

/-- A text without a fraction of zeros. -/
def dropZeroFraction (s : List Char) : List Char :=
  match s.dropWhile (· != '.') with
  | '.' :: zeros => if zeros.all (· == '0') then s.takeWhile (· != '.') else s
  | _ => s

/-- The whole number that a text states. -/
def integer? (s : String) : Option Int :=
  let (negative, body) := Text.splitSign (Text.trimBy Text.isWhiteSpace s.toList)
  let body := dropZeroFraction body
  let digits := (dropUnderscores body).getD body
  if digits.isEmpty || !digits.all Char.isDigit then none
  else
    let n := Int.ofNat (Text.digitsValue digits)
    some (if negative then -n else n)

end Flowgraph.Numeral
