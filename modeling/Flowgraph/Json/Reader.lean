import Flowgraph.Json.Basic
import Flowgraph.Text.Digit

/-!
# Reading JSON

The standard grammar with the three extra literals `NaN`, `Infinity` and
`-Infinity`. A number with a fraction or an exponent is a floating-point number, any
other an integer. Every function takes the rest of the text and returns what it leaves;
an error says how many characters were left where it arose.

Half a surrogate pair stands for no character, so a text that has one is refused: where
others keep it, this reader says nothing.

Of the limits on time and space only the nesting of arrays and objects is kept, as a
parameter; the source sets none and inherits one that depends on where the reader is
called. The standard value is what was observed of it. An integer is read and written
whatever its length.
-/
namespace Flowgraph.Json

inductive ReadError where
  /-- The text breaks the grammar with `remaining` characters left. -/
  | malformed (remaining : Nat)
  | tooDeep
  /-- A text has half a surrogate pair. -/
  | halfPair
deriving DecidableEq, Repr

/-- Arrays and objects may stand in each other this many times where no other limit is set;
observed, not told by the source. -/
def nestingLimit : Nat := 990

def isJsonBlank (c : Char) : Bool :=
  c == ' ' || c == '\n' || c == '\r' || c == '\t'

def skipBlanks (s : List Char) : List Char :=
  s.dropWhile isJsonBlank

def hexUnit? (a b c d : Char) : Option Nat := do
  let a ← Text.hexValue? a
  let b ← Text.hexValue? b
  let c ← Text.hexValue? c
  let d ← Text.hexValue? d
  return ((a * 16 + b) * 16 + c) * 16 + d

def isHighUnit (n : Nat) : Bool := 55296 ≤ n && n < 56320

def isLowUnit (n : Nat) : Bool := 56320 ≤ n && n < 57344

def joinUnits (high low : Nat) : Char :=
  Char.ofNat (65536 + (high - 55296) * 1024 + (low - 56320))

/-- The characters of a sequence of code points in which pairs of surrogates may stand; none
where half a pair does. -/
def joinSurrogates : List Nat → Option (List Char)
  | [] => some []
  | [n] => if isHighUnit n || isLowUnit n then none else some [Char.ofNat n]
  | n :: m :: rest =>
    if isHighUnit n && isLowUnit m then (joinSurrogates rest).map (joinUnits n m :: ·)
    else if isHighUnit n || isLowUnit n then none
    else (joinSurrogates (m :: rest)).map (Char.ofNat n :: ·)

def unescape? (c : Char) : Option Char :=
  if c == Char.ofNat 34 || c == '\\' || c == '/' then some c
  else if c == 'b' then some (Char.ofNat 8)
  else if c == 'f' then some (Char.ofNat 12)
  else if c == 'n' then some '\n'
  else if c == 'r' then some '\r'
  else if c == 't' then some '\t'
  else none

/-- The code points of a text up to its closing quote. An error says how many characters were
left, or nothing where the text is not closed. -/
def readText (acc : List Nat) : List Char → Except (Option Nat) (List Nat × List Char)
  | [] => .error none
  | '\\' :: [] => .error none
  | '\\' :: 'u' :: a :: b :: c :: d :: rest =>
    match hexUnit? a b c d, rest.isEmpty with
    | some n, false => readText (n :: acc) rest
    | _, _ => .error (some (rest.length + 5))
  | '\\' :: c :: rest =>
    match unescape? c with
    | some e => readText (e.toNat :: acc) rest
    | none => .error (some (rest.length + (if c == 'u' then 1 else 2)))
  | c :: rest =>
    if c == Char.ofNat 34 then .ok (acc.reverse, rest)
    else if c.toNat < 32 then .error (some (rest.length + 1))
    else readText (c.toNat :: acc) rest

/-- A text behind its opening quote; one that is not closed is an error at that quote. -/
def readQuoted (behind : List Char) : Except ReadError (String × List Char) :=
  match readText [] behind with
  | .error remaining => .error (.malformed (remaining.getD (behind.length + 1)))
  | .ok (points, rest) =>
    match joinSurrogates points with
    | some s => .ok (String.ofList s, rest)
    | none => .error .halfPair

/-- The digits of an integer part, without a leading zero before other digits. -/
def readWhole : List Char → Option (List Char × List Char)
  | [] => none
  | c :: rest =>
    if c == '0' then some (['0'], rest)
    else if c.isDigit then some (c :: rest.takeWhile Char.isDigit, rest.dropWhile Char.isDigit)
    else none

def readFraction : List Char → List Char × List Char
  | '.' :: rest =>
    match rest.takeWhile Char.isDigit with
    | [] => ([], '.' :: rest)
    | digits => (digits, rest.dropWhile Char.isDigit)
  | s => ([], s)

/-- The exponent part of a number, if one follows. -/
def readExponent (s : List Char) : Option Int × List Char :=
  match s with
  | c :: rest =>
    if c == 'e' || c == 'E' then
      let (negative, rest') := match rest with
        | '-' :: r => (true, r)
        | '+' :: r => (false, r)
        | r => (false, r)
      match rest'.takeWhile Char.isDigit with
      | [] => (none, s)
      | digits =>
        let n := Int.ofNat (Text.digitsValue digits)
        (some (if negative then -n else n), rest'.dropWhile Char.isDigit)
    else (none, s)
  | [] => (none, s)

/-- An unsigned number and what follows it. -/
def readNumber (negative : Bool) (s : List Char) : Option (Json × List Char) := do
  let (whole, rest) ← readWhole s
  let (fraction, rest) := readFraction rest
  let (exponent, rest) := readExponent rest
  if fraction.isEmpty && exponent.isNone then
    let n := Int.ofNat (Text.digitsValue whole)
    return (int (if negative then -n else n), rest)
  else
    let power := exponent.getD 0 - Int.ofNat fraction.length
    return (float (Binary64.ofDecimal negative (Text.digitsValue (whole ++ fraction)) power), rest)

/-- What follows a fixed word, if the text begins with it. -/
def afterWord (word : List Char) (s : List Char) : Option (List Char) :=
  if word.isPrefixOf s then some (s.drop word.length) else none

def words : List (List Char × Json) :=
  [("null".toList, null), ("true".toList, bool true), ("false".toList, bool false),
   ("NaN".toList, float .nan), ("Infinity".toList, float (.infinity false)),
   ("-Infinity".toList, float (.infinity true))]

/-- A number or a fixed word. -/
def readScalar (s : List Char) : Option (Json × List Char) :=
  match words.findSome? fun (word, v) => (afterWord word s).map (v, ·) with
  | some found => some found
  | none =>
    match s with
    | '-' :: rest => readNumber true rest
    | _ => readNumber false s

mutual

/-- A value at the head of the text. -/
def readValue (fuel depth : Nat) (s : List Char) : Except ReadError (Json × List Char) :=
  match fuel with
  | 0 => .error (.malformed s.length)
  | fuel + 1 =>
    match s with
    | [] => .error (.malformed 0)
    | c :: rest =>
      if c == Char.ofNat 34 then
        (readQuoted rest).map fun (t, rest) => (str t, rest)
      else if c == '[' || c == Char.ofNat 123 then
        match depth with
        | 0 => .error .tooDeep
        | depth + 1 =>
          let inside := skipBlanks rest
          match c == '[', inside with
          | true, ']' :: rest => .ok (arr [], rest)
          | true, _ => readItems fuel depth [] inside
          | false, c' :: rest =>
            if c' == Char.ofNat 125 then .ok (obj [], rest)
            else readMembers fuel depth [] inside
          | false, [] => .error (.malformed 0)
      else
        match readScalar s with
        | some found => .ok found
        | none => .error (.malformed s.length)

/-- The items of an array from the next one on. -/
def readItems (fuel depth : Nat) (acc : List Json) (s : List Char) :
    Except ReadError (Json × List Char) :=
  match fuel with
  | 0 => .error (.malformed s.length)
  | fuel + 1 =>
    match readValue fuel depth s with
    | .error e => .error e
    | .ok (v, rest) =>
      match skipBlanks rest with
      | ']' :: rest => .ok (arr (v :: acc).reverse, rest)
      | ',' :: rest => readItems fuel depth (v :: acc) (skipBlanks rest)
      | rest => .error (.malformed rest.length)

/-- The fields of an object from the next one on. -/
def readMembers (fuel depth : Nat) (acc : List (String × Json)) (s : List Char) :
    Except ReadError (Json × List Char) :=
  match fuel with
  | 0 => .error (.malformed s.length)
  | fuel + 1 =>
    match s with
    | [] => .error (.malformed 0)
    | quote :: rest =>
      if quote != Char.ofNat 34 then .error (.malformed s.length)
      else
        match readQuoted rest with
        | .error e => .error e
        | .ok (key, rest) =>
          match skipBlanks rest with
          | ':' :: rest =>
            match readValue fuel depth (skipBlanks rest) with
            | .error e => .error e
            | .ok (v, rest) =>
              match skipBlanks rest with
              | [] => .error (.malformed 0)
              | c :: rest =>
                if c == Char.ofNat 125 then
                  .ok (obj (Fields.ofPairs ((key, v) :: acc).reverse), rest)
                else if c == ',' then
                  readMembers fuel depth ((key, v) :: acc) (skipBlanks rest)
                else .error (.malformed (rest.length + 1))
          | rest => .error (.malformed rest.length)

end

/-- A text that holds one value and blanks around it. -/
def readChars (limit : Nat) (s : List Char) : Except ReadError Json :=
  match readValue (2 * s.length + 2) limit (skipBlanks s) with
  | .error e => .error e
  | .ok (v, rest) =>
    match skipBlanks rest with
    | [] => .ok v
    | rest => .error (.malformed rest.length)

def readWithin (limit : Nat) (s : String) : Except ReadError Json :=
  readChars limit s.toList

def read (s : String) : Except ReadError Json :=
  readWithin nestingLimit s

end Flowgraph.Json
