import Flowgraph.Text.Blank
import Flowgraph.Text.Digit

/-!
# Integers in text

White space around the number is dropped, a sign may stand before it, and the digits may
be of any script; single underscores may separate them. A number of more than 4300
digits is refused. That limit, the usual one of the source's run time, is kept here only,
where callers tell it apart from other refusals; JSON numbers have none.
-/
namespace Flowgraph.Text

inductive IntegerError where
  | malformed
  | tooLong (digits : Nat)
deriving DecidableEq, Repr

def integerDigitLimit : Nat := 4300

/-- The values of digits in which an underscore may follow each digit but the last. -/
def digitValues? (s : List Char) : Option (List Nat) :=
  match s with
  | [] => none
  | [c] => (digitValue? c).map ([·])
  | c :: '_' :: rest => do
    let d ← digitValue? c
    let ds ← digitValues? rest
    return d :: ds
  | c :: next :: rest => do
    let d ← digitValue? c
    let ds ← digitValues? (next :: rest)
    return d :: ds

def valueOfDigits (ds : List Nat) : Nat :=
  ds.foldl (fun n d => n * 10 + d) 0

def splitSign : List Char → Bool × List Char
  | '-' :: rest => (true, rest)
  | '+' :: rest => (false, rest)
  | s => (false, s)

def readInteger (s : List Char) : Except IntegerError Int :=
  let (negative, digits) := splitSign (trimBy isWhiteSpace s)
  match digitValues? digits with
  | none => .error .malformed
  | some ds =>
    if integerDigitLimit < ds.length then .error (.tooLong ds.length)
    else
      let n := Int.ofNat (valueOfDigits ds)
      .ok (if negative then -n else n)

end Flowgraph.Text
