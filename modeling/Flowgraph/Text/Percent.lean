import Flowgraph.Text.Digit

/-!
# Percent codes

In an address a character may be written as the bytes of its encoding, each a percent
sign and two hexadecimal digits. What is no percent code stands for itself. Bytes that
encode no character stand for the replacement character.
-/
namespace Flowgraph.Text

/-- The byte that the two characters after a percent sign give. -/
def percentByte? (a b : Char) : Option Nat := do
  return 16 * (← hexValue? a) + (← hexValue? b)

/-- The least number that a sequence of some bytes may encode. -/
def leastOfLength : Nat → Nat
  | 2 => 128
  | 3 => 2048
  | _ => 65536

/-- How many bytes follow a first one, and the bits that it gives. -/
def leadByte? (b : Nat) : Option (Nat × Nat) :=
  if 194 ≤ b && b < 224 then some (1, b - 192)
  else if 224 ≤ b && b < 240 then some (2, b - 224)
  else if 240 ≤ b && b < 245 then some (3, b - 240)
  else none

def continuationBits? (b : Nat) : Option Nat :=
  if 128 ≤ b && b < 192 then some (b - 128) else none

/-- The number that bytes complete, if they are all continuation bytes. -/
def completeBits (bits : Nat) : List Nat → Option Nat
  | [] => some bits
  | b :: rest => (continuationBits? b).bind fun low => completeBits (64 * bits + low) rest

def replacement : Char := Char.ofNat 65533

/-- The character of a sequence of bytes, given by its first byte and the following ones. -/
def decodeBytes? (b : Nat) (rest : List Nat) : Option (Char × List Nat) :=
  if b < 128 then some (Char.ofNat b, rest)
  else do
    let (count, bits) ← leadByte? b
    let n ← completeBits bits (rest.take count)
    if rest.length < count || n < leastOfLength (count + 1) || !(n.isValidChar) then none
    else some (Char.ofNat n, rest.drop count)

/-- The characters that bytes encode. -/
def decodeBytes : Nat → List Nat → List Char
  | 0, _ => []
  | _, [] => []
  | fuel + 1, b :: rest =>
    match decodeBytes? b rest with
    | some (c, rest) => c :: decodeBytes fuel rest
    | none => replacement :: decodeBytes fuel rest

/-- The percent codes at the head of a text, with what follows them. -/
def takePercentBytes : List Char → List Nat × List Char
  | '%' :: a :: b :: rest =>
    match percentByte? a b with
    | some n => let (bytes, rest) := takePercentBytes rest; (n :: bytes, rest)
    | none => ([], '%' :: a :: b :: rest)
  | s => ([], s)

def percentDecodeFrom : Nat → List Char → List Char
  | 0, s => s
  | _, [] => []
  | fuel + 1, c :: rest =>
    match takePercentBytes (c :: rest) with
    | ([], _) => c :: percentDecodeFrom fuel rest
    | (bytes, rest) => decodeBytes bytes.length bytes ++ percentDecodeFrom fuel rest

/-- A text with its percent codes read. -/
def percentDecode (s : List Char) : List Char :=
  percentDecodeFrom s.length s

end Flowgraph.Text
