import Flowgraph.Text.Blank
import Flowgraph.Text.Word

/-!
# Credentials in text

Two forms are recognised, in any case, at the beginning of a word: `bearer`, blanks and
a token, with equals signs at its end; and `sk-` with at least eight letters, digits,
underscores or hyphens. Letters are compared as ASCII small letters; the long s, the
Kelvin sign and the two Turkish letters i count as the letters that they fold to.
-/
namespace Flowgraph.Credential

/-- The ASCII small letter that a character is compared as, itself where there is none. -/
def fold (c : Char) : Char :=
  if c.toNat = 383 then 's'
  else if c.toNat = 8490 then 'k'
  else if c.toNat = 304 || c.toNat = 305 then 'i'
  else c.toLower

/-- What follows a word that is written in ASCII small letters. -/
def afterWord : List Char → List Char → Option (List Char)
  | [], s => some s
  | _ :: _, [] => none
  | w :: word, c :: s => if fold c = w then afterWord word s else none

def isKeyChar (c : Char) : Bool :=
  let c := fold c
  c.isLower || c.isDigit || c == '_' || c == '-'

def isTokenChar (c : Char) : Bool :=
  let c := fold c
  c.isLower || c.isDigit || ['.', '_', '~', '+', '/', '-'].contains c

/-- What follows a bearer credential at the head of a text. -/
def afterBearer (s : List Char) : Option (List Char) := do
  let rest ← afterWord "bearer".toList s
  let token := rest.dropWhile Text.isBlank
  if token.length < rest.length && (token.head?.map isTokenChar).getD false then
    some ((token.dropWhile isTokenChar).dropWhile (· == '='))
  else none

def leastKeyLength : Nat := 8

/-- What follows a secret key at the head of a text. -/
def afterKey (s : List Char) : Option (List Char) := do
  let rest ← afterWord "sk-".toList s
  let after := rest.dropWhile isKeyChar
  if leastKeyLength ≤ rest.length - after.length then some after else none

/-- How many characters a credential at the head of a text has, zero where there is none. -/
def length (previous : Option Char) (s : List Char) : Nat :=
  if (previous.map Text.isWordChar).getD false then 0
  else
    match afterBearer s with
    | some rest => s.length - rest.length
    | none =>
      match afterKey s with
      | some rest => s.length - rest.length
      | none => 0

/-- Whether a credential stands anywhere in a text that follows a character. -/
def occursAfter : Option Char → List Char → Bool
  | _, [] => false
  | previous, c :: rest => length previous (c :: rest) != 0 || occursAfter (some c) rest

def occurs (s : String) : Bool :=
  occursAfter none s.toList

def mark : List Char := "[REDACTED]".toList

/-- Puts the mark in place of every credential; `skip` characters belong to the last one. -/
def scrubFrom : Nat → Option Char → List Char → List Char
  | _, _, [] => []
  | skip + 1, _, c :: rest => scrubFrom skip (some c) rest
  | 0, previous, c :: rest =>
    match length previous (c :: rest) with
    | 0 => c :: scrubFrom 0 (some c) rest
    | n + 1 => mark ++ scrubFrom n (some c) rest

/-- A text with the mark in place of every credential. -/
def scrub (s : String) : String :=
  String.ofList (scrubFrom 0 none s.toList)

end Flowgraph.Credential
