import Flowgraph.Text.Printable

/-!
# Quoted text

A text in single quotes; in double quotes when it holds a single quote and no double
quote. The backslash, the quote around the text and three control characters are
escaped by a letter or themselves, other characters that are not printable by their
number in two, four or eight hexadecimal digits.
-/
namespace Flowgraph.Text

def singleQuote : Char := Char.ofNat 39

def doubleQuote : Char := Char.ofNat 34

def hexDigits (width n : Nat) : List Char :=
  let digits := Nat.toDigits 16 n
  List.replicate (width - digits.length) '0' ++ digits

def quoteMark (s : List Char) : Char :=
  if s.contains singleQuote && !s.contains doubleQuote then doubleQuote else singleQuote

def escapeQuoted (mark c : Char) : List Char :=
  if c == mark || c == '\\' then ['\\', c]
  else if c == '\n' then ['\\', 'n']
  else if c == '\r' then ['\\', 'r']
  else if c == '\t' then ['\\', 't']
  else if isPrintable c then [c]
  else if c.toNat < 256 then '\\' :: 'x' :: hexDigits 2 c.toNat
  else if c.toNat < 65536 then '\\' :: 'u' :: hexDigits 4 c.toNat
  else '\\' :: 'U' :: hexDigits 8 c.toNat

def quoted (s : List Char) : List Char :=
  let mark := quoteMark s
  mark :: (s.flatMap (escapeQuoted mark) ++ [mark])

/-- The quoted form of a string. -/
def quote (s : String) : String :=
  String.ofList (quoted s.toList)

end Flowgraph.Text
