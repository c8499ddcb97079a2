import Flowgraph.Json.Basic
import Flowgraph.Text.Quoted

/-!
# Writing JSON

Everything but the 95 graphic ASCII characters is escaped, above 65535 as a pair of
surrogates. A style either separates items on one line or indents each item on a line of
its own; empty arrays and objects stay closed. Integers of any length and values of any
nesting are written.
-/
namespace Flowgraph.Json

structure Style where
  itemSeparator : List Char
  keySeparator : List Char
  /-- The indentation of one level; none writes everything on one line. -/
  indent : Option (List Char)

namespace Style

def spaced : Style := ⟨[',', ' '], [':', ' '], none⟩

def compact : Style := ⟨[','], [':'], none⟩

/-- One item a line, `n` blanks a level. -/
def indented (n : Nat) : Style := ⟨[','], [':', ' '], some (List.replicate n ' ')⟩

/-- What stands before an item at a level. -/
def lineBreak (style : Style) (level : Nat) : List Char :=
  match style.indent with
  | none => []
  | some unit => '\n' :: (List.replicate level unit).flatten

end Style

def unicodeEscape (n : Nat) : List Char :=
  '\\' :: 'u' :: Text.hexDigits 4 n

def escapeChar (c : Char) : List Char :=
  if c == Text.doubleQuote || c == '\\' then ['\\', c]
  else if c == '\n' then ['\\', 'n']
  else if c == '\r' then ['\\', 'r']
  else if c == '\t' then ['\\', 't']
  else if c.toNat == 12 then ['\\', 'f']
  else if c.toNat == 8 then ['\\', 'b']
  else if 32 ≤ c.toNat && c.toNat < 127 then [c]
  else if c.toNat < 65536 then unicodeEscape c.toNat
  else
    let n := c.toNat - 65536
    unicodeEscape (55296 + n / 1024) ++ unicodeEscape (56320 + n % 1024)

def writeText (s : String) : List Char :=
  Text.doubleQuote :: (s.toList.flatMap escapeChar ++ [Text.doubleQuote])

def writeFloat (x : Binary64) : List Char :=
  x.write "Infinity".toList "NaN".toList

mutual

def writeAt (style : Style) (level : Nat) : Json → List Char
  | null => "null".toList
  | bool b => (if b then "true" else "false").toList
  | int i => (toString i).toList
  | float x => writeFloat x
  | str s => writeText s
  | arr [] => ['[', ']']
  | arr (v :: rest) =>
    '[' :: (style.lineBreak (level + 1) ++ writeAt style (level + 1) v ++
      (writeItems style (level + 1) rest ++ (style.lineBreak level ++ [']'])))
  | obj [] => [Char.ofNat 123, Char.ofNat 125]
  | obj ((k, v) :: rest) =>
    Char.ofNat 123 :: (style.lineBreak (level + 1) ++ writeText k ++ style.keySeparator ++
      writeAt style (level + 1) v ++
      (writeFields style (level + 1) rest ++ (style.lineBreak level ++ [Char.ofNat 125])))

/-- The items after the first one. -/
def writeItems (style : Style) (level : Nat) : List Json → List Char
  | [] => []
  | v :: rest =>
    style.itemSeparator ++ style.lineBreak level ++ writeAt style level v ++
      writeItems style level rest

/-- The fields after the first one. -/
def writeFields (style : Style) (level : Nat) : List (String × Json) → List Char
  | [] => []
  | (k, v) :: rest =>
    style.itemSeparator ++ style.lineBreak level ++ writeText k ++ style.keySeparator ++
      writeAt style level v ++ writeFields style level rest

end

def write (style : Style) (v : Json) : String :=
  String.ofList (writeAt style 0 v)

end Flowgraph.Json
