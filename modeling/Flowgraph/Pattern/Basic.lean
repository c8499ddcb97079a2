import Flowgraph.Text.Blank
import Flowgraph.Text.CaseFold
import Flowgraph.Text.Digit
import Flowgraph.Text.Word

/-!
# Patterns

Regular expressions with groups, references back to them and looks around. How letter
case, line breaks and scripts are taken is fixed where it matters, at the single
characters, sets and anchors.
-/
namespace Flowgraph

/-- How a pattern is read and what its parts match. -/
structure PatternFlags where
  ignoreCase : Bool := false
  multiline : Bool := false
  dotAll : Bool := false
  ascii : Bool := false
  verbose : Bool := false
deriving DecidableEq, Repr

inductive CharKind where
  | digit
  | space
  | word
deriving DecidableEq, Repr

namespace CharKind

def holds (kind : CharKind) (ascii : Bool) (c : Char) : Bool :=
  (!ascii || c.toNat < 128) &&
  match kind with
  | digit => Text.isDecimalDigit c
  | space => if ascii then Text.isWhiteSpace c else Text.isBlank c
  | word => Text.isWordChar c

end CharKind

inductive SetItem where
  | char (c : Char)
  | range (lo hi : Char)
  | kind (k : CharKind) (negated : Bool)
deriving DecidableEq, Repr

inductive Anchor where
  | textStart
  | lineStart
  | textEnd
  /-- The end of the text or of its last line. -/
  | lastEnd
  | lineEnd
  | boundary (ascii : Bool)
  | noBoundary (ascii : Bool)
deriving DecidableEq, Repr

inductive Pattern where
  | empty
  | char (flags : PatternFlags) (c : Char)
  | any (dotAll : Bool)
  | set (flags : PatternFlags) (negated : Bool) (items : List SetItem)
  | anchor (a : Anchor)
  | seq (p q : Pattern)
  | alt (p q : Pattern)
  | group (i : Nat) (p : Pattern)
  | loop (greedy : Bool) (least : Nat) (most : Option Nat) (p : Pattern)
  | atomic (p : Pattern)
  | reference (flags : PatternFlags) (i : Nat)
  | ahead (negated : Bool) (p : Pattern)
  /-- Looks at a fixed number of characters before the place. -/
  | behind (negated : Bool) (width : Nat) (p : Pattern)
  | ifGroup (i : Nat) (p q : Pattern)
deriving Repr

namespace Pattern

def sequence : List Pattern → Pattern
  | [] => empty
  | [p] => p
  | p :: rest => seq p (sequence rest)

def alternatives : List Pattern → Pattern
  | [] => empty
  | [p] => p
  | p :: rest => alt p (alternatives rest)

/-- The greater of two widths, where none is no bound. -/
def maxWidth : Option Nat → Option Nat → Option Nat
  | some a, some b => some (max a b)
  | _, _ => none

def addWidth : Option Nat → Option Nat → Option Nat
  | some a, some b => some (a + b)
  | _, _ => none

/-- A bound on a repeated part; a part that is always empty stays so. -/
def repeatWidth : Option Nat → Option Nat → Option Nat
  | some 0, _ => some 0
  | some a, some n => some (a * n)
  | _, _ => none

/-- The least and the greatest number of characters that a pattern matches; what the groups
matched is given for references. -/
def width (groups : List (Nat × Nat × Option Nat)) : Pattern → Nat × Option Nat
  | empty | anchor _ | ahead .. | behind .. => (0, some 0)
  | char .. | any _ | set .. => (1, some 1)
  | seq p q =>
    let (a, b) := width groups p
    let (c, d) := width groups q
    (a + c, addWidth b d)
  | alt p q =>
    let (a, b) := width groups p
    let (c, d) := width groups q
    (min a c, maxWidth b d)
  | group _ p | atomic p => width groups p
  | loop _ least most p =>
    let (a, b) := width groups p
    (a * least, repeatWidth b most)
  | reference _ i => (groups.lookup i).getD (0, none)
  | ifGroup _ p q =>
    let (a, b) := width groups p
    let (c, d) := width groups q
    (min a c, maxWidth b d)

end Pattern
end Flowgraph
