import Flowgraph.Pattern.Basic

/-!
# Searching with patterns

Matching tries the ways of a pattern one after the other and goes back when the rest
fails; the first way that succeeds counts. A repeated part that matched nothing is not
tried again at the same place.
-/
namespace Flowgraph.Pattern

/-- A place in a text, with what the groups matched before it. -/
structure Place where
  /-- The characters before the place, the nearest one first. -/
  past : List Char
  rest : List Char
  /-- What the groups matched, the latest first. -/
  groups : List (Nat × List Char) := []

namespace Place

def advance (s : Place) (c : Char) (rest : List Char) : Place :=
  { s with past := c :: s.past, rest }

/-- Moves a number of characters back. -/
def back? (s : Place) : Nat → Option Place
  | 0 => some s
  | n + 1 =>
    match s.past with
    | [] => none
    | c :: past => back? { s with past, rest := c :: s.rest } n

end Place

abbrev Continuation := Place → Option Place

def sameChar (flags : PatternFlags) (a b : Char) : Bool :=
  if !flags.ignoreCase then a == b
  else if flags.ascii then a.toLower == b.toLower
  else Text.foldCase a == Text.foldCase b

def forms (flags : PatternFlags) (c : Char) : List Char :=
  if !flags.ignoreCase then [c]
  else if flags.ascii then [c, c.toLower, c.toUpper]
  else c :: Text.caseForms c

def inItem (flags : PatternFlags) (c : Char) : SetItem → Bool
  | .char d => sameChar flags c d
  | .range lo hi => (forms flags c).any fun d => lo ≤ d && d ≤ hi
  | .kind k negated => k.holds flags.ascii c != negated

def inSet (flags : PatternFlags) (negated : Bool) (items : List SetItem) (c : Char) : Bool :=
  items.any (inItem flags c) != negated

/-- Goes over one character of which a test holds. -/
def one (test : Char → Bool) (s : Place) (k : Continuation) : Option Place :=
  match s.rest with
  | c :: rest => if test c then k (s.advance c rest) else none
  | [] => none

def wordAt (ascii : Bool) : Option Char → Bool
  | some c => CharKind.word.holds ascii c
  | none => false

def anchored (s : Place) : Anchor → Bool
  | .textStart => s.past.isEmpty
  | .lineStart => s.past.isEmpty || s.past.head? == some '\n'
  | .textEnd => s.rest.isEmpty
  | .lastEnd => s.rest.isEmpty || s.rest == ['\n']
  | .lineEnd => s.rest.isEmpty || s.rest.head? == some '\n'
  | .boundary ascii => wordAt ascii s.past.head? != wordAt ascii s.rest.head?
  | .noBoundary ascii =>
    !(s.past.isEmpty && s.rest.isEmpty) && wordAt ascii s.past.head? == wordAt ascii s.rest.head?

/-- Goes over a given text. -/
def expect (same : Char → Char → Bool) : List Char → Place → Option Place
  | [], s => some s
  | c :: text, s =>
    match s.rest with
    | d :: rest => if same c d then expect same text (s.advance d rest) else none
    | [] => none

def sameInReference (flags : PatternFlags) (a b : Char) : Bool :=
  if !flags.ignoreCase then a == b
  else if flags.ascii then a.toLower == b.toLower
  else Text.lowerChar a == Text.lowerChar b

/-- Repeats a part, at most `bound` times more; `last` is how much was left before the last
optional round. -/
def rounds (part : Place → Continuation → Option Place) (greedy : Bool) (least : Nat)
    (most : Option Nat) (k : Continuation) : Nat → Nat → Option Nat → Place → Option Place
  | 0, _, _, s => k s
  | bound + 1, count, last, s =>
    if count < least then
      part s fun s' => rounds part greedy least most k bound (count + 1) last s'
    else
      let left := s.rest.length
      let may := (match most with
        | some n => count < n
        | none => true) && last != some left
      let again (_ : Unit) : Option Place :=
        if may then
          part s fun s' => rounds part greedy least most k bound (count + 1) (some left) s'
        else none
      if greedy then (again ()).or (k s) else (k s).or (again ())

/-- Matches a pattern at a place and then the rest by a continuation. -/
def run : Pattern → Place → Continuation → Option Place
  | empty, s, k => k s
  | char flags c, s, k => one (sameChar flags c) s k
  | any dotAll, s, k => one (fun c => dotAll || c != '\n') s k
  | set flags negated items, s, k => one (inSet flags negated items) s k
  | anchor a, s, k => if anchored s a then k s else none
  | seq p q, s, k => run p s fun s' => run q s' k
  | alt p q, s, k => (run p s k).or (run q s k)
  | group i p, s, k =>
    run p s fun s' =>
      let text := s.rest.take (s.rest.length - s'.rest.length)
      k { s' with groups := (i, text) :: s'.groups }
  | loop greedy least most p, s, k =>
    rounds (run p) greedy least most k (least + s.rest.length + 2) 0 none s
  | atomic p, s, k => (run p s some).bind k
  | reference flags i, s, k =>
    match s.groups.lookup i with
    | some text => (expect (sameInReference flags) text s).bind k
    | none => none
  | ahead negated p, s, k =>
    match run p s some, negated with
    | some s', false => k { s with groups := s'.groups }
    | none, true => k s
    | _, _ => none
  | behind negated width p, s, k =>
    let found := (s.back? width).bind fun s' => run p s' some
    match found, negated with
    | some s', false => k { s with groups := s'.groups }
    | none, true => k s
    | _, _ => none
  | ifGroup i p q, s, k =>
    if (s.groups.lookup i).isSome then run p s k else run q s k

/-- Whether the pattern matches at some place from the given one on. -/
def searchFrom (p : Pattern) (past : List Char) : List Char → Bool
  | [] => (run p { past, rest := [] } some).isSome
  | c :: rest => (run p { past, rest := c :: rest } some).isSome || searchFrom p (c :: past) rest

/-- Whether the pattern matches somewhere in a text. -/
def occursIn (p : Pattern) (text : String) : Bool :=
  searchFrom p [] text.toList

end Flowgraph.Pattern
