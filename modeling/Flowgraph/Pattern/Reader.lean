import Flowgraph.Pattern.Error
import Flowgraph.Pattern.Search
import Flowgraph.Text.Integer

/-!
# Reading patterns

A pattern is read token by token, an escaped character with its backslash being one
token; the next token is looked at before the last one has been dealt with, so a
backslash at the end is found one token early. Every function names the place of a fault
by the characters before it. Repeat counts of any size are read.
-/
namespace Flowgraph.PatternReader

structure Token where
  text : List Char
  position : Nat

def scan (position : Nat) : List Char → List Token
  | [] => []
  | '\\' :: c :: rest => ⟨['\\', c], position⟩ :: scan (position + 2) rest
  | c :: rest => ⟨[c], position⟩ :: scan (position + 1) rest

/-- What has been read of a pattern. -/
structure Reading where
  rest : List Token
  size : Nat
  flags : PatternFlags := {}
  /-- The number of the next group. -/
  next : Nat := 1
  names : List (String × Nat) := []
  /-- The widths of the groups that are closed. -/
  closed : List (Nat × Nat × Option Nat) := []
  /-- Numbers of groups that conditions ask about, with their places. -/
  asked : List (Nat × Nat) := []
  /-- The first group that may not be referred to within a look behind. -/
  limit : Option Nat := none
  /-- Whether some look behind has no fixed width. -/
  unfixed : Bool := false

abbrev ReadM := StateT Reading (Except PatternError)

def fail {α : Type} (fault : PatternFault) (position : Nat) : ReadM α :=
  throw ⟨fault, some position⟩

def peek : ReadM (Option (List Char)) := do
  return (← get).rest.head?.map (·.text)

/-- The place of the next token. -/
def tell : ReadM Nat := do
  let s ← get
  return (s.rest.head?.map (·.position)).getD s.size

def checkDangling (rest : List Token) : ReadM Unit :=
  match rest with
  | ⟨['\\'], position⟩ :: _ => fail .danglingEscape position
  | _ => pure ()

def skip : ReadM Unit := do
  let s ← get
  checkDangling s.rest.tail
  set { s with rest := s.rest.tail }

def take : ReadM (Option (List Char)) := do
  let t ← peek
  skip
  return t

/-- Takes the next token if it is a given character. -/
def accept (c : Char) : ReadM Bool := do
  if (← peek) == some [c] then
    skip
    return true
  else return false

def nextIs (p : Char → Bool) : ReadM Bool := do
  match ← peek with
  | some [c] => return p c
  | _ => return false

/-- Takes at most a number of characters of a class. -/
def takeWhile (p : Char → Bool) : Nat → ReadM (List Char)
  | 0 => return []
  | n + 1 => do
    match ← peek with
    | some [c] =>
      if p c then
        skip
        return c :: (← takeWhile p n)
      else return []
    | _ => return []

def remaining : ReadM Nat := do
  return (← get).rest.length

/-- Takes the text up to a terminator, which is taken too. -/
def takeUntil (terminator : Char) (acc : List Char) : Nat → ReadM (List Char)
  | 0 => return acc
  | fuel + 1 => do
    match ← take with
    | none =>
      if acc.isEmpty then fail .missingName (← tell)
      else fail (.unterminatedName (String.ofList [terminator])) ((← tell) - acc.length)
    | some t =>
      if t == [terminator] then
        if acc.isEmpty then fail .missingName ((← tell) - 1) else return acc
      else takeUntil terminator (acc ++ t) fuel

def takeName (terminator : Char) : ReadM String := do
  return String.ofList (← takeUntil terminator [] ((← remaining) + 1))

/-- Whether a text can be the name of a group. -/
def isName (s : String) : Bool :=
  match s.toList with
  | [] => false
  | c :: rest => Text.isWordChar c && !Text.isDigit c && rest.all Text.isWordChar

def checkName (name : String) : ReadM Unit := do
  if !isName name then fail (.badName (Text.quote name)) ((← tell) - name.length - 1)

/-! ## Escapes -/

def isHex (c : Char) : Bool :=
  (Text.hexValue? c).isSome

def hexValue (s : List Char) : Nat :=
  s.foldl (fun n c => n * 16 + (Text.hexValue? c).getD 0) 0

def isOctal (c : Char) : Bool :=
  '0' ≤ c && c ≤ '7'

def octalValue (s : List Char) : Nat :=
  s.foldl (fun n c => n * 8 + (c.toNat - 48)) 0

def controlEscape? (c : Char) : Option Char :=
  [('a', 7), ('b', 8), ('f', 12), ('n', 10), ('r', 13), ('t', 9), ('v', 11)].lookup c |>.map
    Char.ofNat

def kindEscape? (c : Char) : Option SetItem :=
  [('d', SetItem.kind .digit false), ('D', .kind .digit true), ('s', .kind .space false),
   ('S', .kind .space true), ('w', .kind .word false), ('W', .kind .word true)].lookup c

def shownEscape (c : Char) (more : List Char) : String :=
  String.ofList ('\\' :: c :: more)

/-- The character of an escape with a fixed number of hexadecimal digits. -/
def readHex (start : Nat) (c : Char) (count : Nat) : ReadM Char := do
  let digits ← takeWhile isHex count
  if digits.length ≠ count then fail (.incompleteEscape (shownEscape c digits)) start
  let n := hexValue digits
  if 1114111 < n then fail (.badEscape (shownEscape c digits)) start
  return Char.ofNat n

def hexCount? (c : Char) : Option Nat :=
  [('x', 2), ('u', 4), ('U', 8)].lookup c

def isAsciiLetter (c : Char) : Bool :=
  c.isAlpha

/-- An escape within a set. -/
def readSetEscape (start : Nat) (c : Char) : ReadM SetItem := do
  match controlEscape? c, kindEscape? c, hexCount? c with
  | some d, _, _ => return .char d
  | _, some item, _ => return item
  | _, _, some count => return .char (← readHex start c count)
  | none, none, none =>
    if isOctal c then
      let digits := c :: (← takeWhile isOctal 2)
      if 255 < octalValue digits then
        fail (.octalRange (String.ofList ('\\' :: digits))) start
      return .char (Char.ofNat (octalValue digits))
    else if c.isDigit || isAsciiLetter c then fail (.badEscape (shownEscape c [])) start
    else return .char c

def checkClosed (i position : Nat) : ReadM Unit := do
  if ((← get).closed.lookup i).isNone then fail .openGroup position

def checkLookbehind (i : Nat) : ReadM Unit := do
  match (← get).limit with
  | none => pure ()
  | some limit =>
    checkClosed i (← tell)
    if limit ≤ i then fail .sameLookbehind (← tell)

/-- A reference to a group by its number. -/
def referTo (flags : PatternFlags) (start : Nat) (digits : List Char) : ReadM Pattern := do
  let i := Text.digitsValue digits
  if i < (← get).next then
    checkClosed i start
    checkLookbehind i
    return .reference flags i
  else fail (.noGroup i) (start + 1)

/-- A number after a backslash: the code of a character or the number of a group. -/
def readNumberEscape (flags : PatternFlags) (start : Nat) (c : Char) : ReadM Pattern := do
  if c == '0' then
    return .char flags (Char.ofNat (octalValue (c :: (← takeWhile isOctal 2))))
  else
    let second ← takeWhile Char.isDigit 1
    match second with
    | [d] =>
      if isOctal c && isOctal d && (← nextIs isOctal) then
        let digits := c :: d :: (← takeWhile isOctal 1)
        if 255 < octalValue digits then
          fail (.octalRange (String.ofList ('\\' :: digits))) start
        return .char flags (Char.ofNat (octalValue digits))
      else referTo flags start [c, d]
    | _ => referTo flags start [c]

/-- A part of a sequence, and whether it can be repeated. -/
inductive Part where
  | plain (p : Pattern)
  | anchor (a : Anchor)
  | loop (p : Pattern)

def Part.pattern : Part → Pattern
  | plain p => p
  | anchor a => .anchor a
  | loop p => p

def anchorEscape? (flags : PatternFlags) (c : Char) : Option Anchor :=
  if c == 'A' then some .textStart
  else if c == 'Z' then some .textEnd
  else if c == 'b' then some (.boundary flags.ascii)
  else if c == 'B' then some (.noBoundary flags.ascii)
  else none

def readEscape (flags : PatternFlags) (start : Nat) (c : Char) : ReadM Part := do
  match anchorEscape? flags c, kindEscape? c, controlEscape? c with
  | some a, _, _ => return .anchor a
  | _, some item, _ => return .plain (.set flags false [item])
  | _, _, some d => return .plain (.char flags d)
  | none, none, none =>
    match hexCount? c with
    | some count => return .plain (.char flags (← readHex start c count))
    | none =>
      if c.isDigit then return .plain (← readNumberEscape flags start c)
      else if isAsciiLetter c then fail (.badEscape (shownEscape c [])) start
      else return .plain (.char flags c)

/-! ## Sets -/

/-- One end of a range, or a single item, of a set. -/
def readSetItem (t : List Char) (position : Nat) : ReadM SetItem :=
  match t with
  | ['\\', c] => readSetEscape position c
  | [c] => return .char c
  | _ => return .char '\\'

/-- The items of a set after its opening bracket, the last one first. -/
def readSetItems (opened : Nat) (items : List SetItem) : Nat → ReadM (List SetItem)
  | 0 => fail .unterminatedSet opened
  | fuel + 1 => do
    let position ← tell
    match ← take with
    | none => fail .unterminatedSet opened
    | some t =>
      if t == [']'] && !items.isEmpty then return items
      else
        let first ← readSetItem t position
        if ← accept '-' then
          let position ← tell
          match ← take with
          | none => fail .unterminatedSet opened
          | some u =>
            if u == [']'] then return .char '-' :: first :: items
            else
              let last ← readSetItem u position
              let bad : ReadM (List SetItem) := do
                fail (.badRange (String.ofList t) (String.ofList u))
                  ((← tell) - (t.length + 1 + u.length))
              match first, last with
              | .char lo, .char hi =>
                if hi < lo then bad else readSetItems opened (.range lo hi :: items) fuel
              | _, _ => bad
        else readSetItems opened (first :: items) fuel

def readSet (flags : PatternFlags) (opened : Nat) : ReadM Pattern := do
  let negated ← accept '^'
  let items ← readSetItems opened [] ((← remaining) + 1)
  return .set flags negated items.reverse

/-! ## Repetition -/

/-- The bounds between braces, if they are bounds. -/
def readBounds : ReadM (Option (Nat × Option Nat)) := do
  let saved ← get
  let lo ← takeWhile Char.isDigit (← remaining)
  let hi ← if ← accept ',' then takeWhile Char.isDigit (← remaining) else pure lo
  if ← accept (Char.ofNat 125) then
    let least := if lo.isEmpty then 0 else Text.digitsValue lo
    let most := if hi.isEmpty then none else some (Text.digitsValue hi)
    return some (least, most)
  else
    set saved
    return none

/-- Repeats the last of the parts read so far. -/
def repeatLast (start least : Nat) (most : Option Nat) : List Part → ReadM (List Part)
  | .plain p :: parts => do
    if ← accept '?' then return .loop (.loop false least most p) :: parts
    else if ← accept '+' then return .loop (.atomic (.loop true least most p)) :: parts
    else return .loop (.loop true least most p) :: parts
  | .loop _ :: _ => fail .multipleRepeat start
  | _ => fail .nothingToRepeat start

/-! ## Flags -/

def flagNamed? (f : PatternFlags) (c : Char) : Option PatternFlags :=
  match c with
  | 'i' => some { f with ignoreCase := true }
  | 'm' => some { f with multiline := true }
  | 's' => some { f with dotAll := true }
  | 'x' => some { f with verbose := true }
  | 'a' => some { f with ascii := true }
  | 'u' => some f
  | _ => none

def withoutFlag? (f : PatternFlags) (c : Char) : Option PatternFlags :=
  match c with
  | 'i' => some { f with ignoreCase := false }
  | 'm' => some { f with multiline := false }
  | 's' => some { f with dotAll := false }
  | 'x' => some { f with verbose := false }
  | _ => none

def isFlag (c : Char) : Bool :=
  ['i', 'L', 'm', 's', 'x', 'a', 't', 'u'].contains c

/-- The flag that stands next, after others; `what` is missing where none does. -/
def takeFlag (what : String) : ReadM Char := do
  match ← take with
  | none => fail (.missing what) (← tell)
  | some [c] =>
    if isFlag c || c == ')' || c == '-' || c == ':' then return c
    else
      let position := (← tell) - 1
      if Text.isAlphanumeric c && !Text.isDigit c then fail .unknownFlag position
      else fail (.missing what) position
  | some t => fail (.missing what) ((← tell) - t.length)

/-- Flags that are turned off, up to the colon. -/
def readOff (f : PatternFlags) (on : List Char) (c : Char) : Nat → ReadM PatternFlags
  | 0 => return f
  | fuel + 1 => do
    match withoutFlag? f c with
    | none =>
      if isFlag c then fail (.badFlags "cannot turn off flags 'a', 'u' and 'L'") (← tell)
      else fail (.missing "flag") ((← tell) - 1)
    | some f =>
      if on.contains c then fail (.badFlags "flag turned on and off") ((← tell) - 1)
      let next ← takeFlag ":"
      if next == ':' then return f
      else if isFlag next then readOff f on next fuel
      else fail (.missing ":") ((← tell) - 1)

/-- Flags that are turned on; none of them is for the group that follows when the list ends
with a parenthesis. -/
def readOn (f : PatternFlags) (on : List Char) (c : Char) : Nat → ReadM (PatternFlags × Bool)
  | 0 => return (f, false)
  | fuel + 1 => do
    if c == ')' then return (f, true)
    else if c == ':' then return (f, false)
    else if c == '-' then
      let first ← takeFlag "flag"
      return (← readOff f on first (← remaining).succ, false)
    else
      if c == 'L' then fail (.badFlags "cannot use 'L' flag with a str pattern") (← tell)
      if (c == 'a' && on.contains 'u') || (c == 'u' && on.contains 'a') then
        fail (.badFlags "flags 'a', 'u' and 'L' are incompatible") (← tell)
      readOn ((flagNamed? f c).getD f) (c :: on) (← takeFlag "-, : or )") fuel

/-! ## Groups and sequences -/

def openGroup (name : Option String) : ReadM Nat := do
  let s ← get
  match name with
  | none => pure ()
  | some name =>
    match s.names.lookup name with
    | some earlier =>
      fail (.nameTaken (Text.quote name) s.next earlier) ((← tell) - (name.length + 1))
    | none => modify fun s => { s with names := (name, s.next) :: s.names }
  modify fun s => { s with next := s.next + 1 }
  return s.next

def closeGroup (i : Nat) (p : Pattern) : ReadM Unit :=
  modify fun s => { s with closed := (i, p.width s.closed) :: s.closed }

def closeParenthesis (start : Nat) : ReadM Unit := do
  if !(← accept ')') then fail .unterminatedGroup start

def skipComment (start : Nat) : Nat → ReadM Unit
  | 0 => fail .unterminatedComment start
  | fuel + 1 => do
    if (← peek).isNone then fail .unterminatedComment start
    if (← take) != some [')'] then skipComment start fuel

def skipLine : Nat → ReadM Unit
  | 0 => pure ()
  | fuel + 1 => do
    match ← take with
    | none => pure ()
    | some t => if t == ['\n'] then pure () else skipLine fuel

/-- The group that a condition asks about. -/
def readAsked : ReadM Nat := do
  let name ← takeName ')'
  let start := (← tell) - name.length - 1
  if isName name then
    match (← get).names.lookup name with
    | some i => return i
    | none => fail (.unknownName (Text.quote name)) start
  else
    match Text.readInteger name.toList with
    | .ok (.ofNat 0) => fail .badGroupNumber start
    | .ok (.ofNat i) =>
      modify fun s => { s with asked := s.asked ++ [(i, start)] }
      return i
    | _ => fail (.badName (Text.quote name)) start

/-- What an opening parenthesis begins. -/
inductive Opening where
  | capture (name : Option String)
  | plain (flags : PatternFlags)
  | atomic
  | ahead (negated : Bool)
  | behind (negated : Bool)
  | condition
  | done (part : Option Pattern)

def readReferenceByName (flags : PatternFlags) : ReadM Opening := do
  let name ← takeName ')'
  checkName name
  let start := (← tell) - name.length - 1
  match (← get).names.lookup name with
  | none => fail (.unknownName (Text.quote name)) start
  | some i =>
    checkClosed i start
    checkLookbehind i
    return .done (some (.reference flags i))

/-- Flags after an opening parenthesis: for the whole pattern or for the group. -/
def readFlags (flags : PatternFlags) (start : Nat) (atStart : Bool) (c : Char) :
    ReadM Opening := do
  let (f, everywhere) ← readOn flags [] c ((← remaining) + 1)
  if everywhere then
    if !atStart then fail .lateFlags start
    modify fun s => { s with flags := f }
    return .done none
  else return .plain f

/-- Reads what follows an opening parenthesis and a question mark. -/
def readExtension (flags : PatternFlags) (start : Nat) (atStart : Bool) : ReadM Opening := do
  let unexpected {α : Type} : ReadM α := do fail .patternEnd (← tell)
  let unknown {α : Type} (before : List Char) (t : List Char) : ReadM α :=
    fail (.unknownExtension (String.ofList (before ++ t))) (start + 1)
  match ← take with
  | none => unexpected
  | some ['P'] =>
    if ← accept '<' then
      let name ← takeName '>'
      checkName name
      return .capture (some name)
    else if ← accept '=' then readReferenceByName flags
    else
      match ← take with
      | none => unexpected
      | some t => unknown ['P'] t
  | some [':'] => return .plain flags
  | some ['#'] =>
    skipComment start ((← remaining) + 1)
    return .done none
  | some ['='] => return .ahead false
  | some ['!'] => return .ahead true
  | some ['<'] =>
    match ← take with
    | none => unexpected
    | some ['='] => return .behind false
    | some ['!'] => return .behind true
    | some t => unknown ['<'] t
  | some ['('] => return .condition
  | some ['>'] => return .atomic
  | some [c] =>
    if isFlag c || c == '-' then readFlags flags start atStart c else unknown [] [c]
  | some t => unknown [] t

mutual

/-- Alternatives up to a closing parenthesis or the end. -/
def readAlternatives (fuel : Nat) (flags : PatternFlags) (outermost : Bool)
    (acc : List Pattern) : ReadM Pattern :=
  match fuel with
  | 0 => return Pattern.alternatives acc.reverse
  | fuel + 1 => do
    let p ← readSequence fuel flags (outermost && acc.isEmpty) []
    let s ← get
    let flags := if outermost then s.flags else flags
    if ← accept '|' then readAlternatives fuel flags outermost (p :: acc)
    else return Pattern.alternatives (p :: acc).reverse

/-- The parts of a sequence, the last one read so far first. -/
def readSequence (fuel : Nat) (flags : PatternFlags) (first : Bool) (parts : List Part) :
    ReadM Pattern :=
  match fuel with
  | 0 => return Pattern.sequence (parts.map Part.pattern).reverse
  | fuel + 1 => do
    let start ← tell
    match ← peek with
    | none | some ['|'] | some [')'] => return Pattern.sequence (parts.map Part.pattern).reverse
    | some t =>
      skip
      match t with
      | ['\\', c] =>
        let part ← readEscape flags start c
        readSequence fuel flags first (part :: parts)
      | ['['] =>
        let p ← readSet flags start
        readSequence fuel flags first (.plain p :: parts)
      | ['('] =>
        let (part, flags) ← readGroup fuel flags start (first && parts.isEmpty)
        readSequence fuel flags first (part.toList.map Part.plain ++ parts)
      | ['.'] => readSequence fuel flags first (.plain (.any flags.dotAll) :: parts)
      | ['^'] =>
        let a := if flags.multiline then Anchor.lineStart else .textStart
        readSequence fuel flags first (.anchor a :: parts)
      | ['$'] =>
        let a := if flags.multiline then Anchor.lineEnd else .lastEnd
        readSequence fuel flags first (.anchor a :: parts)
      | ['?'] => do readSequence fuel flags first (← repeatLast start 0 (some 1) parts)
      | ['*'] => do readSequence fuel flags first (← repeatLast start 0 none parts)
      | ['+'] => do readSequence fuel flags first (← repeatLast start 1 none parts)
      | [c] =>
        if flags.verbose && c.toNat < 128 && Text.isWhiteSpace c then
          readSequence fuel flags first parts
        else if flags.verbose && c == '#' then
          skipLine ((← remaining) + 1)
          readSequence fuel flags first parts
        else if c == Char.ofNat 123 && !(← nextIs (· == Char.ofNat 125)) then
          match ← readBounds with
          | none => readSequence fuel flags first (.plain (.char flags c) :: parts)
          | some (least, most) =>
            if (most.map (decide <| · < least)).getD false then
              fail .repeatOrder (start + 1)
            let parts ← repeatLast start least most parts
            readSequence fuel flags first parts
        else readSequence fuel flags first (.plain (.char flags c) :: parts)
      | _ => readSequence fuel flags first parts

/-- A group after its opening parenthesis, with the flags that hold after it. -/
def readGroup (fuel : Nat) (flags : PatternFlags) (start : Nat) (atStart : Bool) :
    ReadM (Option Pattern × PatternFlags) :=
  match fuel with
  | 0 => return (none, flags)
  | fuel + 1 => do
    let opening ← if ← accept '?' then readExtension flags start atStart else
      pure (.capture none)
    let inner (flags : PatternFlags) : ReadM Pattern := do
      let p ← readAlternatives fuel flags false []
      closeParenthesis start
      return p
    match opening with
    | .capture name =>
      let i ← openGroup name
      let p ← inner flags
      closeGroup i p
      return (some (.group i p), flags)
    | .plain f => return (some (← inner f), flags)
    | .atomic => return (some (.atomic (← inner flags)), flags)
    | .ahead negated => return (some (.ahead negated (← inner flags)), flags)
    | .behind negated =>
      let outer := (← get).limit
      modify fun s => { s with limit := some (outer.getD s.next) }
      let p ← readAlternatives fuel flags false []
      modify fun s => { s with limit := outer }
      closeParenthesis start
      let (least, most) := p.width (← get).closed
      if most ≠ some least then modify fun s => { s with unfixed := true }
      return (some (.behind negated least p), flags)
    | .condition =>
      let i ← readAsked
      checkLookbehind i
      let p ← readSequence fuel flags false []
      let q ← if ← accept '|' then readSequence fuel flags false [] else pure .empty
      if (← peek) == some ['|'] then fail .threeBranches (← tell)
      closeParenthesis start
      return (some (.ifGroup i p q), flags)
    | .done part =>
      let s ← get
      let flags := if part.isNone && atStart then s.flags else flags
      return (part, flags)

end

def checkAsked (asked : List (Nat × Nat)) (groups : Nat) : Except PatternError Unit :=
  match asked.find? fun (i, _) => groups ≤ i with
  | some (i, position) => .error ⟨.noGroup i, some position⟩
  | none => .ok ()

end Flowgraph.PatternReader

namespace Flowgraph.Pattern

open PatternReader in
/-- The pattern that a text is. -/
def read (text : String) : Except PatternError Pattern := do
  let tokens := scan 0 text.toList
  let start : Reading := { rest := tokens, size := text.length }
  let parse : ReadM Pattern := do
    checkDangling tokens
    let p ← readAlternatives (2 * tokens.length + 4) {} true []
    if (← peek).isSome then fail .unbalanced (← tell)
    return p
  let (p, s) ← parse.run start
  checkAsked s.asked s.next
  if s.unfixed then throw ⟨.unfixedWidth, none⟩
  return p

/-- Whether a pattern, given by its text, matches somewhere in another text. -/
def search (pattern text : String) : Except PatternError Bool :=
  (read pattern).map (·.occursIn text)

end Flowgraph.Pattern
