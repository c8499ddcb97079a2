import Flowgraph.Text.Quoted

/-!
# Errors of a pattern

Why a text is no pattern, and at which character. In a text of several lines the line
and the column are told as well.
-/
namespace Flowgraph

inductive PatternFault where
  | danglingEscape
  | badEscape (text : String)
  | incompleteEscape (text : String)
  | octalRange (text : String)
  | unterminatedSet
  | badRange (lo hi : String)
  | nothingToRepeat
  | multipleRepeat
  | repeatOrder
  | unterminatedGroup
  | unterminatedComment
  | unbalanced
  | patternEnd
  | unknownExtension (text : String)
  | missingName
  | unterminatedName (terminator : String)
  | badName (shown : String)
  | unknownName (shown : String)
  | openGroup
  | sameLookbehind
  | badGroupNumber
  | noGroup (i : Nat)
  | nameTaken (shown : String) (i earlier : Nat)
  | threeBranches
  | lateFlags
  | unknownFlag
  | missing (what : String)
  | badFlags (reason : String)
  | unfixedWidth
deriving DecidableEq, Repr

def PatternFault.reason : PatternFault → String
  | danglingEscape => "bad escape (end of pattern)"
  | badEscape text => "bad escape " ++ text
  | incompleteEscape text => "incomplete escape " ++ text
  | octalRange text => "octal escape value " ++ text ++ " outside of range 0-0o377"
  | unterminatedSet => "unterminated character set"
  | badRange lo hi => "bad character range " ++ lo ++ "-" ++ hi
  | nothingToRepeat => "nothing to repeat"
  | multipleRepeat => "multiple repeat"
  | repeatOrder => "min repeat greater than max repeat"
  | unterminatedGroup => "missing ), unterminated subpattern"
  | unterminatedComment => "missing ), unterminated comment"
  | unbalanced => "unbalanced parenthesis"
  | patternEnd => "unexpected end of pattern"
  | unknownExtension text => "unknown extension ?" ++ text
  | missingName => "missing group name"
  | unterminatedName terminator => "missing " ++ terminator ++ ", unterminated name"
  | badName shown => "bad character in group name " ++ shown
  | unknownName shown => "unknown group name " ++ shown
  | openGroup => "cannot refer to an open group"
  | sameLookbehind => "cannot refer to group defined in the same lookbehind subpattern"
  | badGroupNumber => "bad group number"
  | noGroup i => "invalid group reference " ++ toString i
  | nameTaken shown i earlier =>
    "redefinition of group name " ++ shown ++ " as group " ++ toString i ++ "; was group " ++
      toString earlier
  | threeBranches => "conditional backref with more than two branches"
  | lateFlags => "global flags not at the start of the expression"
  | unknownFlag => "unknown flag"
  | missing what => "missing " ++ what
  | badFlags reason => "bad inline flags: " ++ reason
  | unfixedWidth => "look-behind requires fixed-width pattern"

structure PatternError where
  fault : PatternFault
  position : Option Nat := none
deriving DecidableEq, Repr

/-- The message about a pattern, with the place of the fault. -/
def PatternError.message (pattern : String) (e : PatternError) : String :=
  match e.position with
  | none => e.fault.reason
  | some n =>
    let before := pattern.toList.take n
    let lines :=
      if pattern.toList.contains '\n' then
        let column := (before.reverse.takeWhile (· != '\n')).length + 1
        " (line " ++ toString (before.count '\n' + 1) ++ ", column " ++ toString column ++ ")"
      else ""
    e.fault.reason ++ " at position " ++ toString n ++ lines

end Flowgraph
