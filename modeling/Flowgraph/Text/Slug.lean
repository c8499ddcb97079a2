import Flowgraph.Text.Blank
import Flowgraph.Text.Case

/-!
# Slugs

A slug is one or more groups of lower-case ASCII letters and digits, joined by single
hyphens. Every run of other characters becomes one hyphen; none stands at an end.
-/
namespace Flowgraph.Text

/-- Replaces every run of characters outside a class by one mark. -/
def replaceRuns (keep : Char → Bool) (mark : Char) : List Char → List Char
  | [] => []
  | c :: rest =>
    if keep c then c :: replaceRuns keep mark rest
    else
      match rest with
      | [] => [mark]
      | d :: _ =>
        if keep d then mark :: replaceRuns keep mark rest else replaceRuns keep mark rest

def isSlugChar (c : Char) : Bool :=
  c.isLower || c.isDigit

def slugChars (s : List Char) : List Char :=
  trimBy (· == '-') (replaceRuns isSlugChar '-' (lower s))

/-- The slug of a name, or a fallback where the name has no letters and digits to keep. -/
def slugify (name fallback : String) : String :=
  match slugChars name.toList with
  | [] => fallback
  | slug => String.ofList slug

end Flowgraph.Text
