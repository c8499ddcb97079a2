/-!
# Ranges of code points

A character property is stored as a list of inclusive ranges.
-/
namespace Flowgraph.Text

def inRanges (ranges : List (Nat × Nat)) (n : Nat) : Bool :=
  ranges.any fun (lo, hi) => lo ≤ n && n ≤ hi

end Flowgraph.Text
