/-!
# Occurrences

A text stands somewhere in another one: in a name that tells of a provider, in a value
that a condition looks into, in a key that is sensitive. The case of letters counts; where
it does not, letters are folded before.
-/
namespace Flowgraph.Text

/-- Whether a text stands somewhere in another. -/
def occursIn (word : List Char) : List Char → Bool
  | [] => word.isEmpty
  | c :: rest => word.isPrefixOf (c :: rest) || occursIn word rest

theorem occursIn_iff {word s : List Char} : occursIn word s = true ↔ word <:+: s := by
  induction s with
  | nil => rw [occursIn, List.isEmpty_iff, List.infix_nil]
  | cons c s ih =>
    rw [occursIn, Bool.or_eq_true, List.isPrefixOf_iff_prefix, ih, List.infix_cons_iff]

end Flowgraph.Text
