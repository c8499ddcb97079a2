/-!
# Edge indexes

A list of entries that collects values under keys. The declared keys come first and have
an entry even when nothing is collected for them; other keys are added as they appear.
-/
namespace Flowgraph

abbrev EdgeIndex (β : Type) := List (String × List β)

namespace EdgeIndex

variable {β : Type}

/-- Appends a value to the entry of a key. -/
def add : EdgeIndex β → String → β → EdgeIndex β
  | [], key, b => [(key, [b])]
  | (k, bs) :: rest, key, b => if k = key then (k, bs ++ [b]) :: rest else (k, bs) :: add rest key b

/-- Indexes values by a key of each. -/
def build (declared : List String) (key : β → String) (values : List β) : EdgeIndex β :=
  values.foldl (fun index b => index.add (key b) b) (declared.map (·, []))

def entry (index : EdgeIndex β) (key : String) : List β :=
  (index.lookup key).getD []

end EdgeIndex
end Flowgraph
