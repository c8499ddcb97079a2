import Flowgraph.Rejection
import Flowgraph.Workflow.Issue

/-!
# Failures

The three ways in which an operation can fail: its input is unusable, a document is
invalid, or a workflow cannot be compiled. A remarked computation also collects what
should be noticed on the way, whether it fails or not.
-/
namespace Flowgraph

inductive Failure where
  | fault (cause : Fault)
  | invalid (issues : List Issue)
  | rejected (cause : Rejection)
deriving DecidableEq, Repr

abbrev Attempt (α : Type) := Except Failure α

def ofFault {α : Type} (x : Except Fault α) : Attempt α :=
  x.mapError .fault

def ofChecked {α : Type} (x : Checked α) : Attempt α :=
  x.mapError .invalid

def ofRejection {α : Type} (x : Except Rejection α) : Attempt α :=
  x.mapError .rejected

/-- The result of a computation with its notices in order. -/
structure Remarked (α : Type) where
  result : Attempt α
  notices : List Notice := []

namespace Remarked

def pure {α : Type} (a : α) : Remarked α :=
  ⟨.ok a, []⟩

def bind {α β : Type} (x : Remarked α) (f : α → Remarked β) : Remarked β :=
  match x.result with
  | .ok a => let y := f a; ⟨y.result, x.notices ++ y.notices⟩
  | .error e => ⟨.error e, x.notices⟩

instance : Monad Remarked where
  pure := Remarked.pure
  bind := Remarked.bind

instance : MonadLift (Except Failure) Remarked where
  monadLift x := ⟨x, []⟩

instance : MonadLift (Except Fault) Remarked where
  monadLift x := ⟨ofFault x, []⟩

def note (notices : List Notice) : Remarked Unit :=
  ⟨.ok (), notices⟩

end Remarked
end Flowgraph
