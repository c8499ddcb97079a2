import Flowgraph.Failure
import Flowgraph.Settings

/-!
# Sessions

Settings are read when they are first needed and kept from then on; what is noticed on
that occasion is noticed once. Settings that cannot be read fail every task that needs
them.
-/
namespace Flowgraph

structure Session where
  source : Settings.Source
  opened : Bool := false
  notices : List Notice := []

/-- A computation within a session. What it changes stays, even when it fails. -/
abbrev SessionM := ExceptT Failure (StateM Session)

namespace SessionM

def note (notices : List Notice) : SessionM Unit :=
  modify fun s => { s with notices := s.notices ++ notices }

def ofAttempt {α : Type} (x : Attempt α) : SessionM α :=
  ExceptT.mk (pure x)

def ofRemarked {α : Type} (x : Remarked α) : SessionM α := do
  note x.notices
  ofAttempt x.result

instance : MonadLift (Except Failure) SessionM where
  monadLift := ofAttempt

instance : MonadLift (Except Fault) SessionM where
  monadLift x := ofAttempt (ofFault x)

instance : MonadLift Remarked SessionM where
  monadLift := ofRemarked

/-- The settings of the session. -/
def settings : SessionM Settings := do
  let s ← get
  let loaded ← ofAttempt (ofFault (Settings.load s.source))
  if !s.opened then
    set { s with opened := true, notices := s.notices ++ Settings.notices s.source }
  return loaded

def run {α : Type} (task : SessionM α) (s : Session) : Attempt α × Session :=
  (ExceptT.run task).run s

end SessionM
end Flowgraph
