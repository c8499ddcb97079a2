/-!
# Procedures

A procedure is a computation on a state that may fail at any of its steps; what it has changed
by then stays changed. Whether a failure leaves the state as it was is then a question
about the order of the steps.
-/
namespace Flowgraph

/-- A computation on a state. What it changes stays, even when it fails. -/
abbrev Procedure (σ ε : Type) := ExceptT ε (StateM σ)

namespace Procedure

variable {σ ε α β : Type}

def run (p : Procedure σ ε α) (s : σ) : Except ε α × σ :=
  (ExceptT.run p).run s

/-- A step that neither reads nor changes the state, but may fail. -/
def check (x : Except ε α) : Procedure σ ε α :=
  ExceptT.mk (pure x)

def current : Procedure σ ε σ :=
  get

def change (f : σ → σ) : Procedure σ ε Unit :=
  modify f

@[simp] theorem run_check (x : Except ε α) (s : σ) : (check x).run s = (x, s) := rfl

@[simp] theorem run_current (s : σ) : (current : Procedure σ ε σ).run s = (.ok s, s) := rfl

@[simp] theorem run_change (f : σ → σ) (s : σ) :
    (change f : Procedure σ ε Unit).run s = (.ok (), f s) := rfl

theorem run_bind (p : Procedure σ ε α) (f : α → Procedure σ ε β) (s : σ) :
    (p >>= f).run s =
      match p.run s with
      | (.ok a, t) => (f a).run t
      | (.error e, t) => (.error e, t) := by
  unfold run ExceptT.run StateT.run
  simp only [bind, ExceptT.bind, ExceptT.mk, StateT.bind, ExceptT.bindCont]
  cases p s with
  | mk result t => cases result <;> rfl

theorem run_bind_ok {p : Procedure σ ε α} {s t : σ} {a : α} (h : p.run s = (.ok a, t))
    (f : α → Procedure σ ε β) : (p >>= f).run s = (f a).run t := by
  rw [run_bind, h]

theorem run_bind_error {p : Procedure σ ε α} {s t : σ} {e : ε} (h : p.run s = (.error e, t))
    (f : α → Procedure σ ε β) : (p >>= f).run s = (.error e, t) := by
  rw [run_bind, h]

end Procedure
end Flowgraph
