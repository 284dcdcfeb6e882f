/-!
Computations that act on a state and may end early. An early end is either a `cut`, which a caller
can catch and which carries its cause, or a crash, which nobody catches; in both cases the state is
the one that the computation had reached.
-/

namespace Reactor

/-- How a computation ends: with a value, cut short for a stated cause, or by a crash. -/
inductive Ending (ε α : Type) where
  | done (value : α)
  | cut (cause : ε)
  | crashed
  deriving DecidableEq, Repr

namespace Ending

variable {ε ε' α β : Type}

def map (f : α → β) : Ending ε α → Ending ε β
  | done a => done (f a)
  | cut e => cut e
  | crashed => crashed

def mapCut (f : ε → ε') : Ending ε α → Ending ε' α
  | done a => done a
  | cut e => cut (f e)
  | crashed => crashed

def ofExcept : Except ε α → Ending ε α
  | .ok a => done a
  | .error e => cut e

end Ending

/-- A computation on a state `σ` with the causes `ε` of an early end. -/
def Step (σ ε α : Type) : Type :=
  σ → Ending ε α × σ

namespace Step

variable {σ τ ε ε' α β : Type}

def bind (x : Step σ ε α) (f : α → Step σ ε β) : Step σ ε β := fun s =>
  match x s with
  | (.done a, s) => f a s
  | (.cut e, s) => (.cut e, s)
  | (.crashed, s) => (.crashed, s)

instance : Monad (Step σ ε) where
  pure a := fun s => (.done a, s)
  bind := bind

instance : LawfulMonad (Step σ ε) := by
  refine LawfulMonad.mk' _ ?_ ?_ ?_
  · intro α x
    funext s
    show bind x (fun a s => (.done a, s)) s = x s
    unfold bind
    split <;> simp_all
  · intros
    rfl
  · intro α β γ x f g
    funext s
    show bind (bind x f) g s = bind x (fun a => bind (f a) g) s
    unfold bind
    rcases h : x s with ⟨a | e | _, s'⟩ <;> rfl

def get : Step σ ε σ := fun s => (.done s, s)

def modify (f : σ → σ) : Step σ ε Unit := fun s => (.done (), f s)

/-- Ends early for the given cause. -/
def cut (e : ε) : Step σ ε α := fun s => (.cut e, s)

/-- Ends as a computation that has already been run. -/
def conclude (ending : Ending ε α) : Step σ ε α := fun s => (ending, s)

/-- Runs a computation and hands its early end, unless that is a crash, to the caller. -/
def attempt (x : Step σ ε α) : Step σ ε' (Except ε α) := fun s =>
  match x s with
  | (.done a, s) => (.done (.ok a), s)
  | (.cut e, s) => (.done (.error e), s)
  | (.crashed, s) => (.crashed, s)

/-- Restates the cause of an early end. -/
def mapCut (f : ε → ε') (x : Step σ ε α) : Step σ ε' α := fun s =>
  let (ending, s) := x s
  (ending.mapCut f, s)

/-- Runs a computation on a part of the state. -/
def within (part : σ → τ) (replace : τ → σ → σ) (x : Step τ ε α) : Step σ ε α := fun s =>
  let (ending, t) := x (part s)
  (ending, replace t s)

end Step

end Reactor
