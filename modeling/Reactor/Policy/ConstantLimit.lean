import Reactor.Event
import Reactor.Policy.Decision

/-!
The policy that bounds the number of sockets in flight. A place is taken when a socket is admitted
and given back when the socket leaves the executor.
-/

namespace Reactor

/-- A bound of at least one, and the number of places taken. -/
structure ConstantLimitPolicy where
  limit : Nat
  inFlight : Nat
  deriving DecidableEq, Repr

namespace ConstantLimitPolicy

/-- A limit of zero is raised to one. -/
def new (limit : Nat) : ConstantLimitPolicy := ⟨max limit 1, 0⟩

/-- At the start of a run all places are free. -/
def atStart (p : ConstantLimitPolicy) : ConstantLimitPolicy := { p with inFlight := 0 }

/-- Takes a place while there is one; otherwise everybody waits for the next tick. -/
def decide (p : ConstantLimitPolicy) : Decision × ConstantLimitPolicy :=
  if p.inFlight < p.limit then (.grant, { p with inFlight := p.inFlight + 1 }) else (.defer, p)

/-- Gives a place back when a socket that holds one leaves. -/
def onEvent {S H : Type} (p : ConstantLimitPolicy) (event : Event S H) : ConstantLimitPolicy :=
  if event.kind = .finalize ∧ event.descriptor.running = true then
    { p with inFlight := p.inFlight - 1 }
  else p

def describe (p : ConstantLimitPolicy) : String :=
  Text.record "ConstantLimitPolicy"
    [("limit", toString p.limit), ("in_flight", toString p.inFlight)]

end ConstantLimitPolicy

end Reactor
