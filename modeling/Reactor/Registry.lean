import Reactor.Descriptor
import Reactor.Error.Basic
import Reactor.Handle.Map

/-! The registered sockets of an executor, in the order of their registration. -/

namespace Reactor

/-- The descriptors by handle. Handles only grow, so the order of handles is that of
registration. -/
abbrev Registry (S H : Type) := HandleMap (Descriptor S H)

namespace Registry

variable {S H : Type}

/-- Adds a descriptor. One that is already there under the same handle keeps its socket and takes
the new operation. -/
def enroll (r : Registry S H) (d : Descriptor S H) : Registry S H :=
  match r.get? d.handle with
  | none => HandleMap.insert r d.handle d
  | some _ =>
      match d.operation with
      | some operation => HandleMap.modify r d.handle (·.setOperation operation)
      | none => r

/-- The descriptor of a handle, or the complaint that there is none. -/
def require (r : Registry S H) (h : SocketHandle) : Except ExecutorError (Descriptor S H) :=
  match r.get? h with
  | some d => .ok d
  | none => .error (.socketNotFound h)

/-- Applies a change to the descriptor of a handle, which has to be there. -/
def update (r : Registry S H) (h : SocketHandle) (f : Descriptor S H → Descriptor S H) :
    Except ExecutorError (Registry S H) :=
  match r.get? h with
  | some _ => .ok (HandleMap.modify r h f)
  | none => .error (.socketNotFound h)

def completed (r : Registry S H) : List SocketHandle :=
  (r.values.filter (·.isComplete)).map (·.handle)

def activeCount (r : Registry S H) : Nat :=
  (r.values.filter fun d => !d.isComplete).length

def describe (r : Registry S H) : String :=
  Text.record "SocketRegistry"
    [("descriptors", Text.mapping (r.entries.map fun e => (e.1.describe, e.2.describe)))]

end Registry

end Reactor
