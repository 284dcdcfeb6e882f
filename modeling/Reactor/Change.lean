import Reactor.Operation
import Reactor.Context
import Reactor.Control
import Reactor.Descriptor

/-!
What handlers ask for while they run. A stop takes effect at once; changes of the registry are
queued, in the order in which they were asked for, and applied at the beginning of the next tick.
-/

namespace Reactor

/-- A socket that a handler has registered. -/
structure Registration (S : Type) where
  handle : SocketHandle
  socket : S
  operation : Operation
  metadata : Metadata
  deriving DecidableEq

/-- A queued change of the registry. -/
inductive Change (S : Type) where
  | register (registration : Registration S)
  | deregister (handle : SocketHandle)
  | setOperation (handle : SocketHandle) (operation : Operation)
  deriving DecidableEq

/-- What a handler may ask for. -/
inductive Request (S : Type) where
  | stop
  | register (socket : S) (operation : Operation) (metadata : Metadata)
  | deregister (handle : SocketHandle)
  | setOperation (handle : SocketHandle) (operation : Operation)

def Registration.describe {S : Type} (r : Registration S) : String :=
  Text.record "Registration"
    [("handle", r.handle.describe), ("operation", Text.quoted r.operation.kind)]

namespace Change

variable {S : Type}

def handle : Change S → SocketHandle
  | register r => r.handle
  | deregister h => h
  | setOperation h _ => h

def registration? : Change S → Option (Registration S)
  | register r => some r
  | _ => none

def describe : Change S → String
  | register r => Text.tuple "Register" [r.describe]
  | deregister h => Text.tuple "Deregister" [h.describe]
  | setOperation h o => Text.tuple "SetOperation" [h.describe, o.describe]

end Change

/-- What a handler can reach while it runs: the values of the run, its control, the queue of
changes, and the handle that the next registration will get. -/
structure RunContext (S : Type) where
  context : ExecutionContext
  control : RunControl
  changes : List (Change S)
  nextHandle : SocketHandle

namespace RunContext

variable {S : Type}

/-- Puts a change at the end of the queue. -/
def push (c : RunContext S) (change : Change S) : RunContext S :=
  { c with changes := c.changes ++ [change] }

def grant (c : RunContext S) : Request S → RunContext S
  | .stop => { c with control := c.control.requestStop.2 }
  | .register socket operation metadata =>
      { c.push (.register ⟨c.nextHandle, socket, operation, metadata⟩) with
        nextHandle := c.nextHandle.succ }
  | .deregister h => c.push (.deregister h)
  | .setOperation h o => c.push (.setOperation h o)

def describe (c : RunContext S) : String :=
  Text.record "RunContext"
    [("context", c.context.describe), ("pending", toString c.changes.length),
      ("stop_requested", Text.flag c.control.stopRequested)]

end RunContext

end Reactor
