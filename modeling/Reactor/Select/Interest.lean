import Reactor.Handle.Basic

/-! What sockets wait for, and which of them are ready. -/

namespace Reactor

/-- What one socket waits for. A socket without a descriptor of the system counts as ready. -/
structure Interest where
  handle : SocketHandle
  fd : Option Nat
  read : Bool
  write : Bool
  deriving DecidableEq, Repr

/-- The sockets that became ready, each list in the order of the interests. -/
structure Readiness where
  read : List SocketHandle
  write : List SocketHandle
  deriving DecidableEq, Repr

namespace Readiness

def none : Readiness := ⟨[], []⟩

def isEmpty (r : Readiness) : Bool := r.read.isEmpty && r.write.isEmpty

/-- Forgets what has been reported, so that the lists can be filled again. -/
def clear (_ : Readiness) : Readiness := none

end Readiness

end Reactor
