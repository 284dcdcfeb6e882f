/-! Handles: the numbers by which sockets are known. -/

namespace Reactor

/-- The identifier of a registered socket. Handles are given out in increasing order and never
again, so a handle kept for too long can not denote another socket. Zero denotes no socket. -/
structure SocketHandle where
  number : Nat
  deriving DecidableEq, Repr, Inhabited

namespace SocketHandle

/-- The handle of no socket. -/
def none : SocketHandle := ⟨0⟩

def isNone (h : SocketHandle) : Bool := h.number == 0

/-- The handle that is given out after this one. -/
def succ (h : SocketHandle) : SocketHandle := ⟨h.number + 1⟩

/-- The handle as it is named in messages. -/
def name (h : SocketHandle) : String :=
  if h.isNone then "none" else "#" ++ toString h.number

def describe (h : SocketHandle) : String :=
  if h.isNone then "SocketHandle(NONE)" else "SocketHandle(" ++ toString h.number ++ ")"

end SocketHandle

end Reactor
