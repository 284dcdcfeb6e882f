import Reactor.Host

/-! The record of what a run does, in order. -/

namespace Reactor

/-- A place in the chain of hooks. -/
inductive Link (H : Type) where
  /-- The handler of the socket itself. -/
  | own (handler : H)
  /-- One of the handlers of the executor. -/
  | shared (handler : H)
  /-- The admission policy. -/
  | policy
  deriving DecidableEq

/-- How far along a socket was when something was done with it. -/
structure Standing where
  running : Bool
  complete : Bool
  deriving DecidableEq, Repr

/-- A call of a socket, with what it came to where that is of interest. -/
inductive SocketCall where
  | connect (address : String)
  | pollConnect
  | read (outOfBand : Bool)
  | write (data : Bytes) (outOfBand : Bool) (accepted : Option Nat)
  deriving DecidableEq, Repr

/-- One thing that a run does. -/
inductive Deed (S H : Type) where
  | policyStarted
  | policyFinished
  | decided (handle : SocketHandle) (decision : Decision)
  | called (handle : SocketHandle) (standing : Standing) (call : SocketCall)
  /-- An event is given to the chain. -/
  | raised (handle : SocketHandle) (standing : Standing) (payload : Payload S)
  /-- A fault is given to the chain. -/
  | reported (handle : SocketHandle) (standing : Standing) (error : SocketError)
      (event : Option EventKind)
  /-- A link of the chain has run. -/
  | heard (handle : SocketHandle) (link : Link H) (requests : List (Request S))
      (verdict : Ending HandlerError Unit)
  | selected (interests : List Interest) (result : Except IoError Readiness)
  | closed (handle : SocketHandle)
  /-- A client that nobody took was closed on behalf of its listener. -/
  | dismissed (listener : SocketHandle)

def Descriptor.standing {S H : Type} (d : Descriptor S H) : Standing :=
  ⟨d.running, d.isComplete⟩

end Reactor
