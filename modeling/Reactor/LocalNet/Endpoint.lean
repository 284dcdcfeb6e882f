import Reactor.Bytes
import Reactor.Net.SocketAddress

/-! What the descriptors of a local network stand for. -/

namespace Reactor.LocalNet

structure StreamEnd where
  /-- The descriptor of the other end. -/
  other : Nat
  /-- What has been sent to this end and not been received yet. -/
  incoming : Bytes
  /-- Whether nothing more will be sent to this end. -/
  ended : Bool
  /-- Whether this end may still send. -/
  canSend : Bool
  /-- Whether the other end was closed with bytes in it; this is reported once. -/
  reset : Bool
  deriving DecidableEq, Repr

namespace StreamEnd

def new (other : Nat) : StreamEnd := ⟨other, [], false, true, false⟩

/-- The end after the other one has stopped sending. -/
def otherEnded (e : StreamEnd) : StreamEnd := { e with ended := true }

/-- The end after the other one has been closed, with or without bytes that nobody received. -/
def otherClosed (e : StreamEnd) (unread : Bool) : StreamEnd :=
  { e with ended := true, canSend := false, reset := e.reset || unread }

end StreamEnd

/-- Where a listener listens. -/
inductive Place where
  | internet (address : Net.SocketAddress)
  | path
  deriving DecidableEq

/-- What a descriptor stands for. -/
inductive Endpoint where
  | stream (streamEnd : StreamEnd)
  /-- A listener, with the ends of the clients that wait to be accepted. -/
  | listener (place : Place) (clients : List Nat)
  /-- A socket for datagrams, with those that wait in it and where it sends to. -/
  | datagram (waiting : List Bytes) (target : Option Nat)
  | closed

/-- The bytes that wait in a stream. -/
def Endpoint.waiting : Endpoint → Nat
  | stream e => e.incoming.length
  | listener .. | datagram .. | closed => 0

end Reactor.LocalNet
