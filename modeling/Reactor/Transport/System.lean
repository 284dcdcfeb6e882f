import Reactor.Bytes
import Reactor.Error.Io
import Reactor.Net.Address

/-! The calls of the operating system on which the transports are built. -/

namespace Reactor

/-- A system that answers calls. Descriptors are numbers. No call waits: one that would have to says
so. A call that is interrupted is made again, unless it receives urgent data or a datagram. -/
class SystemCalls (K : Type) where
  /-- Begins to connect to an address, and yields the descriptor of the connection. -/
  connect : K → Address → Except IoError Nat × K
  /-- The error that a connection has run into, which is forgotten then. -/
  takeError : K → Nat → Except IoError (Option IoError) × K
  /-- The address at the other end of a connection. -/
  peerName : K → Nat → Except IoError String
  setNoDelay : K → Nat → Except IoError Unit × K
  /-- Receives at most so many bytes of a stream; none at its end. -/
  receive : K → Nat → Nat → Except IoError Bytes × K
  /-- Receives at most so many bytes of the urgent data of a stream. -/
  receiveUrgent : K → Nat → Nat → Except IoError Bytes × K
  /-- Receives a datagram, cut off after so many bytes, and tells where it came from. -/
  receiveFrom : K → Nat → Nat → Except IoError (Bytes × String) × K
  /-- Sends bytes, and tells how many were taken. -/
  send : K → Nat → Bytes → Except IoError Nat × K
  sendUrgent : K → Nat → Bytes → Except IoError Nat × K
  /-- Ends a stream in both directions. -/
  shutdown : K → Nat → K
  close : K → Nat → K
  /-- Listens at an internet address, with room for so many waiting clients. -/
  listen : K → Net.SocketAddress → Int → Except IoError Nat × K
  /-- The address that a listener is bound to. -/
  localName : K → Nat → Except IoError String
  /-- Listens at a path. -/
  listenAt : K → String → Except IoError Nat × K
  pathExists : K → String → Bool
  removePath : K → String → Except IoError Unit × K
  /-- Takes a waiting client of a listener, and tells where it came from. -/
  accept : K → Nat → Except IoError (Nat × String) × K
  /-- How many bytes can be received of a stream without waiting. -/
  waiting : K → Nat → Nat
  receive_lt (k : K) (fd size : Nat) (bytes : Bytes) :
    (receive k fd size).1 = .ok bytes → bytes ≠ [] → waiting (receive k fd size).2 fd < waiting k fd
  receiveUrgent_lt (k : K) (fd size : Nat) (bytes : Bytes) :
    (receiveUrgent k fd size).1 = .ok bytes → bytes ≠ [] →
      waiting (receiveUrgent k fd size).2 fd < waiting k fd

end Reactor
