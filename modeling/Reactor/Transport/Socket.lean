import Reactor.Transport.Datagram
import Reactor.Transport.Listener

/-! The transports of this library as one kind of socket, and the factory that chooses between them. -/

namespace Reactor

inductive Transport where
  | stream (socket : StreamSocket)
  | datagram (socket : DatagramSocket)
  | listener (socket : ListenerSocket)

/-- An answer of a particular kind of socket as one of another. -/
def SocketAnswer.lift {W S T α β : Type} (a : SocketAnswer W S α) (wrap : S → T) (f : α → β) :
    SocketAnswer W T β :=
  ⟨a.ending.map f, wrap a.socket, a.world, a.stop⟩

namespace ReadOutcome

/-- Changes the client that was accepted. -/
def mapClient {S T : Type} (f : S → T) : ReadOutcome S → ReadOutcome T
  | .pending snapshot => .pending snapshot
  | .frame message => .frame message
  | .accepted client address => .accepted (f client) address

end ReadOutcome

namespace Transport

variable {K : Type} [SystemCalls K]

def isOpen : Transport → Bool
  | stream s => s.isOpen
  | datagram s => s.isOpen
  | listener s => s.isOpen

/-- Only streams can be open without being connected. -/
def isConnected : Transport → Bool
  | stream s => s.isConnected
  | datagram s => s.isOpen
  | listener s => s.isOpen

def isServer : Transport → Bool
  | stream _ | datagram _ => false
  | listener _ => true

def rawFd : Transport → Option Nat
  | stream s => s.rawFd
  | datagram s => s.fd
  | listener s => s.rawFd

def connect (k : K) (t : Transport) (address : String) : SocketAnswer K Transport Unit :=
  match t with
  | stream s => (s.connect k address).lift stream id
  | datagram s => (s.connect k address).lift datagram id
  | listener s => (s.connect k address).lift listener id

def pollConnect (k : K) (t : Transport) : SocketAnswer K Transport Bool :=
  match t with
  | stream s => (s.pollConnect k).lift stream id
  | other => ⟨.done other.isConnected, other, k, false⟩

def read (k : K) (t : Transport) (picker : Picker) (outOfBand : Bool) :
    SocketAnswer K Transport (ReadOutcome Transport) × Picker :=
  match t with
  | stream s =>
      let (answer, picker) := s.read k picker outOfBand
      (answer.lift stream .ofReading, picker)
  | datagram s =>
      let (answer, picker) := s.read k picker outOfBand
      (answer.lift datagram .ofReading, picker)
  | listener s => ((s.read k picker).lift listener (.mapClient stream), picker)

def write (k : K) (t : Transport) (data : Bytes) (outOfBand : Bool) :
    SocketAnswer K Transport Nat :=
  match t with
  | stream s => (s.write k data outOfBand).lift stream id
  | datagram s => (s.write k data outOfBand).lift datagram id
  | listener s => ⟨.cut ListenerSocket.noWrite, listener s, k, false⟩

def close (k : K) (t : Transport) : Transport × K :=
  match t with
  | stream s => let (s, k) := s.close k; (stream s, k)
  | datagram s => let (s, k) := s.close k; (datagram s, k)
  | listener s => let (s, k) := s.close k; (listener s, k)

/-- The address that a stream or a datagram socket was last opened with. -/
def address : Transport → String
  | stream s => s.address
  | datagram s => s.address
  | listener _ => ""

/-- The transports as sockets of a run. -/
def rules : SocketRules K Transport where
  isOpen _ := isOpen
  isConnected _ := isConnected
  isServer _ := isServer
  rawFd _ := rawFd
  connect := connect
  pollConnect := pollConnect
  read k t picker _ outOfBand := t.read k picker outOfBand
  write := write
  close := close

end Transport

/-- Makes transports that share their settings. They are opened later. -/
structure SocketFactory where
  config : TransportConfig

namespace SocketFactory

/-- The socket of a client that fits the scheme of an address. -/
def client (f : SocketFactory) (address : String) : Except SocketError Transport :=
  (Address.parse address).map fun target =>
    if target.isDatagram then .datagram (.new f.config) else .stream (.new f.config)

/-- The socket of a listener at an address. -/
def server (f : SocketFactory) (address : String) : Except SocketError Transport := do
  let target ← Address.parse address
  if target.isDatagram then throw (.unsupported "listening on a datagram address")
  return .listener (.new f.config)

end SocketFactory

end Reactor
