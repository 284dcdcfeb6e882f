import Reactor.Transport.Stream

/-!
Listening sockets. A read accepts one waiting client and hands it out as a connected stream; where
that fails the listener itself stays usable.
-/

namespace Reactor

/-- What a listener listens at. -/
inductive ListeningAt where
  | internet
  | path (path : String)
  deriving DecidableEq, Repr

structure ListenerSocket where
  /-- Where the socket listens and its descriptor, while it is open. -/
  listening : Option (ListeningAt × Nat)
  config : TransportConfig

namespace ListenerSocket

variable {K : Type} [SystemCalls K]

def new (config : TransportConfig) : ListenerSocket := ⟨none, config⟩

def isOpen (s : ListenerSocket) : Bool := s.listening.isSome

def rawFd (s : ListenerSocket) : Option Nat := s.listening.map (·.2)

/-- The address that the listener is bound to, unless it listens at a path. -/
def localAddress? (k : K) (s : ListenerSocket) : Option String :=
  match s.listening with
  | some (.internet, fd) => (SystemCalls.localName k fd).toOption
  | _ => none

/-- Releases the descriptor, and removes the path at which the socket listened. -/
def close (k : K) (s : ListenerSocket) : ListenerSocket × K :=
  let k := match s.listening with
    | some (.path path, fd) => SystemCalls.close (SystemCalls.removePath k path).2 fd
    | some (.internet, fd) => SystemCalls.close k fd
    | none => k
  ({ s with listening := none }, k)

/-- Listens at a path. What an earlier listener has left there is removed. -/
def listenAt (k : K) (path : String) : Except IoError Nat × K :=
  if SystemCalls.pathExists k path then
    match SystemCalls.removePath k path with
    | (.error e, k) => (.error e, k)
    | (.ok (), k) => SystemCalls.listenAt k path
  else SystemCalls.listenAt k path

/-- Takes over the outcome of listening. -/
def settle (s : ListenerSocket) (address : String) (place : ListeningAt)
    (outcome : Except IoError Nat × K) : SocketAnswer K ListenerSocket Unit :=
  match outcome with
  | (.error e, k) => ⟨.cut (.connect address e), s, k, false⟩
  | (.ok fd, k) => ⟨.done (), { s with listening := some (place, fd) }, k, false⟩

/-- Listens. An address that can not be read leaves the listener as it is; any other attempt closes
it first. -/
def connect (k : K) (s : ListenerSocket) (address : String) :
    SocketAnswer K ListenerSocket Unit :=
  match Address.parse address with
  | .error e => ⟨.cut e, s, k, false⟩
  | .ok target =>
      let (s, k) := s.close k
      match target with
      | .tcp place =>
          s.settle address .internet (SystemCalls.listen k place s.config.listenBacklog)
      | .unix path => s.settle address (.path path) (listenAt k path)
      | .udp _ | .udg _ =>
          ⟨.cut (.unsupported "listening on a datagram address"), s, k, false⟩

/-- The kind of the streams that come in. -/
def ListeningAt.streamKind : ListeningAt → StreamKind
  | .internet => .tcp
  | .path _ => .unix

/-- Accepts a client, if one is waiting. -/
def read (k : K) (s : ListenerSocket) (picker : Picker) :
    SocketAnswer K ListenerSocket (ReadOutcome StreamSocket) :=
  match s.listening with
  | none => ⟨.cut .notOpen, s, k, false⟩
  | some (place, fd) =>
      match SystemCalls.accept k fd with
      | (.ok (client, address), k) =>
          let (client, k) := StreamSocket.accepted (ListeningAt.streamKind place) client s.config k
          ⟨.done (.accepted client address), s, k, false⟩
      | (.error e, k) =>
          if e.wouldBlock then ⟨.done (.pending picker.partialFrame), s, k, false⟩
          else ⟨.cut (.accept e), s, k, false⟩

def noWrite : SocketError := .unsupported "write on a listening socket"

end ListenerSocket

end Reactor
