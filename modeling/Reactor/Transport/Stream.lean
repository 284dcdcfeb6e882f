import Reactor.Frame.AnyPicker
import Reactor.Frame.Assembler
import Reactor.Socket
import Reactor.Transport.Config
import Reactor.Transport.Source

/-!
The ends of streams. Opening only begins to connect: the connection is there as soon as the other
end is known. Urgent data travels on `tcp` streams only.
-/

namespace Reactor

inductive StreamKind where
  | tcp | unix
  deriving DecidableEq, Repr

/-- The kind of stream that leads to an address. -/
def StreamKind.ofAddress? : Address → Option StreamKind
  | .tcp _ => some tcp
  | .unix _ => some unix
  | .udp _ | .udg _ => none

structure StreamSocket where
  /-- The kind and the descriptor of the stream, while the socket is open. -/
  stream : Option (StreamKind × Nat)
  isConnected : Bool
  /-- The address of the last attempt to open, or of the other end of an accepted stream. -/
  address : String
  assembler : FrameAssembler
  config : TransportConfig

namespace StreamSocket

variable {K : Type} [SystemCalls K]

def new (config : TransportConfig) : StreamSocket := ⟨none, false, "", .empty, config⟩

def isOpen (s : StreamSocket) : Bool := s.stream.isSome

def rawFd (s : StreamSocket) : Option Nat := s.stream.map (·.2)

/-- The socket of a stream that was accepted. Small segments are not held back if that is wanted
and can be had. -/
def accepted (kind : StreamKind) (fd : Nat) (config : TransportConfig) (k : K) :
    StreamSocket × K :=
  let s := { new config with stream := some (kind, fd), isConnected := true }
  match kind with
  | .unix => (s, k)
  | .tcp =>
      let k := if config.noDelay then (SystemCalls.setNoDelay k fd).2 else k
      match SystemCalls.peerName k fd with
      | .ok name => ({ s with address := "tcp://" ++ name }, k)
      | .error _ => (s, k)

/-- Releases the stream and forgets the bytes that were left over. -/
def close (k : K) (s : StreamSocket) : StreamSocket × K :=
  let k := match s.stream with
    | some (.tcp, fd) => SystemCalls.close (SystemCalls.shutdown k fd) fd
    | some (.unix, fd) => SystemCalls.close k fd
    | none => k
  ({ s with stream := none, isConnected := false, assembler := .empty }, k)

/-- Begins to connect. An address that can not be read leaves the socket as it is; any other
attempt closes it first. -/
def connect (k : K) (s : StreamSocket) (address : String) : SocketAnswer K StreamSocket Unit :=
  match Address.parse address with
  | .error e => ⟨.cut e, s, k, false⟩
  | .ok target =>
      let (s, k) := s.close k
      let s := { s with address := address }
      match StreamKind.ofAddress? target with
      | none => ⟨.cut (.invalidAddress address), s, k, false⟩
      | some kind =>
          match SystemCalls.connect k target with
          | (.error e, k) => ⟨.cut (.connect address e), s, k, false⟩
          | (.ok fd, k) => ⟨.done (), { s with stream := some (kind, fd) }, k, false⟩

/-- What is known of the other end: nothing while the connection is in progress. -/
def hasPeer (k : K) (fd : Nat) : Except IoError Bool :=
  match SystemCalls.peerName k fd with
  | .ok _ => .ok true
  | .error e => if e.connectPending then .ok false else .error e

/-- Marks the stream as connected. -/
def establish (k : K) (s : StreamSocket) (kind : StreamKind) (fd : Nat) :
    SocketAnswer K StreamSocket Bool :=
  let (result, k) :=
    if kind = .tcp ∧ s.config.noDelay then SystemCalls.setNoDelay k fd else (.ok (), k)
  match result with
  | .error e => ⟨.cut (.io e), s, k, false⟩
  | .ok () => ⟨.done true, { s with isConnected := true }, k, false⟩

/-- Asks whether a connection in progress is there. -/
def pollConnect (k : K) (s : StreamSocket) : SocketAnswer K StreamSocket Bool :=
  if s.isConnected then ⟨.done true, s, k, false⟩
  else match s.stream with
    | none => ⟨.done false, s, k, false⟩
    | some (kind, fd) =>
        match SystemCalls.takeError k fd with
        | (.error e, k) | (.ok (some e), k) => ⟨.cut (.connect s.address e), s, k, false⟩
        | (.ok none, k) =>
            match hasPeer k fd with
            | .error e => ⟨.cut (.connect s.address e), s, k, false⟩
            | .ok false => ⟨.done false, s, k, false⟩
            | .ok true => s.establish k kind fd

def noUrgentData : SocketError := .unsupported "out-of-band data on a UNIX stream"

/-- Reads a message with any picker, in chunks of the size that is set. -/
def read {π : Type} [FramePicker π] (k : K) (s : StreamSocket) (picker : π) (outOfBand : Bool) :
    SocketAnswer K StreamSocket Reading × π :=
  match s.stream, outOfBand with
  | none, _ => (⟨.cut .notOpen, s, k, false⟩, picker)
  | some (.unix, _), true => (⟨.cut noUrgentData, s, k, false⟩, picker)
  | some (.tcp, fd), true =>
      let a := s.assembler.assemble picker (UrgentSource.mk k fd s.config.readBufferSize)
      (⟨a.ending, { s with assembler := a.assembler }, a.source.system, false⟩, a.picker)
  | some (_, fd), false =>
      let a := s.assembler.assemble picker (StreamSource.mk k fd s.config.readBufferSize)
      (⟨a.ending, { s with assembler := a.assembler }, a.source.system, false⟩, a.picker)

/-- The answer to a write; where it would have had to wait nothing was written. -/
def ofSent : Except IoError Nat → Ending SocketError Nat
  | .ok n => .done n
  | .error e => if e.wouldBlock then .done 0 else .cut (.io e)

def write (k : K) (s : StreamSocket) (data : Bytes) (outOfBand : Bool) :
    SocketAnswer K StreamSocket Nat :=
  match s.stream, outOfBand with
  | none, _ => ⟨.cut .notOpen, s, k, false⟩
  | some (.unix, _), true => ⟨.cut noUrgentData, s, k, false⟩
  | some (.tcp, fd), true =>
      let (result, k) := SystemCalls.sendUrgent k fd data
      ⟨ofSent result, s, k, false⟩
  | some (_, fd), false =>
      let (result, k) := SystemCalls.send k fd data
      ⟨ofSent result, s, k, false⟩

end StreamSocket

end Reactor
