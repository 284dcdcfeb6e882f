import Reactor.Transport.Stream

/-!
The ends of datagram connections. One read receives at most one datagram, and the end of the
datagram ends the message; bytes that are left over are kept for the next one.
-/

namespace Reactor

/-- Whether datagrams can be sent to an address. -/
def Address.isDatagram (address : Address) : Bool := address.scheme.isDatagram

structure DatagramSocket where
  /-- The descriptor, while the socket is open. -/
  fd : Option Nat
  /-- The address of the last attempt to open. -/
  address : String
  assembler : FrameAssembler
  config : TransportConfig

namespace DatagramSocket

variable {K : Type} [SystemCalls K]

def new (config : TransportConfig) : DatagramSocket := ⟨none, "", .empty, config⟩

def isOpen (s : DatagramSocket) : Bool := s.fd.isSome

/-- Releases the descriptor and forgets the bytes that were left over. -/
def close (k : K) (s : DatagramSocket) : DatagramSocket × K :=
  let k := match s.fd with
    | some fd => SystemCalls.close k fd
    | none => k
  ({ s with fd := none, assembler := .empty }, k)

/-- Connects. An address that can not be read leaves the socket as it is; any other attempt closes
it first. -/
def connect (k : K) (s : DatagramSocket) (address : String) : SocketAnswer K DatagramSocket Unit :=
  match Address.parse address with
  | .error e => ⟨.cut e, s, k, false⟩
  | .ok target =>
      let (s, k) := s.close k
      let s := { s with address := address }
      if target.isDatagram then
        match SystemCalls.connect k target with
        | (.error e, k) => ⟨.cut (.connect address e), s, k, false⟩
        | (.ok fd, k) => ⟨.done (), { s with fd := some fd }, k, false⟩
      else ⟨.cut (.invalidAddress address), s, k, false⟩

def noUrgentData : SocketError := .unsupported "out-of-band data on a datagram socket"

/-- Reads a message from what is left over and from one datagram. -/
def read (k : K) (s : DatagramSocket) (picker : Picker) (outOfBand : Bool) :
    SocketAnswer K DatagramSocket Reading × Picker :=
  match s.fd, outOfBand with
  | none, _ => (⟨.cut .notOpen, s, k, false⟩, picker)
  | some _, true => (⟨.cut noUrgentData, s, k, false⟩, picker)
  | some fd, false =>
      let a := s.assembler.assemble picker
        (DatagramSource.mk k fd s.config.datagramBufferSize false)
      (⟨a.ending, { s with assembler := a.assembler }, a.source.system, false⟩, a.picker)

/-- Sends the payload as one datagram. -/
def write (k : K) (s : DatagramSocket) (data : Bytes) (outOfBand : Bool) :
    SocketAnswer K DatagramSocket Nat :=
  match s.fd, outOfBand with
  | none, _ => ⟨.cut .notOpen, s, k, false⟩
  | some _, true => ⟨.cut noUrgentData, s, k, false⟩
  | some fd, false =>
      let (result, k) := SystemCalls.send k fd data
      ⟨StreamSocket.ofSent result, s, k, false⟩

end DatagramSocket

end Reactor
