import Reactor.LocalNet.Endpoint
import Reactor.LocalNet.FileTree
import Reactor.Text.Utf8
import Reactor.Transport.System

/-!
A system of its own, in which sockets reach each other by paths at once and completely. None of its
interfaces to the internet is in use: one can listen there, but nobody can be reached.
-/

namespace Reactor.LocalNet

structure LocalSystem where
  endpoints : Array Endpoint
  /-- Where paths lead to. -/
  files : FileTree
  /-- The number of the service that the next listener without one gets. -/
  nextService : UInt16

namespace LocalSystem

def empty : LocalSystem := ⟨#[], .initial, 40000⟩

def endpoint (s : LocalSystem) (fd : Nat) : Endpoint := s.endpoints[fd]?.getD .closed

/-- Replaces what a descriptor stands for. -/
def put (s : LocalSystem) (fd : Nat) (e : Endpoint) : LocalSystem :=
  { s with endpoints := s.endpoints.setIfInBounds fd e }

def create (s : LocalSystem) (e : Endpoint) : Nat × LocalSystem :=
  (s.endpoints.size, { s with endpoints := s.endpoints.push e })

/-- Changes the end of a stream; a descriptor of anything else is left alone. -/
def modifyStream (s : LocalSystem) (fd : Nat) (f : StreamEnd → StreamEnd) : LocalSystem :=
  match s.endpoint fd with
  | .stream e => s.put fd (.stream (f e))
  | _ => s

/-- Two ends of a stream that are connected with each other. -/
def pair (s : LocalSystem) : (Nat × Nat) × LocalSystem :=
  let (a, s) := s.create (.stream (.new (s.endpoints.size + 1)))
  let (b, s) := s.create (.stream (.new a))
  ((a, b), s)

/-- Why no socket can have a path, if that is so. -/
def pathDefect? (path : String) : Option IoError :=
  if path.toList.contains '\x00' then some (.other "paths must not contain interior null bytes")
  else if 108 ≤ (Text.Utf8.encode path).length then
    some (.other "path must be shorter than SUN_LEN")
  else none

/-- The socket at a path. Nobody answers at a directory or a file of another kind. -/
def find (s : LocalSystem) (path : String) : Except IoError (Nat × Endpoint) :=
  match pathDefect? path with
  | some e => .error e
  | none =>
      match s.files.find path with
      | .error e => .error e
      | .ok (.socket fd) => .ok (fd, s.endpoint fd)
      | .ok .directory | .ok .file => .error (.system .connectionRefused)

/-- Connects a stream to the listener at a path. -/
def connectStream (s : LocalSystem) (path : String) : Except IoError Nat × LocalSystem :=
  match s.find path with
  | .error e => (.error e, s)
  | .ok (fd, .listener place clients) =>
      let ((a, b), s) := s.pair
      (.ok a, s.put fd (.listener place (clients ++ [b])))
  | .ok (_, .datagram ..) => (.error (.system .wrongProtocol), s)
  | .ok (_, .stream _) | .ok (_, .closed) => (.error (.system .connectionRefused), s)

/-- Connects a socket for datagrams to the one at a path. -/
def connectDatagram (s : LocalSystem) (path : String) : Except IoError Nat × LocalSystem :=
  match s.find path with
  | .error e => (.error e, s)
  | .ok (fd, .datagram ..) =>
      let (a, s) := s.create (.datagram [] (some fd))
      (.ok a, s)
  | .ok (_, .closed) => (.error (.system .connectionRefused), s)
  | .ok (_, .stream _) | .ok (_, .listener ..) => (.error (.system .wrongProtocol), s)

/-- The address of version 4 that an address is or stands for. -/
def ipv4? : Net.SocketAddress → Option Net.Ipv4
  | .v4 ip _ => some ip
  | .v6 ip _ _ => ip.mapped?

/-- Why an internet address can not be reached. No address of version 6 is the system's own, so there
would be no sender; the unspecified address of version 4 stands for the system itself, which has no
address there either. -/
def unreachable (address : Net.SocketAddress) : Errno :=
  match ipv4? address with
  | none => .addressNotAvailable
  | some ip => if ip = ⟨0, 0, 0, 0⟩ then .invalidArgument else .networkUnreachable

def connect (s : LocalSystem) : Address → Except IoError Nat × LocalSystem
  | .tcp target | .udp target => (.error (.system (unreachable target)), s)
  | .unix path => s.connectStream path
  | .udg path => s.connectDatagram path

/-- Receives of a stream: what is there, the report of a reset, or the end, in this order. -/
def receive (s : LocalSystem) (fd size : Nat) : Except IoError Bytes × LocalSystem :=
  match s.endpoint fd with
  | .stream e =>
      if e.incoming ≠ [] then
        (.ok (e.incoming.take size),
          s.put fd (.stream { e with incoming := e.incoming.drop size }))
      else if e.reset then
        (.error (.system .connectionReset), s.put fd (.stream { e with reset := false }))
      else if e.ended then (.ok [], s)
      else (.error (.system .again), s)
  | _ => (.error (.system .notConnected), s)

/-- Receives a datagram. The sockets here that send datagrams have no path of their own. -/
def receiveFrom (s : LocalSystem) (fd size : Nat) :
    Except IoError (Bytes × String) × LocalSystem :=
  match s.endpoint fd with
  | .datagram (d :: rest) target =>
      (.ok (d.take size, ""), s.put fd (.datagram rest target))
  | .datagram [] _ => (.error (.system .again), s)
  | _ => (.error (.system .notConnected), s)

def send (s : LocalSystem) (fd : Nat) (data : Bytes) : Except IoError Nat × LocalSystem :=
  match s.endpoint fd with
  | .stream e =>
      if e.canSend then
        (.ok data.length,
          s.modifyStream e.other fun o => { o with incoming := o.incoming ++ data })
      else (.error (.system .brokenPipe), s)
  | .datagram _ (some target) =>
      match s.endpoint target with
      | .datagram waiting onward =>
          (.ok data.length, s.put target (.datagram (waiting ++ [data]) onward))
      | _ => (.error (.system .connectionRefused), s)
  | _ => (.error (.system .notConnected), s)

/-- Stops sending at one end of a stream. -/
def endSending (s : LocalSystem) (fd : Nat) : LocalSystem :=
  match s.endpoint fd with
  | .stream e =>
      (s.put fd (.stream { e with canSend := false })).modifyStream e.other StreamEnd.otherEnded
  | _ => s

/-- Ends a stream in both directions. -/
def shutdown (s : LocalSystem) (fd : Nat) : LocalSystem :=
  match s.endpoint fd with
  | .stream e =>
      (s.put fd (.stream { e with canSend := false, ended := true })).modifyStream e.other
        (·.otherClosed false)
  | _ => s

def closeStream (s : LocalSystem) (fd : Nat) (unread : StreamEnd → Bool) : LocalSystem :=
  match s.endpoint fd with
  | .stream e => (s.put fd .closed).modifyStream e.other (·.otherClosed (unread e))
  | _ => s

/-- Closes a descriptor. The clients that wait at a listener are turned away. -/
def close (s : LocalSystem) (fd : Nat) : LocalSystem :=
  match s.endpoint fd with
  | .stream _ => s.closeStream fd fun e => !e.incoming.isEmpty
  | .listener _ clients =>
      (clients.foldl (fun s client => s.closeStream client fun _ => true) s).put fd .closed
  | .datagram .. => s.put fd .closed
  | .closed => s

/-- Whether one can listen at an internet address. While no interface is in use, any address of
version 4 counts as the system's own, and of version 6 the unspecified one alone. -/
def canListen (address : Net.SocketAddress) : Bool :=
  match address with
  | .v4 .. => true
  | .v6 ip _ _ => ip.mapped?.isSome || ip.groups.all (· == 0)

/-- Whether a listener is in the way of one at an address. -/
def occupies (address : Net.SocketAddress) : Endpoint → Bool
  | .listener (.internet other) _ => other.service = address.service
  | _ => false

/-- Gives an address the number of a service, if it has none yet. -/
def withService (address : Net.SocketAddress) (service : UInt16) : Net.SocketAddress :=
  if address.service ≠ 0 then address
  else match address with
    | .v4 ip _ => .v4 ip service
    | .v6 ip _ scope => .v6 ip service scope

def listen (s : LocalSystem) (address : Net.SocketAddress) : Except IoError Nat × LocalSystem :=
  if !canListen address then (.error (.system .addressNotAvailable), s)
  else if s.endpoints.any (occupies address) then (.error (.system .addressInUse), s)
  else
    let (fd, s) := s.create (.listener (.internet (withService address s.nextService)) [])
    (.ok fd, { s with nextService := s.nextService + 1 })

/-- Gives a new socket a path. -/
def bindAt (s : LocalSystem) (path : String) (e : Endpoint) : Except IoError Nat × LocalSystem :=
  match pathDefect? path with
  | some error => (.error error, s)
  | none =>
      match s.files.add path (.socket s.endpoints.size) with
      | .error error => (.error error, s)
      | .ok files =>
          let (fd, s) := s.create e
          (.ok fd, { s with files := files })

def removePath (s : LocalSystem) (path : String) : Except IoError Unit × LocalSystem :=
  match s.files.remove path with
  | .error e => (.error e, s)
  | .ok files => (.ok (), { s with files := files })

def accept (s : LocalSystem) (fd : Nat) : Except IoError (Nat × String) × LocalSystem :=
  match s.endpoint fd with
  | .listener place (client :: rest) => (.ok (client, ""), s.put fd (.listener place rest))
  | .listener _ [] => (.error (.system .again), s)
  | _ => (.error (.system .invalidArgument), s)

theorem endpoint_put (s : LocalSystem) (fd : Nat) (e : Endpoint)
    (h : s.endpoint fd ≠ .closed) : (s.put fd e).endpoint fd = e := by
  unfold endpoint at h ⊢
  unfold put
  cases hfd : s.endpoints[fd]? with
  | none => simp [hfd] at h
  | some x =>
      have hlt : fd < s.endpoints.size := by
        rcases Array.getElem?_eq_some_iff.1 hfd with ⟨hlt, _⟩
        exact hlt
      simp [hlt]

theorem receive_lt (s : LocalSystem) (fd size : Nat) (bytes : Bytes)
    (h : (s.receive fd size).1 = .ok bytes) (hne : bytes ≠ []) :
    ((s.receive fd size).2.endpoint fd).waiting < (s.endpoint fd).waiting := by
  unfold receive at h ⊢
  cases he : s.endpoint fd with
  | stream e =>
      simp only [he] at h ⊢
      split at h
      · rename_i hin
        rw [if_pos hin]
        dsimp only
        rw [endpoint_put _ _ _ (by simp [he])]
        have hsize : size ≠ 0 := by
          rintro rfl
          exact hne (Except.ok.inj h).symm
        have := List.length_pos_iff.2 hin
        simp only [Endpoint.waiting, List.length_drop]
        omega
      · split at h
        · cases h
        · split at h
          · simp_all
          · cases h
  | listener place clients => simp [he] at h
  | datagram waiting target => simp [he] at h
  | closed => simp [he] at h

instance : SystemCalls LocalSystem where
  connect := connect
  takeError s fd :=
    match s.endpoint fd with
    | .stream e =>
        if e.reset then
          (.ok (some (.system .connectionReset)), s.put fd (.stream { e with reset := false }))
        else (.ok none, s)
    | _ => (.ok none, s)
  peerName s fd :=
    match s.endpoint fd with
    | .stream _ => .ok ""
    | _ => .error (.system .notConnected)
  setNoDelay s _ := (.ok (), s)
  receive := receive
  receiveUrgent s _ _ := (.error (.system .operationNotSupported), s)
  receiveFrom := receiveFrom
  send := send
  sendUrgent s _ _ := (.error (.system .operationNotSupported), s)
  shutdown := shutdown
  close := close
  listen s address _ := s.listen address
  localName s fd :=
    match s.endpoint fd with
    | .listener (.internet address) _ => .ok address.text
    | _ => .error (.system .invalidArgument)
  listenAt s path := s.bindAt path (.listener .path [])
  pathExists s path := (s.files.find path).toBool
  removePath := removePath
  accept := accept
  waiting s fd := (s.endpoint fd).waiting
  receive_lt := receive_lt
  receiveUrgent_lt _ _ _ _ h := by cases h

end LocalSystem

end Reactor.LocalNet
