import Reactor.LocalNet.System
import Reactor.Transport.Socket

/-!
Sockets and their peers in a local system. They are known by names, and an address that belongs to a
name is shown by it.
-/

namespace Reactor.LocalNet

/-- The counterpart of a socket, which is not one of the transports itself. -/
inductive Peer where
  /-- The other end of a stream. -/
  | stream (fd : Nat)
  /-- A plain socket for datagrams, with the sender of the last one. -/
  | datagram (fd : Nat) (sender : Option String)

def Peer.fd : Peer → Nat
  | .stream fd | .datagram fd _ => fd

structure Network where
  system : LocalSystem
  config : TransportConfig
  sockets : List (String × Transport)
  peers : List (String × Peer)
  /-- The addresses by name; a later entry hides an earlier one of the same name. -/
  addresses : List (String × String)
  pickers : Array Picker

namespace Network

def empty (system : LocalSystem) (config : TransportConfig) (pickers : Array Picker) : Network :=
  ⟨system, config, [], [], [], pickers⟩

def socket? (n : Network) (name : String) : Option Transport := n.sockets.lookup name

/-- Keeps the socket of a name as it is now, and goes on with a system. -/
def keep (n : Network) (name : String) (t : Transport) (system : LocalSystem) : Network :=
  { n with
    system := system
    sockets := (name, t) :: n.sockets.filter fun entry => entry.1 ≠ name }

/-- A network with one socket that the factory makes for an address. -/
def ofFactory (system : LocalSystem) (config : TransportConfig) (server : Bool)
    (address : String) : Except SocketError Network := do
  let factory : SocketFactory := ⟨config⟩
  let t ← if server then factory.server address else factory.client address
  return (empty system config #[]).keep "" t system

/-- A network with one socket that is connected with a peer. -/
def ofPipe (system : LocalSystem) (config : TransportConfig) (pickers : Array Picker) : Network :=
  let ((a, b), system) := system.pair
  let (s, system) := StreamSocket.accepted .unix a config system
  { (empty system config pickers).keep "" (.stream s) system with peers := [("", .stream b)] }

/-- The address that a name or a text stands for. -/
def resolve (n : Network) (target : String) : String :=
  (n.addresses.lookup target).getD target

/-- Gives a name to a new socket. An earlier one of this name is closed then. -/
def enter (n : Network) (name : String) (t : Transport) (system : LocalSystem) : Network :=
  let system := match n.socket? name with
    | some old => (old.close system).2
    | none => system
  n.keep name t system

/-- A path that nothing has yet. -/
def newPath (n : Network) : String := "/tmp/" ++ toString n.system.endpoints.size

/-! ## How addresses are shown -/

/-- Leaves out the numbers of services behind the address of this host. -/
def withoutServices (text : List Char) : List Char :=
  let host := "127.0.0.1:".toList
  match text with
  | [] => []
  | c :: rest =>
      if host.isPrefixOf text ∧ ((text.drop host.length).head?.map Char.isDigit).getD false then
        host ++ '*' :: (text.drop host.length).dropWhile Char.isDigit
      else c :: withoutServices rest

def shown (n : Network) (address : String) : String :=
  match n.addresses.find? fun entry => entry.2 = address with
  | some entry => "@" ++ entry.1
  | none => if n.addresses.isEmpty then address else String.ofList (withoutServices address.toList)

def shownError (n : Network) : SocketError → SocketError
  | .connect address cause => .connect (n.shown address) cause
  | .invalidAddress text => .invalidAddress (n.shown text)
  | other => other

end Network

end Reactor.LocalNet
