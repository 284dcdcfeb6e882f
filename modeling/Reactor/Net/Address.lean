import Reactor.Error.Basic
import Reactor.Net.SocketAddress

/-!
Addresses of sockets, written `scheme://target`. The schemes `tcp` and `udp` take a numeric internet
address with the number of a service, `unix` and `udg` a path. Without a scheme an address is one of `tcp`; schemes
are read without regard to the case of ASCII letters.
-/

namespace Reactor

/-- The kinds of connection that an address may ask for. -/
inductive Scheme where
  | tcp | udp | unix | udg
  deriving DecidableEq, Repr

namespace Scheme

def name : Scheme → String
  | tcp => "tcp"
  | udp => "udp"
  | unix => "unix"
  | udg => "udg"

def ofName? (name : String) : Option Scheme :=
  match name with
  | "tcp" => some tcp
  | "udp" => some udp
  | "unix" => some unix
  | "udg" => some udg
  | _ => none

def isDatagram : Scheme → Bool
  | udp | udg => true
  | tcp | unix => false

end Scheme

/-- Where a socket connects to, listens at or sends to. -/
inductive Address where
  | tcp (target : Net.SocketAddress)
  | udp (target : Net.SocketAddress)
  | unix (path : String)
  | udg (path : String)
  deriving DecidableEq

namespace Address

def scheme : Address → Scheme
  | tcp _ => .tcp
  | udp _ => .udp
  | unix _ => .unix
  | udg _ => .udg

def inet? : Address → Option Net.SocketAddress
  | tcp target | udp target => some target
  | unix _ | udg _ => none

def path? : Address → Option String
  | unix path | udg path => some path
  | tcp _ | udp _ => none

/-- The parts before and after the first `://`. -/
def splitScheme : List Char → Option (List Char × List Char)
  | ':' :: '/' :: '/' :: rest => some ([], rest)
  | c :: rest => (splitScheme rest).map fun (before, after) => (c :: before, after)
  | [] => none

/-- The address with a given scheme and target. -/
def ofTarget? (scheme : Scheme) (target : List Char) : Option Address :=
  if target.isEmpty then none
  else match scheme with
    | .tcp => (Net.SocketAddress.parse? target).map tcp
    | .udp => (Net.SocketAddress.parse? target).map udp
    | .unix => some (unix (String.ofList target))
    | .udg => some (udg (String.ofList target))

def parse (text : String) : Except SocketError Address :=
  let (scheme, target) := (splitScheme text.toList).getD ("tcp".toList, text.toList)
  match (Scheme.ofName? (String.ofList (scheme.map Char.toLower))).bind (ofTarget? · target) with
  | some address => .ok address
  | none => .error (.invalidAddress text)

def target : Address → String
  | tcp target | udp target => target.text
  | unix path | udg path => path

def text (address : Address) : String :=
  address.scheme.name ++ "://" ++ address.target

end Address

end Reactor
