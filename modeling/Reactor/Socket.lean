import Reactor.Frame.Assembler
import Reactor.Operation
import Reactor.Registry

/-! Sockets as an executor sees them: rules by which any kind of endpoint answers its calls. -/

namespace Reactor

/-- What a call of a socket's read can yield. A listening socket yields clients. -/
inductive ReadOutcome (S : Type) where
  | pending (snapshot : PartialFrame)
  | frame (frame : Frame)
  | accepted (client : S) (address : String)

namespace ReadOutcome

variable {S : Type}

def ofReading : Reading → ReadOutcome S
  | .pending snapshot => .pending snapshot
  | .frame f => .frame f

def describe : ReadOutcome S → String
  | .pending snapshot => Text.tuple "Partial" [toString snapshot.data.length]
  | .frame f => Text.tuple "Frame" [toString f.data.length]
  | .accepted _ address => "Accepted \x7b address: " ++ Text.quoted address ++ ", .. \x7d"

end ReadOutcome

/-- What a call of a socket gives back: how it ended, the socket and its surroundings after it, and
whether a stop of the run was requested meanwhile. -/
structure SocketAnswer (W S α : Type) where
  ending : Ending SocketError α
  socket : S
  world : W
  stop : Bool

/-- The behaviour of the sockets `S` in the surroundings `W`. No call may block. -/
structure SocketRules (W S : Type) where
  /-- Whether the socket was opened and has not been closed since. -/
  isOpen : W → S → Bool
  isConnected : W → S → Bool
  isServer : W → S → Bool
  /-- The descriptor to poll; without one the socket is always ready. -/
  rawFd : W → S → Option Nat
  /-- Begins to connect to an address; the connection may still be in progress afterwards. -/
  connect : W → S → String → SocketAnswer W S Unit
  /-- Whether a connection in progress has been established. -/
  pollConnect : W → S → SocketAnswer W S Bool
  /-- Feeds what is there into a picker. -/
  read : W → S → Picker → Option PartialFrame → Bool → SocketAnswer W S (ReadOutcome S) × Picker
  /-- Writes as much as is accepted right now, and tells how much that was. -/
  write : W → S → Bytes → Bool → SocketAnswer W S Nat
  close : W → S → S × W

namespace SocketRules

variable {W S : Type}

def describe (rules : SocketRules W S) (world : W) (socket : S) : String :=
  Text.record "Socket"
    [("fd", Text.optional ((rules.rawFd world socket).map toString)),
      ("open", Text.flag (rules.isOpen world socket)),
      ("connected", Text.flag (rules.isConnected world socket))]

end SocketRules

end Reactor
